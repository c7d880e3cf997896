/-!
The Gregorian calendar, extended to all years: the date of a day, its place in the year, its weekday,
and its week. Days are counted from the first of January 1970.
-/
namespace MotionImagery.Time

structure Date where
  year : Int
  month : Nat
  day : Nat
  deriving DecidableEq, Repr

/-- Days from the beginning of year zero to the beginning of a year. Every fourth year is a leap
year, but of the full centuries only every fourth. -/
def daysBeforeYear (year : Int) : Int :=
  365 * year + (year + 3) / 4 - (year + 99) / 100 + (year + 399) / 400

/-- The first day that is counted. -/
def epochYear : Int := 1970

/-- The number of a year's first day. -/
def firstDay (year : Int) : Int := daysBeforeYear year - daysBeforeYear epochYear

/-- The months from March to February have 31, 30, 31, 30, 31 days twice, and then what is left;
years begin in March here, so that the leap day is their last. -/
def Date.ofDay (day : Int) : Date :=
  let sinceMarch := day + daysBeforeYear epochYear - 60
  let cycle := sinceMarch / 146097
  let dayOfCycle := (sinceMarch % 146097).toNat
  let yearOfCycle :=
    (dayOfCycle - dayOfCycle / 1460 + dayOfCycle / 36524 - dayOfCycle / 146096) / 365
  let dayOfYear := dayOfCycle - (365 * yearOfCycle + yearOfCycle / 4 - yearOfCycle / 100)
  let monthFromMarch := (5 * dayOfYear + 2) / 153
  let dayOfMonth := dayOfYear - (153 * monthFromMarch + 2) / 5 + 1
  let marchYear := 400 * cycle + yearOfCycle
  if monthFromMarch < 10 then ⟨marchYear, monthFromMarch + 3, dayOfMonth⟩
  else ⟨marchYear + 1, monthFromMarch - 9, dayOfMonth⟩

def yearOfDay (day : Int) : Int := (Date.ofDay day).year

/-- The first day of a year has the number one. -/
def dayOfYear (day : Int) : Nat := (day - firstDay (yearOfDay day)).toNat + 1

/-- Days since Monday; the first day that is counted was a Thursday. -/
def daysSinceMonday (day : Int) : Nat := ((day + 3) % 7).toNat

def daysSinceSunday (day : Int) : Nat := ((day + 4) % 7).toNat

/-- The week of the year when weeks begin on the weekday that was `since` days ago; the days before
the first such weekday are in week zero. -/
def weekOfYear (since day : Int) : Nat := ((dayOfYear day - since + 6) / 7).toNat

/-- A week belongs to the year that its Thursday is in. -/
def isoWeek (day : Int) : Int × Nat :=
  let thursday := day - daysSinceMonday day + 3
  (yearOfDay thursday, (dayOfYear thursday - 1) / 7 + 1)

def monthNames : List String :=
  ["January", "February", "March", "April", "May", "June", "July", "August", "September",
    "October", "November", "December"]

def weekdayNames : List String :=
  ["Monday", "Tuesday", "Wednesday", "Thursday", "Friday", "Saturday", "Sunday"]

/-- The first three letters of a name. -/
def short (name : String) : String := String.ofList (name.toList.take 3)

def monthName (month : Nat) : String := monthNames.getD (month - 1) ""

def weekdayName (day : Int) : String := weekdayNames.getD (daysSinceMonday day) ""

end MotionImagery.Time
