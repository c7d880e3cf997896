import MotionImagery.Text.Numeral
import MotionImagery.Time.Calendar

/-!
Points in time, in a zone at a fixed distance from universal time, and their standard text.
-/
namespace MotionImagery.Time

/-- How far a zone is ahead of universal time, in seconds, and what it is called. -/
structure Zone where
  offset : Int
  name : String
  deriving DecidableEq, Repr

/-- A sign, and hours, minutes and seconds with the marks given. -/
def Zone.parts (offset : Int) : String × Nat × Nat × Nat :=
  let size := offset.natAbs
  (if offset < 0 then "-" else "+", size / 3600, size / 60 % 60, size % 60)

namespace Zone

def utc : Zone := ⟨0, "UTC"⟩

/-- A zone that is called after its offset. -/
def ofOffset (offset : Int) : Zone :=
  let (sign, hours, minutes, seconds) := parts offset
  let clock := sign ++ Text.zeroPadded 2 hours ++ ":" ++ Text.zeroPadded 2 minutes
  ⟨offset, if seconds = 0 then clock else clock ++ ":" ++ Text.zeroPadded 2 seconds⟩

/-- The offset to the nearest minute. -/
def clock (colon : String) (offset : Int) : String :=
  let minutes := (offset.natAbs + 30) / 60
  (if offset < 0 then "-" else "+") ++ Text.zeroPadded 2 (minutes / 60) ++ colon ++
    Text.zeroPadded 2 (minutes % 60)

end Zone

/-- Whole seconds since the epoch, and nanoseconds; from `10 ^ 9` on they are in a leap second. -/
structure Moment where
  seconds : Int
  nanos : Nat
  zone : Zone
  deriving DecidableEq, Repr

namespace Moment

def nanosPerSecond : Nat := 1000000000

def secondsPerDay : Int := 86400

/-- Seconds on the clocks of the zone. -/
def localSeconds (moment : Moment) : Int := moment.seconds + moment.zone.offset

def day (moment : Moment) : Int := moment.localSeconds / secondsPerDay

def date (moment : Moment) : Date := .ofDay moment.day

def secondOfDay (moment : Moment) : Nat := (moment.localSeconds % secondsPerDay).toNat

def hour (moment : Moment) : Nat := moment.secondOfDay / 3600

/-- Twelve, and then from one to eleven. -/
def hour12 (moment : Moment) : Nat := (moment.hour + 11) % 12 + 1

def isAfternoon (moment : Moment) : Bool := decide (12 ≤ moment.hour)

def minute (moment : Moment) : Nat := moment.secondOfDay / 60 % 60

def second (moment : Moment) : Nat := moment.secondOfDay % 60 + moment.nanos / nanosPerSecond

def nanosecond (moment : Moment) : Nat := moment.nanos % nanosPerSecond

/-- Years of four digits have no sign. -/
def yearText (year : Int) : String :=
  let digits := Text.zeroPadded 4 year.natAbs
  if 0 ≤ year ∧ year ≤ 9999 then digits
  else if year < 0 then "-" ++ digits
  else "+" ++ digits

/-- A fraction of a second in three, six or nine places, as many as are needed; none of zero. -/
def fractionText (nanos : Nat) : String :=
  if nanos = 0 then ""
  else if nanos % 1000000 = 0 then "." ++ Text.zeroPadded 3 (nanos / 1000000)
  else if nanos % 1000 = 0 then "." ++ Text.zeroPadded 6 (nanos / 1000)
  else "." ++ Text.zeroPadded 9 nanos

/-- Date and clock in the standard form, with the given text of a fraction and a zone. -/
def standard (fraction zone : String) (moment : Moment) : String :=
  let two := Text.zeroPadded 2
  let date := moment.date
  yearText date.year ++ "-" ++ two date.month ++ "-" ++ two date.day ++ "T" ++
    two moment.hour ++ ":" ++ two moment.minute ++ ":" ++ two moment.second ++ fraction ++ zone

/-- The standard form with the fraction as it is and the zone's offset. -/
def rfc3339 (moment : Moment) : String :=
  moment.standard (fractionText moment.nanosecond) (Zone.clock ":" moment.zone.offset)

end Moment

/-- A point in time in microseconds since the epoch. -/
structure Instant where
  micros : Int
  deriving DecidableEq, Repr

namespace Instant

def microsPerSecond : Int := 1000000

/-- The years that dates may be in. -/
def leastYear : Int := -262143

def greatestYear : Int := 262142

def microsOfDay (day : Int) : Int := day * Moment.secondsPerDay * microsPerSecond

/-- Nothing outside the years that dates may be in. -/
def ofMicros? (micros : Int) : Option Instant :=
  if microsOfDay (firstDay leastYear) ≤ micros ∧ micros < microsOfDay (firstDay (greatestYear + 1))
  then some ⟨micros⟩
  else none

def toMoment (instant : Instant) : Moment :=
  ⟨instant.micros / microsPerSecond, (instant.micros % microsPerSecond * 1000).toNat, .utc⟩

/-- The standard form in universal time, cut to milliseconds. -/
def text (instant : Instant) : String :=
  let moment := instant.toMoment
  moment.standard ("." ++ Text.zeroPadded 3 (moment.nanosecond / 1000000)) "Z"

end Instant

end MotionImagery.Time
