import MotionImagery.Time.Moment

/-!
Patterns for points in time: text with conversions of a percent sign and a letter. A mark between
the two replaces the fill of a number: `-` for none, `0` for zeros, `_` for spaces. A pattern with
an unknown conversion has no meaning at all.
-/
namespace MotionImagery.Time

inductive Fill where
  | none
  | zeros
  | spaces
  deriving DecidableEq, Repr

inductive Quantity where
  | year
  | century
  | yearOfCentury
  | isoYear
  | isoYearOfCentury
  | quarter
  | month
  | day
  | weekFromSunday
  | weekFromMonday
  | isoWeek
  | weekdayFromSunday
  | weekdayFromMonday
  | dayOfYear
  | hour
  | hour12
  | minute
  | second
  | nanosecond
  | timestamp
  deriving DecidableEq, Repr

inductive Conversion where
  | literal (c : Char)
  | number (quantity : Quantity) (fill : Fill)
  | weekdayName
  | shortWeekdayName
  | monthName
  | shortMonthName
  /-- Which half of the day it is. -/
  | halfDay (am pm : String)
  /-- As many places as are needed. -/
  | fraction
  /-- That many places after the mark. -/
  | places (mark : String) (count : Nat)
  | zoneName
  | offsetHours
  /-- Hours and minutes. -/
  | offset (colon : String)
  | offsetSeconds
  | standard
  deriving DecidableEq, Repr

/-- A number under a fill, with its sign where one is asked for. -/
def filled (fill : Fill) (width : Nat) (signed : Bool) (number : Int) : String :=
  let sign := if number < 0 then "-" else if signed then "+" else ""
  let digits := Text.decimal number.natAbs
  let width := if signed then width + 1 else width
  match fill with
  | .none => sign ++ digits
  | .zeros => sign ++ Text.padLeft '0' (width - sign.length) digits
  | .spaces => Text.padLeft ' ' width (sign ++ digits)

/-- Two places for a number below 256; a tens figure above nine is written as the character that
comes that far after the zero. -/
def twoPlaces (fill : Fill) (number : Nat) : String :=
  let tens := number / 10
  let ones := Text.decimal (number % 10)
  match tens, fill with
  | 0, .none => ones
  | 0, .spaces => " " ++ ones
  | _, _ => String.ofList [Char.ofNat ('0'.toNat + tens)] ++ ones

/-- Years of more than four digits, and years before zero, have a sign. -/
def fourPlaces (fill : Fill) (year : Int) : String :=
  filled fill 4 (decide (year < 0 ∨ 10000 ≤ year)) year

namespace Quantity

def write (quantity : Quantity) (fill : Fill) (moment : Moment) : String :=
  let date := moment.date
  let today := moment.day
  match quantity with
  | year => fourPlaces fill date.year
  | century => twoPlaces fill (date.year / 100 % 256).toNat
  | yearOfCentury => twoPlaces fill (date.year % 100).toNat
  | isoYear => fourPlaces fill (Time.isoWeek today).1
  | isoYearOfCentury => twoPlaces fill ((Time.isoWeek today).1 % 100).toNat
  | quarter => Text.decimal ((date.month + 2) / 3)
  | month => twoPlaces fill date.month
  | day => twoPlaces fill date.day
  | weekFromSunday => twoPlaces fill (weekOfYear (daysSinceSunday today) today)
  | weekFromMonday => twoPlaces fill (weekOfYear (daysSinceMonday today) today)
  | isoWeek => twoPlaces fill (Time.isoWeek today).2
  | weekdayFromSunday => Text.decimal (daysSinceSunday today)
  | weekdayFromMonday => Text.decimal (daysSinceMonday today + 1)
  | dayOfYear => filled fill 3 false (Time.dayOfYear today)
  | hour => twoPlaces fill moment.hour
  | hour12 => twoPlaces fill moment.hour12
  | minute => twoPlaces fill moment.minute
  | second => twoPlaces fill moment.second
  | nanosecond => filled fill 9 false moment.nanosecond
  | timestamp => filled fill 9 false moment.seconds

/-- The letter of a number, and how it is filled without a mark. -/
def ofLetter? : Char → Option (Quantity × Fill)
  | 'Y' => some (year, .zeros)
  | 'C' => some (century, .zeros)
  | 'y' => some (yearOfCentury, .zeros)
  | 'G' => some (isoYear, .zeros)
  | 'g' => some (isoYearOfCentury, .zeros)
  | 'q' => some (quarter, .none)
  | 'm' => some (month, .zeros)
  | 'd' => some (day, .zeros)
  | 'e' => some (day, .spaces)
  | 'U' => some (weekFromSunday, .zeros)
  | 'W' => some (weekFromMonday, .zeros)
  | 'V' => some (isoWeek, .zeros)
  | 'w' => some (weekdayFromSunday, .none)
  | 'u' => some (weekdayFromMonday, .none)
  | 'j' => some (dayOfYear, .zeros)
  | 'H' => some (hour, .zeros)
  | 'k' => some (hour, .spaces)
  | 'I' => some (hour12, .zeros)
  | 'l' => some (hour12, .spaces)
  | 'M' => some (minute, .zeros)
  | 'S' => some (second, .zeros)
  | 'f' => some (nanosecond, .zeros)
  | 's' => some (timestamp, .none)
  | _ => none

end Quantity

namespace Conversion

def write (moment : Moment) : Conversion → String
  | literal c => String.ofList [c]
  | number quantity fill => quantity.write fill moment
  | weekdayName => Time.weekdayName moment.day
  | shortWeekdayName => short (Time.weekdayName moment.day)
  | monthName => Time.monthName moment.date.month
  | shortMonthName => short (Time.monthName moment.date.month)
  | halfDay am pm => if moment.isAfternoon then pm else am
  | fraction => Moment.fractionText moment.nanosecond
  | places mark count => mark ++ Text.zeroPadded count (moment.nanosecond / Nat.pow 10 (9 - count))
  | zoneName => moment.zone.name
  | offsetHours =>
    let (sign, hours, _) := Zone.parts moment.zone.offset
    sign ++ Text.zeroPadded 2 hours
  | offset colon => Zone.clock colon moment.zone.offset
  | offsetSeconds =>
    let (sign, hours, minutes, seconds) := Zone.parts moment.zone.offset
    sign ++ Text.zeroPadded 2 hours ++ ":" ++ Text.zeroPadded 2 minutes ++ ":" ++
      Text.zeroPadded 2 seconds
  | standard => moment.rfc3339

def numeral (quantity : Quantity) : Conversion := number quantity .zeros

/-- Conversions with a character between each two. -/
def joined (mark : Char) (conversions : List Conversion) : List Conversion :=
  conversions.intersperse (literal mark)

def clock : List Conversion := joined ':' [numeral .hour, numeral .minute, numeral .second]

def shortDate : List Conversion := joined '/' [numeral .month, numeral .day, numeral .yearOfCentury]

/-- What a letter stands for; some stand for several conversions. -/
def ofLetter? (letter : Char) : Option (List Conversion) :=
  match letter with
  | 'A' => some [weekdayName]
  | 'a' => some [shortWeekdayName]
  | 'B' => some [monthName]
  | 'b' | 'h' => some [shortMonthName]
  | 'p' => some [halfDay "AM" "PM"]
  | 'P' => some [halfDay "am" "pm"]
  | 'D' | 'x' => some shortDate
  | 'F' => some (joined '-' [numeral .year, numeral .month, numeral .day])
  | 'v' => some (joined '-' [number .day .spaces, shortMonthName, numeral .year])
  | 'R' => some (joined ':' [numeral .hour, numeral .minute])
  | 'T' | 'X' => some clock
  | 'r' =>
    some (joined ':' [numeral .hour12, numeral .minute, numeral .second] ++
      [literal ' ', halfDay "AM" "PM"])
  | 'c' =>
    some (joined ' ' [shortWeekdayName, shortMonthName, number .day .spaces] ++
      literal ' ' :: clock ++ [literal ' ', numeral .year])
  | 'Z' => some [zoneName]
  | 'z' => some [offset ""]
  | '+' => some [standard]
  | 'n' => some [literal '\n']
  | 't' => some [literal '\t']
  | '%' => some [literal '%']
  | _ => (Quantity.ofLetter? letter).map fun (quantity, fill) => [number quantity fill]

/-- A number with another fill; nothing else can be filled. -/
def refilled? (fill : Fill) (letter : Char) : Option (List Conversion) :=
  (Quantity.ofLetter? letter).map fun (quantity, _) => [number quantity fill]

end Conversion

open Conversion in
/-- The conversions of a pattern, if it has a meaning. -/
def conversions? : List Char → Option (List Conversion)
  | [] => some []
  | '%' :: '.' :: 'f' :: rest => (conversions? rest).map (fraction :: ·)
  | '%' :: '.' :: '3' :: 'f' :: rest => (conversions? rest).map (places "." 3 :: ·)
  | '%' :: '.' :: '6' :: 'f' :: rest => (conversions? rest).map (places "." 6 :: ·)
  | '%' :: '.' :: '9' :: 'f' :: rest => (conversions? rest).map (places "." 9 :: ·)
  | '%' :: '3' :: 'f' :: rest => (conversions? rest).map (places "" 3 :: ·)
  | '%' :: '6' :: 'f' :: rest => (conversions? rest).map (places "" 6 :: ·)
  | '%' :: '9' :: 'f' :: rest => (conversions? rest).map (places "" 9 :: ·)
  | '%' :: ':' :: 'z' :: rest => (conversions? rest).map (offset ":" :: ·)
  | '%' :: ':' :: ':' :: 'z' :: rest => (conversions? rest).map (offsetSeconds :: ·)
  | '%' :: ':' :: ':' :: ':' :: 'z' :: rest => (conversions? rest).map (offsetHours :: ·)
  | '%' :: '-' :: letter :: rest =>
    (refilled? .none letter).bind fun conversions => (conversions? rest).map (conversions ++ ·)
  | '%' :: '0' :: letter :: rest =>
    (refilled? .zeros letter).bind fun conversions => (conversions? rest).map (conversions ++ ·)
  | '%' :: '_' :: letter :: rest =>
    (refilled? .spaces letter).bind fun conversions => (conversions? rest).map (conversions ++ ·)
  | '%' :: letter :: rest =>
    (ofLetter? letter).bind fun conversions => (conversions? rest).map (conversions ++ ·)
  | ['%'] => none
  | c :: rest => (conversions? rest).map (literal c :: ·)

/-- The text of a point in time under a pattern. -/
def format? (moment : Moment) (pattern : String) : Option String :=
  (conversions? pattern.toList).map fun conversions =>
    String.join (conversions.map (Conversion.write moment))

end MotionImagery.Time
