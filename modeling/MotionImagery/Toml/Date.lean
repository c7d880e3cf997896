import MotionImagery.Text.Numeral
import MotionImagery.Time.Calendar

/-!
Dates and times in TOML: a date, a time of day, or a date and a time with or without an offset.
-/
namespace MotionImagery.Toml

/-- A number of exactly so many digits within the bounds. -/
def field? (width low high : Nat) (text : List Char) : Option (Nat × List Char) :=
  let digits := text.take width
  (Text.digits? digits).bind fun number =>
    if digits.length = width ∧ low ≤ number ∧ number ≤ high then some (number, text.drop width)
    else none

def mark? (c : Char) : List Char → Option (List Char)
  | d :: rest => if c = d then some rest else none
  | [] => none

def daysInMonth (year month : Nat) : Nat :=
  if month = 2 then (Time.firstDay (year + 1) - Time.firstDay year - 337).toNat
  else if month ∈ [4, 6, 9, 11] then 30
  else 31

/-- What follows a date of the calendar. -/
def afterDate? (text : List Char) : Option (List Char) := do
  let (year, rest) ← field? 4 0 9999 text
  let (month, rest) ← field? 2 1 12 (← mark? '-' rest)
  let (_, rest) ← field? 2 1 (daysInMonth year month) (← mark? '-' rest)
  return rest

/-- What follows a time of day; the seconds may have a fraction. -/
def afterTime? (text : List Char) : Option (List Char) := do
  let (_, rest) ← field? 2 0 23 text
  let (_, rest) ← field? 2 0 59 (← mark? ':' rest)
  let (_, rest) ← field? 2 0 60 (← mark? ':' rest)
  match rest with
  | '.' :: c :: more =>
    if c.isDigit then return more.dropWhile Char.isDigit else none
  | _ => return rest

def isOffset : List Char → Bool
  | ['Z'] | ['z'] => true
  | sign :: rest =>
    (sign == '+' || sign == '-') && ((do
      let (_, rest) ← field? 2 0 23 rest
      let (_, rest) ← field? 2 0 59 (← mark? ':' rest)
      return rest.isEmpty : Option Bool) == some true)
  | [] => false

def isTime (text : List Char) : Bool := afterTime? text == some []

/-- A time after a date, which may have an offset. -/
def isTimeOfDate (text : List Char) : Bool :=
  (afterTime? text).any fun rest => rest.isEmpty || isOffset rest

def isDate (text : List Char) : Bool := afterDate? text == some []

def isDateOrTime (text : List Char) : Bool :=
  isTime text ||
    match afterDate? text with
    | some [] => true
    | some (c :: rest) => (c == 'T' || c == 't') && isTimeOfDate rest
    | none => false

end MotionImagery.Toml
