import MotionImagery.Decimal.Read

/-!
Numbers in TOML. Digits may be grouped by single underscores between them. Integers are in
decimal without zeros in front, or unsigned in another base after its mark; floats have a
fraction, an exponent, or both.
-/
namespace MotionImagery.Toml

def isDecimal (c : Char) : Bool := decide ('0' ≤ c ∧ c ≤ '9')

/-- The digits without the underscores between them. -/
def ungroup? (isDigit : Char → Bool) : List Char → Option (List Char)
  | [] => none
  | [c] => if isDigit c then some [c] else none
  | c :: '_' :: rest => if isDigit c then (ungroup? isDigit rest).map (c :: ·) else none
  | c :: rest => if isDigit c then (ungroup? isDigit rest).map (c :: ·) else none

/-- A number in decimal, which has no zeros in front. -/
def whole? (text : List Char) : Option (List Char) :=
  (ungroup? isDecimal text).bind fun digits =>
    if 1 < digits.length ∧ digits.head? = some '0' then none else some digits

/-- Digits below the base, most significant first. -/
def inBase? (base : Nat) (text : List Char) : Option Nat :=
  let isDigit := fun c => (Text.hexDigit? c).any (· < base)
  (ungroup? isDigit text).bind fun digits =>
    digits.foldlM (fun number c => (Text.hexDigit? c).map fun digit => number * base + digit) 0

def integer? (text : List Char) : Option Int :=
  let based := fun base digits =>
    (inBase? base digits).bind fun number =>
      if number ≤ Text.signed64 then some (number : Int) else none
  match text with
  | '0' :: 'x' :: digits => based 16 digits
  | '0' :: 'o' :: digits => based 8 digits
  | '0' :: 'b' :: digits => based 2 digits
  | _ =>
    let (negative, body) := Decimal.splitSign text
    (whole? body).bind fun digits =>
      Text.signed? Text.signed64 (if negative then '-' :: digits else digits)

/-- The exponent after its mark, if there is one. -/
def exponent? : List Char → Option Int
  | [] => some 0
  | mark :: rest =>
    if mark = 'e' ∨ mark = 'E' then
      let (negative, body) := Decimal.splitSign rest
      ((ungroup? isDecimal body).bind Text.digits?).map fun number =>
        if negative then -(number : Int) else number
    else none

def isGrouped (c : Char) : Bool := isDecimal c || c == '_'

/-- The decimal that a float is written as. -/
def decimal? (text : List Char) : Option Decimal.Written :=
  let (negative, body) := Decimal.splitSign text
  let after := body.dropWhile isGrouped
  (whole? (body.takeWhile isGrouped)).bind fun whole =>
    match after with
    | [] => none
    | '.' :: rest => do
      let fraction ← ungroup? isDecimal (rest.takeWhile isGrouped)
      let exponent ← exponent? (rest.dropWhile isGrouped)
      let digits ← Text.digits? (whole ++ fraction)
      return ⟨negative, digits, exponent - fraction.length⟩
    | _ => do
      let exponent ← exponent? after
      let digits ← Text.digits? whole
      return ⟨negative, digits, exponent⟩

/-- A positive number that is too large for a float is refused. -/
def float? (text : List Char) : Option Float :=
  let (negative, body) := Decimal.splitSign text
  if body = ['i', 'n', 'f'] then some (if negative then -(1.0 / 0.0) else 1.0 / 0.0)
  else if body = ['n', 'a', 'n'] then some (if negative then -(0.0 / 0.0) else 0.0 / 0.0)
  else
    (decimal? text).bind fun written =>
      let number := written.toFloat
      if number == 1.0 / 0.0 then none else some number

end MotionImagery.Toml
