import MotionImagery.Text.Numeral

/-!
The binary number nearest to a decimal: an optional sign, digits with an optional point, and an
optional exponent.
-/
namespace MotionImagery.Decimal

/-- A decimal in parts: the value is `digits * 10 ^ exponent`, negated when `negative`. -/
structure Written where
  negative : Bool
  digits : Nat
  exponent : Int
  deriving DecidableEq, Repr

/-- No finite number has a decimal exponent above this one, and none but zero is left of a decimal
whose every digit is below the opposite exponent. -/
def widestExponent : Nat := 400

/-- Exponents far outside the range are not multiplied out. -/
def Written.toFloat (w : Written) : Float :=
  let magnitude :=
    if w.digits = 0 ∨ w.exponent + (Nat.toDigits 10 w.digits).length < -widestExponent then 0.0
    else if (widestExponent : Int) < w.exponent then 1.0 / 0.0
    else Float.ofScientific w.digits (decide (w.exponent < 0)) w.exponent.natAbs
  if w.negative then -magnitude else magnitude

/-- Splits a leading sign off; without one the number is not negative. -/
def splitSign : List Char → Bool × List Char
  | '-' :: rest => (true, rest)
  | '+' :: rest => (false, rest)
  | text => (false, text)

/-- The exponent after its mark; no mark means zero. -/
def exponent? : List Char → Option Int
  | [] => some 0
  | mark :: rest =>
    if mark = 'e' ∨ mark = 'E' then
      let (negative, digits) := splitSign rest
      (Text.digits? digits).map fun value => if negative then -(value : Int) else value
    else none

/-- Digits on at least one side of the point. -/
def Written.read? (text : List Char) : Option Written := do
  let isDigit := fun (c : Char) => decide ('0' ≤ c ∧ c ≤ '9')
  let (negative, body) := splitSign text
  let whole := body.takeWhile isDigit
  let afterWhole := body.dropWhile isDigit
  let (fraction, tail) := match afterWhole with
    | '.' :: rest => (rest.takeWhile isDigit, rest.dropWhile isDigit)
    | _ => ([], afterWhole)
  let digits ← Text.digits? (whole ++ fraction)
  let exponent ← exponent? tail
  return ⟨negative, digits, exponent - fraction.length⟩

def read? (text : String) : Option Float := (Written.read? text.toList).map Written.toFloat

end MotionImagery.Decimal
