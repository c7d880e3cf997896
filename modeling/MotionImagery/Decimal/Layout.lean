import MotionImagery.Decimal.Shortest
import MotionImagery.Text.Numeral

/-!
Where the decimal point goes. The digits are those of the shortest decimal; a layout says for
which magnitudes they are written in full and how the others get their exponent.
-/
namespace MotionImagery.Decimal

/-- A number is written in full when its point stands `lowest ≤ p ≤ highest` places to the right
of its first digit's left edge; without bounds it always is. -/
structure Layout where
  bounds : Option (Int × Int)
  /-- What closes a whole number that is written in full. -/
  wholeMark : String
  tie : Tie
  notANumber : String
  infinity : String
  negativeInfinity : String
  deriving DecidableEq, Repr

namespace Layout

/-- Never an exponent, and nothing after a whole number. -/
def plain : Layout := ⟨none, "", .up, "NaN", "inf", "-inf"⟩

/-- In full from `0.00001` to below `10 ^ 16`, whole numbers with `.0`; what is not a finite
number has no such text and is written as nothing. -/
def json : Layout := ⟨some (-4, 16), ".0", .toEven, "null", "null", "null"⟩

def zeros (count : Nat) : String := String.ofList (List.replicate count '0')

/-- The digits in full with the point `point` places after the first digit's left edge. -/
def inFull (wholeMark : String) (digits : List Char) (point : Int) : String :=
  if (digits.length : Int) ≤ point then
    String.ofList digits ++ zeros (point.toNat - digits.length) ++ wholeMark
  else if 0 < point then
    String.ofList (digits.take point.toNat) ++ "." ++ String.ofList (digits.drop point.toNat)
  else
    "0." ++ zeros (-point).toNat ++ String.ofList digits

/-- One digit, the others after a point, and the exponent with its sign. -/
def withExponent (digits : List Char) (exponent : Int) : String :=
  let fraction := if digits.length ≤ 1 then "" else "." ++ String.ofList (digits.drop 1)
  let sign := if exponent < 0 then "-" else "+"
  String.ofList (digits.take 1) ++ fraction ++ "e" ++ sign ++ Text.decimal exponent.natAbs

/-- Drops the zeros at the end of a number's digits. -/
def trimZeros (digits : List Char) : List Char := (digits.reverse.dropWhile (· = '0')).reverse

def writeScaled (layout : Layout) (scaled : Scaled) : String :=
  let all := Nat.toDigits 10 scaled.digits
  let digits := trimZeros all
  let point := (all.length : Int) + scaled.exponent
  match layout.bounds with
  | none => inFull layout.wholeMark digits point
  | some (lowest, highest) =>
    if lowest ≤ point ∧ point ≤ highest then inFull layout.wholeMark digits point
    else withExponent digits (point - 1)

def write (layout : Layout) (number : Float) : String :=
  match Binary.ofFloat number with
  | .notANumber => layout.notANumber
  | .infinite false => layout.infinity
  | .infinite true => layout.negativeInfinity
  | .finite negative mantissa exponent narrowBelow =>
    let magnitude :=
      if mantissa = 0 then "0" ++ layout.wholeMark
      else layout.writeScaled (shortest layout.tie mantissa exponent narrowBelow)
    if negative then "-" ++ magnitude else magnitude

end Layout

end MotionImagery.Decimal
