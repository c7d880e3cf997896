/-!
The exact value of a binary floating-point number: a sign, an integer and a power of two.
-/
namespace MotionImagery.Decimal

/-- A number as its format stores it. -/
inductive Binary where
  | notANumber
  | infinite (negative : Bool)
  /-- The value `mantissa * 2 ^ exponent`, negated when `negative`. `narrowBelow` holds for the
  numbers whose lower neighbour is only half as far away as the upper one. -/
  | finite (negative : Bool) (mantissa : Nat) (exponent : Int) (narrowBelow : Bool)
  deriving DecidableEq, Repr

/-- One sign bit, eleven bits of exponent, fifty-two of mantissa. -/
def Binary.ofBits (bits : Nat) : Binary :=
  let negative := decide (0x8000000000000000 ≤ bits)
  let exponent : Nat := bits / 0x10000000000000 % 0x800
  let fraction : Nat := bits % 0x10000000000000
  if exponent = 0x7FF then
    if fraction = 0 then .infinite negative else .notANumber
  else if exponent = 0 then .finite negative fraction (-1074) false
  else .finite negative (0x10000000000000 + fraction) ((exponent : Int) - 1075)
    (decide (fraction = 0 ∧ 1 < exponent))

def Binary.ofFloat (number : Float) : Binary := .ofBits number.toBits.toNat

end MotionImagery.Decimal
