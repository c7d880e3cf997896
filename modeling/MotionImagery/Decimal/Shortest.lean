import MotionImagery.Decimal.Binary

/-!
The shortest decimal that reads back as a given binary number. A real number reads back as
`m * 2 ^ q` when it lies between the halfway points to the two neighbours; the halfway points
themselves do when `m` is even. Of the decimals with the fewest digits the nearest is taken.
-/
namespace MotionImagery.Decimal

/-- Which of two equally near decimals is taken. -/
inductive Tie where
  | up
  | toEven
  deriving DecidableEq, Repr

/-- The value `digits * 10 ^ exponent`. -/
structure Scaled where
  digits : Nat
  exponent : Int
  deriving DecidableEq, Repr

/-- A positive number and the halfway points around it, over one denominator. -/
structure Interval where
  low : Nat
  value : Nat
  high : Nat
  denominator : Nat
  closed : Bool
  deriving DecidableEq, Repr

namespace Interval

/-- Four units to one step of the mantissa, so that all three are whole. -/
def ofBinary (mantissa : Nat) (exponent : Int) (narrowBelow : Bool) : Interval :=
  let up := Nat.pow 2 (exponent - 2).toNat
  {
    low := (4 * mantissa - if narrowBelow then 1 else 2) * up
    value := 4 * mantissa * up
    high := (4 * mantissa + 2) * up
    denominator := Nat.pow 2 (2 - exponent).toNat
    closed := decide (mantissa % 2 = 0)
  }

/-- Counts in units of `10 ^ exponent`. -/
def inUnits (i : Interval) (exponent : Int) : Interval :=
  let up := Nat.pow 10 (-exponent).toNat
  { i with
    low := i.low * up
    value := i.value * up
    high := i.high * up
    denominator := i.denominator * Nat.pow 10 exponent.toNat }

/-- Whether a whole number lies in the interval. -/
def holds (i : Interval) (number : Nat) : Bool :=
  let scaled := number * i.denominator
  if i.closed then decide (i.low ≤ scaled ∧ scaled ≤ i.high)
  else decide (i.low < scaled ∧ scaled < i.high)

/-- The whole number next to the value that lies in the interval, the nearer one of two. -/
def nearest? (i : Interval) (tie : Tie) : Option Nat :=
  let below := i.value / i.denominator
  let rest := i.value % i.denominator
  match i.holds below, i.holds (below + 1) with
  | true, true =>
    if 2 * rest < i.denominator then some below
    else if i.denominator < 2 * rest then some (below + 1)
    else match tie with
      | .up => some (below + 1)
      | .toEven => some (if below % 2 = 0 then below else below + 1)
  | true, false => some below
  | false, true => some (below + 1)
  | false, false => none

/-- The exponent of the first decimal digit of the value. -/
def leadingExponent (i : Interval) : Int :=
  if i.denominator ≤ i.value then
    ((Nat.toDigits 10 (i.value / i.denominator)).length : Int) - 1
  else
    let places := (Nat.toDigits 10 (i.denominator / i.value)).length - 1
    if i.denominator ≤ i.value * Nat.pow 10 places then -(places : Int) else -((places : Int) + 1)

end Interval

/-- No more than seventeen digits are ever needed. -/
def mostDigits : Nat := 17

/-- The shortest decimal of a positive binary number. -/
def shortest (tie : Tie) (mantissa : Nat) (exponent : Int) (narrowBelow : Bool) : Scaled :=
  let interval := Interval.ofBinary mantissa exponent narrowBelow
  let leading := interval.leadingExponent
  let found := (List.range mostDigits).findSome? fun (n : Nat) =>
    let unit := leading - (n : Int)
    ((interval.inUnits unit).nearest? tie).map fun digits => (⟨digits, unit⟩ : Scaled)
  found.getD ⟨0, 0⟩

end MotionImagery.Decimal
