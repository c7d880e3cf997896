import MotionImagery.Decimal.Binary
import MotionImagery.Geometry.Basic

/-!
Points with whole coordinates, and on which side of a line they lie. Every finite number is a
multiple of the least positive one, so that coordinates counted in it are whole and nothing is
rounded.
-/
namespace MotionImagery

/-- The binary exponent of the least positive number. -/
def leastExponent : Int := -1074

/-- A finite number counted in the least positive one. -/
def exact (number : Float) : Int :=
  match Decimal.Binary.ofFloat number with
  | .finite negative mantissa exponent _ =>
    let magnitude : Int := mantissa * Nat.pow 2 (exponent - leastExponent).toNat
    if negative then -magnitude else magnitude
  | _ => 0

structure GridPoint where
  x : Int
  y : Int
  deriving DecidableEq, Repr, Inhabited

def Coord.exact (c : Coord) : GridPoint := ⟨MotionImagery.exact c.x, MotionImagery.exact c.y⟩

namespace GridPoint

/-- From left to right, and upwards where both are equally far to the right. -/
def before (a b : GridPoint) : Bool :=
  decide (a.x < b.x) || (decide (a.x = b.x) && decide (a.y < b.y))

/-- Positive when `c` lies to the left of the way from `a` to `b`, negative to the right of it. -/
def side (a b c : GridPoint) : Int := (b.x - a.x) * (c.y - a.y) - (b.y - a.y) * (c.x - a.x)

end GridPoint

end MotionImagery
