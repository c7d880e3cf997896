import MotionImagery.Geometry.Basic

/-!
A total order of coordinates and of paths. Numbers are ordered by value, with `-0` before `0`;
coordinates by `x`, then by `y`; paths as words are in a dictionary.
-/
namespace MotionImagery

/-- A whole number that grows with its argument. -/
def orderKey (number : Float) : Int :=
  let bits := number.toBits.toNat
  if bits < 0x8000000000000000 then bits else 0x7FFFFFFFFFFFFFFF - (bits : Int)

namespace Coord

def key (c : Coord) : Int × Int := (orderKey c.x, orderKey c.y)

def before (a b : Coord) : Bool :=
  decide (a.key.1 < b.key.1) || (decide (a.key.1 = b.key.1) && decide (a.key.2 < b.key.2))

def notAfter (a b : Coord) : Bool := !before b a

end Coord

/-- Whether one path comes no later than another; a path comes after its own beginnings. -/
def pathNotAfter : List Coord → List Coord → Bool
  | [], _ => true
  | _ :: _, [] => false
  | a :: restA, b :: restB =>
    if a.before b then true else if b.before a then false else pathNotAfter restA restB

end MotionImagery
