import MotionImagery.Geometry.Exact

/-!
Distances in the plane. The length of a vector is rounded once: it is the number nearest to the
square root of the exact sum of squares.
-/
namespace MotionImagery

/-- The largest whole number whose square is at most `number`, by Newton's method from above. -/
def wholeRoot (number : Nat) : Nat :=
  descend (number.log2 + 1) (Nat.pow 2 (number.log2 / 2 + 1))
where
  descend : Nat → Nat → Nat
    | 0, guess => guess
    | steps + 1, guess =>
      let next := (guess + number / guess) / 2
      if next < guess then descend steps next else guess

/-- Bits of a mantissa. -/
def precision : Nat := 53

/-- The number nearest to the square root, counted in the least positive number; the even one of
two. -/
def nearestRoot (square : Nat) : Float :=
  let root := wholeRoot square
  let dropped := root.log2 + 1 - precision
  let mantissa := root / Nat.pow 2 dropped
  let half := (2 * mantissa + 1) * Nat.pow 2 dropped
  let halfway := half * half
  let up := decide (halfway < 4 * square) || (decide (halfway = 4 * square) && mantissa % 2 = 1)
  (Float.ofNat (if up then mantissa + 1 else mantissa)).scaleB (dropped + leastExponent)

/-- The length of a vector; infinite as soon as one of its parts is. -/
def vectorLength (x y : Float) : Float :=
  if x.isInf || y.isInf then 1.0 / 0.0
  else if x.isNaN || y.isNaN then x + y
  else nearestRoot (exact x * exact x + exact y * exact y).toNat

namespace Coord

def distance (a b : Coord) : Float := vectorLength (b.x - a.x) (b.y - a.y)

/-- From a point to the nearest point of a segment: one of its ends, or the foot of the
perpendicular. -/
def distanceToSegment (point start stop : Coord) : Float :=
  if start == stop then point.distance start
  else
    let dx := stop.x - start.x
    let dy := stop.y - start.y
    let square := dx * dx + dy * dy
    let along := ((point.x - start.x) * dx + (point.y - start.y) * dy) / square
    if along ≤ 0.0 then point.distance start
    else if 1.0 ≤ along then point.distance stop
    else
      let across := ((start.y - point.y) * dx - (start.x - point.x) * dy) / square
      across.abs * vectorLength dx dy

end Coord

end MotionImagery
