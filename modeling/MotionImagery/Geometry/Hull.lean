import MotionImagery.Geometry.Exact
import MotionImagery.Geometry.Validity

/-!
The convex hull: the ring around a set of points, counter-clockwise. The line between the first and
the last point divides the others into those above and those below; of each part the point that is
farthest from the line belongs to the hull and divides the part again.
-/
namespace MotionImagery

namespace Hull

/-- Whether `c` lies to the left of the way from `a` to `b`. -/
def isLeft (a b c : Coord) : Bool := decide (0 < GridPoint.side a.exact b.exact c.exact)

/-- Brings the members that satisfy the test to the front: gaps in front are filled, first to
last, with the members behind, last to first. -/
def gather {α : Type} (test : α → Bool) (items : List α) : List α × List α :=
  let count := items.countP test
  let front := items.take count
  let back := (items.drop count).reverse
  (fill test (back.filter test) front, (fill (!test ·) (front.filter (!test ·)) back).reverse)
where
  /-- Replaces those that fail the test, one after the other. -/
  fill (test : α → Bool) : List α → List α → List α
    | substitutes, item :: rest =>
      if test item then item :: fill test substitutes rest
      else match substitutes with
        | substitute :: others => substitute :: fill test others rest
        | [] => item :: fill test [] rest
    | _, [] => []

/-- Takes the item at an index out; the first item takes its place. -/
def takeOut {α : Type} (index : Nat) (items : List α) : Option α × List α :=
  match items with
  | [] => (none, [])
  | first :: rest =>
    if index = 0 then (some first, rest)
    else (rest[index - 1]?, rest.set (index - 1) first)

/-- The last of the indices where the number is greatest. -/
def lastGreatest (numbers : List Float) : Nat :=
  (numbers.zipIdx.foldl (fun (best : Option (Float × Nat)) (number, index) =>
    match best with
    | none => some (number, index)
    | some (greatest, _) => if number < greatest then best else some (number, index)) none).elim 0
    Prod.snd

/-- The hull points among `points`, which lie to the left of the way from `a` to `b`, in the order
from `b` to `a`. There are no more rounds than points. -/
def between : Nat → Coord → Coord → List Coord → List Coord
  | _, _, _, [] => []
  | _, _, _, [only] => [only]
  | 0, _, _, _ => []
  | rounds + 1, a, b, points =>
    let reach := points.map fun p => (a.y - b.y) * (p.x - a.x) + (b.x - a.x) * (p.y - a.y)
    match takeOut (lastGreatest reach) points with
    | (none, _) => []
    | (some farthest, others) =>
      let (beyond, rest) := gather (isLeft farthest b) others
      let upper := between rounds farthest b beyond
      let (before, _) := gather (isLeft a farthest) (beyond ++ rest)
      upper ++ farthest :: between rounds a farthest before

def leastIndex (precedes : Coord → Coord → Bool) (points : List Coord) : Nat :=
  (points.zipIdx.foldl (fun (best : Option (Coord × Nat)) (point, index) =>
    match best with
    | none => some (point, index)
    | some (least, _) => if precedes point least then some (point, index) else best) none).elim 0
    Prod.snd

def isBefore (a b : Coord) : Bool := a.exact.before b.exact

/-- The hull of fewer than four points: of three on one line, the outer two. -/
def ofFew (points : List Coord) : List Coord :=
  let sorted := points.mergeSort fun a b => !isBefore b a
  match sorted with
  | [a, b, c] =>
    let side := GridPoint.side a.exact b.exact c.exact
    if side = 0 then [a, c, a]
    else if 0 < side then [a, b, c, a]
    else [a, c, b, a]
  | [a, b] => close [a, b]
  | [a] => [a, a]
  | _ => []

def ofMany (points : List Coord) : List Coord :=
  let first := leastIndex isBefore points
  let last := leastIndex (fun a b => isBefore b a) points
  match takeOut first points with
  | (none, _) => []
  | (some low, others) =>
    let lastLeft := (if last = 0 then first else last) - 1
    match takeOut lastLeft others with
    | (none, _) => []
    | (some high, inner) =>
      let rounds := points.length
      let (above, below) := gather (isLeft high low) inner
      let upper := between rounds high low above
      let (below, _) := gather (isLeft low high) (above ++ below)
      close (upper ++ high :: between rounds low high below ++ [low])

def ring (points : List Coord) : List Coord :=
  if points.length < 4 then ofFew points else ofMany points

end Hull

namespace Geometry

/-- The convex hull; there is none around coordinates that are not finite. -/
def convexHull (geometry : Geometry) : Polygon :=
  if geometry.outline.all Coord.isFinite then .ofRings (Hull.ring geometry.outline) []
  else .ofRings [] []

/-- A geometry that is not valid is replaced by its hull, if that is. -/
def repairWith? (hull : Geometry → Polygon) (geometry : Geometry) : Option Geometry :=
  if geometry.isValid then some geometry
  else
    let around := polygon (hull geometry)
    if around.isValid then some around else none

def repair? (geometry : Geometry) : Option Geometry := geometry.repairWith? convexHull

end Geometry

end MotionImagery
