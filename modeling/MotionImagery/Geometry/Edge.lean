import MotionImagery.Geometry.Distance

/-!
Edges of rings, each from its left to its right end, and how they lie to each other. A vertical
edge goes upwards: of two points equally far to the right the upper one counts as the right one.
-/
namespace MotionImagery

/-- A coordinate and its exact place. -/
structure Vertex where
  coord : Coord
  place : GridPoint
  deriving Inhabited

def Vertex.ofCoord (coord : Coord) : Vertex := ⟨coord, coord.exact⟩

structure Edge where
  left : Vertex
  right : Vertex
  deriving Inhabited

namespace Edge

/-- Nothing when both ends are in one place. -/
def between? (a b : Vertex) : Option Edge :=
  if a.place.before b.place then some ⟨a, b⟩
  else if b.place.before a.place then some ⟨b, a⟩
  else none

/-- Edges are the same when they lie in the same place. -/
instance : BEq Edge :=
  ⟨fun e f => e.left.place == f.left.place && e.right.place == f.right.place⟩

/-- From left to right by the left ends, then by the right ends. -/
def notAfter (e f : Edge) : Bool :=
  if e.left.place = f.left.place then !f.right.place.before e.right.place
  else e.left.place.before f.left.place

def sideOf (e : Edge) (place : GridPoint) : Int :=
  GridPoint.side e.left.place e.right.place place

/-- Whether an edge goes on to the right of a place. -/
def reachesPast (e : Edge) (place : GridPoint) : Bool :=
  !place.before e.left.place && place.before e.right.place

/-- Which of two edges that do not cross is the lower one, where they lie above each other. -/
def isBelow (e f : Edge) : Bool :=
  if f.left.place.before e.left.place then
    let start := f.sideOf e.left.place
    decide (if start = 0 then f.sideOf e.right.place < 0 else start < 0)
  else
    let start := e.sideOf f.left.place
    decide (if start = 0 then 0 < e.sideOf f.right.place else 0 < start)

/-- Whether the boxes around two edges have a point in common. -/
def boxesMeet (e f : Edge) : Bool :=
  let overlap := fun (a b c d : Int) => decide (min a b ≤ max c d ∧ min c d ≤ max a b)
  overlap e.left.place.x e.right.place.x f.left.place.x f.right.place.x &&
    overlap e.left.place.y e.right.place.y f.left.place.y f.right.place.y

/-- Whether a place lies on an edge, and is not one of its ends. -/
def isInside (e : Edge) (place : GridPoint) : Bool :=
  e.left.place.before place && place.before e.right.place && e.sideOf place == 0

/-- Whether each edge has its ends on both sides of the other. -/
def crosses (e f : Edge) : Bool :=
  let opposite := fun (a b : Int) => decide (a < 0 ∧ 0 < b ∨ 0 < a ∧ b < 0)
  opposite (e.sideOf f.left.place) (e.sideOf f.right.place) &&
    opposite (f.sideOf e.left.place) (f.sideOf e.right.place)

/-- The middle of the box that two overlapping boxes have in common. -/
def commonMiddle (e f : Edge) : Coord :=
  let middle := fun (a b c d : Float) =>
    (Max.max (Min.min a b) (Min.min c d) + Min.min (Max.max a b) (Max.max c d)) / 2.0
  ⟨middle e.left.coord.x e.right.coord.x f.left.coord.x f.right.coord.x,
    middle e.left.coord.y e.right.coord.y f.left.coord.y f.right.coord.y⟩

/-- A line in homogeneous coordinates, seen from an origin. -/
def homogeneous (e : Edge) (origin : Coord) : Float × Float × Float :=
  let x₁ := e.left.coord.x - origin.x
  let y₁ := e.left.coord.y - origin.y
  let x₂ := e.right.coord.x - origin.x
  let y₂ := e.right.coord.y - origin.y
  (y₁ - y₂, x₂ - x₁, x₁ * y₂ - x₂ * y₁)

/-- The end that is nearest to the other edge. -/
def nearestEnd (e f : Edge) : Coord :=
  let reach := fun (point : Coord) (other : Edge) =>
    (point, point.distanceToSegment other.left.coord other.right.coord)
  let nearer := fun (a b : Coord × Float) => if b.2 < a.2 then b else a
  (nearer (nearer (nearer (reach e.left.coord f) (reach e.right.coord f)) (reach f.left.coord e))
    (reach f.right.coord e)).1

def boxHolds (e : Edge) (c : Coord) : Bool :=
  let between := fun (a b x : Float) => decide (Min.min a b ≤ x) && decide (x ≤ Max.max a b)
  between e.left.coord.x e.right.coord.x c.x && between e.left.coord.y e.right.coord.y c.y

/-- Where two edges cross, reckoned from the middle of their common box to keep the numbers small;
the nearest end where the reckoning fails. -/
def crossing (e f : Edge) : Coord :=
  let origin := e.commonMiddle f
  let (px, py, pw) := e.homogeneous origin
  let (qx, qy, qw) := f.homogeneous origin
  let w := px * qy - qx * py
  let found : Coord := ⟨(py * qw - qy * pw) / w + origin.x, (qx * pw - px * qw) / w + origin.y⟩
  if e.boxHolds found && f.boxHolds found then found else e.nearestEnd f

/-- Where `e` has to be divided because of `f`. -/
def cuts (e f : Edge) : List Vertex :=
  if e.boxesMeet f then
    [f.left, f.right].filter (fun v => e.isInside v.place) ++
      if e.crosses f then
        [.ofCoord (if e.notAfter f then e.crossing f else f.crossing e)]
      else []
  else []

/-- The pieces of an edge between the places where others meet it. -/
def pieces (others : List Edge) (e : Edge) : List Edge :=
  let inner := (others.flatMap e.cuts).filter fun v =>
    e.left.place.before v.place && v.place.before e.right.place
  let stops := e.left :: inner.mergeSort (fun v w => !w.place.before v.place) ++ [e.right]
  (stops.zip (stops.drop 1)).filterMap fun (v, w) => between? v w

end Edge

/-- The edges of a ring; lines of fewer than four coordinates enclose nothing and have none. -/
def ringEdges (ring : List Coord) : List Edge :=
  if ring.length < 4 then []
  else
    let vertices := ring.map Vertex.ofCoord
    (vertices.zip (vertices.drop 1)).filterMap fun (a, b) => Edge.between? a b

def Polygon.edges (polygon : Polygon) : List Edge := polygon.rings.flatMap ringEdges

end MotionImagery
