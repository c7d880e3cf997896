import MotionImagery.Geometry.Boundary

/-!
Rings out of boundary edges. Around each vertex the edges that end there, from the top down, and
then those that start there, from the bottom up, are joined two by two; following the joints gives
the rings. A ring is begun at its leftmost vertex, along its lowest edge there.
-/
namespace MotionImagery

/-- Two joined edges, by their numbers, and the place where they are joined. -/
structure Joint where
  place : GridPoint
  first : Nat
  second : Nat

/-- A ring by the numbers of its edges, the one it begins with in front, and by the coordinates
that it goes through, the one it begins at last. -/
structure EdgeRing where
  first : Nat
  others : List Nat
  coords : List Coord

namespace EdgeRing

def edge (edges : Array BoundaryEdge) (i : Nat) : Edge := (edges.getD i default).edge

/-- Numbers of edges, the lower ones first. -/
def upwards (edges : Array BoundaryEdge) (numbers : List Nat) : List Nat :=
  numbers.mergeSort fun i j => !(edge edges j).isBelow (edge edges i)

def pairs (place : GridPoint) : List Nat → List Joint
  | i :: j :: rest => ⟨place, i, j⟩ :: pairs place rest
  | _ => []

/-- The joints at a place. -/
def jointsAt (edges : Array BoundaryEdge) (place : GridPoint) : List Joint :=
  let numbers := List.range edges.size
  let ending := numbers.filter fun i => (edge edges i).right.place == place
  let starting := numbers.filter fun i => (edge edges i).left.place == place
  pairs place ((upwards edges ending).reverse ++ upwards edges starting)

/-- All joints, from left to right. -/
def joints (edges : Array BoundaryEdge) : List Joint :=
  let ends := edges.toList.flatMap fun e => [e.edge.left.place, e.edge.right.place]
  (ends.mergeSort fun a b => !b.before a).eraseReps.flatMap (jointsAt edges)

/-- For each edge the one that it is joined to at its left and at its right end. -/
def partners (edges : Array BoundaryEdge) (joints : List Joint) : Array (Nat × Nat) :=
  let join := fun (partners : Array (Nat × Nat)) (place : GridPoint) (i j : Nat) =>
    let (left, right) := partners.getD i (0, 0)
    partners.setIfInBounds i
      (if (edge edges i).left.place = place then (j, right) else (left, j))
  joints.foldl (fun partners joint =>
    join (join partners joint.place joint.first joint.second) joint.place joint.second joint.first)
    (Array.replicate edges.size (0, 0))

/-- Goes along edge `i` and on until the next edge is the one that the ring was begun with; there
are no more steps than edges. -/
def follow (edges : Array BoundaryEdge) (partners : Array (Nat × Nat)) (first : Nat) :
    Nat → Nat → Bool → List Nat × List Coord
  | 0, _, _ => ([], [])
  | steps + 1, i, rightwards =>
    let e := edge edges i
    let stop := if rightwards then e.right else e.left
    let next := if rightwards then (partners.getD i (0, 0)).2 else (partners.getD i (0, 0)).1
    if next = first then ([i], [stop.coord])
    else
      let (members, coords) := follow edges partners first steps next
        (decide ((edge edges next).left.place = stop.place))
      (i :: members, stop.coord :: coords)

/-- The rings of a boundary, from left to right. -/
def all (edges : Array BoundaryEdge) : List EdgeRing :=
  let joints := joints edges
  let partners := partners edges joints
  (joints.foldl (fun (rings : List EdgeRing) joint =>
    let starts := fun (i : Nat) => decide ((edge edges i).left.place = joint.place)
    let isNew := rings.all fun ring => ring.first != joint.first && !ring.others.contains joint.first
    if starts joint.first && starts joint.second && isNew then
      let (members, coords) := follow edges partners joint.first edges.size joint.first true
      ⟨joint.first, members.drop 1, coords⟩ :: rings
    else rings) []).reverse

def has (ring : EdgeRing) (i : Nat) : Bool := ring.first == i || ring.others.contains i

/-- A ring is a hole when the area is below the edge that it begins with. -/
def isHole (edges : Array BoundaryEdge) (ring : EdgeRing) : Bool :=
  (edges.getD ring.first default).insideBelow

/-- The edge directly below the leftmost vertex of a ring. -/
def edgeBelow? (edges : Array BoundaryEdge) (ring : EdgeRing) : Option Nat :=
  let start := edge edges ring.first
  ((List.range edges.size).filter fun i =>
    (edge edges i).reachesPast start.left.place && (edge edges i).isBelow start).foldl
    (fun highest i =>
      match highest with
      | none => some i
      | some h => if (edge edges h).isBelow (edge edges i) then some i else highest) none

/-- For each ring the number of the shell that it belongs to, its own if it is one. A hole belongs
to the ring below it, or with it to a common shell; that ring comes before it. -/
def shells (edges : Array BoundaryEdge) (rings : List EdgeRing) : List Nat :=
  let indexed := rings.zipIdx
  rings.zipIdx.foldl (fun (shells : List Nat) (ring, index) =>
    let shell :=
      if ring.isHole edges then
        match ring.edgeBelow? edges with
        | none => index
        | some below =>
          match indexed.find? fun (other, _) => other.has below with
          | none => index
          | some (_, owner) => shells.getD owner index
      else index
    shells ++ [shell]) []

/-- The polygons that a boundary encloses. -/
def polygons (edges : Array BoundaryEdge) : List Polygon :=
  let rings := all edges
  let shells := shells edges rings
  let owned := rings.zip shells
  rings.zipIdx.filterMap fun (ring, index) =>
    if ring.isHole edges then none
    else
      let holes := owned.filter fun (other, shell) => shell == index && other.isHole edges
      some (.ofRings ring.coords (holes.map fun (hole, _) => hole.coords))

end EdgeRing

/-- The union of two areas. -/
def unionAreas (first second : List Polygon) : List Polygon :=
  EdgeRing.polygons
    (BoundaryEdge.ofUnion (first.flatMap Polygon.edges) (second.flatMap Polygon.edges)).toArray

end MotionImagery
