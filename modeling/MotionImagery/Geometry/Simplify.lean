import MotionImagery.Geometry.Distance
import MotionImagery.Geometry.Validity

/-!
Leaving out vertices that lie within a tolerance of a line through the others. The line between
the ends of a path stands for it when no vertex is farther away than the tolerance; else the path
is divided at the vertex that is farthest away, the last of several.

How lines and polygons are thinned out is a parameter for geometries made of them.
-/
namespace MotionImagery

/-- The index and distance of the vertex that is farthest from the segment between the ends. -/
def farthestVertex (path : List Coord) (first last : Coord) : Nat × Float :=
  let inner := (path.drop 1).dropLast
  (inner.zipIdx 1).foldl (fun farthest (vertex, index) =>
    let distance := vertex.distanceToSegment first last
    if farthest.2 ≤ distance then (index, distance) else farthest) (0, 0.0)

/-- Thins out a part of a line that has `count` vertices in all, and counts those that are left.
Vertices are not left out where fewer than `least` would be left of the whole line. -/
def thinOut (least : Nat) (tolerance : Float) (path : List Coord) (count : Nat) :
    List Coord × Nat :=
  match path.head?, path.getLast? with
  | some first, some last =>
    if path.length = 2 then (path, count)
    else
      let (index, distance) := farthestVertex path first last
      if tolerance < distance then
        if _inside : 0 < index ∧ index + 1 < path.length then
          let (left, count) := thinOut least tolerance (path.take (index + 1)) count
          let (right, count) := thinOut least tolerance (path.drop index) count
          (left.dropLast ++ right, count)
        else (path, count)
      else
        let left := count - (path.length - 2)
        if left < least then (path, count) else ([first, last], left)
  | _, _ => (path, count)
termination_by path.length
decreasing_by
  · simp only [List.length_take]
    omega
  · simp only [List.length_drop]
    omega

/-- A tolerance that is not positive leaves out nothing. -/
def simplifyPath (least : Nat) (tolerance : Float) (path : List Coord) : List Coord :=
  if tolerance ≤ 0.0 then path else (thinOut least tolerance path path.length).1

def simplifyLine (tolerance : Float) (line : List Coord) : List Coord :=
  simplifyPath 2 tolerance line

def Polygon.simplify (tolerance : Float) (polygon : Polygon) : Polygon :=
  let ring := simplifyPath Geometry.leastRing tolerance
  .ofRings (ring polygon.exterior) (polygon.interiors.map ring)

/-- How lines and polygons are thinned out for a tolerance. -/
structure Simplifier where
  line : Float → List Coord → List Coord
  polygon : Float → Polygon → Polygon

def Simplifier.standard : Simplifier := ⟨simplifyLine, Polygon.simplify⟩

namespace Geometry

section
variable (simplifier : Simplifier) (tolerance : Float)

def simplifyPartsWith : Geometry → Geometry
  | lineString path => lineString (simplifier.line tolerance path)
  | multiLineString lines => multiLineString (lines.map (simplifier.line tolerance))
  | polygon p => polygon (simplifier.polygon tolerance p)
  | multiPolygon polygons => multiPolygon (polygons.map (simplifier.polygon tolerance))
  | other => other

/-- The geometry stays as it is when too little would be left of it. -/
def simplifyWith (geometry : Geometry) : Geometry :=
  let simplified := geometry.simplifyPartsWith simplifier tolerance
  if simplified.isValid then simplified else geometry

end

def simplify (tolerance : Float) (geometry : Geometry) : Geometry :=
  geometry.simplifyWith .standard tolerance

end Geometry

end MotionImagery
