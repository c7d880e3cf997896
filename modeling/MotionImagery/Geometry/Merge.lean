import MotionImagery.Geometry.Hull
import MotionImagery.Geometry.Rings

/-!
Several geometries as one: points as a line, polygons as their union, anything else as a
collection.

How two areas are united is a parameter of the merge.
-/
namespace MotionImagery.Geometry

/-- Points in their order; a single one stays a point. -/
def ofPoints? : List Coord → Option Geometry
  | [] => none
  | [position] => some (point position)
  | path => some (lineString path)

/-- The polygons that a geometry of polygons consists of. -/
def polygons? : Geometry → Option (List Polygon)
  | polygon p => some [p]
  | multiPolygon polygons => some polygons
  | rect low high => some [.rectangle low high]
  | _ => none

def ofPolygons : List Polygon → Geometry
  | [p] => polygon p
  | polygons => multiPolygon polygons

/-- The members of a collection, or the geometry itself. -/
def members : Geometry → List Geometry
  | collection members => members
  | other => [other]

section
variable (unite : List Polygon → List Polygon → List Polygon)

/-- The union of the polygons that are valid, if there are any; a single one stays as it is. -/
def unionWith? (polygons : List Polygon) : Option Geometry :=
  match polygons.filter fun p => (polygon p).isValid with
  | [] => none
  | first :: others => some (ofPolygons (others.foldl (fun area p => unite area [p]) [first]))

def mergeWith (a b : Geometry) : Geometry :=
  match a.polygons?, b.polygons? with
  | some left, some right => (unionWith? unite (left ++ right)).getD a
  | _, _ => collection (a.members ++ b.members)

end

def union? (polygons : List Polygon) : Option Geometry := unionWith? unionAreas polygons

def merge (a b : Geometry) : Geometry := mergeWith unionAreas a b

end MotionImagery.Geometry
