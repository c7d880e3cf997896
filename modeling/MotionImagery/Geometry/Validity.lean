import MotionImagery.Geometry.Normalize

/-!
Geometries that are fit for use: finite coordinates, lines of at least two, and closed rings of at
least four that enclose an area.
-/
namespace MotionImagery

def Coord.isFinite (c : Coord) : Bool := c.x.isFinite && c.y.isFinite

/-- Twice the area a ring encloses, counted from its first coordinate to keep the numbers small;
none for a line that does not close. -/
def twiceRingArea (ring : List Coord) : Float :=
  match ring with
  | origin :: _ :: _ :: _ =>
    if isClosed ring then
      Geometry.shoelace (0.0 : Float) (ring.map fun c => (c.x - origin.x, c.y - origin.y))
    else 0.0
  | _ => 0.0

def ringArea (ring : List Coord) : Float := (twiceRingArea ring / 2.0).abs

/-- The area of the shell without the holes. -/
def Polygon.area (polygon : Polygon) : Float :=
  (polygon.interiors.foldl (fun area hole => area - ringArea hole) (ringArea polygon.exterior)).abs

def isValidRing (ring : List Coord) : Bool :=
  decide (Geometry.leastRing ≤ ring.length) && isClosed ring

def Polygon.isValid (polygon : Polygon) : Bool :=
  polygon.rings.all isValidRing && decide (0.0 < polygon.area)

namespace Geometry

def isValidLine (line : List Coord) : Bool := decide (2 ≤ line.length)

mutual

/-- Whether the parts of a geometry have the right shape, whatever their coordinates. -/
def isWellFormed : Geometry → Bool
  | lineString path => isValidLine path
  | multiLineString lines => lines.all isValidLine
  | polygon p => p.isValid
  | multiPolygon polygons => !polygons.isEmpty && polygons.all Polygon.isValid
  | collection members => areWellFormed members
  | point _ | line _ _ | multiPoint _ | rect _ _ | triangle _ _ _ => true

def areWellFormed : List Geometry → Bool
  | [] => true
  | member :: rest => isWellFormed member && areWellFormed rest

end

def isValid (geometry : Geometry) : Bool :=
  geometry.coords.all Coord.isFinite && geometry.isWellFormed

end Geometry

end MotionImagery
