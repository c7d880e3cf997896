/-!
Plane geometries: points, lines, polygons with holes, and collections of them.
-/
namespace MotionImagery

structure Coord where
  x : Float
  y : Float
  deriving BEq, Repr, Inhabited

/-- Whether a line ends where it starts; a line without coordinates does. -/
def isClosed (line : List Coord) : Bool :=
  match line.head?, line.getLast? with
  | some first, some last => first == last
  | _, _ => true

/-- Goes back to the first coordinate, unless the line is there already. -/
def close (line : List Coord) : List Coord :=
  if isClosed line then line else line ++ line.take 1

/-- A shell and the holes in it. -/
structure Polygon where
  exterior : List Coord
  interiors : List (List Coord)
  deriving BEq, Repr, Inhabited

/-- The polygon with these rings, each of them closed. -/
def Polygon.ofRings (exterior : List Coord) (interiors : List (List Coord)) : Polygon :=
  ⟨close exterior, interiors.map close⟩

namespace Polygon

def rings (polygon : Polygon) : List (List Coord) := polygon.exterior :: polygon.interiors

/-- The rectangle between two opposite corners, from its lower right corner upwards. -/
def rectangle (low high : Coord) : Polygon :=
  .ofRings [⟨high.x, low.y⟩, ⟨high.x, high.y⟩, ⟨low.x, high.y⟩, ⟨low.x, low.y⟩, ⟨high.x, low.y⟩] []

def triangle (a b c : Coord) : Polygon := .ofRings [a, b, c, a] []

end Polygon

inductive Geometry where
  | point (position : Coord)
  | line (start stop : Coord)
  | lineString (line : List Coord)
  | polygon (polygon : Polygon)
  | multiPoint (points : List Coord)
  | multiLineString (lines : List (List Coord))
  | multiPolygon (polygons : List Polygon)
  /-- An upright rectangle by its lower left and its upper right corner. -/
  | rect (low high : Coord)
  | triangle (a b c : Coord)
  | collection (members : List Geometry)
  deriving Inhabited

namespace Geometry

/-- The rectangle between any two opposite corners. -/
def ofCorners (a b : Coord) : Geometry :=
  let low := fun (p q : Float) => if p < q then p else q
  let high := fun (p q : Float) => if p < q then q else p
  rect ⟨low a.x b.x, low a.y b.y⟩ ⟨high a.x b.x, high a.y b.y⟩

mutual

/-- The coordinates of all parts, holes left out. -/
def outline : Geometry → List Coord
  | point position => [position]
  | line start stop => [start, stop]
  | lineString path => path
  | polygon p => p.exterior
  | multiPoint points => points
  | multiLineString lines => lines.flatten
  | multiPolygon polygons => polygons.flatMap Polygon.exterior
  | rect low high => [low, ⟨low.x, high.y⟩, high, ⟨high.x, low.y⟩]
  | triangle a b c => [a, b, c]
  | collection members => outlines members

def outlines : List Geometry → List Coord
  | [] => []
  | member :: rest => outline member ++ outlines rest

end

mutual

/-- The coordinates of all parts. -/
def coords : Geometry → List Coord
  | polygon p => p.rings.flatten
  | multiPolygon polygons => polygons.flatMap fun p => p.rings.flatten
  | collection members => coordsOfAll members
  | point position => [position]
  | line start stop => [start, stop]
  | lineString path => path
  | multiPoint points => points
  | multiLineString lines => lines.flatten
  | rect low high => [low, high]
  | triangle a b c => [a, b, c]

def coordsOfAll : List Geometry → List Coord
  | [] => []
  | member :: rest => coords member ++ coordsOfAll rest

end

mutual

/-- Equality of kind and coordinates. -/
def same : Geometry → Geometry → Bool
  | point p, point q => p == q
  | line a b, line c d => a == c && b == d
  | lineString p, lineString q => p == q
  | polygon p, polygon q => p == q
  | multiPoint p, multiPoint q => p == q
  | multiLineString p, multiLineString q => p == q
  | multiPolygon p, multiPolygon q => p == q
  | rect a b, rect c d => a == c && b == d
  | triangle a b c, triangle d e f => a == d && b == e && c == f
  | collection p, collection q => sameAll p q
  | _, _ => false

def sameAll : List Geometry → List Geometry → Bool
  | [], [] => true
  | p :: restP, q :: restQ => same p q && sameAll restP restQ
  | _, _ => false

end

instance : BEq Geometry := ⟨same⟩

end Geometry

end MotionImagery
