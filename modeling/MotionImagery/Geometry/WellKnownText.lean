import MotionImagery.Decimal.Layout
import MotionImagery.Geometry.Basic

/-!
Well-known text: the kind of a geometry in capitals, then its coordinates in brackets, or `EMPTY`.
How a number is written is a parameter.
-/
namespace MotionImagery.Geometry

section
variable (number : Float → String)

def coordText (c : Coord) : String := number c.x ++ " " ++ number c.y

def listText (items : List String) : String := "(" ++ String.intercalate ", " items ++ ")"

def pathText (path : List Coord) : String := listText (path.map (coordText number))

def polygonText (polygon : Polygon) : String := listText (polygon.rings.map (pathText number))

/-- The tag, and the body if there is one. -/
def tagged (tag : String) (empty : Bool) (body : String) : String :=
  if empty then tag ++ " EMPTY" else tag ++ " " ++ body

def taggedPolygon (p : Polygon) : String :=
  tagged "POLYGON" p.exterior.isEmpty (polygonText number p)

mutual

def wktWith : Geometry → String
  | point position => "POINT (" ++ coordText number position ++ ")"
  | line start stop => "LINESTRING " ++ pathText number [start, stop]
  | lineString path => tagged "LINESTRING" path.isEmpty (pathText number path)
  | polygon p => taggedPolygon number p
  | multiPoint points =>
    tagged "MULTIPOINT" points.isEmpty
      (listText (points.map fun p => "(" ++ coordText number p ++ ")"))
  | multiLineString lines =>
    tagged "MULTILINESTRING" lines.isEmpty (listText (lines.map (pathText number)))
  | multiPolygon polygons =>
    tagged "MULTIPOLYGON" polygons.isEmpty (listText (polygons.map (polygonText number)))
  | collection members =>
    tagged "GEOMETRYCOLLECTION" members.isEmpty (listText (wktOfAll members))
  | rect low high => taggedPolygon number (.rectangle low high)
  | triangle a b c => taggedPolygon number (.triangle a b c)

def wktOfAll : List Geometry → List String
  | [] => []
  | member :: rest => wktWith member :: wktOfAll rest

end

end

/-- Coordinates in the fewest digits that read back, never with an exponent. -/
def wkt (geometry : Geometry) : String := wktWith Decimal.Layout.plain.write geometry

end MotionImagery.Geometry
