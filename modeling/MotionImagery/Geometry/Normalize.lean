import MotionImagery.Geometry.Order

/-!
A form that does not show where a line or ring was begun, which way it was gone along, nor in
which order points, lines, polygons and holes were listed. Lines start at their smaller end, rings
at their smallest coordinate; shells go clockwise and holes the other way. Members of a collection
keep their order.

The sense of a ring is a parameter, so that it can be told exactly or by rounded arithmetic.
-/
namespace MotionImagery.Geometry

/-- Twice the area that a ring encloses, positive when it goes counter-clockwise; the numbers may
be of any kind. -/
def shoelace {α : Type} [Mul α] [Sub α] [Add α] (zero : α) : List (α × α) → α
  | a :: b :: rest => go zero a (b :: rest)
  | _ => zero
where
  go (sum : α) (a : α × α) : List (α × α) → α
    | [] => sum
    | b :: rest => go (sum + (a.1 * b.2 - b.1 * a.2)) b rest

/-- The sense of a ring by rounded arithmetic. -/
def isCounterclockwise (ring : List Coord) : Bool :=
  decide (0.0 < shoelace (0.0 : Float) (ring.map fun c => (c.x, c.y)))

/-- Turns a line around when its last coordinate is the smaller end. Where both ends are alike,
the coordinates next to them decide. -/
def normalizeLine (line : List Coord) : List Coord :=
  if pathNotAfter line line.reverse then line else line.reverse

/-- Where the smallest coordinate is first met. -/
def smallestIndex : List Coord → Nat
  | [] => 0
  | first :: rest => go 0 first 1 rest
where
  go (best : Nat) (smallest : Coord) (index : Nat) : List Coord → Nat
    | [] => best
    | c :: rest =>
      if c.before smallest then go index c (index + 1) rest
      else go best smallest (index + 1) rest

/-- The fewest coordinates of a ring that encloses something. -/
def leastRing : Nat := 4

section
variable (counterclockwise : List Coord → Bool)

/-- Lines that are no rings are left as they are. -/
def normalizeRing (clockwise : Bool) (ring : List Coord) : List Coord :=
  if ring.length < leastRing || !isClosed ring then ring
  else
    let path := ring.dropLast
    let start := smallestIndex path
    let turned := path.drop start ++ path.take start
    let closed := turned ++ turned.take 1
    if counterclockwise closed = clockwise then closed.reverse else closed

def normalizePolygon (polygon : Polygon) : Polygon :=
  .ofRings (normalizeRing counterclockwise true polygon.exterior)
    ((polygon.interiors.map (normalizeRing counterclockwise false)).mergeSort pathNotAfter)

mutual

def normalizeWith : Geometry → Geometry
  | lineString path => lineString (normalizeLine path)
  | polygon p => polygon (normalizePolygon counterclockwise p)
  | multiPoint points => multiPoint (points.mergeSort Coord.notAfter)
  | multiLineString lines =>
    multiLineString ((lines.map normalizeLine).mergeSort pathNotAfter)
  | multiPolygon polygons =>
    multiPolygon ((polygons.map (normalizePolygon counterclockwise)).mergeSort
      fun p q => pathNotAfter p.exterior q.exterior)
  | collection members => collection (normalizeAll members)
  | rect low high => polygon (normalizePolygon counterclockwise (.rectangle low high))
  | triangle a b c => polygon (normalizePolygon counterclockwise (.triangle a b c))
  | point position => point position
  | line start stop => line start stop

def normalizeAll : List Geometry → List Geometry
  | [] => []
  | member :: rest => normalizeWith member :: normalizeAll rest

end

end

def normalize (geometry : Geometry) : Geometry := normalizeWith isCounterclockwise geometry

end MotionImagery.Geometry
