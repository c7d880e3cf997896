import MotionImagery.Attribute.Map
import MotionImagery.Attribute.Name
import MotionImagery.Geometry.Merge

/-!
What is recorded of a whole stream: where and when its chunks were taken, and their file names.

How two areas are united is a parameter of taking a chunk in.
-/
namespace MotionImagery.Output

/-- The attribute that lists the files of the chunks. -/
def childrenName : String := "children"

structure StreamRecord where
  name : String
  chunks : Nat
  attributes : Attributes

namespace StreamRecord

def new (name : String) : StreamRecord := ⟨name, 0, []⟩

def locationOf? (attributes : Attributes) : Option Geometry :=
  (attributes.first? AttributeName.location).bind AttributeValue.geometry?

section
variable (unite : List Polygon → List Polygon → List Polygon)

/-- The location of the stream with that of a chunk, if the chunk has one. -/
def mergedLocation? (stream chunk : Attributes) : Option Geometry :=
  (locationOf? chunk).map fun location =>
    (locationOf? stream).elim location fun before =>
      (Geometry.mergeWith unite before location).normalize

/-- A location that is not valid leaves the stream's as it was. -/
def updateLocation (chunk attributes : Attributes) : Attributes :=
  match mergedLocation? unite attributes chunk with
  | some location =>
    if location.isValid then attributes.setSingle AttributeName.location (.geometry location)
    else attributes
  | none => attributes

end

/-- The beginning is that of the first chunk that has one, the end that of the last. -/
def updateTimes (chunk attributes : Attributes) : Attributes :=
  let begun :=
    if Keyed.contains AttributeName.temporalStart attributes then attributes
    else (chunk.first? AttributeName.temporalStart).elim attributes fun start =>
      attributes.setSingle AttributeName.temporalStart start
  (chunk.first? AttributeName.temporalEnd).elim begun fun stop =>
    begun.setSingle AttributeName.temporalEnd stop

def addChild (file : String) (attributes : Attributes) : Attributes :=
  let children := (Keyed.find? childrenName attributes).getD []
  attributes.set childrenName (children ++ [.text file])

/-- Takes in a chunk that was written to a file. -/
def updateWith (unite : List Polygon → List Polygon → List Polygon) (file : String)
    (chunk : Attributes) (record : StreamRecord) : StreamRecord :=
  { record with
    chunks := record.chunks + 1
    attributes := addChild file (updateTimes chunk (updateLocation unite chunk record.attributes)) }

end StreamRecord

end MotionImagery.Output
