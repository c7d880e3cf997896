import MotionImagery.Attribute.Value

/-!
Attributes under their names, each with one or more values.
-/
namespace MotionImagery

abbrev Attributes := Keyed String (List AttributeValue)

namespace Attributes

/-- Replaces all values of an attribute; without values it goes away. -/
def set (name : String) (values : List AttributeValue) (attributes : Attributes) : Attributes :=
  if values.isEmpty then Keyed.erase name attributes else Keyed.put name values attributes

def setSingle (name : String) (value : AttributeValue) (attributes : Attributes) : Attributes :=
  Keyed.put name [value] attributes

def first? (name : String) (attributes : Attributes) : Option AttributeValue :=
  (Keyed.find? name attributes).bind List.head?

def toJson (attributes : Attributes) : Text.Json :=
  .object (attributes.map fun (name, values) => (name, .array (values.map AttributeValue.toJson)))

end Attributes

end MotionImagery
