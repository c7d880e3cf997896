import MotionImagery.Geometry.WellKnownText
import MotionImagery.Telemetry.Value
import MotionImagery.Text.Blank
import MotionImagery.Text.Utf8
import MotionImagery.Time.Moment

/-!
Values of attributes, and how they are made of telemetry values and written as JSON.
-/
namespace MotionImagery

inductive AttributeValue where
  | text (content : String)
  /-- A number from `-2 ^ 63` to `2 ^ 63 - 1`. -/
  | integer (number : Int)
  | float (number : Float)
  | date (instant : Time.Instant)
  | geometry (shape : Geometry)

namespace AttributeValue

/-- The number that the low 64 bits write in two's complement. -/
def wrap (number : Nat) : Int := (number : Int).bmod 0x10000000000000000

/-- Bytes are read as text; a nested set has no attribute. -/
def ofTelemetry? : Telemetry.Value → Option AttributeValue
  | .unsigned number => some (integer (wrap number))
  | .float number => some (float number)
  | .text content => some (text content)
  | .bytes content => some (text (Text.decode content))
  | .set _ => none

def text? : AttributeValue → Option String
  | text content => some content
  | _ => none

def integer? : AttributeValue → Option Int
  | integer number => some number
  | _ => none

def float? : AttributeValue → Option Float
  | float number => some number
  | _ => none

def date? : AttributeValue → Option Time.Instant
  | date instant => some instant
  | _ => none

def geometry? : AttributeValue → Option Geometry
  | geometry shape => some shape
  | _ => none

def point? : AttributeValue → Option Coord
  | geometry (.point position) => some position
  | _ => none

/-- Text of white space only, or of nothing. -/
def isBlank : AttributeValue → Bool
  | text content => Text.isBlank content
  | _ => false

/-- Equality of kind and content; numbers are equal by value, and one that is none equals
nothing. -/
def same : AttributeValue → AttributeValue → Bool
  | text a, text b => a == b
  | integer a, integer b => a == b
  | float a, float b => a == b
  | date a, date b => a == b
  | geometry a, geometry b => a == b
  | _, _ => false

instance : BEq AttributeValue := ⟨same⟩

def toJson : AttributeValue → Text.Json
  | text content => .text content
  | integer number => .integer number
  | float number => .float number
  | date instant => .text instant.text
  | geometry shape => .text shape.wkt

end AttributeValue

end MotionImagery
