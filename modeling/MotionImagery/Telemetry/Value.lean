import MotionImagery.Bytes
import MotionImagery.Keyed
import MotionImagery.Text.Json

/-!
Decoded values of telemetry elements, and the fields that a local set decodes to.
-/
namespace MotionImagery.Telemetry

inductive Value where
  /-- A number below `2 ^ 64`. -/
  | unsigned (number : Nat)
  /-- A measure, already mapped onto its range. -/
  | float (number : Float)
  | text (content : String)
  | bytes (content : Bytes)
  /-- A nested local set. -/
  | set (fields : List (String × Value))

/-- Values under field names. -/
abbrev Fields := Keyed String Value

namespace Value

def unsigned? : Value → Option Nat
  | unsigned number => some number
  | _ => none

def float? : Value → Option Float
  | float number => some number
  | _ => none

def text? : Value → Option String
  | text content => some content
  | _ => none

mutual

def toJson : Value → Text.Json
  | unsigned number => .integer number
  | float number => .float number
  | text content => .text content
  | bytes content => .array (content.map fun byte => .integer byte.toNat)
  | set fields => .object (fieldsToJson fields)

def fieldsToJson : List (String × Value) → List (String × Text.Json)
  | [] => []
  | (name, value) :: rest => (name, toJson value) :: fieldsToJson rest

end

end Value

end MotionImagery.Telemetry
