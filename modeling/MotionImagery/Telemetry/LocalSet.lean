import MotionImagery.Telemetry.FieldTable
import MotionImagery.Telemetry.Length
import MotionImagery.Text.Numeral
import MotionImagery.Transport.Pes

/-!
Local sets: elements of a tag byte, a length and that many value bytes, one after the other. Of
several elements under one name the last that decodes to a value counts.
-/
namespace MotionImagery.Telemetry

/-- Why a telemetry unit is not accepted. -/
inductive TelemetryError where
  | invalidPes (fault : Transport.PesFault)
  | invalidLength (offset : Nat)
  | truncated (tag expected actual : Nat)
  | truncatedSet (expected actual : Nat)
  | missingLocalSet
  | missingChecksum
  | checksumMismatch (expected actual : Nat)
  deriving DecidableEq, Repr

def TelemetryError.message : TelemetryError → String
  | invalidPes fault => "Invalid PES header: " ++ fault.message
  | invalidLength offset => "Invalid BER length at offset " ++ Text.decimal offset
  | truncated tag expected actual =>
    "Truncated element: tag " ++ Text.decimal tag ++ " needs " ++ Text.decimal expected ++
      " bytes, got " ++ Text.decimal actual
  | truncatedSet expected actual =>
    "Truncated set: needs " ++ Text.decimal expected ++ " bytes, got " ++ Text.decimal actual
  | missingLocalSet => "UAS Datalink local set not found"
  | missingChecksum => "Checksum element not found"
  | checksumMismatch expected actual =>
    "Checksum mismatch: expected 0x" ++ Text.hex4 expected ++ ", computed 0x" ++ Text.hex4 actual

/-- The length field at an offset of `data`. -/
def readLengthAt (data : Bytes) (offset : Nat) : Except TelemetryError (Nat × Nat) :=
  match readLength? (data.drop offset) with
  | some read => .ok read
  | none => .error (.invalidLength offset)

namespace LocalSet

/-- Decodes the elements that start `offset` bytes into their set and adds them to the fields
found before them. -/
def parseElements (table : FieldTable) (fields : Fields) (offset : Nat) (data : Bytes) :
    Except TelemetryError Fields :=
  match data with
  | [] => .ok fields
  | tag :: afterTag =>
    match h : readLength? afterTag with
    | none => .error (.invalidLength (offset + 1))
    | some (length, size) =>
      let remaining := afterTag.length - size
      if remaining < length then .error (.truncated tag.toNat length remaining)
      else
        let value := (afterTag.drop size).take length
        let rest := (afterTag.drop size).drop length
        let next := offset + 1 + size + length
        match Keyed.find? tag.toNat table with
        | none => parseElements table fields next rest
        | some (name, .set nested) =>
          match parseElements nested [] 0 value with
          | .error error => .error error
          | .ok inner => parseElements table (Keyed.put name (.set inner) fields) next rest
        | some (name, decoder) =>
          match decoder.scalar? value with
          | none => parseElements table fields next rest
          | some decoded => parseElements table (Keyed.put name decoded fields) next rest
termination_by data.length
decreasing_by
  all_goals
    have := size_of_readLength? h
    simp only [List.length_cons, List.length_take, List.length_drop]
    omega

def parse (table : FieldTable) (data : Bytes) : Except TelemetryError Fields :=
  parseElements table [] 0 data

end LocalSet

end MotionImagery.Telemetry
