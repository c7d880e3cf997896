import MotionImagery.Checksum.RunningSum
import MotionImagery.Telemetry.LocalSet

/-!
Telemetry packets: a universal key, a length and a local set, one after the other. The first
packet under the wanted key is decoded, and the sum in its checksum element has to agree with
its bytes.
-/
namespace MotionImagery.Telemetry

/-- Holds the checksum field against the sum of the packet's bytes. -/
def verifyChecksum (packet : Bytes) (fields : Fields) : Except TelemetryError Fields :=
  match (Keyed.find? FieldName.checksum fields).bind Value.unsigned? with
  | none => .error .missingChecksum
  | some number =>
    let expected := number % 0x10000
    let actual := Checksum.runningSum packet
    if expected = actual then .ok fields else .error (.checksumMismatch expected actual)

/-- Looks for the wanted key from `offset` on, where `data` begins. -/
def decodeFrom (context : Context) (offset : Nat) (data : Bytes) : Except TelemetryError Fields :=
  if data.length < Context.keyLength then .error .missingLocalSet
  else
    match _read : readLength? (data.drop Context.keyLength) with
    | none => .error (.invalidLength (offset + Context.keyLength))
    | some (length, size) =>
      let remaining := data.length - Context.keyLength - size
      if remaining < length then .error (.truncatedSet length remaining)
      else
        let headerLength := Context.keyLength + size
        if data.take Context.keyLength = context.key then
          match LocalSet.parse context.table (slice data headerLength (headerLength + length)) with
          | .error error => .error error
          | .ok fields => verifyChecksum (data.take (headerLength + length)) fields
        else decodeFrom context (offset + headerLength + length) (data.drop (headerLength + length))
termination_by data.length
decreasing_by
  have inside := size_of_readLength? _read
  simp only [List.length_drop, Context.keyLength] at *
  omega

def decode (context : Context) (data : Bytes) : Except TelemetryError Fields :=
  decodeFrom context 0 data

end MotionImagery.Telemetry
