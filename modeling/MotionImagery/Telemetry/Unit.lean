import MotionImagery.Telemetry.Packet
import MotionImagery.Transport.Pes

/-!
Telemetry units: elementary packets whose payload holds a telemetry packet, either as it is or,
on the metadata stream, in a cell with a header of its own.
-/
namespace MotionImagery.Telemetry
open Transport

/-- A decoded unit. Units that came with a timestamp are synchronous. -/
structure TelemetryUnit where
  fields : Fields
  timestamp : Option Nat

namespace TelemetryUnit

def isSynchronous (unit : TelemetryUnit) : Bool := unit.timestamp.isSome

/-- The cell header ends with the length of the cell's content. -/
def cellHeaderLength : Nat := 5

/-- The content of a metadata cell: as many bytes as it announces, or as there are; none when
there is nothing after the header. -/
def cellContent? (payload : Bytes) : Option Bytes :=
  match payload with
  | _ :: _ :: _ :: high :: low :: content =>
    if content.isEmpty then none else some (content.take (high.toNat * 256 + low.toNat))
  | _ => none

/-- The telemetry bytes of a unit and the time they belong to. -/
def content? (header : PesHeader) (payload : Bytes) : Option (Bytes × Option Nat) :=
  if header.streamId = PesHeader.metadataStream then
    (cellContent? payload).map fun content => (content, header.timestamp)
  else some (payload, none)

/-- Decodes a unit. Units too short to hold a universal key, as they occur at the ends of a
stream, decode to nothing. -/
def decode (context : Context) (pes : Bytes) : Except TelemetryError (Option TelemetryUnit) :=
  match PesHeader.parse pes with
  | .error fault => .error (.invalidPes fault)
  | .ok header =>
    match content? header (header.payload pes) with
    | none => .ok none
    | some (content, timestamp) =>
      if content.length < Context.keyLength then .ok none
      else (Telemetry.decode context content).map fun fields => some ⟨fields, timestamp⟩

end TelemetryUnit

end MotionImagery.Telemetry
