import MotionImagery.Bits.Reader
import MotionImagery.Text.Numeral
import MotionImagery.Transport.Demux
import MotionImagery.Transport.Pes

/-!
What kind of frame a video unit holds. Only markers are looked at: the type byte of coded units
in one format, the coding type in picture headers of the other. Both stand after the start code
`00 00 01`.
-/
namespace MotionImagery.Video
open Transport

inductive FrameType where
  /-- Decodes without any other frame. -/
  | idr
  | nonIdr
  | unknown
  deriving DecidableEq, Repr

inductive ClassifyError where
  | invalidPes (fault : PesFault)
  | truncatedPicture (offset : Nat)
  deriving DecidableEq, Repr

def ClassifyError.message : ClassifyError → String
  | invalidPes fault => "Invalid PES header: " ++ fault.message
  | truncatedPicture offset => "Truncated picture header at offset " ++ Text.decimal offset

/-- What follows each start code, with the offset at which it begins. -/
def startCodes (offset : Nat) : Bytes → List (Nat × Bytes)
  | [] => []
  | first :: rest =>
    let here := match rest with
      | second :: third :: coded =>
        if first = 0 ∧ second = 0 ∧ third = 1 then [(offset + 3, coded)] else []
      | _ => []
    here ++ startCodes (offset + 1) rest

namespace H264

/-- Unit type of a coded slice of a frame that decodes on its own. -/
def idrSlice : Nat := 5

def classify (payload : Bytes) : FrameType :=
  if (startCodes 0 payload).any fun (_, coded) =>
      coded.head?.any fun header => decide (header.toNat % 32 = idrSlice) then .idr
  else .nonIdr

end H264

namespace Mpeg2

def pictureStartCode : UInt8 := 0x00

def intraCoded : Nat := 1

/-- The coding type stands after ten bits of temporal reference and has three bits. -/
def codingType? (header : Bytes) : Option Nat := do
  let reader ← (Bits.Reader.ofBytes header).skip? 10
  let (codingType, _) ← reader.read? 3
  return codingType

/-- The coding types of all pictures, in order. -/
def codingTypes : List (Nat × Bytes) → Except ClassifyError (List Nat)
  | [] => .ok []
  | (offset, coded) :: rest =>
    match coded with
    | [] => codingTypes rest
    | code :: header =>
      if code = pictureStartCode then
        match codingType? header with
        | none => .error (.truncatedPicture offset)
        | some codingType => (codingTypes rest).map (codingType :: ·)
      else codingTypes rest

/-- A unit decodes on its own when it holds pictures and all of them are intra coded. -/
def classify (payload : Bytes) : Except ClassifyError FrameType :=
  (codingTypes (startCodes 0 payload)).map fun types =>
    if !types.isEmpty && types.all (· == intraCoded) then .idr else .nonIdr

end Mpeg2

/-- Units of streams that are not video are of unknown type. -/
def classify (unit : ElementaryUnit) : Except ClassifyError FrameType :=
  match unit.kind with
  | .video codec =>
    match PesHeader.parse unit.data with
    | .error fault => .error (.invalidPes fault)
    | .ok header =>
      match codec with
      | .h264 => .ok (H264.classify (header.payload unit.data))
      | .mpeg2 => Mpeg2.classify (header.payload unit.data)
  | _ => .ok .unknown

end MotionImagery.Video
