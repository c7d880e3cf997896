import MotionImagery.Bytes

/-!
The header of an elementary packet, and the 33-bit timestamp that is spread over five bytes
between marker bits.
-/
namespace MotionImagery.Transport

inductive PesFault where
  | tooShort
  | missingStartCode
  | tooShortForTimestamp
  deriving DecidableEq, Repr

def PesFault.message : PesFault → String
  | tooShort => "PES header too short"
  | missingStartCode => "Missing PES start code"
  | tooShortForTimestamp => "PES header too short for PTS"

/-- Three, fifteen and fifteen bits; the marker bits around them are not looked at. -/
def readTimestamp (a b c d e : UInt8) : Nat :=
  a.toNat / 2 % 8 * 0x40000000 + (b.toNat * 256 + c.toNat) / 2 * 0x8000 + (d.toNat * 256 + e.toNat) / 2

structure PesHeader where
  streamId : Nat
  /-- The bytes after the length field; zero leaves the length open. -/
  packetLength : Nat
  /-- The bytes of optional fields after the nine fixed ones. -/
  optionalLength : Nat
  timestamp : Option Nat
  deriving DecidableEq, Repr

namespace PesHeader

/-- Stream id of synchronous metadata. -/
def metadataStream : Nat := 0xFC

def fixedSize : Nat := 9

def parse (data : Bytes) : Except PesFault PesHeader :=
  match data with
  | zero :: zero' :: one :: streamId :: lengthHigh :: lengthLow :: _ :: flags :: optionalLength ::
      rest =>
    let header := {
      streamId := streamId.toNat
      packetLength := lengthHigh.toNat * 256 + lengthLow.toNat
      optionalLength := optionalLength.toNat
      timestamp := none
    }
    if ¬(zero = 0 ∧ zero' = 0 ∧ one = 1) then .error .missingStartCode
    else if flags.toNat < 128 then .ok header
    else match rest with
      | a :: b :: c :: d :: e :: _ =>
        .ok { header with timestamp := some (readTimestamp a b c d e) }
      | _ => .error .tooShortForTimestamp
  | _ => .error .tooShort

def payloadOffset (header : PesHeader) : Nat := fixedSize + header.optionalLength

/-- The payload of the packet `data` that this header was read from: an open length runs to
the end of the data, a stated one at most that far. -/
def payload (header : PesHeader) (data : Bytes) : Bytes :=
  let stop := if header.packetLength = 0 then data.length else 6 + header.packetLength
  slice data header.payloadOffset stop

end PesHeader

end MotionImagery.Transport
