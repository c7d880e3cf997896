import MotionImagery.Bytes

/-!
The 188-byte transport packet: a 4-byte header, an optional adaptation field, and a payload
that runs to the end of the packet.
-/
namespace MotionImagery.Transport

def packetSize : Nat := 188

def syncByte : UInt8 := 0x47

structure Header where
  transportError : Bool
  unitStart : Bool
  pid : Nat
  adaptationControl : Nat
  counter : Nat
  deriving DecidableEq, Repr

namespace Header

/-- The three bytes that follow the sync byte. -/
def ofBytes (first second third : UInt8) : Header where
  transportError := decide (128 ≤ first.toNat)
  unitStart := decide (first.toNat / 64 % 2 = 1)
  pid := first.toNat % 32 * 256 + second.toNat
  adaptationControl := third.toNat / 16 % 4
  counter := third.toNat % 16

def hasAdaptation (header : Header) : Bool := decide (header.adaptationControl / 2 % 2 = 1)

def hasPayload (header : Header) : Bool := decide (header.adaptationControl % 2 = 1)

end Header

/-- Why a byte string is not a packet. -/
inductive PacketFault where
  | tooShort
  | badSync
  deriving DecidableEq, Repr

def PacketFault.message : PacketFault → String
  | tooShort => "Packet too short"
  | badSync => "Invalid sync byte"

structure Packet where
  header : Header
  /-- The discontinuity flag of the adaptation field, if there is such a field. -/
  discontinuity : Option Bool
  payload : Bytes
  deriving DecidableEq, Repr

namespace Packet

/-- Where the payload begins, given the length byte of the adaptation field. -/
def payloadOffset (header : Header) (fieldLength : UInt8) : Nat :=
  if header.hasAdaptation then 5 + fieldLength.toNat else 4

/-- Reads the first 188 bytes of `data`; what follows them is not looked at. -/
def parse (data : Bytes) : Except PacketFault Packet :=
  if data.length < packetSize then .error .tooShort
  else match data with
    | sync :: first :: second :: third :: fieldLength :: flags :: _ =>
      if sync = syncByte then
        let header := Header.ofBytes first second third
        .ok {
          header
          discontinuity :=
            if header.hasAdaptation then
              some (decide (0 < fieldLength.toNat) && decide (128 ≤ flags.toNat))
            else none
          payload :=
            if header.hasPayload then slice data (payloadOffset header fieldLength) packetSize
            else []
        }
      else .error .badSync
    | _ => .error .tooShort

def carriesPayload (packet : Packet) : Bool :=
  packet.header.hasPayload && !packet.payload.isEmpty

/-- The section bytes of a table-carrying packet. A packet that starts a unit has a pointer
byte first, which counts the bytes to pass over. -/
def sectionPayload? (packet : Packet) : Option Bytes :=
  if packet.carriesPayload then
    if packet.header.unitStart then
      match packet.payload with
      | pointer :: rest => if pointer.toNat < rest.length then some (rest.drop pointer.toNat) else none
      | [] => none
    else some packet.payload
  else none

/-- Whether the packet announces that its counter may jump. -/
def isDiscontinuous (packet : Packet) : Bool := packet.discontinuity.getD false

end Packet

end MotionImagery.Transport
