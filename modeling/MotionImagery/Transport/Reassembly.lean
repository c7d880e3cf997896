import MotionImagery.Transport.Packet

/-!
Packets out of datagrams. Datagram boundaries need not be packet boundaries: a partial packet
is held back for the next datagram, and bytes in front of a sync byte are skipped.
-/
namespace MotionImagery.Transport

/-- What a byte string splits into: whole packets, the bytes held back, the bytes skipped. -/
structure Split where
  packets : List Bytes
  heldBack : Bytes
  skipped : Nat
  deriving DecidableEq, Repr

namespace Split

/-- The bytes from the first sync byte on. -/
def align (data : Bytes) : Bytes := data.dropWhile (· ≠ syncByte)

theorem length_align_le (data : Bytes) : (align data).length ≤ data.length :=
  (List.dropWhile_sublist _).length_le

/-- Packets are taken one after the other, each from the next sync byte on. -/
def ofBytes (data : Bytes) : Split :=
  if (align data).length < packetSize then
    ⟨[], align data, data.length - (align data).length⟩
  else
    let rest := ofBytes ((align data).drop packetSize)
    ⟨(align data).take packetSize :: rest.packets, rest.heldBack,
      data.length - (align data).length + rest.skipped⟩
termination_by data.length
decreasing_by
  have := length_align_le data
  simp only [List.length_drop, packetSize] at *
  omega

end Split

structure Reassembler where
  heldBack : Bytes
  skipped : Nat
  deriving DecidableEq, Repr

namespace Reassembler

def empty : Reassembler := ⟨[], 0⟩

/-- Takes a datagram and gives every packet it completes, in order. -/
def push (r : Reassembler) (datagram : Bytes) : List Bytes × Reassembler :=
  let split := Split.ofBytes (r.heldBack ++ datagram)
  (split.packets, ⟨split.heldBack, r.skipped + split.skipped⟩)

/-- Drops a partial packet; it does not count as skipped. -/
def flush (r : Reassembler) : Reassembler := { r with heldBack := [] }

end Reassembler

end MotionImagery.Transport
