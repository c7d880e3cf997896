import MotionImagery.Bytes

/-!
The 16-bit running sum that seals a telemetry packet: bytes at even offsets count in the high
octet, those at odd offsets in the low one.
-/
namespace MotionImagery.Checksum

/-- The sum of all the bytes from offset `0`, before it is cut to 16 bits. -/
def octetSum : Bytes → Nat
  | [] => 0
  | [high] => high.toNat * 256
  | high :: low :: rest => high.toNat * 256 + low.toNat + octetSum rest

/-- The sum over all bytes but the last two, which hold the sum itself. -/
def runningSum (packet : Bytes) : Nat :=
  octetSum (packet.take (packet.length - 2)) % 0x10000

end MotionImagery.Checksum
