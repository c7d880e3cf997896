import MotionImagery.Bytes

/-!
The 32-bit check of table sections: polynomial `0x04C11DB7`, register started at all ones,
most significant bit first, no final inversion. `shiftBit` is the definition, one bit of the
shift register at a time; `crc32` steps a whole byte at a time through a table.
-/
namespace MotionImagery.Checksum

def polynomial : UInt32 := 0x04C11DB7

def initialRegister : UInt32 := 0xFFFFFFFF

/-- Shifts the register by one place and divides when a one falls out at the top. -/
def shift (register : UInt32) : UInt32 :=
  if register &&& 0x80000000 = 0 then register <<< 1 else (register <<< 1) ^^^ polynomial

/-- One bit of the message enters at the top of the register. -/
def shiftBit (register : UInt32) (bit : Bool) : UInt32 :=
  shift (if bit then register ^^^ 0x80000000 else register)

/-- What eight shifts make of a byte that stands at the top of the register. -/
def remainderOf (byte : UInt8) : UInt32 :=
  shift (shift (shift (shift (shift (shift (shift (shift (byte.toUInt32 <<< 24))))))))

def table : Vector UInt32 256 :=
  Vector.ofFn fun i => remainderOf (UInt8.ofNat i.val)

/-- The table entry of a byte. -/
def lookup (byte : UInt8) : UInt32 :=
  table.get ⟨byte.toNat, byte.toNat_lt⟩

/-- Eight shifts at once: the top byte is looked up, the rest moves along. -/
def shiftByte (register : UInt32) (byte : UInt8) : UInt32 :=
  (register <<< 8) ^^^ lookup ((register >>> 24).toUInt8 ^^^ byte)

def crc32 (bytes : Bytes) : UInt32 :=
  bytes.foldl shiftByte initialRegister

end MotionImagery.Checksum
