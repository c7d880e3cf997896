import MotionImagery.Bytes

/-!
Integers that stand for measures. A signed integer of some width is mapped from its least value
but one and its greatest onto a range; the least value itself says that the measure is out of
range. An unsigned integer is mapped from zero and its greatest value. The maps are the same in
every arithmetic.
-/
namespace MotionImagery.Telemetry

/-- The number of at most eight bytes; of more, the last eight count. -/
def readUnsigned (bytes : Bytes) : Nat := bigEndian bytes % 0x10000000000000000

/-- The two's complement number of `bits` bits. -/
def twosComplement (bits number : Nat) : Int :=
  if number < Nat.pow 2 (bits - 1) then number else (number : Int) - Nat.pow 2 bits

def bitsOf (width : Nat) : Nat := min 64 (8 * width)

/-- The two's complement number of at most eight bytes. -/
def readSigned (bytes : Bytes) : Int :=
  twosComplement (bitsOf bytes.length) (readUnsigned bytes)

/-- The greatest signed number of `width` bytes. -/
def signedLimit (width : Nat) : Nat := Nat.pow 2 (bitsOf width - 1) - 1

/-- The greatest unsigned number of `width` bytes. -/
def unsignedLimit (width : Nat) : Nat := Nat.pow 2 (bitsOf width) - 1

section
variable {α : Type} [Add α] [Sub α] [Mul α] [Div α]

/-- Maps `-limit … limit` onto `low … high`. -/
def interpolateSigned (ofInt : Int → α) (raw limit : Int) (low high : α) : α :=
  low + (ofInt raw + ofInt limit) * (high - low) / (ofInt limit * ofInt 2)

/-- Maps `0 … limit` onto `low … high`. -/
def interpolateUnsigned (ofInt : Int → α) (raw limit : Int) (low high : α) : α :=
  low + ofInt raw * (high - low) / ofInt limit

end

/-- The least signed number of `width` bytes, which stands for no measure. -/
def isOutOfRange (width : Nat) (raw : Int) : Bool := decide (raw = -(signedLimit width : Int) - 1)

def scaleSigned? (raw : Int) (width : Nat) (low high : Float) : Option Float :=
  if isOutOfRange width raw then none
  else some (interpolateSigned Float.ofInt raw (signedLimit width) low high)

def scaleUnsigned (raw width : Nat) (low high : Float) : Float :=
  interpolateUnsigned Float.ofInt raw (unsignedLimit width) low high

end MotionImagery.Telemetry
