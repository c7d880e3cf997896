import MotionImagery.Bytes

/-!
A cursor over the bits of a byte string, most significant bit first.
A step that asks for more bits than are left changes nothing.
-/
namespace MotionImagery.Bits

/-- The bits of a byte, most significant first. -/
def ofByte (byte : UInt8) : List Bool :=
  (List.range 8).map fun i => byte.toNat.testBit (7 - i)

def ofBytes (bytes : Bytes) : List Bool :=
  bytes.flatMap ofByte

theorem length_ofByte (byte : UInt8) : (ofByte byte).length = 8 := by simp [ofByte]

theorem length_ofBytes (bytes : Bytes) : (ofBytes bytes).length = 8 * bytes.length := by
  induction bytes with
  | nil => rfl
  | cons byte rest ih =>
    rw [ofBytes, List.flatMap_cons, List.length_append, ← ofBytes, ih, length_ofByte,
      List.length_cons]
    omega

/-- The number that the bits write, most significant first. -/
def toNat (bits : List Bool) : Nat :=
  bits.foldl (fun number bit => number * 2 + bit.toNat) 0

/-- The bit at a position that counts from the first bit of the first byte. -/
def bitAt (bytes : Bytes) (position : Nat) : Bool :=
  (bytes.getD (position / 8) 0).toNat.testBit (7 - position % 8)

/-- The bits before `position` have been read. -/
structure Reader where
  bytes : Bytes
  position : Nat
  deriving DecidableEq, Repr

namespace Reader

def ofBytes (bytes : Bytes) : Reader := ⟨bytes, 0⟩

def remaining (reader : Reader) : Nat := reader.bytes.length * 8 - reader.position

/-- The widest number that one step can read. -/
def widest : Nat := 32

def advance (reader : Reader) (count : Nat) : Reader :=
  { reader with position := reader.position + count }

def skip? (reader : Reader) (count : Nat) : Option Reader :=
  if count ≤ reader.remaining then some (reader.advance count) else none

/-- The next `count` bits. -/
def peek (reader : Reader) (count : Nat) : List Bool :=
  (List.range count).map fun i => bitAt reader.bytes (reader.position + i)

/-- The number formed by the next `count` bits, at most `widest` of them. -/
def read? (reader : Reader) (count : Nat) : Option (Nat × Reader) :=
  if count ≤ widest ∧ count ≤ reader.remaining then
    some (toNat (reader.peek count), reader.advance count)
  else none

end Reader

end MotionImagery.Bits
