import MotionImagery.Proofs.Checksum.Bursts

/-!
The check of table sections as it is defined: a register of 32 cells through which a message goes bit
by bit. What is looked up in the table for a byte is what eight bits do.
-/
namespace MotionImagery.Checksum

/-- One bit is compared with the one that falls out of the register at the top. Where the two differ
the polynomial is taken away from what is left. -/
def serialStep (cells : BitVec 32) (bit : Bool) : BitVec 32 :=
  cells <<< 1 ^^^ if cells.msb ^^ bit then 0x04C11DB7#32 else 0#32

/-- The register starts with all cells set, and is not inverted in the end. -/
def serialCheck (bytes : Bytes) : BitVec 32 :=
  (Bits.ofBytes bytes).foldl serialStep 0xFFFFFFFF#32

/-- A bit that enters at the top turns the bit there around and then falls out with it. -/
theorem toBitVec_shiftBit (register : UInt32) (bit : Bool) :
    (shiftBit register bit).toBitVec = serialStep register.toBitVec bit := by
  have top : (0x80000000 : UInt32).toBitVec = 0x80000000#32 := rfl
  rw [shiftBit, toBitVec_shift, serialStep]
  cases bit with
  | false => simp [polynomial]
  | true =>
    have gone : 0x80000000#32 <<< 1 = 0#32 := rfl
    have turned : (register.toBitVec ^^^ 0x80000000#32).msb = !register.toBitVec.msb :=
      BitVec.msb_xor.trans (Bool.xor_true _)
    rw [if_pos rfl, UInt32.toBitVec_xor, top, BitVec.shiftLeft_xor_distrib, gone, turned]
    simp [polynomial]

theorem toBitVec_feed (register : UInt32) (bits : List Bool) :
    (feed register bits).toBitVec = bits.foldl serialStep register.toBitVec := by
  induction bits generalizing register with
  | nil => rfl
  | cons bit rest ih =>
    rw [List.foldl_cons, ← toBitVec_shiftBit, ← ih]
    rfl

theorem toBitVec_crc32 (bytes : Bytes) : (crc32 bytes).toBitVec = serialCheck bytes := by
  rw [crc32_eq_feed, toBitVec_feed]
  rfl

/-- **The table computes the check that is defined bit by bit**, and a message with its check behind
it leaves nothing in the register. -/
theorem table_computes_check (bytes : Bytes) :
    (crc32 bytes).toBitVec = serialCheck bytes ∧
      crc32 (bytes ++ toBigEndian 4 (crc32 bytes).toNat) = 0 :=
  ⟨toBitVec_crc32 bytes, crc32_with_check bytes⟩

/-- The association table of one program. -/
example : serialCheck [0x00, 0xB0, 0x0D, 0x00, 0x01, 0xC1, 0x00, 0x00, 0x00, 0x01, 0xF0, 0x00] =
    0x2AB104B2#32 := by decide +kernel

end MotionImagery.Checksum
