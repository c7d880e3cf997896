import MotionImagery.Bits.Reader
import MotionImagery.Checksum.Crc32

/-!
What the check of table sections notices. A shift of the register is linear and loses nothing, so a
difference between two messages stays in the register once it has entered as a whole; one that takes
up no more bits than the register cannot cancel itself before.
-/
namespace MotionImagery.Checksum

/-! ## The register -/

theorem top_clear_iff (register : UInt32) :
    register &&& 0x80000000 = 0 ↔ register.toBitVec.msb = false := by
  have top : (0x80000000 : UInt32).toBitVec = BitVec.twoPow 32 31 := rfl
  rw [← UInt32.toBitVec_inj, UInt32.toBitVec_and, top, BitVec.and_twoPow, BitVec.msb_eq_getLsbD_last]
  cases register.toBitVec.getLsbD 31 with
  | false => simp
  | true => simp

theorem toBitVec_shift (register : UInt32) :
    (shift register).toBitVec = register.toBitVec <<< 1 ^^^
      if register.toBitVec.msb then polynomial.toBitVec else 0 := by
  have moved : (register <<< 1).toBitVec = register.toBitVec <<< 1 := rfl
  unfold shift
  cases top : register.toBitVec.msb with
  | false =>
    rw [if_pos ((top_clear_iff register).mpr top), moved]
    exact BitVec.xor_zero.symm
  | true =>
    have set : ¬register &&& 0x80000000 = 0 := by
      intro clear
      rw [top_clear_iff, top] at clear
      cases clear
    rw [if_neg set, UInt32.toBitVec_xor, moved]
    rfl

/-- Shifting is linear. -/
theorem shift_xor (a b : UInt32) : shift (a ^^^ b) = shift a ^^^ shift b := by
  have divided : ∀ s t : Bool, (if (s ^^ t) then polynomial.toBitVec else 0) =
      (if s then polynomial.toBitVec else 0) ^^^ if t then polynomial.toBitVec else 0 := by
    decide
  apply UInt32.toBitVec_inj.mp
  rw [UInt32.toBitVec_xor, toBitVec_shift, toBitVec_shift, toBitVec_shift, UInt32.toBitVec_xor,
    BitVec.msb_xor, BitVec.shiftLeft_xor_distrib, divided]
  ac_rfl

/-- Nothing is lost in a shift: the polynomial puts back what falls out. -/
theorem eq_zero_of_shift {register : UInt32} (zero : shift register = 0) : register = 0 := by
  have bits := toBitVec_shift register
  rw [zero] at bits
  have low := congrArg (BitVec.getLsbD · 0) bits
  cases top : register.toBitVec.msb with
  | true =>
    rw [top] at low
    simp [polynomial] at low
  | false =>
    rw [top] at bits
    apply UInt32.toBitVec_inj.mp
    apply BitVec.eq_of_getMsbD_eq
    intro i inside
    cases i with
    | zero => exact top
    | succ i =>
      have moved := congrArg (BitVec.getMsbD · i) bits
      simpa [BitVec.getMsbD_shiftLeft] using moved.symm

/-- A register whose lowest bit is clear comes back when it is moved down and then shifted. -/
theorem shift_moved_down {register : UInt32} (low : register.toBitVec.getLsbD 0 = false) :
    shift (register >>> 1) = register := by
  have moved : (register >>> 1).toBitVec = register.toBitVec >>> 1 := rfl
  have top : (register.toBitVec >>> 1).msb = false := by simp [BitVec.msb_ushiftRight]
  apply UInt32.toBitVec_inj.mp
  rw [toBitVec_shift, moved, top]
  apply BitVec.eq_of_getLsbD_eq
  intro i inside
  cases i with
  | zero => simpa using low.symm
  | succ i => simp [inside, Nat.add_comm 1]

/-! ## Messages -/

/-- What a message that enters bit by bit leaves in the register. -/
def feed (register : UInt32) (bits : List Bool) : UInt32 := bits.foldl shiftBit register

theorem feed_append (register : UInt32) (bits later : List Bool) :
    feed register (bits ++ later) = feed (feed register bits) later := List.foldl_append

theorem shiftBit_xor (a b : UInt32) (s t : Bool) :
    shiftBit (a ^^^ b) (s ^^ t) = shiftBit a s ^^^ shiftBit b t := by
  rw [shiftBit, shiftBit, shiftBit, ← shift_xor]
  congr 1
  cases s <;> cases t
  · rfl
  · exact UInt32.xor_assoc ..
  · simp only [Bool.xor_false, ↓reduceIte, Bool.false_eq_true]
    ac_rfl
  · have cancels : a ^^^ 0x80000000 ^^^ (b ^^^ 0x80000000) =
        a ^^^ b ^^^ (0x80000000 ^^^ 0x80000000) := by ac_rfl
    simp [cancels]

/-- What two messages leave behind differs by what their difference leaves. -/
theorem feed_xor {bits other : List Bool} (same : bits.length = other.length) (a b : UInt32) :
    feed (a ^^^ b) (List.zipWith xor bits other) = feed a bits ^^^ feed b other := by
  induction bits generalizing a b other with
  | nil =>
    rw [List.eq_nil_of_length_eq_zero same.symm]
    rfl
  | cons bit rest ih =>
    cases other with
    | nil => cases same
    | cons bit' rest' =>
      have step := ih (Nat.succ.inj same) (shiftBit a bit) (shiftBit b bit')
      rw [← shiftBit_xor] at step
      exact step

def zeros (count : Nat) : List Bool := List.replicate count false

theorem feed_zeros_succ (register : UInt32) (count : Nat) :
    feed register (zeros (count + 1)) = feed (shift register) (zeros count) := rfl

theorem feed_zeros_xor (count : Nat) (a b : UInt32) :
    feed (a ^^^ b) (zeros count) = feed a (zeros count) ^^^ feed b (zeros count) := by
  rw [← feed_xor rfl, zeros, List.zipWith_replicate]
  simp

theorem eq_zero_of_feed_zeros {count : Nat} {register : UInt32}
    (zero : feed register (zeros count) = 0) : register = 0 := by
  induction count generalizing register with
  | zero => exact zero
  | succ count ih =>
    rw [feed_zeros_succ] at zero
    exact eq_zero_of_shift (ih zero)

theorem feed_zero_zeros (count : Nat) : feed 0 (zeros count) = 0 := by
  induction count with
  | zero => rfl
  | succ count ih => exact ih

/-- The bits from the top of a register downwards; those that do not fit are not there. -/
def atTop : List Bool → UInt32
  | [] => 0
  | bit :: rest => (if bit then (0x80000000 : UInt32) else 0) ^^^ (atTop rest >>> 1)

theorem getMsbD_atTop (bits : List Bool) (i : Nat) :
    (atTop bits).toBitVec.getMsbD i = (decide (i < 32) && bits[i]?.getD false) := by
  induction bits generalizing i with
  | nil => simp [atTop]
  | cons bit rest ih =>
    have moved : (atTop rest >>> 1).toBitVec = (atTop rest).toBitVec >>> 1 := rfl
    rw [atTop, UInt32.toBitVec_xor, moved, BitVec.getMsbD_xor, BitVec.getMsbD_ushiftRight]
    cases i with
    | zero => cases bit <;> simp
    | succ i =>
      have below : (if bit then (0x80000000 : UInt32) else 0).toBitVec.getMsbD (i + 1) = false := by
        have only : ∀ j < 32, (0x80000000 : UInt32).toBitVec.getMsbD (j + 1) = false := by decide
        cases bit with
        | false => simp
        | true =>
          by_cases inside : i < 32
          · exact only i inside
          · exact BitVec.getMsbD_of_ge _ _ (by omega)
      rw [below, Bool.false_xor, Nat.add_sub_cancel, ih, List.getElem?_cons_succ]
      by_cases inside : i + 1 < 32
      · simp [inside, show i < 32 by omega]
      · simp [inside]

theorem low_atTop {bits : List Bool} (fits : bits.length < 32) :
    (atTop bits).toBitVec.getLsbD 0 = false := by
  have last := getMsbD_atTop bits 31
  rw [List.getElem?_eq_none (by omega), BitVec.getMsbD_eq_getLsbD] at last
  simpa using last

/-- Bits that fit into the register may as well be put there before they are shifted. -/
theorem feed_eq_feed_zeros {bits : List Bool} (fits : bits.length ≤ 32) (register : UInt32) :
    feed register bits = feed (register ^^^ atTop bits) (zeros bits.length) := by
  induction bits generalizing register with
  | nil => simp [feed, zeros, atTop]
  | cons bit rest ih =>
    have fits : rest.length < 32 := fits
    have entered : shiftBit register bit ^^^ atTop rest =
        shift (register ^^^ atTop (bit :: rest)) := by
      have down := shift_moved_down (low_atTop fits)
      rw [atTop, ← UInt32.xor_assoc, shift_xor, down, shiftBit]
      cases bit <;> simp
    calc feed register (bit :: rest)
      _ = feed (shiftBit register bit) rest := rfl
      _ = feed (shiftBit register bit ^^^ atTop rest) (zeros rest.length) := ih (Nat.le_of_lt fits) _
      _ = feed (register ^^^ atTop (bit :: rest)) (zeros (bit :: rest).length) := by
        rw [entered]
        rfl

theorem eq_zeros_of_atTop {bits : List Bool} (fits : bits.length ≤ 32) (zero : atTop bits = 0) :
    bits = zeros bits.length := by
  apply List.ext_getElem (by simp [zeros])
  intro i inside _
  have bit := getMsbD_atTop bits i
  rw [zero, List.getElem?_eq_getElem inside] at bit
  simpa [zeros, show i < 32 by omega] using bit.symm

/-- A burst that fits into the register stays in it, whatever stands around it. -/
theorem feed_burst_ne_zero {burst : List Bool} (fits : burst.length ≤ 32)
    (some_bit : burst ≠ zeros burst.length) (before behind : Nat) :
    feed 0 (zeros before ++ burst ++ zeros behind) ≠ 0 := by
  intro zero
  rw [feed_append, feed_append, feed_zero_zeros, feed_eq_feed_zeros fits, UInt32.zero_xor] at zero
  have left := eq_zero_of_feed_zeros (eq_zero_of_feed_zeros zero)
  exact some_bit (eq_zeros_of_atTop fits left)

/-! ## Bytes -/

theorem lookup_eq (byte : UInt8) : lookup byte = feed (byte.toUInt32 <<< 24) (zeros 8) := by
  have entry : lookup byte = remainderOf (UInt8.ofNat byte.toNat) := Vector.getElem_ofFn ..
  rw [entry, UInt8.ofNat_toNat]
  rfl

/-- A register moves down and back without loss when it has as many clear bits below. -/
theorem feed_zeros_of_low {register : UInt32} {count : Nat}
    (low : ∀ i < count, register.toBitVec.getLsbD i = false) {down : UInt32}
    (moved : down.toBitVec = register.toBitVec >>> count) : feed down (zeros count) = register := by
  induction count generalizing down with
  | zero => exact UInt32.toBitVec_inj.mp moved
  | succ count ih =>
    have half : down = (UInt32.ofBitVec (register.toBitVec >>> count)) >>> 1 := by
      apply UInt32.toBitVec_inj.mp
      rw [moved, BitVec.shiftRight_add]
      rfl
    have clear : (register.toBitVec >>> count).getLsbD 0 = false := by
      rw [BitVec.getLsbD_ushiftRight]
      exact low count (Nat.lt_succ_self count)
    rw [feed_zeros_succ, half, shift_moved_down clear]
    exact ih (fun i below => low i (Nat.lt_succ_of_lt below)) rfl

theorem atTop_ofByte (byte : UInt8) : atTop (Bits.ofByte byte) = byte.toUInt32 <<< 24 := by
  have raised : (byte.toUInt32 <<< 24).toBitVec = byte.toBitVec.setWidth 32 <<< 24 := rfl
  apply UInt32.toBitVec_inj.mp
  apply BitVec.eq_of_getMsbD_eq
  intro i inside
  rw [raised, getMsbD_atTop, BitVec.getMsbD_shiftLeft, BitVec.getMsbD_setWidth,
    BitVec.getMsbD_eq_getLsbD]
  have bit : byte.toBitVec.getLsbD (7 - i) = byte.toNat.testBit (7 - i) := rfl
  by_cases small : i < 8
  · simp [Bits.ofByte, inside, small, bit]
  · simp [Bits.ofByte, small]

/-- Shifted by a byte, a register keeps its low bytes and loses its top one. -/
theorem split_top (register : UInt32) (byte : UInt8) :
    register ^^^ byte.toUInt32 <<< 24 =
      (register <<< 8) >>> 8 ^^^ ((register >>> 24).toUInt8 ^^^ byte).toUInt32 <<< 24 := by
  apply UInt32.toBitVec_inj.mp
  change register.toBitVec ^^^ byte.toBitVec.setWidth 32 <<< 24 = register.toBitVec <<< 8 >>> 8 ^^^
    ((register.toBitVec >>> 24).setWidth 8 ^^^ byte.toBitVec).setWidth 32 <<< 24
  apply BitVec.eq_of_getLsbD_eq
  intro i inside
  simp only [BitVec.getLsbD_xor, BitVec.getLsbD_shiftLeft, BitVec.getLsbD_setWidth,
    BitVec.getLsbD_ushiftRight, inside, decide_true, Bool.true_and]
  by_cases high : i < 24
  · simp [high, show 8 + i < 32 by omega]
  · have back : 24 + (i - 24) = i := by omega
    simp [high, back, show i - 24 < 8 by omega, show i - 24 < 32 by omega,
      show ¬8 + i < 32 by omega]

/-- A look in the table does what eight shifts do. -/
theorem shiftByte_eq_feed (register : UInt32) (byte : UInt8) :
    shiftByte register byte = feed register (Bits.ofByte byte) := by
  have kept : feed ((register <<< 8) >>> 8) (zeros 8) = register <<< 8 := by
    have low : ∀ i < 8, (register <<< 8).toBitVec.getLsbD i = false := by
      intro i below
      have moved : (register <<< 8).toBitVec = register.toBitVec <<< 8 := rfl
      simp [moved, below]
    exact feed_zeros_of_low low rfl
  rw [feed_eq_feed_zeros (by rw [Bits.length_ofByte]; decide), atTop_ofByte, split_top,
    Bits.length_ofByte, feed_zeros_xor, kept, ← lookup_eq]
  rfl

theorem crc32_eq_feed (bytes : Bytes) : crc32 bytes = feed initialRegister (Bits.ofBytes bytes) := by
  unfold crc32 Bits.ofBytes
  generalize initialRegister = register
  induction bytes generalizing register with
  | nil => rfl
  | cons byte rest ih =>
    rw [List.foldl_cons, List.flatMap_cons, feed_append, ih, shiftByte_eq_feed]

/-! ## Residue -/

theorem shiftByte_top (register : UInt32) {byte : UInt8}
    (top : byte.toNat = register.toNat / 0x1000000) : shiftByte register byte = register <<< 8 := by
  have same : (register >>> 24).toUInt8 = byte := by
    apply UInt8.toNat_inj.mp
    rw [top, UInt32.toNat_toUInt8, UInt32.toNat_shiftRight, Nat.shiftRight_eq_div_pow]
    have := register.toNat_lt
    simp
    omega
  have nothing : lookup (byte ^^^ byte) = 0 := by
    rw [UInt8.xor_self, lookup_eq]
    exact feed_zero_zeros 8
  rw [shiftByte, same, nothing, UInt32.xor_zero]

/-- Behind its own check a message leaves nothing in the register. -/
theorem crc32_with_check (bytes : Bytes) :
    crc32 (bytes ++ toBigEndian 4 (crc32 bytes).toNat) = 0 := by
  have raised : ∀ register : UInt32,
      (register <<< 8).toNat = register.toNat * 0x100 % 0x100000000 := by
    intro register
    rw [UInt32.toNat_shiftLeft, Nat.shiftLeft_eq]
    rfl
  have last : ∀ number, (UInt8.ofNat number).toNat = number % 256 := fun number =>
    UInt8.toNat_ofNat
  unfold crc32
  rw [List.foldl_append]
  generalize bytes.foldl shiftByte initialRegister = register
  have small := register.toNat_lt
  simp only [toBigEndian, List.foldl_cons, List.foldl_nil]
  rw [shiftByte_top register, shiftByte_top (register <<< 8), shiftByte_top (register <<< 8 <<< 8),
    shiftByte_top (register <<< 8 <<< 8 <<< 8)]
  · apply UInt32.toNat_inj.mp
    simp only [raised, UInt32.toNat_zero]
    omega
  all_goals
    simp only [last, raised, Nat.pow_eq]
    omega

/-! ## Bursts -/

/-- Two byte strings of the same length that are different, but only in a window of as many bits as
the register has. -/
structure Burst (sent received : Bytes) : Prop where
  sameLength : received.length = sent.length
  differs : received ≠ sent
  within : ∃ start, ∀ i, (Bits.ofBytes received)[i]? ≠ (Bits.ofBytes sent)[i]? →
    start ≤ i ∧ i < start + 32

theorem ofByte_injective {byte other : UInt8} (same : Bits.ofByte byte = Bits.ofByte other) :
    byte = other := by
  apply UInt8.toNat_inj.mp
  apply Nat.eq_of_testBit_eq
  intro i
  by_cases inside : i < 8
  · have bit := congrArg (·[7 - i]?) same
    simpa [Bits.ofByte, show 7 - i < 8 by omega, show 7 - (7 - i) = i by omega] using bit
  · have beyond : ∀ b : UInt8, b.toNat < 2 ^ i := by
      intro b
      exact Nat.lt_of_lt_of_le b.toNat_lt (Nat.pow_le_pow_right (by decide) (by omega))
    rw [Nat.testBit_lt_two_pow (beyond byte), Nat.testBit_lt_two_pow (beyond other)]

theorem ofBytes_injective {bytes other : Bytes} (sameLength : bytes.length = other.length)
    (same : Bits.ofBytes bytes = Bits.ofBytes other) : bytes = other := by
  induction bytes generalizing other with
  | nil => exact (List.eq_nil_of_length_eq_zero sameLength.symm).symm
  | cons byte rest ih =>
    cases other with
    | nil => cases sameLength
    | cons byte' rest' =>
      have sizes : (Bits.ofByte byte).length = (Bits.ofByte byte').length := by
        rw [Bits.length_ofByte, Bits.length_ofByte]
      obtain ⟨first, others⟩ := List.append_inj same sizes
      rw [ofByte_injective first, ih (Nat.succ.inj sameLength) others]

theorem eq_zeros_of_clear {bits : List Bool} (clear : ∀ i : Nat, bits[i]? ≠ some true) :
    bits = zeros bits.length := by
  apply List.eq_replicate_iff.mpr
  refine ⟨rfl, ?_⟩
  intro bit member
  obtain ⟨i, found⟩ := List.mem_iff_getElem?.mp member
  cases bit with
  | false => rfl
  | true => exact absurd found (clear i)

/-- Bits that are set in a window only are clear around it. -/
theorem exists_window {bits : List Bool} {start : Nat}
    (within : ∀ i, bits[i]? = some true → start ≤ i ∧ i < start + 32) :
    ∃ before burst behind, bits = zeros before ++ burst ++ zeros behind ∧ burst.length ≤ 32 := by
  have before : bits.take start = zeros (bits.take start).length := by
    apply eq_zeros_of_clear
    intro i set
    rw [List.getElem?_take] at set
    split at set
    · have place := within i set
      omega
    · cases set
  have behind : (bits.drop start).drop 32 = zeros ((bits.drop start).drop 32).length := by
    apply eq_zeros_of_clear
    intro i set
    rw [List.getElem?_drop, List.getElem?_drop] at set
    have place := within _ set
    omega
  refine ⟨(bits.take start).length, (bits.drop start).take 32, ((bits.drop start).drop 32).length,
    ?_, List.length_take_le ..⟩
  rw [← before, ← behind, List.append_assoc, List.take_append_drop, List.take_append_drop]

theorem getElem?_difference {bits other : List Bool} {i : Nat}
    (set : (List.zipWith xor bits other)[i]? = some true) : bits[i]? ≠ other[i]? := by
  intro same
  rw [List.getElem?_zipWith, same] at set
  cases found : other[i]? with
  | none => simp [found] at set
  | some bit => simp [found] at set

theorem eq_of_difference {bits other : List Bool} (same : bits.length = other.length)
    (clear : ∀ i : Nat, (List.zipWith xor bits other)[i]? ≠ some true) : bits = other := by
  apply List.ext_getElem same
  intro i inside inside'
  have bit := clear i
  rw [List.getElem?_zipWith, List.getElem?_eq_getElem inside, List.getElem?_eq_getElem inside'] at bit
  simpa using bit

/-- **No burst leaves the check as it was.** -/
theorem crc32_ne_of_burst {sent received : Bytes} (burst : Burst sent received) :
    crc32 received ≠ crc32 sent := by
  obtain ⟨start, within⟩ := burst.within
  have lengths : (Bits.ofBytes received).length = (Bits.ofBytes sent).length := by
    rw [Bits.length_ofBytes, Bits.length_ofBytes, burst.sameLength]
  obtain ⟨before, window, behind, cut, fits⟩ :=
    exists_window fun i set => within i (getElem?_difference set)
  intro same
  have nothing : feed 0 (zeros before ++ window ++ zeros behind) = 0 := by
    have fed := feed_xor lengths initialRegister initialRegister
    rw [← crc32_eq_feed, ← crc32_eq_feed, same, UInt32.xor_self, UInt32.xor_self, cut] at fed
    exact fed
  refine feed_burst_ne_zero fits ?_ before behind nothing
  intro clear
  apply burst.differs
  apply ofBytes_injective burst.sameLength
  apply eq_of_difference lengths
  intro i set
  rw [cut, clear] at set
  have member := List.mem_of_getElem? set
  simp [zeros] at member

end MotionImagery.Checksum
