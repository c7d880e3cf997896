import Mathlib.Algebra.Order.Field.Rat
import Mathlib.Data.Int.ConditionallyCompleteOrder
import Mathlib.Data.List.Induction
import Mathlib.Data.Nat.Digits.Defs
import Mathlib.Order.Interval.Set.Defs
import Mathlib.Tactic.GCongr
import Mathlib.Tactic.Ring
import MotionImagery.Telemetry.FieldTable

/-!
Integers of one to eight bytes and the measures that they stand for. Their bytes count by their
places, signed ones as two's complement, and the least signed number is the only one that is no
measure. Scaled exactly, the others rise from one end of a range to the other. The words of 64 bits
in which all this is computed are wide enough for each of the widths.
-/
namespace MotionImagery.Telemetry

/-! ## Integers -/

/-- The number of some bytes by their places, of which the last one counts once. -/
def placeValue (bytes : Bytes) : Nat := Nat.ofDigits 256 (bytes.reverse.map UInt8.toNat)

variable {bytes : Bytes} {width number : Nat}

theorem bigEndian_eq_placeValue (bytes : Bytes) : bigEndian bytes = placeValue bytes := by
  rw [placeValue, Nat.ofDigits_eq_foldr, List.foldr_map, List.foldr_reverse, bigEndian]
  congr
  funext number byte
  rw [Nat.cast_id, Nat.add_comm, Nat.mul_comm]

theorem bigEndian_lt_two_pow (bytes : Bytes) : bigEndian bytes < 2 ^ (8 * bytes.length) := by
  rw [Nat.pow_mul]
  exact bigEndian_lt bytes

theorem bitsOf_of_few (few : width ≤ 8) : bitsOf width = 8 * width :=
  Nat.min_eq_right (by omega)

theorem readUnsigned_of_few (few : bytes.length ≤ 8) : readUnsigned bytes = bigEndian bytes := by
  refine Nat.mod_eq_of_lt (Nat.lt_of_lt_of_le (bigEndian_lt_two_pow bytes) ?_)
  exact Nat.pow_le_pow_right (by decide) (show 8 * bytes.length ≤ 64 by omega)

/-- Of the numbers of some bits the upper half stands for those below zero. -/
theorem twosComplement_eq_toInt {bits : Nat} (some_bits : 1 ≤ bits) (fits : number < 2 ^ bits) :
    twosComplement bits number = (BitVec.ofNat bits number).toInt := by
  have half : 2 ^ bits = 2 * 2 ^ (bits - 1) := by
    rw [← Nat.pow_succ', Nat.succ_eq_add_one, Nat.sub_add_cancel some_bits]
  rw [twosComplement, BitVec.toInt_eq_toNat_cond, BitVec.toNat_ofNat, Nat.mod_eq_of_lt fits]
  simp only [Nat.pow_eq, half]
  congr 1
  exact propext (by omega)

theorem readSigned_of_few (few : bytes.length ≤ 8) :
    readSigned bytes = twosComplement (8 * bytes.length) (bigEndian bytes) := by
  rw [readSigned, bitsOf_of_few few, readUnsigned_of_few few]

theorem signedLimit_add_one (few : width ≤ 8) : signedLimit width + 1 = 2 ^ (8 * width - 1) := by
  rw [signedLimit, bitsOf_of_few few]
  exact Nat.sub_add_cancel (Nat.two_pow_pos _)

theorem unsignedLimit_add_one (few : width ≤ 8) : unsignedLimit width + 1 = 2 ^ (8 * width) := by
  rw [unsignedLimit, bitsOf_of_few few]
  exact Nat.sub_add_cancel (Nat.two_pow_pos _)

theorem two_mul_half (some_bytes : 1 ≤ width) : 2 * 2 ^ (8 * width - 1) = 2 ^ (8 * width) := by
  rw [← Nat.pow_succ']
  congr 1
  omega

/-- A signed number is what the bytes say, or as much less as there are numbers of the width. -/
theorem readSigned_cases (some_bytes : 1 ≤ width) (few : width ≤ 8) (wide : bytes.length = width) :
    bigEndian bytes ≤ signedLimit width ∧ readSigned bytes = bigEndian bytes ∨
    signedLimit width < bigEndian bytes ∧ bigEndian bytes ≤ 2 * signedLimit width + 1 ∧
      readSigned bytes = bigEndian bytes - (2 * signedLimit width + 2 : Int) := by
  subst wide
  have below := bigEndian_lt_two_pow bytes
  have limit := signedLimit_add_one few
  rw [readSigned_of_few few, twosComplement, Nat.pow_eq, Nat.pow_eq]
  rw [← two_mul_half some_bytes, ← limit] at below ⊢
  push_cast
  split <;> omega

/-! ## The number that is no measure -/

/-- The bytes that say that a measure is out of range. -/
def marker (width : Nat) : Bytes := 0x80 :: List.replicate (width - 1) 0

theorem length_marker (some_bytes : 1 ≤ width) : (marker width).length = width := by
  rw [marker, List.length_cons, List.length_replicate]
  omega

theorem bigEndian_zeros (count : Nat) : bigEndian (List.replicate count 0) = 0 := by
  induction count with
  | zero => rfl
  | succ count ih => rw [List.replicate_succ, bigEndian_cons, ih, UInt8.toNat_zero, Nat.zero_mul]

theorem bigEndian_marker (some_bytes : 1 ≤ width) :
    bigEndian (marker width) = 2 ^ (8 * width - 1) := by
  obtain ⟨behind, rfl⟩ := Nat.exists_eq_add_of_le' some_bytes
  have power : Nat.pow 256 behind = 2 ^ (8 * behind) := (Nat.pow_mul 2 8 behind).symm
  rw [marker, bigEndian_cons, Nat.add_sub_cancel, List.length_replicate, bigEndian_zeros, power,
    Nat.add_zero, show 8 * (behind + 1) - 1 = 7 + 8 * behind by omega, Nat.pow_add]
  rfl

/-- Only the least number of a width is out of range, and only the marker is read as that. -/
theorem isOutOfRange_iff (some_bytes : 1 ≤ width) (few : width ≤ 8) (wide : bytes.length = width) :
    isOutOfRange width (readSigned bytes) = true ↔ bytes = marker width := by
  have least : isOutOfRange width (readSigned bytes) = true ↔
      bigEndian bytes = signedLimit width + 1 := by
    rw [isOutOfRange, decide_eq_true_iff]
    obtain ⟨_, same⟩ | ⟨_, _, same⟩ := readSigned_cases some_bytes few wide
    all_goals
      rw [same]
      omega
  rw [least, signedLimit_add_one few, ← bigEndian_marker some_bytes]
  exact ⟨bigEndian_inj (wide.trans (length_marker some_bytes).symm), congrArg bigEndian⟩

/-- All other numbers are at most as far below zero as above. -/
theorem readSigned_mem (some_bytes : 1 ≤ width) (few : width ≤ 8) (wide : bytes.length = width)
    (measure : bytes ≠ marker width) :
    readSigned bytes ∈ Set.Icc (-signedLimit width : Int) (signedLimit width) := by
  have other : readSigned bytes ≠ -(signedLimit width : Int) - 1 := by
    simpa [isOutOfRange] using mt (isOutOfRange_iff some_bytes few wide).mp measure
  rw [Set.mem_Icc]
  obtain ⟨_, same⟩ | ⟨_, _, same⟩ := readSigned_cases some_bytes few wide <;> omega

/-! ## Measures -/

/-- From one number to another the values rise, from one end of a range to the other. -/
structure Climbs (f : Int → ℚ) (first last : Int) (low high : ℚ) : Prop where
  rises : StrictMonoOn f (Set.Icc first last)
  first_eq : f first = low
  last_eq : f last = high

theorem climbs_of_line {f : Int → ℚ} {first last : Int} {low high : ℚ} (rising : low < high)
    (apart : first < last)
    (line : ∀ raw, f raw = low + (raw - first) * (high - low) / (last - first)) :
    Climbs f first last low high := by
  have width : (0 : ℚ) < last - first := sub_pos.mpr (Int.cast_lt.mpr apart)
  refine ⟨?_, ?_, ?_⟩
  · intro raw _ raw' _ less
    have less : (raw : ℚ) < raw' := Int.cast_lt.mpr less
    have height : 0 < high - low := sub_pos.mpr rising
    rw [line, line]
    gcongr
  · rw [line, sub_self, zero_mul, zero_div, add_zero]
  · rw [line, mul_div_cancel_left₀ _ width.ne', add_sub_cancel]

theorem climbs_signed {limit : Nat} (some_limit : 0 < limit) {low high : ℚ} (rising : low < high) :
    Climbs (fun raw => interpolateSigned Int.cast raw limit low high) (-limit) limit low high := by
  apply climbs_of_line rising (by omega)
  intro raw
  simp only [interpolateSigned]
  push_cast
  ring_nf

theorem climbs_unsigned {limit : Nat} (some_limit : 0 < limit) {low high : ℚ} (rising : low < high) :
    Climbs (fun raw => interpolateUnsigned Int.cast raw limit low high) 0 limit low high := by
  apply climbs_of_line rising (by omega)
  intro raw
  simp only [interpolateUnsigned]
  push_cast
  ring_nf

/-! ## Words -/

/-- The bytes enter a word of 64 bits from below. -/
def gather (bytes : Bytes) : BitVec 64 :=
  bytes.foldl (fun word byte => word <<< 8 ||| byte.toBitVec.setWidth 64) 0#64

/-- Moves the bytes to the top of the word and back, and the sign along with them. -/
def extend (width : Nat) (word : BitVec 64) : BitVec 64 :=
  if 64 ≤ 8 * width then word
  else (word <<< (64 - 8 * width)).sshiftRight (64 - 8 * width)

def greatestSigned (width : Nat) : BitVec 64 :=
  if 64 ≤ 8 * width then BitVec.intMax 64 else 1#64 <<< (8 * width - 1) - 1#64

def greatestUnsigned (width : Nat) : BitVec 64 :=
  if 64 ≤ 8 * width then BitVec.allOnes 64 else 1#64 <<< (8 * width) - 1#64

/-- The byte that enters takes the place of the zeros that are moved in below the others. -/
theorem toNat_enterByte (word : BitVec 64) (byte : UInt8) :
    (word <<< 8 ||| byte.toBitVec.setWidth 64).toNat =
      (word.toNat * 256 + byte.toNat) % 0x10000000000000000 := by
  have small : byte.toNat < 2 ^ 8 := byte.toNat_lt
  have moved : word.toNat <<< 8 % 2 ^ 64 = (word.toNat % 2 ^ 56) <<< 8 := by
    rw [Nat.shiftLeft_eq, Nat.shiftLeft_eq]
    omega
  have entered : (byte.toBitVec.setWidth 64).toNat = byte.toNat := by
    rw [BitVec.toNat_setWidth]
    exact Nat.mod_eq_of_lt (Nat.lt_trans small (by decide))
  rw [BitVec.toNat_or, BitVec.toNat_shiftLeft, moved, entered, ← Nat.shiftLeft_add_eq_or_of_lt small,
    Nat.shiftLeft_eq]
  omega

theorem toNat_gather (bytes : Bytes) : (gather bytes).toNat = readUnsigned bytes := by
  induction bytes using List.reverseRecOn with
  | nil => rfl
  | append_singleton bytes byte ih =>
    have last : gather (bytes ++ [byte]) = gather bytes <<< 8 ||| byte.toBitVec.setWidth 64 :=
      List.foldl_append
    have last' : bigEndian (bytes ++ [byte]) = bigEndian bytes * 256 + byte.toNat :=
      List.foldl_append
    rw [last, toNat_enterByte, ih, readUnsigned, readUnsigned, last']
    omega

theorem toInt_extend {word : BitVec 64} (some_bytes : 1 ≤ width) (few : width ≤ 8)
    (fits : word.toNat < 2 ^ (8 * width)) :
    (extend width word).toInt = twosComplement (8 * width) word.toNat := by
  have value := BitVec.toInt_eq_toNat_cond (BitVec.ofNat (8 * width) word.toNat)
  rw [BitVec.toNat_ofNat, Nat.mod_eq_of_lt fits] at value
  rw [twosComplement_eq_toInt (by omega) fits, value, extend]
  -- Eight bytes fill the word. Fewer are whole at its top, where halving the word for the sign is
  -- halving their own numbers.
  by_cases whole : 64 ≤ 8 * width
  · obtain rfl : width = 8 := by omega
    rw [if_pos whole, BitVec.toInt_eq_toNat_cond]
  · rw [if_neg whole]
    generalize shift_eq : 64 - 8 * width = shift
    have split : 2 ^ 64 = 2 ^ (8 * width) * 2 ^ shift := by
      rw [← Nat.pow_add]
      congr 1
      omega
    have positive : 0 < 2 ^ shift := Nat.two_pow_pos _
    have moved : word.toNat <<< shift % 2 ^ 64 = word.toNat * 2 ^ shift := by
      rw [Nat.shiftLeft_eq, split]
      exact Nat.mod_eq_of_lt (Nat.mul_lt_mul_of_pos_right fits positive)
    have back (number : Int) : number * (2 ^ shift : Nat) / (2 ^ shift : Nat) = number :=
      Int.mul_ediv_cancel number (by omega)
    rw [BitVec.toInt_sshiftRight, BitVec.toInt_eq_toNat_cond, BitVec.toNat_shiftLeft, moved, split,
      Int.shiftRight_eq_div_pow, ← Nat.mul_assoc]
    simp only [Nat.mul_lt_mul_right positive]
    split
    · rw [Int.natCast_mul, back]
    · rw [Int.natCast_mul, Int.natCast_mul, ← Int.sub_mul, back]

/-- The limits of a width and the number that is no measure, as shifts make them. -/
theorem limits_in_words (some_bytes : 1 ≤ width) (few : width ≤ 8) :
    (greatestSigned width).toInt = signedLimit width ∧
    (-greatestSigned width - 1#64).toInt = -(signedLimit width : Int) - 1 ∧
    (greatestUnsigned width).toNat = unsignedLimit width := by
  have every : ∀ width < 9, 1 ≤ width →
      (greatestSigned width).toInt = signedLimit width ∧
      (-greatestSigned width - 1#64).toInt = -(signedLimit width : Int) - 1 ∧
      (greatestUnsigned width).toNat = unsignedLimit width := by
    decide
  exact every width (Nat.lt_succ_of_le few) some_bytes

theorem toInt_extend_gather (some_bytes : 1 ≤ width) (few : width ≤ 8)
    (wide : bytes.length = width) : (extend width (gather bytes)).toInt = readSigned bytes := by
  subst wide
  have value : (gather bytes).toNat = bigEndian bytes :=
    (toNat_gather bytes).trans (readUnsigned_of_few few)
  have fits : (gather bytes).toNat < 2 ^ (8 * bytes.length) := by
    rw [value]
    exact bigEndian_lt_two_pow bytes
  rw [toInt_extend some_bytes few fits, readSigned_of_few few, value]

/-! ## Fields -/

/-- What integers of a width say, as numbers and as measures. -/
structure Measured (width : Nat) : Prop where
  unsigned : ∀ bytes : Bytes, bytes.length = width → readUnsigned bytes = placeValue bytes
  signed : ∀ bytes : Bytes, bytes.length = width →
    readSigned bytes = (BitVec.ofNat (8 * width) (placeValue bytes)).toInt
  limits : signedLimit width + 1 = 2 ^ (8 * width - 1) ∧ unsignedLimit width + 1 = 2 ^ (8 * width)
  dropped : ∀ low high bytes, (Decoder.scaledSigned width low high).scalar? bytes = none ↔
    bytes.length ≠ width ∨ bytes = marker width
  /-- The others are scaled, in the arithmetic that the fields are computed in. -/
  scaled : ∀ low high bytes, bytes.length = width → bytes ≠ marker width →
    readSigned bytes ∈ Set.Icc (-signedLimit width : Int) (signedLimit width) ∧
    (Decoder.scaledSigned width low high).scalar? bytes = some (.float
      (interpolateSigned Float.ofInt (readSigned bytes) (signedLimit width) low high))
  scaledUnsigned : ∀ low high bytes, bytes.length = width →
    readUnsigned bytes ≤ unsignedLimit width ∧
    (Decoder.scaledUnsigned width low high).scalar? bytes = some (.float
      (interpolateUnsigned Float.ofInt (readUnsigned bytes) (unsignedLimit width) low high))
  /-- In exact arithmetic the same scaling rises all the way. -/
  signedRises : ∀ low high : ℚ, low < high →
    Climbs (fun raw => interpolateSigned Int.cast raw (signedLimit width) low high)
      (-signedLimit width) (signedLimit width) low high
  unsignedRises : ∀ low high : ℚ, low < high →
    Climbs (fun raw => interpolateUnsigned Int.cast raw (unsignedLimit width) low high)
      0 (unsignedLimit width) low high
  /-- Words give the same numbers, and the same one is no measure in them. -/
  inWords : ∀ bytes : Bytes, bytes.length = width →
    (gather bytes).toNat = readUnsigned bytes ∧
    (extend width (gather bytes)).toInt = readSigned bytes ∧
    (extend width (gather bytes) = -greatestSigned width - 1#64 ↔ bytes = marker width)
  limitsInWords : (greatestSigned width).toInt = signedLimit width ∧
    (greatestUnsigned width).toNat = unsignedLimit width

theorem scalar?_scaledSigned (some_bytes : 1 ≤ width) (few : width ≤ 8) (low high : Float)
    (wide : bytes.length = width) :
    (Decoder.scaledSigned width low high).scalar? bytes =
      if bytes = marker width then none
      else some (.float
        (interpolateSigned Float.ofInt (readSigned bytes) (signedLimit width) low high)) := by
  have out := isOutOfRange_iff some_bytes few wide
  rw [Decoder.scalar?, if_pos wide, scaleSigned?]
  by_cases marked : bytes = marker width
  · rw [if_pos marked, if_pos (out.mpr marked), Option.map_none]
  · rw [if_neg marked, if_neg (mt out.mp marked), Option.map_some]

/-- **Integers of one to eight bytes are read as two's complement, and only the marker is
dropped.** -/
theorem measures_of_width {width : Nat} (some_bytes : 1 ≤ width) (few : width ≤ 8) :
    Measured width := by
  obtain ⟨greatest, least, greatest'⟩ := limits_in_words some_bytes few
  have signed_pos : 0 < signedLimit width := by
    have limit := signedLimit_add_one few
    have large := Nat.pow_le_pow_right (show 0 < 2 by decide) (show 7 ≤ 8 * width - 1 by omega)
    omega
  have unsigned_pos : 0 < unsignedLimit width := by
    have limit := unsignedLimit_add_one few
    have large := Nat.pow_le_pow_right (show 0 < 2 by decide) (show 8 ≤ 8 * width by omega)
    omega
  refine {
    unsigned := ?unsigned
    signed := ?signed
    limits := ⟨signedLimit_add_one few, unsignedLimit_add_one few⟩
    dropped := ?dropped
    scaled := ?scaled
    signedRises := fun _ _ rising => climbs_signed signed_pos rising
    unsignedRises := fun _ _ rising => climbs_unsigned unsigned_pos rising
    scaledUnsigned := ?scaledUnsigned
    inWords := ?inWords
    limitsInWords := ⟨greatest, greatest'⟩ }
  case unsigned =>
    rintro bytes rfl
    rw [readUnsigned_of_few few, bigEndian_eq_placeValue]
  case signed =>
    rintro bytes rfl
    rw [readSigned_of_few few, twosComplement_eq_toInt (by omega) (bigEndian_lt_two_pow bytes),
      bigEndian_eq_placeValue]
  case dropped =>
    intro low high bytes
    by_cases wide : bytes.length = width
    · rw [scalar?_scaledSigned some_bytes few low high wide]
      simp [wide]
    · rw [Decoder.scalar?, if_neg wide]
      simp [wide]
  case scaled =>
    intro low high bytes wide measure
    refine ⟨readSigned_mem some_bytes few wide measure, ?_⟩
    rw [scalar?_scaledSigned some_bytes few low high wide, if_neg measure]
  case scaledUnsigned =>
    rintro low high bytes rfl
    have below := bigEndian_lt_two_pow bytes
    rw [← unsignedLimit_add_one few, ← readUnsigned_of_few few] at below
    exact ⟨Nat.le_of_lt_succ below, if_pos rfl⟩
  case inWords =>
    intro bytes wide
    have value := toInt_extend_gather some_bytes few wide
    refine ⟨toNat_gather bytes, value, ?_⟩
    rw [← BitVec.toInt_inj, value, least, ← isOutOfRange_iff some_bytes few wide, isOutOfRange,
      decide_eq_true_iff]

/-- Eight bytes: the least measure and the marker below it. -/
theorem sample_measures :
    (1 ≤ 8 ∧ 8 ≤ 8) ∧
    readSigned [0x80, 0, 0, 0, 0, 0, 0, 1] = -0x7FFFFFFFFFFFFFFF ∧
    interpolateSigned Int.cast (-0x7FFFFFFFFFFFFFFF) 0x7FFFFFFFFFFFFFFF (-90 : ℚ) 90 = -90 ∧
    (Decoder.scaledSigned 8 (-90) 90).scalar? [0x80, 0, 0, 0, 0, 0, 0, 1] ≠ none ∧
    (Decoder.scaledSigned 8 (-90) 90).scalar? [0x80, 0, 0, 0, 0, 0, 0, 0] = none := by
  have measured : Measured 8 := measures_of_width (by decide) (by decide)
  refine ⟨by decide, ?_, ?_, ?_, ?_⟩
  · rw [measured.signed _ rfl]
    decide
  · exact (measured.signedRises (-90) 90 (by norm_num)).first_eq
  · rw [Ne, measured.dropped]
    decide
  · rw [measured.dropped]
    decide

end MotionImagery.Telemetry
