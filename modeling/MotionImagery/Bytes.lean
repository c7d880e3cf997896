/-!
Byte strings and the unsigned integers they write, most significant byte first.
-/
namespace MotionImagery

abbrev Bytes := List UInt8

/-- The number that the bytes write, most significant first. -/
def bigEndian (bytes : Bytes) : Nat :=
  bytes.foldl (fun number byte => number * 256 + byte.toNat) 0

/-- The low `width` bytes of a number, most significant first. -/
def toBigEndian : Nat → Nat → Bytes
  | 0, _ => []
  | width + 1, number => UInt8.ofNat (number / Nat.pow 256 width) :: toBigEndian width number

/-- The bytes at offsets `start ≤ i < stop`; those past the end are not there. -/
def slice (bytes : Bytes) (start stop : Nat) : Bytes :=
  (bytes.take stop).drop start

theorem length_toBigEndian (width number : Nat) : (toBigEndian width number).length = width := by
  induction width with
  | zero => rfl
  | succ width ih => simp [toBigEndian, ih]

theorem foldl_eq_bigEndian (number : Nat) (bytes : Bytes) :
    bytes.foldl (fun number byte => number * 256 + byte.toNat) number =
      number * Nat.pow 256 bytes.length + bigEndian bytes := by
  induction bytes generalizing number with
  | nil => simp [bigEndian]
  | cons byte rest ih =>
    have power : Nat.pow 256 (rest.length + 1) = Nat.pow 256 rest.length * 256 := rfl
    rw [bigEndian, List.foldl_cons, List.foldl_cons, ih, ih, List.length_cons, power]
    generalize Nat.pow 256 rest.length = power
    grind

theorem bigEndian_cons (byte : UInt8) (rest : Bytes) :
    bigEndian (byte :: rest) = byte.toNat * Nat.pow 256 rest.length + bigEndian rest := by
  rw [bigEndian, List.foldl_cons, foldl_eq_bigEndian, Nat.zero_mul, Nat.zero_add]

theorem bigEndian_lt (bytes : Bytes) : bigEndian bytes < Nat.pow 256 bytes.length := by
  induction bytes with
  | nil => decide
  | cons byte rest ih =>
    have power : Nat.pow 256 (rest.length + 1) = Nat.pow 256 rest.length * 256 := rfl
    have first := Nat.mul_le_mul_right (Nat.pow 256 rest.length) (Nat.le_of_lt_succ byte.toNat_lt)
    rw [bigEndian_cons, List.length_cons, power]
    omega

/-- The number that is read back is the one that was written, as far as it fits. -/
theorem bigEndian_toBigEndian (width number : Nat) :
    bigEndian (toBigEndian width number) = number % Nat.pow 256 width := by
  induction width with
  | zero => exact (Nat.mod_one number).symm
  | succ width ih =>
    have first : (UInt8.ofNat (number / Nat.pow 256 width)).toNat =
        number / Nat.pow 256 width % 256 := UInt8.toNat_ofNat
    have power : Nat.pow 256 (width + 1) = Nat.pow 256 width * 256 := rfl
    rw [toBigEndian, bigEndian_cons, ih, length_toBigEndian, first, power, Nat.mod_mul, Nat.mul_comm,
      Nat.add_comm]

theorem bigEndian_inj {bytes other : Bytes} (sizes : bytes.length = other.length)
    (same : bigEndian bytes = bigEndian other) : bytes = other := by
  induction bytes generalizing other with
  | nil => exact (List.eq_nil_of_length_eq_zero sizes.symm).symm
  | cons byte rest ih =>
    cases other with
    | nil => cases sizes
    | cons byte' rest' =>
      have sizes : rest.length = rest'.length := Nat.succ.inj sizes
      have below := bigEndian_lt rest
      have below' := bigEndian_lt rest'
      have top : ∀ first {number}, number < Nat.pow 256 rest'.length →
          (first * Nat.pow 256 rest'.length + number) / Nat.pow 256 rest'.length = first := by
        intro first number small
        rw [Nat.mul_comm, Nat.mul_add_div (Nat.zero_lt_of_lt small), Nat.div_eq_of_lt small,
          Nat.add_zero]
      rw [sizes] at below
      rw [bigEndian_cons, bigEndian_cons, sizes] at same
      have first : byte.toNat = byte'.toNat := by
        rw [← top byte.toNat below, same, top byte'.toNat below']
      rw [first] at same
      rw [UInt8.toNat_inj.mp first, ih sizes (Nat.add_left_cancel same)]

/-- Bytes are what writes their number in their width. -/
theorem eq_toBigEndian_iff {bytes : Bytes} {width number : Nat} (size : bytes.length = width)
    (fits : number < Nat.pow 256 width) :
    bytes = toBigEndian width number ↔ bigEndian bytes = number := by
  have written := bigEndian_toBigEndian width number
  rw [Nat.mod_eq_of_lt fits] at written
  constructor
  · rintro rfl
    exact written
  · intro read
    exact bigEndian_inj (size.trans (length_toBigEndian width number).symm) (read.trans written.symm)

theorem length_slice {bytes : Bytes} {start stop : Nat} (inside : stop ≤ bytes.length) :
    (slice bytes start stop).length = stop - start := by
  simp [slice, Nat.min_eq_left inside]

end MotionImagery
