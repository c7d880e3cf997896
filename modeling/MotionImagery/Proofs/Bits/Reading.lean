import Mathlib.Algebra.Group.Nat.Defs
import MotionImagery.Bits.Reader

/-!
A reader against the string of bits that its bytes write. What it is asked for is taken from the
front of the bits that are left, or refused, and then nothing is taken. The reader itself looks every
bit up by its position and gathers the bits of a number in a word of 32.
-/
namespace MotionImagery.Bits

/-! ## Strings of bits -/

/-- The bits of a byte string are those at its positions. -/
theorem getElem?_ofBytes {bytes : Bytes} {position : Nat} (inside : position < 8 * bytes.length) :
    (ofBytes bytes)[position]? = some (bitAt bytes position) := by
  induction bytes generalizing position with
  | nil => exact absurd inside (Nat.not_lt_zero _)
  | cons byte rest ih =>
    rw [ofBytes, List.flatMap_cons, ← ofBytes, bitAt]
    by_cases first : position < 8
    · rw [List.getElem?_append_left (by rwa [length_ofByte]), Nat.div_eq_of_lt first,
        Nat.mod_eq_of_lt first]
      simp [ofByte, first]
    · obtain ⟨behind, rfl⟩ := Nat.exists_eq_add_of_le' (Nat.le_of_not_lt first)
      rw [List.length_cons] at inside
      rw [List.getElem?_append_right (by rw [length_ofByte]; omega), length_ofByte,
        Nat.add_sub_cancel, ih (by omega), bitAt, Nat.add_div_right behind (by decide),
        Nat.add_mod_right, List.getD_cons_succ]

theorem drop_ofBytes {bytes : Bytes} {position : Nat} (inside : position < 8 * bytes.length) :
    (ofBytes bytes).drop position =
      bitAt bytes position :: (ofBytes bytes).drop (position + 1) := by
  have there : position < (ofBytes bytes).length := by rwa [length_ofBytes]
  have bit := getElem?_ofBytes inside
  rw [List.getElem?_eq_getElem there, Option.some_inj] at bit
  rw [List.drop_eq_getElem_cons there, bit]

theorem foldl_eq_toNat (number : Nat) (bits : List Bool) :
    bits.foldl (fun number bit => number * 2 + bit.toNat) number =
      number * 2 ^ bits.length + toNat bits := by
  induction bits generalizing number with
  | nil => simp [toNat]
  | cons bit rest ih =>
    rw [toNat, List.foldl_cons, List.foldl_cons, ih, ih, List.length_cons, Nat.pow_succ]
    grind

theorem toNat_cons (bit : Bool) (rest : List Bool) :
    toNat (bit :: rest) = 2 ^ rest.length * bit.toNat + toNat rest := by
  rw [toNat, List.foldl_cons, foldl_eq_toNat, Nat.zero_mul, Nat.zero_add, Nat.mul_comm]

theorem toNat_append (front bits : List Bool) :
    toNat (front ++ bits) = toNat front * 2 ^ bits.length + toNat bits := by
  rw [toNat, List.foldl_append, foldl_eq_toNat, ← toNat]

theorem toNat_lt (bits : List Bool) : toNat bits < 2 ^ bits.length := by
  induction bits with
  | nil => decide
  | cons bit rest ih =>
    have first := bit.toNat_lt
    rw [toNat_cons, List.length_cons, Nat.pow_succ]
    have top := Nat.mul_le_mul_left (2 ^ rest.length) (Nat.le_of_lt_succ first)
    omega

/-- The bits are those of the number, from the most significant one downwards. -/
structure Writes (bits : List Bool) (number : Nat) : Prop where
  fits : number < 2 ^ bits.length
  bit : ∀ i, ∀ inside : i < bits.length, number.testBit (bits.length - 1 - i) = bits[i]

theorem writes_toNat (bits : List Bool) : Writes bits (toNat bits) := by
  refine ⟨toNat_lt bits, ?_⟩
  induction bits with
  | nil => nofun
  | cons bit rest ih =>
    intro i inside
    rw [toNat_cons, Nat.testBit_two_pow_mul_add _ (toNat_lt rest), List.length_cons,
      Nat.add_sub_cancel]
    cases i with
    | zero =>
      rw [Nat.sub_zero, if_neg (Nat.lt_irrefl _), Nat.sub_self]
      cases bit <;> rfl
    | succ i =>
      have inside := Nat.lt_of_succ_lt_succ inside
      rw [if_pos (by omega), List.getElem_cons_succ, ← ih i inside, Nat.sub_sub, Nat.add_comm 1]

theorem Writes.eq_toNat {bits : List Bool} {number : Nat} (writes : Writes bits number) :
    number = toNat bits := by
  apply Nat.eq_of_testBit_eq
  intro place
  by_cases inside : place < bits.length
  · have here : place = bits.length - 1 - (bits.length - 1 - place) := by omega
    rw [here, writes.bit _ (by omega), (writes_toNat bits).bit _ (by omega)]
  · have beyond : 2 ^ bits.length ≤ 2 ^ place := Nat.pow_le_pow_right (by decide) (by omega)
    rw [Nat.testBit_lt_two_pow (Nat.lt_of_lt_of_le writes.fits beyond),
      Nat.testBit_lt_two_pow (Nat.lt_of_lt_of_le (toNat_lt bits) beyond)]

/-! ## Requests -/

/-- What a reader is asked for. -/
inductive Request where
  | skip (count : Nat)
  | read (count : Nat)
  deriving DecidableEq, Repr

inductive Answer where
  | refused
  | skipped
  | number (value : Nat)
  deriving DecidableEq, Repr

namespace Request

def count : Request → Nat
  | skip count | read count => count

/-- Whether a request is granted when so many bits are left. -/
def Granted : Request → Nat → Prop
  | skip count, left => count ≤ left
  | read count, left => count ≤ 32 ∧ count ≤ left

theorem count_le_of_granted {request : Request} {left : Nat} (granted : request.Granted left) :
    request.count ≤ left := by
  cases request with
  | skip count => exact granted
  | read count => exact granted.2

end Request

/-- A request, the bits that are left, the answer, and the bits that are left behind it. -/
inductive Answered : Request → List Bool → Answer → List Bool → Prop
  | skipped (bits later : List Bool) : Answered (.skip bits.length) (bits ++ later) .skipped later
  | number (bits later : List Bool) (value : Nat) (narrow : bits.length ≤ 32)
    (writes : Writes bits value) :
    Answered (.read bits.length) (bits ++ later) (.number value) later
  | refused (request : Request) (left : List Bool) (refused : ¬request.Granted left.length) :
    Answered request left .refused left

theorem Answered.skip {left : List Bool} {count : Nat} (enough : count ≤ left.length) :
    Answered (.skip count) left .skipped (left.drop count) := by
  have answered := Answered.skipped (left.take count) (left.drop count)
  rwa [List.length_take_of_le enough, List.take_append_drop] at answered

theorem Answered.read {left : List Bool} {count : Nat} (narrow : count ≤ 32)
    (enough : count ≤ left.length) :
    Answered (.read count) left (.number (toNat (left.take count))) (left.drop count) := by
  have size := List.length_take_of_le enough
  have answered := Answered.number (left.take count) (left.drop count) _ (by rwa [size])
    (writes_toNat _)
  rwa [size, List.take_append_drop] at answered

/-- The next bits enter a word from below, one after the other, each looked up by its position. There
is no word when there is no byte to look into. -/
def enterBits (bytes : Bytes) : Nat → Nat → UInt32 → Option UInt32
  | 0, _, word => some word
  | count + 1, position, word => do
    let byte ← bytes[position / 8]?
    let bit := (byte >>> UInt8.ofNat (7 - position % 8)) &&& 1
    enterBits bytes count (position + 1) ((word <<< 1) ||| bit.toUInt32)

theorem toNat_bit (byte : UInt8) (place : Nat) (inside : place < 8) :
    ((byte >>> UInt8.ofNat place) &&& 1).toUInt32.toNat = (byte.toNat.testBit place).toNat := by
  have shifted : (UInt8.ofNat place).toNat % 8 = place := by
    rw [UInt8.toNat_ofNat']
    omega
  rw [UInt8.toNat_toUInt32, UInt8.toNat_and, UInt8.toNat_shiftRight, shifted, Nat.toNat_testBit,
    Nat.shiftRight_eq_div_pow]
  exact Nat.and_one_is_mod _

/-- Nothing falls out of a word at the top that has less than 32 bits in it. -/
theorem toNat_enter {word bit : UInt32} (small : word.toNat < 2 ^ 31) (one : bit.toNat < 2) :
    ((word <<< 1) ||| bit).toNat = word.toNat * 2 + bit.toNat := by
  have kept : word.toNat <<< 1 % 2 ^ 32 = word.toNat <<< 1 := by
    rw [Nat.shiftLeft_eq]
    exact Nat.mod_eq_of_lt (by omega)
  rw [UInt32.toNat_or, UInt32.toNat_shiftLeft]
  change word.toNat <<< 1 % 2 ^ 32 ||| bit.toNat = _
  rw [kept, ← Nat.shiftLeft_add_eq_or_of_lt one, Nat.shiftLeft_eq]

/-- All bits are there to be looked up, and none is lost while the word has room for them. -/
theorem exists_entered (bytes : Bytes) {entered count position : Nat} (word : UInt32)
    (room : entered + count ≤ 32) (small : word.toNat < 2 ^ entered)
    (inside : position + count ≤ 8 * bytes.length) :
    ∃ result, enterBits bytes count position word = some result ∧
      result.toNat = word.toNat * 2 ^ count + toNat (((ofBytes bytes).drop position).take count) := by
  -- By induction on the bits to come. The word keeps below what the entered bits can write, so there
  -- is always a place left at its top.
  induction count generalizing entered position word with
  | zero => exact ⟨word, rfl, by simp [toNat]⟩
  | succ count ih =>
    have byte : bytes[position / 8]? = some (bytes.getD (position / 8) 0) := by
      rw [List.getD_eq_getElem?_getD, List.getElem?_eq_getElem (by omega), Option.getD_some]
    have bit := toNat_bit (bytes.getD (position / 8) 0) (7 - position % 8) (by omega)
    rw [← bitAt] at bit
    have one := Bool.toNat_lt (bitAt bytes position)
    have free : word.toNat < 2 ^ 31 :=
      Nat.lt_of_lt_of_le small (Nat.pow_le_pow_right (by decide) (by omega))
    have step := toNat_enter free (lt_of_eq_of_lt bit one)
    rw [bit] at step
    have grown : word.toNat * 2 + (bitAt bytes position).toNat < 2 ^ (entered + 1) := by
      rw [Nat.pow_succ]
      omega
    obtain ⟨result, made, value⟩ := ih _ (show entered + 1 + count ≤ 32 by omega)
      (by rwa [step]) (show position + 1 + count ≤ 8 * bytes.length by omega)
    refine ⟨result, by rw [enterBits, byte]; exact made, ?_⟩
    have next := drop_ofBytes (show position < 8 * bytes.length by omega)
    have size : (((ofBytes bytes).drop (position + 1)).take count).length = count := by
      rw [List.length_take, List.length_drop, length_ofBytes]
      omega
    rw [value, step, next, List.take_succ_cons, toNat_cons, size, Nat.pow_succ]
    grind

namespace Reader

/-- The bits that have not been read. -/
def unread (reader : Reader) : List Bool := (Bits.ofBytes reader.bytes).drop reader.position

/-- A reader that refuses stays as it is. -/
def perform (reader : Reader) : Request → Answer × Reader
  | .skip count =>
    match reader.skip? count with
    | none => (.refused, reader)
    | some next => (.skipped, next)
  | .read count =>
    match reader.read? count with
    | none => (.refused, reader)
    | some (value, next) => (.number value, next)

def after (reader : Reader) (requests : List Request) : Reader :=
  requests.foldl (fun reader request => (reader.perform request).2) reader

variable {reader : Reader} {count : Nat}

theorem length_unread (reader : Reader) : reader.unread.length = reader.remaining := by
  rw [unread, List.length_drop, length_ofBytes, remaining, Nat.mul_comm]

theorem unread_advance (reader : Reader) (count : Nat) :
    (reader.advance count).unread = reader.unread.drop count := by
  rw [unread, unread, List.drop_drop]
  rfl

/-- Bits that are looked up by their positions are the next ones. -/
theorem peek_eq_take (enough : count ≤ reader.remaining) :
    reader.peek count = reader.unread.take count := by
  apply List.ext_getElem?
  intro i
  rw [peek, List.getElem?_map, List.getElem?_take, unread, List.getElem?_drop]
  by_cases inside : i < count
  · rw [if_pos inside, List.getElem?_range inside, Option.map_some, getElem?_ofBytes]
    unfold remaining at enough
    omega
  · rw [if_neg inside, List.getElem?_eq_none (by rw [List.length_range]; omega), Option.map_none]

theorem read?_of_granted (narrow : count ≤ 32) (enough : count ≤ reader.remaining) :
    reader.read? count = some (toNat (reader.unread.take count), reader.advance count) := by
  rw [read?, if_pos ⟨narrow, enough⟩, peek_eq_take enough]

theorem perform_skip (enough : count ≤ reader.remaining) :
    reader.perform (.skip count) = (.skipped, reader.advance count) := by
  rw [perform, skip?, if_pos enough]

theorem perform_read (narrow : count ≤ 32) (enough : count ≤ reader.remaining) :
    reader.perform (.read count) =
      (.number (toNat (reader.unread.take count)), reader.advance count) := by
  rw [perform, read?_of_granted narrow enough]

theorem perform_refused {request : Request} (refused : ¬request.Granted reader.remaining) :
    reader.perform request = (.refused, reader) := by
  cases request with
  | skip count =>
    have nothing : reader.skip? count = none := if_neg refused
    rw [perform, nothing]
  | read count =>
    have nothing : reader.read? count = none := if_neg refused
    rw [perform, nothing]

/-- What a granted request leaves. -/
theorem perform_granted {request : Request} (granted : request.Granted reader.remaining) :
    (reader.perform request).1 ≠ .refused ∧
      (reader.perform request).2 = reader.advance request.count := by
  cases request with
  | skip count =>
    rw [perform_skip granted]
    exact ⟨nofun, rfl⟩
  | read count =>
    rw [perform_read granted.1 granted.2]
    exact ⟨nofun, rfl⟩

/-- What a reader does is what is due for the bits that are left. -/
theorem answered_perform (reader : Reader) (request : Request) :
    Answered request reader.unread (reader.perform request).1
      (reader.perform request).2.unread := by
  by_cases granted : request.Granted reader.remaining
  · cases request with
    | skip count =>
      rw [perform_skip granted, unread_advance]
      exact .skip (by rwa [length_unread])
    | read count =>
      rw [perform_read granted.1 granted.2, unread_advance]
      exact .read granted.1 (by rw [length_unread]; exact granted.2)
  · rw [perform_refused granted]
    exact .refused request reader.unread (by rwa [length_unread])

/-- Nothing else is due. -/
theorem eq_of_answered {request : Request} {answer : Answer} {later : List Bool}
    (answered : Answered request reader.unread answer later) :
    (reader.perform request).1 = answer ∧ (reader.perform request).2.unread = later := by
  generalize before : reader.unread = left at answered
  have size := length_unread reader
  rw [before] at size
  cases answered with
  | skipped bits =>
    rw [perform_skip (by rw [← size, List.length_append]; omega), unread_advance, before,
      List.drop_left]
    exact ⟨rfl, rfl⟩
  | number bits later value narrow writes =>
    rw [perform_read narrow (by rw [← size, List.length_append]; omega), unread_advance, before,
      List.drop_left, List.take_left, writes.eq_toNat]
    exact ⟨rfl, rfl⟩
  | refused request left refused =>
    rw [perform_refused (by rwa [← size])]
    exact ⟨rfl, before⟩

theorem remaining_advance (reader : Reader) (count : Nat) :
    (reader.advance count).remaining = reader.remaining - count :=
  (Nat.sub_sub ..).symm

/-- Two numbers that are read one after the other are one. -/
theorem read?_add {first second : Nat} (narrow : first + second ≤ 32) :
    reader.read? (first + second) = (reader.read? first).bind fun (high, between) =>
      (between.read? second).map fun (low, last) => (high * 2 ^ second + low, last) := by
  have nothing {reader : Reader} {count : Nat} (few : reader.remaining < count) :
      reader.read? count = none := if_neg (by omega)
  by_cases start : first ≤ reader.remaining
  · rw [read?_of_granted (by omega) start, Option.bind_some]
    dsimp only
    by_cases enough : first + second ≤ reader.remaining
    · have rest : second ≤ (reader.advance first).remaining := by
        rw [remaining_advance]
        omega
      have size : ((reader.unread.drop first).take second).length = second := by
        rw [List.length_take, List.length_drop, length_unread]
        omega
      rw [read?_of_granted narrow enough, read?_of_granted (by omega) rest, Option.map_some,
        unread_advance, List.take_add, toNat_append, size]
      simp [advance, Nat.add_assoc]
    · have few : (reader.advance first).remaining < second := by
        rw [remaining_advance]
        omega
      rw [nothing (Nat.lt_of_not_le enough), nothing few, Option.map_none]
  · rw [nothing (Nat.lt_of_not_le start), nothing (by omega), Option.bind_none]

/-- A reader of the bytes that has not gone past their end. -/
structure Within (reader : Reader) (bytes : Bytes) : Prop where
  same : reader.bytes = bytes
  inside : reader.position ≤ 8 * bytes.length

variable {bytes : Bytes}

theorem Within.perform (within : reader.Within bytes) (request : Request) :
    (reader.perform request).2.Within bytes := by
  by_cases granted : request.Granted reader.remaining
  · rw [(perform_granted granted).2]
    refine ⟨within.same, ?_⟩
    have enough := Request.count_le_of_granted granted
    have inside := within.inside
    rw [remaining, within.same] at enough
    change reader.position + request.count ≤ _
    omega
  · rwa [perform_refused granted]

theorem Within.after (within : reader.Within bytes) (requests : List Request) :
    (reader.after requests).Within bytes := by
  induction requests generalizing reader with
  | nil => exact within
  | cons request requests ih => exact ih (within.perform request)

/-- A reader does what is due for the string of bits that its bytes write. -/
structure Follows (reader : Reader) (bytes : Bytes) : Prop where
  unread_eq : reader.unread = (Bits.ofBytes bytes).drop reader.position
  /-- Bits that are left are counted, and all others have been passed over. -/
  remaining_eq : reader.remaining = reader.unread.length
  position_add : reader.position + reader.remaining = (Bits.ofBytes bytes).length
  answers : ∀ request answer later, Answered request reader.unread answer later ↔
    (reader.perform request).1 = answer ∧ (reader.perform request).2.unread = later
  granted : ∀ request, (reader.perform request).1 ≠ .refused →
    (reader.perform request).2 = ⟨bytes, reader.position + request.count⟩
  refused : ∀ request, (reader.perform request).1 = .refused → (reader.perform request).2 = reader
  /-- Two numbers that are read one after the other are one. -/
  joined : ∀ first second, first + second ≤ 32 →
    reader.read? (first + second) = (reader.read? first).bind fun (high, between) =>
      (between.read? second).map fun (low, last) => (high * 2 ^ second + low, last)
  /-- Looking the bits up one by one and gathering them in a word gives the same number. -/
  entered : ∀ count value next, reader.read? count = some (value, next) →
    (enterBits bytes count reader.position 0).map UInt32.toNat = some value

end Reader

/-- **A reader reads the string of bits**, whatever was asked of it before. -/
theorem reader_follows_bits (bytes : Bytes) (requests : List Request) :
    ((Reader.ofBytes bytes).after requests).Follows bytes := by
  have start : (Reader.ofBytes bytes).Within bytes := ⟨rfl, Nat.zero_le _⟩
  have within := start.after requests
  generalize (Reader.ofBytes bytes).after requests = reader at within
  have total : reader.position + reader.remaining = 8 * bytes.length := by
    have inside := within.inside
    rw [Reader.remaining, within.same]
    omega
  refine {
    unread_eq := by rw [Reader.unread, within.same]
    remaining_eq := (Reader.length_unread reader).symm
    position_add := by rw [total, length_ofBytes]
    answers := ?answers
    granted := ?granted
    refused := ?refused
    joined := fun _ _ => Reader.read?_add
    entered := ?entered }
  case answers =>
    intro request answer later
    refine ⟨Reader.eq_of_answered, ?_⟩
    rintro ⟨rfl, rfl⟩
    exact Reader.answered_perform reader request
  case granted =>
    intro request given
    by_cases granted : request.Granted reader.remaining
    · rw [(Reader.perform_granted granted).2, ← within.same]
      rfl
    · exact absurd (by rw [Reader.perform_refused granted]) given
  case refused =>
    intro request given
    by_cases granted : request.Granted reader.remaining
    · exact absurd given (Reader.perform_granted granted).1
    · rw [Reader.perform_refused granted]
  case entered =>
    intro count value next read
    by_cases granted : (Request.read count).Granted reader.remaining
    · rw [Reader.read?_of_granted granted.1 granted.2] at read
      cases read
      obtain ⟨word, made, value⟩ := exists_entered bytes 0
        (show 0 + count ≤ 32 by have := granted.1; omega) (by decide)
        (show reader.position + count ≤ 8 * bytes.length by have := granted.2; omega)
      rw [made, Option.map_some, value, Reader.unread, within.same]
      simp
    · have nothing : reader.read? count = none := if_neg granted
      cases nothing.symm.trans read

/-- Seven bits across two bytes, behind three others. -/
example : ((Reader.ofBytes [0b10101100, 0b01010000]).after [.skip 3]).perform (.read 7) =
    (.number 0b0110001, ⟨[0b10101100, 0b01010000], 10⟩) := rfl

end MotionImagery.Bits
