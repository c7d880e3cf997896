import MotionImagery.Bytes

/-!
Access to bytes by their offsets, in words of 64 bits. Every access is checked: a byte or a range
that is not there is a fault, and so is a number that does not fit its word.
-/
namespace MotionImagery

inductive AccessFault where
  | outOfRange
  | overflow
  deriving DecidableEq, Repr

abbrev Access := Except AccessFault

namespace Access

def wordSize : Nat := 0x10000000000000000

/-- Goes on when the condition holds, and with the knowledge that it does. -/
def require (condition : Prop) [Decidable condition] (fault : AccessFault) :
    Access (PLift condition) :=
  if holds : condition then pure ⟨holds⟩ else throw fault

def byteAt (data : Bytes) (offset : Nat) : Access UInt8 := do
  let ⟨inside⟩ ← require (offset < data.length) .outOfRange
  return data[offset]

/-- The bytes from `start` up to `stop`. -/
def range (data : Bytes) (start stop : Nat) : Access Bytes := do
  let _ ← require (start ≤ stop ∧ stop ≤ data.length) .outOfRange
  return slice data start stop

/-- The result of an addition or a multiplication of words. -/
def word (number : Nat) : Access Nat := do
  let _ ← require (number < wordSize) .overflow
  return number

/-- The result of a subtraction of words. -/
def difference (number less : Nat) : Access Nat := do
  let _ ← require (less ≤ number) .overflow
  return number - less

variable {condition : Prop} [Decidable condition] {fault : AccessFault} {data : Bytes}
  {offset start stop number less : Nat}

theorem require_eq (holds : condition) : require condition fault = pure ⟨holds⟩ :=
  dif_pos holds

theorem byteAt_eq (inside : offset < data.length) : byteAt data offset = pure data[offset] := by
  rw [byteAt, require_eq inside, pure_bind]

theorem range_eq (ordered : start ≤ stop) (inside : stop ≤ data.length) :
    range data start stop = pure (slice data start stop) := by
  rw [range, require_eq ⟨ordered, inside⟩, pure_bind]

example : range [7, 8] 1 3 = throw .outOfRange := rfl

theorem word_eq (fits : number < wordSize) : word number = pure number := by
  rw [word, require_eq fits, pure_bind]

theorem difference_eq (ordered : less ≤ number) :
    difference number less = pure (number - less) := by
  rw [difference, require_eq ordered, pure_bind]

example : difference 3 4 = throw .overflow := rfl

@[simp]
theorem byteAt_zero (byte : UInt8) (rest : Bytes) : byteAt (byte :: rest) 0 = pure byte :=
  byteAt_eq (Nat.zero_lt_succ _)

@[simp]
theorem byteAt_succ (byte : UInt8) (rest : Bytes) (offset : Nat) :
    byteAt (byte :: rest) (offset + 1) = byteAt rest offset := by
  by_cases inside : offset < rest.length
  · rw [byteAt_eq inside, byteAt_eq (Nat.succ_lt_succ inside), List.getElem_cons_succ]
  · have outside : ¬offset + 1 < (byte :: rest).length := by
      rw [List.length_cons]
      omega
    rw [byteAt, byteAt, require, require, dif_neg inside, dif_neg outside]
    rfl

end Access

end MotionImagery
