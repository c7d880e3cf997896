import Mathlib.Algebra.Group.Nat.Defs
import MotionImagery.Geometry.Order

/-!
When two numbers are the same. Keys tell all numbers apart. Comparison by value tells apart those
that are finite, but for the two zeros.
-/
namespace MotionImagery
open Float.Model Float.Model.UnpackedFloat

theorem eq_of_toBits {a b : Float} (same : a.toBits = b.toBits) : a = b := by
  obtain ⟨⟨bits, valid⟩⟩ := a
  obtain ⟨⟨bits', valid'⟩⟩ := b
  cases same
  rfl

theorem orderKey_injective {a b : Float} (same : orderKey a = orderKey b) : a = b := by
  refine eq_of_toBits (UInt64.toNat_inj.mp ?_)
  have bound := a.toBits.toNat_lt
  have bound' := b.toBits.toNat_lt
  unfold orderKey at same
  dsimp only at same
  split at same <;> split at same <;> omega

/-! Words of 64 bits: the sign, eleven bits of the exponent, and 52 of the mantissa. -/

namespace Word

abbrev Bits := BitVec Format.binary64.numBits

variable {word other : Bits}

theorem toNat_mantissa (word : Bits) : (unpackMantissa word).toNat = word.toNat % 2 ^ 52 := by
  simp [unpackMantissa]

theorem toNat_exponent (word : Bits) :
    (unpackExponent word).toNat = word.toNat / 2 ^ 52 % 2 ^ 11 := by
  simp [unpackExponent, Nat.shiftRight_eq_div_pow]

theorem toNat_sign (word : Bits) : (unpackSign word).toNat = word.toNat / 2 ^ 63 := by
  have bound : word.toNat < 2 ^ 64 := word.isLt
  delta unpackSign
  simp only [BitVec.toNat_cast, BitVec.extractLsb_toNat, Nat.shiftRight_eq_div_pow]
  omega

theorem sign_injective {a b : BitVec 1} (same : Sign.ofBitVec a = Sign.ofBitVec b) : a = b := by
  obtain rfl | rfl := BitVec.eq_zero_or_eq_one a <;>
    obtain rfl | rfl := BitVec.eq_zero_or_eq_one b <;> first | rfl | cases same

/-- The sign, exponent and mantissa by which a finite number is written. -/
def written : UnpackedFloat → Sign × Nat × Nat
  | .finite sign mantissa exponent _ =>
    (sign, if mantissa < 2 ^ 52 then 0 else (exponent + 1075).toNat, mantissa % 2 ^ 52)
  | .zero sign => (sign, 0, 0)
  | _ => (.positive, 0, 0)

@[simp]
theorem written_finite (sign : Sign) (mantissa : Nat) (exponent : Int) (positive : 0 < mantissa) :
    written (.finite sign mantissa exponent positive) =
      (sign, if mantissa < 2 ^ 52 then 0 else (exponent + 1075).toNat, mantissa % 2 ^ 52) := rfl

@[simp]
theorem written_zero (sign : Sign) : written (.zero sign) = (sign, 0, 0) := rfl

theorem written_unpack (finite : (UnpackedFloat.unpack .binary64 word).isFinite = true) :
    written (UnpackedFloat.unpack .binary64 word) =
      (Sign.ofBitVec (unpackSign word), (unpackExponent word).toNat,
        (unpackMantissa word).toNat) := by
  have bound : (unpackMantissa word).toNat < 2 ^ 52 := (unpackMantissa word).isLt
  unfold UnpackedFloat.unpack at finite ⊢
  dsimp only at finite ⊢
  by_cases special : unpackExponent word = -1#_
  · rw [if_pos special] at finite
    by_cases none : unpackMantissa word = 0#_
    · rw [if_pos none] at finite
      cases finite
    · rw [if_neg none] at finite
      cases finite
  · rw [if_neg special]
    by_cases small : unpackExponent word = 0#_
    · rw [if_pos small, small]
      by_cases none : unpackMantissa word = 0#_
      · rw [dif_pos none, none]
        rfl
      · rw [dif_neg none, written_finite, if_pos bound, Nat.mod_eq_of_lt bound]
        rfl
    · have led : (1#1 ++ unpackMantissa word).toNat = 2 ^ 52 + (unpackMantissa word).toNat := by
        rw [BitVec.toNat_append, ← Nat.shiftLeft_add_eq_or_of_lt (unpackMantissa word).isLt]
        rfl
      have moved : ((unpackExponent word).toNat : Int) - (Format.binary64.exponentBias +
          Format.binary64.mantissaBitsWithoutImplicit) + 1075 = (unpackExponent word).toNat := by
        have bias : ((Format.binary64.exponentBias +
          Format.binary64.mantissaBitsWithoutImplicit : Nat) : Int) = 1075 := rfl
        omega
      rw [if_neg small, written_finite, led, if_neg (by omega), moved, Int.toNat_natCast,
        Nat.add_mod_left, Nat.mod_eq_of_lt bound]

theorem eq_of_unpack (finite : (UnpackedFloat.unpack .binary64 word).isFinite = true)
    (same : UnpackedFloat.unpack .binary64 word = UnpackedFloat.unpack .binary64 other) :
    word = other := by
  have parts := written_unpack finite
  rw [same, written_unpack (same ▸ finite), Prod.mk.injEq, Prod.mk.injEq] at parts
  obtain ⟨sign, exponent, mantissa⟩ := parts
  have sign := congrArg BitVec.toNat (sign_injective sign)
  rw [toNat_sign, toNat_sign] at sign
  rw [toNat_exponent, toNat_exponent] at exponent
  rw [toNat_mantissa, toNat_mantissa] at mantissa
  refine BitVec.eq_of_toNat_eq ?_
  omega

/-- There are two ways to write zero. -/
theorem eq_of_zero {sign : Sign} (zero : UnpackedFloat.unpack .binary64 word = .zero sign) :
    word.toNat = 0 ∨ word.toNat = 2 ^ 63 := by
  have finite : (UnpackedFloat.unpack .binary64 word).isFinite = true := by
    rw [zero]
    rfl
  have parts := written_unpack finite
  rw [zero, written_zero, Prod.mk.injEq, Prod.mk.injEq, toNat_exponent, toNat_mantissa] at parts
  obtain ⟨-, exponent, mantissa⟩ := parts
  have bound : word.toNat < 2 ^ 64 := word.isLt
  omega

end Word

/-- Finite, and not the negative zero. -/
def isPlain (number : Float) : Bool := number.isFinite && number.toBits != 0x8000000000000000

theorem beq_iff_compare {a b : Float} :
    (a == b) = true ↔ a.toModel.unpack.compare b.toModel.unpack = some .eq := by
  change (UnpackedFloat.compare _ _ == some Ordering.eq) = true ↔ _
  exact beq_iff_eq

/-- Magnitudes are compared by their exponents, then by their mantissas. -/
theorem magnitudes_eq_iff {exponent exponent' : Int} {mantissa mantissa' : Nat} :
    (compare exponent exponent').then (compare mantissa mantissa') = .eq ↔
      exponent = exponent' ∧ mantissa = mantissa' := by
  simp [Ordering.then_eq_eq]

theorem compare_self {number : UnpackedFloat} (finite : number.isFinite = true) :
    number.compare number = some .eq := by
  cases number with
  | finite sign mantissa exponent positive =>
    have same : (compare exponent exponent).then (compare mantissa mantissa) = .eq :=
      magnitudes_eq_iff.mpr ⟨rfl, rfl⟩
    cases sign with
    | positive => exact congrArg some same
    | negative => exact congrArg some (Ordering.swap_eq_eq.mpr same)
  | zero => rfl
  | _ => cases finite

theorem eq_of_compare {a b : UnpackedFloat} (finite : a.isFinite = true)
    (equal : a.compare b = some .eq) :
    a = b ∨ ∃ sign sign', a = .zero sign ∧ b = .zero sign' := by
  cases a with
  | zero sign =>
    cases b with
    | zero sign' => exact .inr ⟨sign, sign', rfl, rfl⟩
    | finite sign' => cases sign' <;> cases equal
    | infinity sign' => cases sign' <;> cases equal
    | notANumber => cases equal
  | finite sign mantissa exponent positive =>
    cases b with
    | finite sign' mantissa' exponent' positive' =>
      left
      cases sign <;> cases sign'
      case positive.positive =>
        obtain ⟨rfl, rfl⟩ := magnitudes_eq_iff.mp (Option.some.inj equal)
        rfl
      case negative.negative =>
        obtain ⟨rfl, rfl⟩ := magnitudes_eq_iff.mp (Ordering.swap_eq_eq.mp (Option.some.inj equal))
        rfl
      all_goals cases equal
    | zero => cases sign <;> cases equal
    | infinity sign' => cases sign <;> cases sign' <;> cases equal
    | notANumber => cases sign <;> cases equal
  | _ => cases finite

theorem beq_self_of_isFinite {number : Float} (finite : number.isFinite = true) :
    (number == number) = true :=
  beq_iff_compare.mpr (compare_self finite)

/-- Plain numbers that are equal by value are the same. -/
theorem eq_of_isPlain {a b : Float} (plain : isPlain a = true) (plain' : isPlain b = true)
    (equal : (a == b) = true) : a = b := by
  obtain ⟨finite, unsigned⟩ := Bool.and_eq_true_iff.mp plain
  obtain ⟨-, unsigned'⟩ := Bool.and_eq_true_iff.mp plain'
  refine eq_of_toBits (UInt64.toBitVec_inj.mp ?_)
  obtain same | ⟨sign, sign', zero, zero'⟩ := eq_of_compare finite (beq_iff_compare.mp equal)
  · exact Word.eq_of_unpack finite same
  · have only : ∀ {number : Float}, (number.toBits != 0x8000000000000000) = true →
        (number.toBits.toNat = 0 ∨ number.toBits.toNat = 2 ^ 63) → number.toBits.toNat = 0 := by
      intro number unsigned zero
      obtain none | negative := zero
      · exact none
      · have same : number.toBits = 0x8000000000000000 := UInt64.toNat_inj.mp negative
        rw [same] at unsigned
        exact absurd unsigned (by decide)
    exact BitVec.eq_of_toNat_eq
      ((only unsigned (Word.eq_of_zero zero)).trans (only unsigned' (Word.eq_of_zero zero')).symm)

namespace Coord

def isPlain (c : Coord) : Bool := MotionImagery.isPlain c.x && MotionImagery.isPlain c.y

theorem eq_of_isPlain {a b : Coord} (plain : a.isPlain = true) (plain' : b.isPlain = true)
    (equal : (a == b) = true) : a = b := by
  obtain ⟨x, y⟩ := Bool.and_eq_true_iff.mp plain
  obtain ⟨x', y'⟩ := Bool.and_eq_true_iff.mp plain'
  obtain ⟨sameX, sameY⟩ := Bool.and_eq_true_iff.mp equal
  obtain ⟨_, _⟩ := a
  obtain ⟨_, _⟩ := b
  rw [mk.injEq]
  exact ⟨MotionImagery.eq_of_isPlain x x' sameX, MotionImagery.eq_of_isPlain y y' sameY⟩

theorem beq_self_of_isPlain {c : Coord} (plain : c.isPlain = true) : (c == c) = true := by
  obtain ⟨x, y⟩ := Bool.and_eq_true_iff.mp plain
  exact Bool.and_eq_true_iff.mpr
    ⟨beq_self_of_isFinite (Bool.and_eq_true_iff.mp x).1,
      beq_self_of_isFinite (Bool.and_eq_true_iff.mp y).1⟩

end Coord

end MotionImagery
