import Mathlib.Data.List.Basic
import MotionImagery.Geometry.Subsample

/-!
Which samples are kept when a sequence is thinned out: as many as are allowed, from the first on,
at distances that differ by one at most.
-/
namespace MotionImagery
variable {length count rank : Nat}

/-- The index that is kept in a place. -/
theorem getElem?_subsampleIndices (positive : 1 ≤ count) (inside : rank < min length count) :
    (subsampleIndices length count)[rank]? = some (rank * length / min length count) := by
  rw [subsampleIndices, if_neg (by omega), List.getElem?_map, List.getElem?_range inside,
    Option.map_some]
  split
  · rfl
  · have all : min length count = length := by omega
    rw [all, Nat.mul_div_cancel _ (by omega)]

theorem length_subsampleIndices (positive : 1 ≤ count) :
    (subsampleIndices length count).length = min length count := by
  rw [subsampleIndices, if_neg (by omega), List.length_map, List.length_range]

/-- Without more samples than allowed all are kept. -/
theorem subsampleIndices_of_le (few : count = 0 ∨ length ≤ count) :
    subsampleIndices length count = List.range length := by
  have all : (if count = 0 then length else min length count) = length := by
    split <;> omega
  rw [subsampleIndices, all]
  simp only [Nat.lt_irrefl, if_false, List.map_id']

/-- One multiple of a number after the other, each divided and rounded down. -/
theorem div_step (kept : Nat) (positive : 0 < kept) :
    (rank + 1) * length / kept = rank * length / kept + length / kept ∨
      (rank + 1) * length / kept = rank * length / kept + (length + kept - 1) / kept := by
  rw [Nat.add_one_mul, Nat.add_div positive]
  by_cases carries : kept ≤ rank * length % kept + length % kept
  · right
    have remainder : 1 ≤ length % kept := by
      have := Nat.mod_lt (rank * length) positive
      omega
    have up : (length + kept - 1) / kept = length / kept + 1 := by
      have whole := Nat.div_add_mod length kept
      have bound := Nat.mod_lt length positive
      rw [Nat.div_eq_iff positive]
      constructor
      · rw [Nat.add_one_mul, Nat.mul_comm]
        omega
      · rw [Nat.add_one_mul, Nat.mul_comm]
        omega
    rw [if_pos carries, up, Nat.add_assoc]
  · left
    rw [if_neg carries, Nat.add_zero]

/-- At least one sample stands between two that are kept. -/
theorem div_lt_div {kept earlier later : Nat} (positive : 0 < kept) (few : kept ≤ length)
    (before : earlier < later) : earlier * length / kept < later * length / kept := by
  calc earlier * length / kept < (earlier * length + kept) / kept := by
        rw [Nat.add_div_right _ positive]
        exact Nat.lt_succ_self _
    _ ≤ (earlier + 1) * length / kept := by
        rw [Nat.add_one_mul]
        exact Nat.div_le_div_right (Nat.add_le_add_left few _)
    _ ≤ later * length / kept := Nat.div_le_div_right (Nat.mul_le_mul_right _ before)

/-- What is kept of samples of a number: the first one and then each after as many of them as fit
evenly, rounded down or up. -/
structure Spread (length count : Nat) (indices : List Nat) : Prop where
  size : indices.length = min length count
  ascending : indices.Pairwise (· < ·)
  inside : ∀ index ∈ indices, index < length
  first : 0 < length → indices.head? = some 0
  even : ∀ rank index next, indices[rank]? = some index → indices[rank + 1]? = some next →
    next = index + length / min length count ∨
      next = index + (length + min length count - 1) / min length count

theorem spread_subsampleIndices (positive : 1 ≤ count) :
    Spread length count (subsampleIndices length count) := by
  have size : (subsampleIndices length count).length = min length count :=
    length_subsampleIndices positive
  have at_rank : ∀ rank index, (subsampleIndices length count)[rank]? = some index →
      rank < min length count ∧ index = rank * length / min length count := by
    intro rank index found
    have inside : rank < min length count := by
      rw [← size]
      exact (List.getElem?_eq_some_iff.mp found).1
    rw [getElem?_subsampleIndices positive inside, Option.some_inj] at found
    exact ⟨inside, found.symm⟩
  have even : ∀ rank index next, (subsampleIndices length count)[rank]? = some index →
      (subsampleIndices length count)[rank + 1]? = some next →
        next = index + length / min length count ∨
          next = index + (length + min length count - 1) / min length count := by
    intro rank index next found found'
    obtain ⟨inside, rfl⟩ := at_rank rank index found
    obtain ⟨-, rfl⟩ := at_rank (rank + 1) next found'
    exact div_step _ (by omega)
  refine ⟨size, ?_, fun index => lt_of_mem_subsampleIndices, fun some => ?_, even⟩
  · rw [subsampleIndices, if_neg (by omega), List.pairwise_map]
    refine List.pairwise_lt_range.imp fun {earlier later} before => ?_
    split
    · exact div_lt_div (by omega) (by omega) before
    · exact before
  · rw [List.head?_eq_getElem?, getElem?_subsampleIndices positive (by omega), Nat.zero_mul,
      Nat.zero_div]

section
variable {α : Type} {samples : List α}

/-- The samples are those at the indices. -/
theorem map_some_subsample (samples : List α) (count : Nat) :
    (subsample samples count).map some =
      (subsampleIndices samples.length count).map fun index => samples[index]? := by
  have there : ∀ entry ∈ (subsampleIndices samples.length count).map fun index => samples[index]?,
      entry.isSome = true := by
    intro entry member
    obtain ⟨index, kept, rfl⟩ := List.mem_map.mp member
    rw [List.getElem?_eq_getElem (lt_of_mem_subsampleIndices kept)]
    rfl
  rw [subsample]
  simp only [List.getElem?_toArray]
  rw [List.map_filterMap_some_eq_filter_map_isSome, List.filter_eq_self.mpr there]

/-- Nothing is left out of a sequence that is short enough. -/
theorem subsample_of_le (few : count = 0 ∨ samples.length ≤ count) :
    subsample samples count = samples := by
  refine (List.map_inj_right fun _ _ => Option.some.inj).mp ?_
  rw [map_some_subsample, subsampleIndices_of_le few]
  refine List.ext_getElem? fun index => ?_
  by_cases inside : index < samples.length
  · rw [List.getElem?_map, List.getElem?_range inside, List.getElem?_map, Option.map_some,
      List.getElem?_eq_getElem inside]
    rfl
  · rw [List.getElem?_eq_none (by simpa using inside), List.getElem?_eq_none (by simpa using inside)]

end

end MotionImagery
