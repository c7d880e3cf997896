import MotionImagery.Geometry.Basic

/-!
Thinning a sequence out to a greatest number of samples, evenly and from the first on.
-/
namespace MotionImagery

/-- The indices kept of `length` samples: `i * length / count` for `i < count`, or all of them
when there are no more than `count`. A count of zero keeps all. -/
def subsampleIndices (length count : Nat) : List Nat :=
  let kept := if count = 0 then length else min length count
  (List.range kept).map fun i => if kept < length then i * length / kept else i

theorem lt_of_mem_subsampleIndices {length count index : Nat}
    (kept : index ∈ subsampleIndices length count) : index < length := by
  unfold subsampleIndices at kept
  extract_lets most at kept
  have few : most ≤ length := by
    dsimp only [most]
    split <;> omega
  obtain ⟨rank, below, rfl⟩ := List.mem_map.mp kept
  rw [List.mem_range] at below
  split
  · rw [Nat.div_lt_iff_lt_mul (by omega), Nat.mul_comm length]
    exact Nat.mul_lt_mul_of_pos_right below (by omega)
  · omega

/-- The samples at the indices kept. -/
def subsample {α : Type} (samples : List α) (count : Nat) : List α :=
  let indexed := samples.toArray
  (subsampleIndices samples.length count).filterMap fun i => indexed[i]?

/-- Keeps at most `count` coordinates of a line; other geometries stay as they are. -/
def Geometry.subsampleLine (count : Nat) : Geometry → Geometry
  | lineString path => lineString (subsample path count)
  | other => other

end MotionImagery
