import MotionImagery.Geometry.Merge
import MotionImagery.Geometry.Operator
import MotionImagery.Proofs.Geometry.Subsampling

/-!
What operators make of a way: a single point stays as it is, and a line stays a line, of two
coordinates or more but of no more than before. All that is asked of the simplifier is that it adds
no coordinates to a line.
-/
namespace MotionImagery

/-- A simplified line has no more coordinates than before. -/
def Simplifier.Thins (simplifier : Simplifier) : Prop :=
  ∀ tolerance path, (simplifier.line tolerance path).length ≤ path.length

/-- The ends stand for a part of two coordinates at least; what is shorter is never touched. -/
theorem length_thinOut_le {least count : Nat} {tolerance : Float} {path : List Coord}
    (long : 2 ≤ path.length ∨ count < least) :
    (thinOut least tolerance path count).1.length ≤ path.length := by
  fun_induction thinOut least tolerance path count with
  | case2 path count first last isLast isFirst notTwo index distance farthest far inside left
      remaining leftThinned right remaining' rightThinned ihLeft ihRight =>
    have before : left.length ≤ index + 1 := by
      simpa only [leftThinned, List.length_take_of_le (Nat.le_of_lt inside.2)] using
        ihLeft (.inl (by rw [List.length_take]; omega))
    have behind : right.length ≤ path.length - index := by
      simpa only [rightThinned, List.length_drop] using
        ihRight (.inl (by rw [List.length_drop]; omega))
    rw [List.length_append, List.length_dropLast]
    omega
  | case5 path count first last isLast isFirst notTwo index distance farthest near left enough =>
    change 2 ≤ path.length
    omega
  | _ => exact Nat.le_refl _

theorem Simplifier.standard_thins : Simplifier.standard.Thins := by
  intro tolerance path
  change (simplifyPath 2 tolerance path).length ≤ path.length
  rw [simplifyPath]
  split
  · exact Nat.le_refl _
  · exact length_thinOut_le (Nat.lt_or_ge path.length 2).symm

namespace Geometry

/-- A point, or a line of at least two and at most `count` coordinates, where it is known. -/
inductive Way (count : Nat) : Geometry → Prop
  | point {position : Coord} (finite : position.isFinite = true) : Way count (.point position)
  | line {path : List Coord} (least : 2 ≤ path.length) (most : path.length ≤ count)
      (finite : ∀ position ∈ path, position.isFinite = true) : Way count (.lineString path)

namespace Way
variable {count : Nat} {geometry : Geometry}

theorem isValid (way : Way count geometry) : geometry.isValid = true := by
  cases way with
  | point finite => simpa [Geometry.isValid, coords, isWellFormed] using finite
  | line least most finite =>
    simpa [Geometry.isValid, coords, isWellFormed, isValidLine] using ⟨finite, least⟩

theorem of_isValid {path : List Coord} (valid : (lineString path).isValid = true)
    (most : path.length ≤ count) : Way count (.lineString path) := by
  obtain ⟨finite, least⟩ : (∀ position ∈ path, position.isFinite = true) ∧ 2 ≤ path.length := by
    simpa [Geometry.isValid, coords, isWellFormed, isValidLine] using valid
  exact .line least most finite

theorem subsampleLine (way : Way count geometry) : Way count (geometry.subsampleLine count) := by
  cases way with
  | point finite => exact .point finite
  | line least most finite =>
    rw [Geometry.subsampleLine, subsample_of_le (.inr most)]
    exact .line least most finite

theorem simplifyWith {simplifier : Simplifier} (thins : simplifier.Thins)
    (way : Way count geometry) (tolerance : Float) :
    Way count (geometry.simplifyWith simplifier tolerance) := by
  rw [Geometry.simplifyWith]
  split
  · rename_i valid
    cases way with
    | point finite => exact .point finite
    | line least most finite => exact of_isValid valid (Nat.le_trans (thins _ _) most)
  · exact way

theorem normalize (way : Way count geometry) : Way count geometry.normalize := by
  cases way with
  | point finite => exact .point finite
  | @line path least most finite =>
    rw [Geometry.normalize, normalizeWith, normalizeLine]
    split
    · exact .line least most finite
    · exact .line (by simpa using least) (by simpa using most) (by simpa using finite)

section
variable {simplifier : Simplifier} {detail : Detail}

mutual

theorem applyWith (thins : simplifier.Thins) : ∀ (operator : GeometryOperator)
    {geometry : Geometry}, Way detail.count geometry →
      Way detail.count (operator.applyWith simplifier detail geometry)
  | .identity, _, way => way
  | .subsample, _, way => way.subsampleLine
  | .simplify, _, way => by
    rw [GeometryOperator.applyWith]
    split
    · exact way.simplifyWith thins _
    · exact way
  | .normalize, _, way => way.normalize
  | .chain operators, _, way => applyAllWith thins operators way

/-- Whatever the operators, a way stays one. -/
theorem applyAllWith (thins : simplifier.Thins) : ∀ (operators : List GeometryOperator)
    {geometry : Geometry}, Way detail.count geometry →
      Way detail.count (GeometryOperator.applyAllWith simplifier detail operators geometry)
  | [], _, way => way
  | operator :: rest, _, way => applyAllWith thins rest (applyWith thins operator way)

end

end

/-- Finite points in their order, no more than are allowed. -/
theorem of_ofPoints? {points : List Coord} (made : ofPoints? points = some geometry)
    (most : points.length ≤ count) (finite : ∀ position ∈ points, position.isFinite = true) :
    Way count geometry := by
  match points with
  | [] => cases made
  | [position] =>
    cases made
    exact .point (finite position List.mem_cons_self)
  | first :: second :: rest =>
    cases made
    exact .line (by simp) most finite

end Way

theorem isSome_ofPoints? (points : List Coord) :
    (ofPoints? points).isSome = true ↔ points ≠ [] := by
  match points with
  | [] => simp [ofPoints?]
  | [_] => simp [ofPoints?]
  | _ :: _ :: _ => simp [ofPoints?]

/-- Whatever the hull, what is repaired is valid. -/
theorem isValid_of_repairWith? {hull : Geometry → Polygon} {shape repaired : Geometry}
    (given : shape.repairWith? hull = some repaired) : repaired.isValid = true := by
  rw [repairWith?] at given
  split at given
  · rename_i valid
    cases given
    exact valid
  · dsimp only at given
    split at given
    · rename_i valid
      cases given
      exact valid
    · cases given

end Geometry

end MotionImagery
