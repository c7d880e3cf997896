import Mathlib.Data.List.Basic
import MotionImagery.Summary.Collector

/-!
What a row of tracks holds after samples were delivered under field names, and where the samples
at one index come from when every delivery gives all of the fields alike.
-/
namespace MotionImagery.Summary

/-- Samples under the names of their fields, in the order in which they come. -/
abbrev Delivery := List (String × Float)

/-- The samples of a field. -/
def Delivery.of (field : String) (delivery : Delivery) : List Float :=
  delivery.filterMap fun entry => if entry.1 = field then some entry.2 else none

namespace Delivery

@[simp]
theorem of_nil (field : String) : of field [] = [] := rfl

@[simp]
theorem of_append (field : String) (delivery later : Delivery) :
    of field (delivery ++ later) = of field delivery ++ of field later :=
  List.filterMap_append

theorem of_flatten (field : String) (parts : List Delivery) :
    of field parts.flatten = parts.flatMap (of field) := by
  rw [of, List.filterMap_flatten, List.flatMap_def]
  rfl

theorem of_eq_nil {field : String} {delivery : Delivery}
    (absent : ∀ entry ∈ delivery, entry.1 ≠ field) : of field delivery = [] := by
  rw [of, List.filterMap_eq_nil_iff]
  intro entry member
  rw [if_neg (absent entry member)]

theorem of_cons_self (field : String) (sample : Float) (delivery : Delivery) :
    of field ((field, sample) :: delivery) = sample :: of field delivery :=
  List.filterMap_cons_some (by rw [if_pos rfl])

theorem of_cons_ne {field other : String} (differ : field ≠ other) (sample : Float)
    (delivery : Delivery) : of other ((field, sample) :: delivery) = of other delivery :=
  List.filterMap_cons_none (by rw [if_neg differ])

/-- Each of the fields is given as often as the others. -/
def InStep (fields : List String) (delivery : Delivery) : Prop :=
  ∀ field ∈ fields, ∀ other ∈ fields, (of field delivery).length = (of other delivery).length

instance (fields : List String) (delivery : Delivery) : Decidable (InStep fields delivery) :=
  inferInstanceAs (Decidable (∀ field ∈ fields, ∀ other ∈ fields,
    (of field delivery).length = (of other delivery).length))

end Delivery

namespace Track

/-- Tracks with the samples of their fields. -/
def holding (fields : List String) (delivery : Delivery) : List Track :=
  fields.map fun field => ⟨field, Delivery.of field delivery⟩

variable {fields : List String} {delivery : Delivery} {field : String} {index : Nat}

theorem holding_other (absent : field ∉ fields) (sample : Float) :
    holding fields (delivery ++ [(field, sample)]) = holding fields delivery := by
  refine List.map_congr_left fun other member => ?_
  have differ : field ≠ other := fun same => absent (same ▸ member)
  rw [Delivery.of_append, Delivery.of_cons_ne differ, Delivery.of_nil,
    List.append_nil]

/-- Adding a sample is delivering it. -/
theorem add_holding (distinct : fields.Nodup) (sample : Float) :
    add field sample (holding fields delivery) = holding fields (delivery ++ [(field, sample)]) := by
  induction fields with
  | nil => rfl
  | cons first rest ih =>
    obtain ⟨fresh, distinct⟩ := List.nodup_cons.mp distinct
    by_cases same : first = field
    · subst same
      have tail : holding rest (delivery ++ [(first, sample)]) = holding rest delivery :=
        holding_other fresh sample
      rw [holding, List.map_cons, add, if_pos rfl, holding, List.map_cons, Delivery.of_append,
        Delivery.of_cons_self, Delivery.of_nil, ← holding, ← holding, tail]
    · rw [holding, List.map_cons, add, if_neg same, ← holding, ih distinct, holding, holding,
        List.map_cons, Delivery.of_append,
        Delivery.of_cons_ne (Ne.symm same), Delivery.of_nil, List.append_nil]

theorem lt_complete {tracks : List Track} :
    index < complete tracks ↔ tracks ≠ [] ∧ ∀ track ∈ tracks, index < track.samples.length := by
  fun_induction complete tracks with
  | case1 => simp
  | case2 track => simp
  | case3 track rest nonempty ih =>
    rw [Nat.lt_min, ih]
    have : rest ≠ [] := nonempty
    simp [this]

theorem lt_complete_holding :
    index < complete (holding fields delivery) ↔
      fields ≠ [] ∧ ∀ field ∈ fields, index < (Delivery.of field delivery).length := by
  simp [lt_complete, holding]

theorem sampleAt_holding (index : Nat) (fields : List String) (delivery : Delivery) :
    sampleAt index (holding fields delivery) =
      fields.filterMap fun field => (Delivery.of field delivery)[index]? := by
  rw [sampleAt, holding, List.filterMap_map]
  rfl

/-- A complete sample has a value of every field. -/
theorem map_some_sampleAt (inside : index < complete (holding fields delivery)) :
    (sampleAt index (holding fields delivery)).map some =
      fields.map fun field => (Delivery.of field delivery)[index]? := by
  have each := (lt_complete_holding.mp inside).2
  rw [sampleAt_holding]
  clear inside
  induction fields with
  | nil => rfl
  | cons first rest ih =>
    obtain ⟨sample, here⟩ : ∃ sample, (Delivery.of first delivery)[index]? = some sample :=
      ⟨_, List.getElem?_eq_getElem (each first List.mem_cons_self)⟩
    rw [List.filterMap_cons_some (f := fun field => (Delivery.of field delivery)[index]?) here,
      List.map_cons, List.map_cons, here,
      ih fun field member => each field (List.mem_cons_of_mem _ member)]

/-- A sample that is kept is one of the complete ones. -/
theorem exists_of_mem_thinned {count : Nat} {tracks : List Track} {sample : List Float}
    (kept : sample ∈ thinned count tracks) :
    ∃ index < complete tracks, sample = sampleAt index tracks := by
  obtain ⟨index, member, rfl⟩ := List.mem_map.mp kept
  exact ⟨index, lt_of_mem_subsampleIndices member, rfl⟩

/-- A first delivery in step is complete as far as it goes; the next sample is what comes next of
each field. -/
theorem next_mem_samples {first later : Delivery} {sample : List Float} (nonempty : fields ≠ [])
    (inStep : first.InStep fields)
    (next : fields.map (fun field => (Delivery.of field later).head?) = sample.map some) :
    sample ∈ thinned 0 (holding fields (first ++ later)) := by
  obtain ⟨any, isField⟩ := List.exists_mem_of_ne_nil _ nonempty
  have height : ∀ field ∈ fields,
      (Delivery.of field first).length = (Delivery.of any first).length :=
    fun field member => inStep field member any isField
  have columns : fields.map (fun field =>
      (Delivery.of field (first ++ later))[(Delivery.of any first).length]?) =
        sample.map some := by
    rw [← next]
    refine List.map_congr_left fun field member => ?_
    rw [Delivery.of_append, ← height field member, List.getElem?_append_right (Nat.le_refl _),
      Nat.sub_self, List.head?_eq_getElem?]
  have inside : (Delivery.of any first).length < complete (holding fields (first ++ later)) := by
    refine lt_complete_holding.mpr ⟨nonempty, fun field member => ?_⟩
    have there := List.mem_map_of_mem member (f := fun field =>
      (Delivery.of field (first ++ later))[(Delivery.of any first).length]?)
    rw [columns] at there
    obtain ⟨value, _, found⟩ := List.mem_map.mp there
    exact (List.getElem?_eq_some_iff.mp found.symm).1
  have same := map_some_sampleAt inside
  rw [columns] at same
  rw [← (List.map_inj_right fun _ _ => Option.some.inj).mp same, thinned]
  refine List.mem_map_of_mem ?_
  rw [subsampleIndices]
  simpa using inside

theorem sampleAt_append_left {first later : Delivery}
    (short : ∀ field ∈ fields, index < (Delivery.of field first).length) :
    sampleAt index (holding fields (first ++ later)) = sampleAt index (holding fields first) := by
  rw [sampleAt_holding, sampleAt_holding]
  refine List.filterMap_congr fun field member => ?_
  rw [Delivery.of_append, List.getElem?_append_left (short field member)]

theorem sampleAt_append_right {first later : Delivery} {height : Nat} (behind : height ≤ index)
    (given : ∀ field ∈ fields, (Delivery.of field first).length = height) :
    sampleAt index (holding fields (first ++ later)) =
      sampleAt (index - height) (holding fields later) := by
  rw [sampleAt_holding, sampleAt_holding]
  refine List.filterMap_congr fun field member => ?_
  rw [Delivery.of_append, List.getElem?_append_right (by rw [given field member]; exact behind),
    given field member]

/-- When every part of a delivery gives the fields in step, a sample comes from one part. -/
theorem exists_part {parts : List Delivery}
    (inStep : ∀ part ∈ parts, part.InStep fields)
    (inside : index < complete (holding fields parts.flatten)) :
    ∃ part ∈ parts, ∃ place < complete (holding fields part),
      sampleAt index (holding fields parts.flatten) = sampleAt place (holding fields part) := by
  induction parts generalizing index with
  | nil =>
    obtain ⟨some, each⟩ := lt_complete_holding.mp inside
    obtain ⟨field, member⟩ := List.exists_mem_of_ne_nil _ some
    exact absurd (each field member) (Nat.not_lt_zero _)
  | cons part rest ih =>
    obtain ⟨nonempty, each⟩ := lt_complete_holding.mp inside
    obtain ⟨first, isField⟩ := List.exists_mem_of_ne_nil _ nonempty
    have height : ∀ field ∈ fields,
        (Delivery.of field part).length = (Delivery.of first part).length :=
      fun field member => inStep part List.mem_cons_self field member first isField
    rw [List.flatten_cons] at each ⊢
    -- The first part has this many samples of every field, so an index is within it or behind it in
    -- all tracks alike.
    by_cases here : index < (Delivery.of first part).length
    · have short : ∀ field ∈ fields, index < (Delivery.of field part).length := by
        intro field member
        rw [height field member]
        exact here
      exact ⟨part, List.mem_cons_self, index, lt_complete_holding.mpr ⟨nonempty, short⟩,
        sampleAt_append_left short⟩
    · have later : index - (Delivery.of first part).length <
          complete (holding fields rest.flatten) := by
        refine lt_complete_holding.mpr ⟨nonempty, fun field member => ?_⟩
        have := each field member
        rw [Delivery.of_append, List.length_append, height field member] at this
        omega
      obtain ⟨source, member, place, placed, same⟩ :=
        ih (fun part member => inStep part (List.mem_cons_of_mem _ member)) later
      refine ⟨source, List.mem_cons_of_mem _ member, place, placed, ?_⟩
      rw [sampleAt_append_right (Nat.le_of_not_lt here) height, same]

end Track

end MotionImagery.Summary
