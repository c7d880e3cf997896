import Mathlib.Data.List.Nodup
import MotionImagery.Proofs.Summary.Serving

/-!
What is listed of the checksums in the course of a window: one value for each that a unit gives, in
the order in which they came. Only the attribute of its collector has them, and the derivations
behind the first leave that attribute alone.
-/
namespace MotionImagery

namespace Keyed
variable {κ α : Type} [DecidableEq κ]

theorem find?_erase_of_ne {key wanted : κ} (other : wanted ≠ key) (entries : Keyed κ α) :
    find? wanted (erase key entries) = find? wanted entries := by
  induction entries with
  | nil => rfl
  | cons entry rest ih =>
    obtain ⟨k, value⟩ := entry
    rw [erase]
    split
    · rename_i same
      rw [find?, if_neg (same ▸ other)]
    · rw [find?, find?, ih]

end Keyed

namespace Attributes

theorem find?_set_of_ne {name wanted : String} (other : wanted ≠ name)
    (values : List AttributeValue) (attributes : Attributes) :
    Keyed.find? wanted (attributes.set name values) = Keyed.find? wanted attributes := by
  rw [set]
  split
  · exact Keyed.find?_erase_of_ne other attributes
  · rw [Keyed.find?_put, if_neg other]

theorem find?_setSingle_of_ne {name wanted : String} (other : wanted ≠ name)
    (value : AttributeValue) (attributes : Attributes) :
    Keyed.find? wanted (attributes.setSingle name value) = Keyed.find? wanted attributes := by
  rw [setSingle, Keyed.find?_put, if_neg other]

end Attributes

namespace Summary
open Telemetry

/-- Where keys differ, no other entry has the key of this one. -/
theorem exists_others {α β : Type} {key : α → β} {entries : List α} {entry : α}
    (member : entry ∈ entries) (distinct : (entries.map key).Nodup) :
    ∃ before after, entries = before ++ entry :: after ∧
      ∀ other ∈ before ++ after, key other ≠ key entry := by
  obtain ⟨before, after, same⟩ := List.append_of_mem member
  rw [same, List.map_append, List.map_cons, List.nodup_middle, ← List.map_append] at distinct
  refine ⟨before, after, same, fun other inside named => ?_⟩
  exact (List.nodup_cons.mp distinct).1 (named ▸ List.mem_map_of_mem inside)

namespace CollectorSet
variable {set : CollectorSet} {values : List AttributeValue}

/-- Each attribute has one collector. -/
theorem nodup_names : (uasDatalink.collectors.map Collector.name).Nodup := by decide +kernel

theorem own_checksum : Own FieldName.checksum (.list AttributeName.checksum) :=
  own_of_mem (by simp [ownFields])

/-- The values are in the list of checksums. -/
structure Listed (values : List AttributeValue) (set : CollectorSet) : Prop where
  serving : set.serving = uasDatalink.serving
  names : set.collectors.map Collector.name = uasDatalink.collectors.map Collector.name
  found : set.find? FieldName.checksum = some ⟨AttributeName.checksum, .list values⟩

namespace Listed

theorem sole (listed : Listed values set) : set.Sole FieldName.checksum :=
  own_checksum.sole.of_serving listed.serving

/-- What is taken in under the checksum is listed behind the rest. -/
theorem of_takenIn {later : CollectorSet} {given : List Value} (listed : Listed values set)
    (taken : TakenIn set FieldName.checksum given later) :
    Listed (values ++ given.filterMap AttributeValue.ofTelemetry?) later := by
  refine ⟨taken.serving.trans listed.serving, taken.names.trans listed.names, ?_⟩
  rw [taken.found, listed.found, Option.map_some, Collector.acceptAll_list]

theorem reset (listed : Listed values set) : Listed [] set.reset := by
  refine ⟨listed.serving, ?_, ?_⟩
  · rw [CollectorSet.reset, List.map_map]
    exact listed.names
  · rw [find?_reset, listed.found]
    rfl

theorem initial : Listed [] uasDatalink := ⟨rfl, rfl, own_checksum.found⟩

end Listed

end CollectorSet

namespace Derivation
variable {collectors : CollectorSet} {settings : Settings} {name : String}

mutual

/-- Whether an attribute may be written. -/
def writes (name : String) : Derivation → Bool
  | copyPresent => true
  | distinct _ given => name == given
  | dates _ =>
    [AttributeName.temporalStart, AttributeName.temporalEnd, AttributeName.created].contains name
  | meanAltitude => name == AttributeName.altitude
  | frameCenter _ => name == AttributeName.frameCenter
  | location _ => name == AttributeName.location
  | classification _ => name == AttributeName.securityClassification
  | list derivations => anyWrites name derivations

def anyWrites (name : String) : List Derivation → Bool
  | [] => false
  | derivation :: rest => writes name derivation || anyWrites name rest

end

theorem find?_setGeometry {given : String} (other : name ≠ given) (shape : Option Geometry)
    (attributes : Attributes) :
    Keyed.find? name (setGeometry given shape attributes) = Keyed.find? name attributes := by
  cases shape with
  | none => rfl
  | some shape => exact Attributes.find?_setSingle_of_ne other _ _

mutual

theorem find?_derive : ∀ {derivation : Derivation}, derivation.writes name = false →
    ∀ attributes, Keyed.find? name (derive collectors settings derivation attributes) =
      Keyed.find? name attributes
  | copyPresent, silent, _ => by cases silent
  | distinct fields given, silent, attributes => by
    have other : name ≠ given := by simpa [writes] using silent
    rw [derive]
    split
    · rfl
    · exact Attributes.find?_set_of_ne other _ _
  | dates field, silent, attributes => by
    obtain ⟨start, stop, created⟩ : name ≠ AttributeName.temporalStart ∧
        name ≠ AttributeName.temporalEnd ∧ name ≠ AttributeName.created := by
      simpa [writes] using silent
    rw [derive]
    split
    · rw [Attributes.find?_setSingle_of_ne created, Attributes.find?_setSingle_of_ne stop,
        Attributes.find?_setSingle_of_ne start]
    · rfl
  | meanAltitude, silent, attributes => by
    have other : name ≠ AttributeName.altitude := by simpa [writes] using silent
    rw [derive]
    cases mean? _ with
    | none => rfl
    | some mean => exact Attributes.find?_setSingle_of_ne other _ _
  | frameCenter rule, silent, attributes => by
    have other : name ≠ AttributeName.frameCenter := by simpa [writes] using silent
    exact find?_setGeometry other _ _
  | location rule, silent, attributes => by
    have other : name ≠ AttributeName.location := by simpa [writes] using silent
    exact find?_setGeometry other _ _
  | classification rule, silent, attributes => by
    have other : name ≠ AttributeName.securityClassification := by simpa [writes] using silent
    rw [derive]
    cases rule.mostRestrictive? _ with
    | none => rfl
    | some text => exact Attributes.find?_setSingle_of_ne other _ _
  | list derivations, silent, attributes => find?_deriveAll silent attributes

/-- What is not written stays as it was. -/
theorem find?_deriveAll : ∀ {derivations : List Derivation}, anyWrites name derivations = false →
    ∀ attributes, Keyed.find? name (deriveAll collectors settings derivations attributes) =
      Keyed.find? name attributes
  | [], _, _ => rfl
  | derivation :: rest, silent, attributes => by
    obtain ⟨first, others⟩ := Bool.or_eq_false_iff.mp silent
    rw [deriveAll, find?_deriveAll others, find?_derive first]

end

mutual

theorem writes_visit (visitor : Visitor Id) : ∀ derivation : Derivation,
    writes name (visit visitor derivation) = writes name derivation
  | copyPresent | distinct _ _ | dates _ | meanAltitude | frameCenter _ | location _
  | classification _ => rfl
  | list derivations => anyWrites_visitAll visitor derivations

/-- Adjusted rules write the same attributes. -/
theorem anyWrites_visitAll (visitor : Visitor Id) : ∀ derivations : List Derivation,
    anyWrites name (visitAll visitor derivations) = anyWrites name derivations
  | [] => rfl
  | derivation :: rest => by
    have first := writes_visit visitor derivation
    have others := anyWrites_visitAll visitor rest
    exact congrArg₂ or first others

end

/-- Collectors for other attributes are no obstacle to one that is copied. -/
theorem find?_copied {others : List Collector}
    (unnamed : ∀ collector ∈ others, collector.name ≠ name) (attributes : Attributes) :
    Keyed.find? name (others.foldl (fun (attributes : Attributes) collector =>
      if collector.values.isEmpty then attributes
      else attributes.set collector.name collector.values) attributes) =
        Keyed.find? name attributes := by
  induction others generalizing attributes with
  | nil => rfl
  | cons collector rest ih =>
    obtain ⟨other, unnamed⟩ := List.forall_mem_cons.mp unnamed
    rw [List.foldl_cons, ih unnamed]
    split
    · rfl
    · exact Attributes.find?_set_of_ne other.symm _ _

/-- What a collector gathered is copied as it is. -/
theorem find?_copyPresent {collector : Collector} (there : collector ∈ collectors.collectors)
    (distinct : (collectors.collectors.map Collector.name).Nodup) :
    Keyed.find? collector.name (derive collectors settings copyPresent []) =
      if collector.values.isEmpty then none else some collector.values := by
  obtain ⟨before, after, same, unnamed⟩ := exists_others there distinct
  obtain ⟨unnamed, unnamed'⟩ := List.forall_mem_append.mp unnamed
  rw [derive, same, List.foldl_append, List.foldl_cons, find?_copied unnamed']
  have nothing := find?_copied unnamed []
  generalize before.foldl _ [] = attributes at nothing ⊢
  cases empty : collector.values.isEmpty with
  | true =>
    rw [if_pos rfl, if_pos rfl]
    exact nothing
  | false =>
    rw [if_neg Bool.false_ne_true, if_neg Bool.false_ne_true, Attributes.set, empty,
      if_neg Bool.false_ne_true, Keyed.find?_put, if_pos rfl]

end Derivation

namespace Window
variable {window : Window} {values : List AttributeValue}

/-- The values are in the list of checksums of the window, and will be its attribute. -/
structure Lists (values : List AttributeValue) (window : Window) : Prop where
  listed : CollectorSet.Listed values window.collectors
  copied : ∃ rest, window.derivation = .list (.copyPresent :: rest) ∧
    Derivation.anyWrites AttributeName.checksum rest = false

namespace Lists

theorem initial : Lists [] .uasDatalink := ⟨.initial, _, rfl, by decide⟩

theorem adjust (lists : Lists values window) (visitor : Derivation.Visitor Id) :
    Lists values (window.adjust visitor) := by
  obtain ⟨rest, same, silent⟩ := lists.copied
  refine ⟨lists.listed, Derivation.visitAll visitor rest, ?_, ?_⟩
  · rw [Window.adjust, same]
    rfl
  · rw [Derivation.anyWrites_visitAll, silent]

theorem accept (lists : Lists values window) (unit : Fields) :
    Lists (values ++ (Value.underFields FieldName.checksum unit).filterMap
      AttributeValue.ofTelemetry?) (window.accept unit) := by
  have nothing := CollectorSet.TakenIn.initial window.collectors FieldName.checksum
  exact ⟨lists.listed.of_takenIn (nothing.acceptUnit lists.listed.sole unit), lists.copied⟩

/-- A window that is closed gives what it listed, and nothing is left. -/
theorem finish (lists : Lists values window) (settings : Settings) :
    (Keyed.find? AttributeName.checksum (window.finish settings).1).getD [] = values ∧
      Lists [] (window.finish settings).2 := by
  obtain ⟨rest, same, silent⟩ := lists.copied
  refine ⟨?_, lists.listed.reset, rest, same, silent⟩
  rw [Window.finish, same]
  dsimp only
  have distinct : (window.collectors.collectors.map Collector.name).Nodup := by
    rw [lists.listed.names]
    exact CollectorSet.nodup_names
  have copied : Keyed.find? AttributeName.checksum
      (Derivation.derive window.collectors settings .copyPresent []) = _ :=
    Derivation.find?_copyPresent (CollectorSet.mem_of_find? lists.listed.found) distinct
  rw [Derivation.derive, Derivation.deriveAll, Derivation.find?_deriveAll silent, copied]
  cases values <;> rfl

end Lists

end Window

end Summary

end MotionImagery
