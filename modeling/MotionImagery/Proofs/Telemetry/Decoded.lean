import MotionImagery.Proofs.Telemetry.Carriage
import MotionImagery.Proofs.Telemetry.Corruption
import MotionImagery.Proofs.Telemetry.Grammar

/-!
The fields of decoded units. Every field is there once and comes from an element of the set; a unit
that is decoded has one checksum, and no nested set has another.
-/
namespace MotionImagery

namespace Keyed
variable {α : Type} {entries : Keyed String α}

def Ascending (entries : Keyed String α) : Prop := entries.Pairwise fun first second =>
  first.1 < second.1

theorem mem_put {key : String} {value : α} {entry : String × α}
    (member : entry ∈ put key value entries) : entry = (key, value) ∨ entry ∈ entries := by
  induction entries with
  | nil => exact .inl (List.mem_singleton.mp member)
  | cons first rest ih =>
    obtain ⟨k, other⟩ := first
    rw [put] at member
    split at member
    · exact List.mem_cons.mp member
    · split at member
      · exact (List.mem_cons.mp member).imp_right (List.mem_cons_of_mem _)
      · obtain rfl | member := List.mem_cons.mp member
        · exact .inr List.mem_cons_self
        · exact (ih member).imp_right (List.mem_cons_of_mem _)

theorem ascending_put (ascending : Ascending entries) (key : String) (value : α) :
    Ascending (put key value entries) := by
  induction entries with
  | nil => exact List.pairwise_singleton ..
  | cons first rest ih =>
    obtain ⟨k, other⟩ := first
    obtain ⟨least, later⟩ := List.pairwise_cons.mp ascending
    rw [put]
    by_cases before : key < k
    · rw [if_pos before]
      refine List.pairwise_cons.mpr ⟨?_, ascending⟩
      intro entry member
      obtain rfl | member := List.mem_cons.mp member
      · exact before
      · exact String.lt_trans before (least entry member)
    · rw [if_neg before]
      by_cases same : key = k
      · rw [if_pos same]
        subst same
        exact List.pairwise_cons.mpr ⟨least, later⟩
      · rw [if_neg same]
        refine List.pairwise_cons.mpr ⟨?_, ih later⟩
        intro entry member
        obtain rfl | member := mem_put member
        · exact Std.lt_of_le_of_ne (String.not_lt.mp before) (Ne.symm same)
        · exact least entry member

end Keyed

namespace Telemetry
open Context

mutual

/-- The values under a name; those in nested sets are among them. -/
def Value.under (wanted field : String) : Value → List Value
  | .set fields => underFields wanted fields
  | .unsigned number => if field = wanted then [.unsigned number] else []
  | .float number => if field = wanted then [.float number] else []
  | .text content => if field = wanted then [.text content] else []
  | .bytes content => if field = wanted then [.bytes content] else []

def Value.underFields (wanted : String) : List (String × Value) → List Value
  | [] => []
  | (field, value) :: rest => under wanted field value ++ underFields wanted rest

end

namespace Value

theorem under_other {wanted field : String} {value : Value} (other : field ≠ wanted)
    (nested : ∀ inner, value = .set inner → underFields wanted inner = []) :
    under wanted field value = [] := by
  cases value with
  | set inner => exact nested inner rfl
  | _ => exact if_neg other

theorem under_same {wanted : String} {value : Value} (scalar : ∀ inner, value ≠ .set inner) :
    under wanted wanted value = [value] := by
  cases value with
  | set inner => exact absurd rfl (scalar inner)
  | _ => exact if_pos rfl

theorem underFields_of_absent {wanted : String} {fields : Fields}
    (absent : ∀ entry ∈ fields, entry.1 ≠ wanted)
    (nested : ∀ name inner, (name, .set inner) ∈ fields → underFields wanted inner = []) :
    underFields wanted fields = [] := by
  induction fields with
  | nil => rfl
  | cons first rest ih =>
    obtain ⟨field, value⟩ := first
    obtain ⟨other, others⟩ := List.forall_mem_cons.mp absent
    have here : under wanted field value = [] := by
      refine under_other other ?_
      rintro inner rfl
      exact nested field inner List.mem_cons_self
    rw [underFields, here, List.nil_append]
    exact ih others fun name inner member => nested name inner (List.mem_cons_of_mem _ member)

/-- A name that no nested set has stands for one value at most. -/
theorem underFields_eq_find? {wanted : String} {fields : Fields}
    (ascending : Keyed.Ascending fields)
    (nested : ∀ name inner, (name, .set inner) ∈ fields →
      name ≠ wanted ∧ underFields wanted inner = []) :
    underFields wanted fields = (Keyed.find? wanted fields).toList := by
  induction fields with
  | nil => rfl
  | cons first rest ih =>
    obtain ⟨field, value⟩ := first
    obtain ⟨least, later⟩ := List.pairwise_cons.mp ascending
    have nested' : ∀ name inner, (name, .set inner) ∈ rest →
        name ≠ wanted ∧ underFields wanted inner = [] := by
      intro name inner member
      exact nested name inner (List.mem_cons_of_mem _ member)
    rw [underFields, Keyed.find?]
    by_cases same : wanted = field
    · subst same
      have none_left : underFields wanted rest = [] := by
        refine underFields_of_absent ?_ fun name inner member => (nested' name inner member).2
        intro entry member same
        exact String.lt_irrefl _ (same ▸ least entry member)
      have scalar : ∀ inner, value ≠ .set inner := by
        rintro inner rfl
        exact (nested wanted inner List.mem_cons_self).1 rfl
      rw [if_pos rfl, none_left, List.append_nil, under_same scalar]
      rfl
    · have here : under wanted field value = [] := by
        refine under_other (Ne.symm same) ?_
        rintro inner rfl
        exact (nested field inner List.mem_cons_self).2
      rw [if_neg same, here, List.nil_append, ih later nested']

end Value

namespace Elements
variable {table : FieldTable} {data : Bytes} {elements : List Element} {fields out : Fields}
  {offset : Nat}

/-- What holds of the fields before, and whatever an element adds, holds of those after. -/
theorem preserved (cut : Elements data elements) (holds : Fields → Prop)
    (parsed : LocalSet.parseElements table fields offset data = .ok out) (before : holds fields)
    (step : ∀ element added, Element.decode table element = .ok added →
      ∀ fields, holds fields → holds (LocalSet.adding fields added)) : holds out := by
  rw [cut.parse_eq_foldlM] at parsed
  clear cut
  induction elements generalizing fields with
  | nil =>
    cases parsed
    exact before
  | cons element rest ih =>
    rw [List.foldlM_cons] at parsed
    cases decoded : element.decode table with
    | error error =>
      rw [decoded] at parsed
      cases parsed
    | ok added =>
      rw [decoded] at parsed
      exact ih parsed (step element added decoded fields before)

end Elements

namespace LocalSet
variable {table : FieldTable} {data : Bytes} {fields : Fields}

theorem ascending_of_parse (parsed : parse table data = .ok fields) : Keyed.Ascending fields := by
  obtain ⟨elements, cut⟩ := exists_elements parsed
  refine cut.preserved Keyed.Ascending parsed .nil ?_
  intro element added _ fields ascending
  cases added with
  | none => exact ascending
  | some entry => exact Keyed.ascending_put ascending entry.1 entry.2

/-- Every field comes from an element. -/
theorem exists_decode_of_mem (parsed : parse table data = .ok fields) {entry : String × Value}
    (member : entry ∈ fields) : ∃ element, Element.decode table element = .ok (some entry) := by
  obtain ⟨elements, cut⟩ := exists_elements parsed
  refine cut.preserved (fun fields => ∀ entry ∈ fields,
    ∃ element, Element.decode table element = .ok (some entry)) parsed nofun ?_ entry member
  intro element added decoded fields each entry member
  cases added with
  | none => exact each entry member
  | some given =>
    obtain rfl | member := Keyed.mem_put member
    · exact ⟨element, decoded⟩
    · exact each entry member

end LocalSet

theorem Decoder.scalar?_ne_set {decoder : Decoder} {bytes : Bytes} {inner : Fields} :
    decoder.scalar? bytes ≠ some (.set inner) := by
  intro decoded
  cases decoder with
  | text | bytes | set => cases decoded
  | unsigned width | scaledUnsigned width low high =>
    rw [scalar?] at decoded
    split at decoded <;> cases decoded
  | scaledSigned width low high =>
    rw [scalar?] at decoded
    split at decoded
    · obtain ⟨measure, -, same⟩ := Option.map_eq_some_iff.mp decoded
      cases same
    · cases decoded

/-- A nested set comes from an element that holds one. -/
theorem Element.set_of_decode {table : FieldTable} {element : Element} {name : String}
    {inner : Fields} (decoded : element.decode table = .ok (some (name, .set inner))) :
    ∃ nested, Keyed.find? element.tag.toNat table = some (name, .set nested) ∧
      LocalSet.parse nested element.value = .ok inner := by
  rw [decode] at decoded
  split at decoded
  · cases decoded
  · rename_i nested found
    cases parsed : LocalSet.parse nested element.value with
    | error error =>
      rw [parsed] at decoded
      cases decoded
    | ok fields =>
      rw [parsed] at decoded
      cases decoded
      exact ⟨nested, found, parsed⟩
  · obtain ⟨value, scalar, same⟩ := Option.map_eq_some_iff.mp (Except.ok.inj decoded)
    cases same
    exact absurd scalar Decoder.scalar?_ne_set

def Decoder.isSet : Decoder → Bool
  | set _ => true
  | _ => false

/-- The security set is the only nested set. -/
theorem nested_eq_securityTable {tag : Nat} {name : String} {nested : FieldTable}
    (found : Keyed.find? tag uasDatalinkTable = some (name, .set nested)) :
    name = FieldName.securityLocalSet ∧ nested = securityTable := by
  have all : ∀ entry ∈ uasDatalinkTable, entry.2.2.isSet = true → entry.1 = 48 := by
    decide +kernel
  obtain rfl : tag = 48 := all _ (Keyed.mem_of_find? found) rfl
  have security : Keyed.find? 48 uasDatalinkTable =
      some (FieldName.securityLocalSet, .set securityTable) := rfl
  cases found.symm.trans security
  exact ⟨rfl, rfl⟩

/-- A security set has no nested set, and no field that its table does not name. -/
theorem underFields_of_security {wanted : String}
    (unnamed : ∀ entry ∈ securityTable, entry.2.1 ≠ wanted) {data : Bytes} {inner : Fields}
    (parsed : LocalSet.parse securityTable data = .ok inner) :
    Value.underFields wanted inner = [] := by
  have scalars : ∀ entry ∈ securityTable, entry.2.2.isSet = false := by decide +kernel
  refine Value.underFields_of_absent ?_ ?_
  · rintro ⟨name, value⟩ member
    obtain ⟨element, decoded⟩ := LocalSet.exists_decode_of_mem parsed member
    obtain ⟨decoder, found⟩ := Element.entry_of_decode decoded
    exact unnamed _ (Keyed.mem_of_find? found)
  · intro name fields member
    obtain ⟨element, decoded⟩ := LocalSet.exists_decode_of_mem parsed member
    obtain ⟨nested, found, -⟩ := Element.set_of_decode decoded
    cases scalars _ (Keyed.mem_of_find? found)

/-- Of a name that no security set has, a set of unmanned air system telemetry has the value that is
found in it, and no other. -/
theorem underFields_of_parse {wanted : String} (top : wanted ≠ FieldName.securityLocalSet)
    (unnamed : ∀ entry ∈ securityTable, entry.2.1 ≠ wanted) {data : Bytes} {fields : Fields}
    (parsed : LocalSet.parse uasDatalinkTable data = .ok fields) :
    Value.underFields wanted fields = (Keyed.find? wanted fields).toList := by
  refine Value.underFields_eq_find? (LocalSet.ascending_of_parse parsed) ?_
  intro name inner member
  obtain ⟨element, decoded⟩ := LocalSet.exists_decode_of_mem parsed member
  obtain ⟨nested, found, accepted⟩ := Element.set_of_decode decoded
  obtain ⟨rfl, rfl⟩ := nested_eq_securityTable found
  exact ⟨top.symm, underFields_of_security unnamed accepted⟩

/-- A checksum is a number of two bytes. -/
theorem checksum_lt {data : Bytes} {fields : Fields} {value : Value}
    (parsed : LocalSet.parse uasDatalinkTable data = .ok fields)
    (found : Keyed.find? FieldName.checksum fields = some value) :
    ∃ number, value = .unsigned number ∧ number < 0x10000 := by
  obtain ⟨element, decoded⟩ :=
    LocalSet.exists_decode_of_mem parsed (Keyed.mem_of_find? found)
  have tagged : element.tag = 1 := by
    obtain ⟨decoder, tag⟩ := Element.entry_of_decode decoded
    refine Decidable.byContradiction fun other => ?_
    exact name_ne_checksum tag (fun same => other (UInt8.toNat_inj.mp same)) rfl
  rw [decode_sealed tagged] at decoded
  split at decoded
  · rename_i two
    cases decoded
    refine ⟨_, rfl, ?_⟩
    obtain ⟨high, low, both⟩ := List.length_eq_two.mp two
    have := high.toNat_lt
    have := low.toNat_lt
    rw [both, readUnsigned_pair]
    omega
  · cases decoded

/-- What is decoded is a set of the table, and has a checksum. -/
theorem parsed_of_decodeFrom {context : Context} {offset : Nat} {data : Bytes} {out : Fields}
    (decoded : decodeFrom context offset data = .ok out) :
    (∃ body, LocalSet.parse context.table body = .ok out) ∧
      ∃ value, Keyed.find? FieldName.checksum out = some value := by
  obtain ⟨before, packet, behind, -, contents⟩ := exists_placed decoded
  obtain ⟨parsed, number, found, -⟩ := Triplet.contents_ok_iff.mp contents
  exact ⟨⟨packet.value, parsed⟩, .unsigned number, found⟩

/-- A decoded unit has one checksum, which is a number of two bytes. -/
theorem TelemetryUnit.checksum_of_decode {pes : Bytes} {unit : TelemetryUnit}
    (decoded : decode uasDatalink pes = .ok (some unit)) :
    ∃ number < 0x10000, Keyed.find? FieldName.checksum unit.fields = some (.unsigned number) ∧
      Value.underFields FieldName.checksum unit.fields = [.unsigned number] := by
  obtain ⟨header, content, -, -, accepted⟩ := exists_of_decode decoded
  obtain ⟨⟨body, parsed⟩, value, found⟩ := parsed_of_decodeFrom accepted
  obtain ⟨number, same, small⟩ := checksum_lt parsed found
  rw [same] at found
  refine ⟨number, small, found, ?_⟩
  rw [underFields_of_parse (by decide) (by decide +kernel) parsed, found]
  rfl

end Telemetry

end MotionImagery
