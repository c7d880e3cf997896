import MotionImagery.Proofs.Summary.Isolation
import MotionImagery.Proofs.Summary.Listing

/-!
What a window says of its mission, its platform and its sensor. The texts that are not blank are
named once, where they were first seen. When there are only blank ones nothing takes the place of the
copy that was made before, so they are there as they came.
-/
namespace MotionImagery

namespace Telemetry
open Context

def Decoder.isText : Decoder → Bool
  | text => true
  | _ => false

/-- A field that only units have, not their security sets, and only as text. -/
structure TextField (field : String) : Prop where
  top : field ≠ FieldName.securityLocalSet
  unnamed : ∀ entry ∈ securityTable, entry.2.1 ≠ field
  texts : ∀ entry ∈ uasDatalinkTable, entry.2.1 = field → entry.2.2.isText = true

/-- The text of a unit under a field. -/
def text? (field : String) (unit : Fields) : Option String :=
  (Keyed.find? field unit).bind Value.text?

theorem TextField.exists_text {field : String} (text : TextField field) {data : Bytes}
    {fields : Fields} {value : Value} (parsed : LocalSet.parse uasDatalinkTable data = .ok fields)
    (found : Keyed.find? field fields = some value) : ∃ content, value = .text content := by
  obtain ⟨element, decoded⟩ := LocalSet.exists_decode_of_mem parsed (Keyed.mem_of_find? found)
  obtain ⟨decoder, tagged⟩ := Element.entry_of_decode decoded
  have isText := text.texts _ (Keyed.mem_of_find? tagged) rfl
  cases decoder with
  | text =>
    rw [Element.decode, tagged] at decoded
    cases decoded
    exact ⟨_, rfl⟩
  | _ => cases isText

/-- A decoded unit has the text that is found in it, and no other. -/
theorem TextField.underFields {field : String} (text : TextField field) {pes : Bytes}
    {unit : TelemetryUnit} (decoded : TelemetryUnit.decode uasDatalink pes = .ok (some unit)) :
    Value.underFields field unit.fields = (text? field unit.fields).toList.map .text := by
  obtain ⟨header, content, -, -, accepted⟩ := TelemetryUnit.exists_of_decode decoded
  obtain ⟨⟨body, parsed⟩, -⟩ := parsed_of_decodeFrom accepted
  rw [underFields_of_parse text.top text.unnamed parsed, text?]
  cases found : Keyed.find? field unit.fields with
  | none => rfl
  | some value =>
    obtain ⟨content, rfl⟩ := text.exists_text parsed found
    rfl

end Telemetry

namespace Summary
open Telemetry

/-- The texts of the units under a field, in the order in which they come. -/
def texts (field : String) (units : List TelemetryUnit) : List String :=
  units.filterMap fun unit => text? field unit.fields

/-- An attribute that names something, and the fields that it is named by. -/
structure Identifier where
  name : String
  /-- The field whose texts are also copied as they are. -/
  copied : String
  others : List String

namespace Identifier

def fields (identifier : Identifier) : List String := identifier.copied :: identifier.others

def derivation (identifier : Identifier) : Derivation := .distinct identifier.fields identifier.name

/-- The texts of all its fields that are not blank, each where it was first seen. -/
def names (identifier : Identifier) (units : List TelemetryUnit) : List String :=
  ((identifier.fields.flatMap fun field => texts field units).filter
    fun text => !Text.isBlank text).eraseDups

end Identifier

/-- Mission, platform and sensor. -/
def identifiers : List Identifier :=
  [⟨AttributeName.missionId, FieldName.missionId, []⟩,
    ⟨AttributeName.platformName, FieldName.platformDesignation, []⟩,
    ⟨AttributeName.sensorId, FieldName.imageSourceSensor, []⟩,
    ⟨AttributeName.platformId, FieldName.platformTailNumber, [FieldName.platformCallSign]⟩]

theorem nodup_eraseDups (texts : List String) : texts.eraseDups.Nodup := by
  match texts with
  | [] => simp
  | text :: rest =>
    rw [List.eraseDups_cons, List.nodup_cons]
    exact ⟨by simp, nodup_eraseDups (rest.filter fun other => !other == text)⟩
termination_by texts.length
decreasing_by exact Nat.lt_succ_of_le (List.length_filter_le _ _)

theorem eraseDups_concat (texts : List String) (text : String) :
    (texts ++ [text]).eraseDups =
      if text ∈ texts then texts.eraseDups else texts.eraseDups ++ [text] := by
  rw [List.eraseDups_append, List.cons_removeAll, List.nil_removeAll]
  by_cases seen : text ∈ texts
  · simp [seen]
  · simp [seen, List.eraseDups_cons]

theorem contains_map_text {texts : List String} {text : String} :
    (texts.map AttributeValue.text).contains (.text text) = true ↔ text ∈ texts := by
  rw [List.contains_iff_exists_mem_beq]
  constructor
  · rintro ⟨_, member, same⟩
    obtain ⟨other, inside, rfl⟩ := List.mem_map.mp member
    exact (eq_of_beq (α := String) same) ▸ inside
  · intro member
    exact ⟨_, List.mem_map_of_mem member, beq_self_eq_true (α := String) text⟩

/-- Each text that is not blank is listed where it was first seen. -/
theorem distinctValues_texts (texts : List String) :
    distinctValues (texts.map .text) =
      (texts.filter fun text => !Text.isBlank text).eraseDups.map .text := by
  induction texts using List.reverseRecOn with
  | nil => rfl
  | append_singleton earlier text ih =>
    rw [distinctValues, List.map_append, List.map_singleton, List.foldl_concat, ← distinctValues, ih,
      List.filter_append]
    by_cases blank : Text.isBlank text = true
    · simp [AttributeValue.isBlank, blank]
    · have kept : [text].filter (fun text => !Text.isBlank text) = [text] := by simp [blank]
      rw [kept, eraseDups_concat, AttributeValue.isBlank, if_neg blank, Collected.addNew]
      generalize earlier.filter _ = unblank
      by_cases seen : text ∈ unblank
      · rw [if_pos seen, if_pos (contains_map_text.mpr (List.mem_eraseDups.mpr seen))]
      · rw [if_neg seen, if_neg fun there => seen (List.mem_eraseDups.mp (contains_map_text.mp there)),
          List.map_append, List.map_singleton]

namespace CollectorSet

/-- What a field tells goes to one list, that of an attribute. -/
structure Gathers (field name : String) : Prop where
  text : TextField field
  own : Own field (.list name)

/-- The fields of identifiers, and the attributes that they are gathered for. -/
def sources : List (String × String) :=
  [(FieldName.missionId, AttributeName.missionId),
    (FieldName.platformTailNumber, AttributeName.platformId),
    (FieldName.platformDesignation, AttributeName.platformName),
    (FieldName.platformCallSign, AttributeName.platformCallSign),
    (FieldName.imageSourceSensor, AttributeName.sensorId)]

theorem gathers_source {source : String × String} (member : source ∈ sources) :
    Gathers source.1 source.2 := by
  have text : ∀ source ∈ sources, source.1 ≠ FieldName.securityLocalSet ∧
      (∀ entry ∈ Context.securityTable, entry.2.1 ≠ source.1) ∧
      ∀ entry ∈ Context.uasDatalinkTable, entry.2.1 = source.1 → entry.2.2.isText = true := by
    decide +kernel
  have own : ∀ source ∈ sources, (source.1, Collector.list source.2) ∈ ownFields := by
    simp [sources, ownFields]
  obtain ⟨top, unnamed, texts⟩ := text source member
  exact ⟨⟨top, unnamed, texts⟩, own_of_mem (own source member)⟩

/-- Each field of an identifier has its list, and the first one's is that of the attribute. -/
theorem gathers {identifier : Identifier} (known : identifier ∈ identifiers) :
    Gathers identifier.copied identifier.name ∧
      ∀ field ∈ identifier.fields, ∃ name, Gathers field name := by
  have covered : ∀ identifier ∈ identifiers, (identifier.copied, identifier.name) ∈ sources ∧
      ∀ field ∈ identifier.fields, field ∈ sources.map Prod.fst := by decide
  obtain ⟨copied, fields⟩ := covered identifier known
  refine ⟨gathers_source copied, fun field inside => ?_⟩
  obtain ⟨source, member, rfl⟩ := List.mem_map.mp (fields field inside)
  exact ⟨_, gathers_source member⟩

end CollectorSet

namespace Derivation
variable {collectors : CollectorSet} {settings : Settings} {name : String}

theorem deriveAll_append (before after : List Derivation) (attributes : Attributes) :
    deriveAll collectors settings (before ++ after) attributes =
      deriveAll collectors settings after (deriveAll collectors settings before attributes) := by
  induction before generalizing attributes with
  | nil => rfl
  | cons derivation rest ih => rw [List.cons_append, deriveAll, deriveAll, ih]

theorem anyWrites_identifiers {others : List Identifier}
    (unnamed : ∀ other ∈ others, other.name ≠ name) :
    anyWrites name (others.map (·.derivation)) = false := by
  induction others with
  | nil => rfl
  | cons other rest ih =>
    obtain ⟨here, unnamed⟩ := List.forall_mem_cons.mp unnamed
    rw [List.map_cons, anyWrites, ih unnamed, Bool.or_false]
    exact beq_false_of_ne here.symm

/-- The distinct values take the place of what was there, if there are any. -/
theorem find?_distinct (fields : List String) (attributes : Attributes) :
    Keyed.find? name (derive collectors settings (.distinct fields name) attributes) =
      if (distinctValues (fields.flatMap fun field => collectors.values field)).isEmpty
      then Keyed.find? name attributes
      else some (distinctValues (fields.flatMap fun field => collectors.values field)) := by
  rw [derive]
  generalize distinctValues _ = values
  cases values with
  | nil => rfl
  | cons value rest => exact (Keyed.find?_put ..).trans (if_pos rfl)

/-- Among the rules for identifiers and behind them only its own one writes the attribute. -/
theorem find?_identifier {identifier : Identifier} (known : identifier ∈ identifiers)
    {rest : List Derivation} (silent : anyWrites identifier.name rest = false)
    (attributes : Attributes) :
    Keyed.find? identifier.name
        (deriveAll collectors settings (identifiers.map (·.derivation) ++ rest) attributes) =
      if (distinctValues (identifier.fields.flatMap fun field => collectors.values field)).isEmpty
      then Keyed.find? identifier.name attributes
      else some (distinctValues (identifier.fields.flatMap fun field => collectors.values field)) := by
  have distinct : (identifiers.map (·.name)).Nodup := by decide
  obtain ⟨before, after, split, unnamed⟩ := exists_others known distinct
  obtain ⟨unnamed, unnamed'⟩ := List.forall_mem_append.mp unnamed
  rw [deriveAll_append, find?_deriveAll silent, split, List.map_append, List.map_cons,
    deriveAll_append, deriveAll, find?_deriveAll (anyWrites_identifiers unnamed'),
    Identifier.derivation, find?_distinct, find?_deriveAll (anyWrites_identifiers unnamed)]

end Derivation

namespace Window
variable {window : Window}

/-- No unit was taken in yet, and the rules for identifiers follow the copy. -/
structure Unused (window : Window) : Prop where
  collectors : window.collectors = .uasDatalink
  naming : ∃ rest, window.derivation =
      .list (.copyPresent :: (identifiers.map (·.derivation) ++ rest)) ∧
    ∀ identifier ∈ identifiers, Derivation.anyWrites identifier.name rest = false

theorem Began.unused (began : Began window) : Unused window := by
  induction began with
  | first => exact ⟨rfl, _, rfl, by decide⟩
  | adjust _ visitor ih =>
    obtain ⟨collectors, rest, same, silent⟩ := ih
    refine ⟨collectors, Derivation.visitAll visitor rest, ?_, fun identifier known => ?_⟩
    · rw [Window.adjust, same]
      rfl
    · rw [Derivation.anyWrites_visitAll]
      exact silent identifier known
  | next _ units settings ih =>
    rw [finish_collect]
    refine ⟨?_, ih.naming⟩
    rw [finish, ih.collectors]
    exact CollectorSet.fresh_uasDatalink.reset

section
variable (unused : Unused window) {units : List TelemetryUnit}
  (decoded : ∀ unit ∈ units, ∃ pes, TelemetryUnit.decode Context.uasDatalink pes = .ok (some unit))
include unused decoded

/-- The list of a field holds the texts of the units. -/
theorem listed_texts {field name : String} (gathers : CollectorSet.Gathers field name) :
    (window.collect (units.map (·.fields))).collectors.find? field =
      some ⟨name, .list ((texts field units).map .text)⟩ := by
  have told : (units.map (·.fields)).flatMap (Value.underFields field) =
      (texts field units).map .text := by
    rw [List.flatMap_map, texts, List.filterMap_eq_flatMap_toList, List.map_flatMap]
    refine List.flatMap_congr fun unit member => ?_
    obtain ⟨pes, decoded⟩ := decoded unit member
    exact gathers.text.underFields decoded
  have kept : ((texts field units).map Value.text).filterMap AttributeValue.ofTelemetry? =
      (texts field units).map .text := by
    rw [List.filterMap_map]
    exact congrFun List.filterMap_eq_map _
  rw [gathers.own.find?_collect unused.collectors, told, Collector.list, Collector.acceptAll_list,
    List.nil_append, kept]

theorem values_texts {field name : String} (gathers : CollectorSet.Gathers field name) :
    (window.collect (units.map (·.fields))).collectors.values field =
      (texts field units).map .text := by
  rw [CollectorSet.values, CollectorSet.thinned, listed_texts unused decoded gathers]
  rfl

/-- What is copied of the first field stands unless there is a name that is not blank. -/
theorem find?_finish {identifier : Identifier} (known : identifier ∈ identifiers)
    (settings : Settings) :
    Keyed.find? identifier.name ((window.collect (units.map (·.fields))).finish settings).1 =
      if identifier.names units ≠ [] then some ((identifier.names units).map .text)
      else if texts identifier.copied units = [] then none
      else some ((texts identifier.copied units).map .text) := by
  obtain ⟨copied, each⟩ := CollectorSet.gathers known
  obtain ⟨rest, same, silent⟩ := unused.naming
  have values : (identifier.fields.flatMap fun field =>
      (window.collect (units.map (·.fields))).collectors.values field) =
        (identifier.fields.flatMap fun field => texts field units).map .text := by
    rw [List.map_flatMap]
    refine List.flatMap_congr fun field member => ?_
    obtain ⟨name, gathers⟩ := each field member
    exact values_texts unused decoded gathers
  have distinct : ((window.collect (units.map (·.fields))).collectors.collectors.map
      Collector.name).Nodup := by
    rw [(copied.own.takenIn unused.collectors _).names]
    exact CollectorSet.nodup_names
  have copy : Keyed.find? identifier.name (Derivation.derive
      (window.collect (units.map (·.fields))).collectors settings .copyPresent []) = _ :=
    Derivation.find?_copyPresent
      (CollectorSet.mem_of_find? (listed_texts unused decoded copied)) distinct
  rw [finish, collect_derivation, same, Derivation.derive, Derivation.deriveAll,
    Derivation.find?_identifier known (silent identifier known), values, distinctValues_texts,
    ← Identifier.names, copy]
  cases names : identifier.names units with
  | cons text rest => rfl
  | nil => cases texts identifier.copied units <;> rfl

end

end Window

/-- **Identifiers are distinct and not blank**, if there is one that is not. The attribute has the
texts of its fields that are not blank, each where it was first seen. When all are blank it has what
was copied of the first field, and it is not there just when that field was not. -/
theorem identifiers_of_units {window : Window} (began : window.Began) (units : List TelemetryUnit)
    (decoded : ∀ unit ∈ units,
      ∃ pes, TelemetryUnit.decode Context.uasDatalink pes = .ok (some unit))
    (settings : Settings) :
    ∀ identifier ∈ identifiers,
      let names := identifier.names units
      let copied := texts identifier.copied units
      let given := Keyed.find? identifier.name
        ((window.collect (units.map (·.fields))).finish settings).1
      names.Nodup ∧ (∀ name ∈ names, Text.isBlank name = false) ∧
      (given = if names ≠ [] then some (names.map .text)
        else if copied = [] then none else some (copied.map .text)) ∧
      ((given = if names = [] then none else some (names.map .text)) ↔
        names ≠ [] ∨ copied = []) := by
  intro identifier known names copied given
  have found : given = if names ≠ [] then some (names.map .text)
      else if copied = [] then none else some (copied.map .text) :=
    Window.find?_finish began.unused decoded known settings
  refine ⟨nodup_eraseDups _, ?_, found, ?_⟩
  · intro name member
    have unblank := (List.mem_filter.mp (List.mem_eraseDups.mp member)).2
    simpa using unblank
  · rw [found]
    by_cases some : names = []
    · by_cases nothing : copied = [] <;> simp [some, nothing]
    · simp [some]

namespace Sample

/-- A unit whose mission is one space. -/
def blankMission : Bytes := [
  0x00, 0x00, 0x01, 0xbd, 0x00, 0x1b, 0x85, 0x00, 0x00,
  0x06, 0x0e, 0x2b, 0x34, 0x02, 0x0b, 0x01, 0x01, 0x0e, 0x01, 0x03, 0x01, 0x01, 0x00, 0x00, 0x00,
  0x07, 0x03, 0x01, 0x20, 0x01, 0x02, 0x4f, 0x75]

/-- A unit with the tail number `T1` and the call sign `CS`. -/
def namedPlatform : Bytes := [
  0x00, 0x00, 0x01, 0xbd, 0x00, 0x29, 0x85, 0x00, 0x00,
  0x06, 0x0e, 0x2b, 0x34, 0x02, 0x0b, 0x01, 0x01, 0x0e, 0x01, 0x03, 0x01, 0x01, 0x00, 0x00, 0x00,
  0x15, 0x03, 0x02, 0x4d, 0x31, 0x04, 0x02, 0x54, 0x31, 0x0a, 0x03, 0x55, 0x41, 0x56, 0x3b, 0x02,
  0x43, 0x53, 0x01, 0x02, 0x86, 0x04]

/-- What is seen of a unit once it is decoded. -/
def seen {α : Type} (view : TelemetryUnit → α) (pes : Bytes) : Option α :=
  match TelemetryUnit.decode Context.uasDatalink pes with
  | .ok unit? => unit?.map view
  | .error _ => none

theorem exists_unit {α : Type} {view : TelemetryUnit → α} {pes : Bytes} {content : α}
    (shown : seen view pes = some content) :
    ∃ unit, TelemetryUnit.decode Context.uasDatalink pes = .ok (some unit) ∧ view unit = content := by
  unfold seen at shown
  split at shown
  · rename_i decoded
    obtain ⟨unit, rfl, viewed⟩ := Option.map_eq_some_iff.mp shown
    exact ⟨unit, decoded, viewed⟩
  · cases shown

end Sample

/-- The platform has the names of both fields, the tail number first. -/
theorem sample_identifiers : Window.Began .uasDatalink ∧
    ∃ unit, TelemetryUnit.decode Context.uasDatalink Sample.namedPlatform = .ok (some unit) ∧
      Keyed.find? AttributeName.platformId
        ((Window.uasDatalink.collect [unit.fields]).finish .standard).1 =
          some [.text "T1", .text "CS"] := by
  have shown : Sample.seen (fun unit => (texts FieldName.platformTailNumber [unit],
      texts FieldName.platformCallSign [unit])) Sample.namedPlatform = some (["T1"], ["CS"]) := by
    decide +kernel
  obtain ⟨unit, decoded, viewed⟩ := Sample.exists_unit shown
  obtain ⟨tail, callSign⟩ := Prod.mk.inj viewed
  have each : ∀ other ∈ [unit],
      ∃ pes, TelemetryUnit.decode Context.uasDatalink pes = .ok (some other) := by
    simpa using ⟨_, decoded⟩
  have known : Identifier.mk AttributeName.platformId FieldName.platformTailNumber
      [FieldName.platformCallSign] ∈ identifiers := by simp [identifiers]
  obtain ⟨-, -, given, -⟩ := identifiers_of_units .first [unit] each .standard _ known
  refine ⟨.first, unit, decoded, given.trans ?_⟩
  simp only [Identifier.names, Identifier.fields, List.flatMap_cons, List.flatMap_nil, tail, callSign]
  rfl

/-- The only mission is blank, and yet it is the attribute. -/
theorem blank_mission_given :
    ∃ unit, TelemetryUnit.decode Context.uasDatalink Sample.blankMission = .ok (some unit) ∧
      texts FieldName.missionId [unit] = [" "] ∧ Text.isBlank " " = true ∧
      Keyed.find? AttributeName.missionId
        ((Window.uasDatalink.collect [unit.fields]).finish .standard).1 = some [.text " "] := by
  have shown : Sample.seen (fun unit => texts FieldName.missionId [unit]) Sample.blankMission =
      some [" "] := by decide +kernel
  obtain ⟨unit, decoded, viewed⟩ := Sample.exists_unit shown
  have each : ∀ other ∈ [unit],
      ∃ pes, TelemetryUnit.decode Context.uasDatalink pes = .ok (some other) := by
    simpa using ⟨_, decoded⟩
  have known : Identifier.mk AttributeName.missionId FieldName.missionId [] ∈ identifiers := by
    simp [identifiers]
  have given := Window.find?_finish Window.Began.first.unused each known .standard
  refine ⟨unit, decoded, viewed, by decide, given.trans ?_⟩
  simp only [Identifier.names, Identifier.fields, List.flatMap_cons, List.flatMap_nil, viewed]
  rfl

end Summary

end MotionImagery
