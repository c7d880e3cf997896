import MotionImagery.Proofs.Summary.Gathering
import MotionImagery.Proofs.Telemetry.Decoded

/-!
The collector of a single field. In the course of a window it takes in the values that the units
have under the field, in the order in which they come, and nothing else.
-/
namespace MotionImagery.Summary
open Telemetry

/-- The date that a value tells. -/
def instant? (value : Value) : Option Time.Instant :=
  value.unsigned?.bind fun micros => Time.Instant.ofMicros? (AttributeValue.wrap micros)

namespace Collector

/-- Takes in the values of a field, one after the other. -/
def acceptAll (field : String) (values : List Value) (collector : Collector) : Collector :=
  values.foldl (fun collector value => collector.accept field value) collector

theorem acceptAll_concat (field : String) (values : List Value) (value : Value)
    (collector : Collector) :
    collector.acceptAll field (values ++ [value]) =
      (collector.acceptAll field values).accept field value := by
  rw [acceptAll, acceptAll, List.foldl_concat]

/-- A collector that puts what each value tells behind the rest. -/
theorem acceptAll_appending {α : Type} {gather : List α → Collected} {told : Value → Option α}
    (appends : ∀ field value gathered,
      (gather gathered).accept field value = gather (gathered ++ (told value).toList))
    (name field : String) (gathered : List α) (values : List Value) :
    acceptAll field values ⟨name, gather gathered⟩ =
      ⟨name, gather (gathered ++ values.filterMap told)⟩ := by
  induction values generalizing gathered with
  | nil =>
    rw [List.filterMap_nil, List.append_nil]
    rfl
  | cons value rest ih =>
    have step : acceptAll field (value :: rest) ⟨name, gather gathered⟩ =
        acceptAll field rest ⟨name, gather (gathered ++ (told value).toList)⟩ := by
      rw [acceptAll, List.foldl_cons, accept, appends]
      rfl
    rw [step, ih, List.append_assoc, List.filterMap_cons]
    cases told value <;> rfl

theorem acceptAll_list (name field : String) (listed : List AttributeValue)
    (values : List Value) :
    acceptAll field values ⟨name, .list listed⟩ =
      ⟨name, .list (listed ++ values.filterMap AttributeValue.ofTelemetry?)⟩ :=
  acceptAll_appending (fun _ _ _ => rfl) name field listed values

theorem acceptAll_dates (name field : String) (instants : List Time.Instant)
    (values : List Value) :
    acceptAll field values ⟨name, .dates instants⟩ =
      ⟨name, .dates (instants ++ values.filterMap instant?)⟩ :=
  acceptAll_appending (fun _ _ _ => rfl) name field instants values

end Collector

namespace CollectorSet

theorem serving_modify (field : String) (change : Collector → Collector) (set : CollectorSet) :
    (set.modify field change).serving = set.serving := by
  unfold CollectorSet.modify
  split <;> rfl

theorem names_modify {change : Collector → Collector}
    (named : ∀ collector, (change collector).name = collector.name) (field : String)
    (set : CollectorSet) :
    (set.modify field change).collectors.map Collector.name =
      set.collectors.map Collector.name := by
  unfold CollectorSet.modify
  split
  · rfl
  · exact map_modify_of_kept named _ _

theorem find?_modify_self (field : String) (change : Collector → Collector) (set : CollectorSet) :
    (set.modify field change).find? field = (set.find? field).map change := by
  unfold CollectorSet.modify
  split
  · rename_i unserved
    rw [CollectorSet.find?, unserved]
    rfl
  · rename_i index served
    have same : index? field { set with collectors := set.collectors.modify index change } =
        some index := served
    rw [CollectorSet.find?, same, CollectorSet.find?, served]
    exact List.getElem?_modify_eq ..

theorem find?_reset (field : String) (set : CollectorSet) :
    set.reset.find? field = (set.find? field).map Collector.reset := by
  rw [CollectorSet.find?, CollectorSet.find?, Option.map_bind]
  congr 1
  funext index
  exact List.getElem?_map

/-- The collector that serves this field serves no other, and no corner. -/
structure Sole (field : String) (set : CollectorSet) : Prop where
  alone : ∀ entry ∈ set.serving, set.index? field = some entry.2 → entry.1 = field
  noCorner : field ∉ FieldName.corners

instance (field : String) (set : CollectorSet) : Decidable (set.Sole field) :=
  decidable_of_iff ((∀ entry ∈ set.serving, set.index? field = some entry.2 → entry.1 = field) ∧
      field ∉ FieldName.corners)
    ⟨fun ⟨alone, noCorner⟩ => ⟨alone, noCorner⟩, fun sole => ⟨sole.alone, sole.noCorner⟩⟩

variable {start set : CollectorSet} {field other : String} {values : List Value}

theorem Sole.of_serving (sole : start.Sole field) (serving : set.serving = start.serving) :
    set.Sole field where
  alone := by
    rw [CollectorSet.index?, serving]
    exact sole.alone
  noCorner := sole.noCorner

theorem Sole.find?_modify_other (sole : set.Sole field) (differs : other ≠ field)
    (change : Collector → Collector) : (set.modify other change).find? field = set.find? field := by
  unfold CollectorSet.modify
  split
  · rfl
  · rename_i index served
    rw [CollectorSet.find?, CollectorSet.find?]
    refine Option.bind_congr fun place here => ?_
    have elsewhere : index ≠ place := by
      rintro rfl
      exact differs (sole.alone _ (Keyed.mem_of_find? served) here)
    exact List.getElem?_modify_ne change set.collectors elsewhere

/-- The values have been taken in under a field since all was as in `start`. -/
structure TakenIn (start : CollectorSet) (field : String) (values : List Value)
    (set : CollectorSet) : Prop where
  serving : set.serving = start.serving
  names : set.collectors.map Collector.name = start.collectors.map Collector.name
  found : set.find? field = (start.find? field).map (Collector.acceptAll field values)

namespace TakenIn

theorem initial (start : CollectorSet) (field : String) : TakenIn start field [] start :=
  ⟨rfl, rfl, Option.map_id'.symm⟩

theorem sole (taken : TakenIn start field values set) (sole : start.Sole field) :
    set.Sole field := sole.of_serving taken.serving

theorem modify_other (taken : TakenIn start field values set) (sole : start.Sole field)
    (differs : other ≠ field) {change : Collector → Collector}
    (named : ∀ collector, (change collector).name = collector.name) :
    TakenIn start field values (set.modify other change) :=
  ⟨(serving_modify other change set).trans taken.serving,
    (names_modify named other set).trans taken.names,
    ((taken.sole sole).find?_modify_other differs change).trans taken.found⟩

theorem accept_own (taken : TakenIn start field values set) (value : Value) :
    TakenIn start field (values ++ [value]) (set.accept field value) := by
  have named : ∀ collector : Collector, (collector.accept field value).name = collector.name :=
    fun _ => rfl
  refine ⟨(serving_modify ..).trans taken.serving, (names_modify named ..).trans taken.names, ?_⟩
  rw [CollectorSet.accept, find?_modify_self, taken.found, Option.map_map]
  congr 1
  funext collector
  exact (collector.acceptAll_concat field values value).symm

theorem accept (taken : TakenIn start field values set) (sole : start.Sole field)
    (name : String) (value : Value) :
    TakenIn start field (values ++ if name = field then [value] else [])
      (set.accept name value) := by
  by_cases own : name = field
  · subst own
    rw [if_pos rfl]
    exact taken.accept_own value
  · rw [if_neg own, List.append_nil]
    exact taken.modify_other sole own fun _ => rfl

mutual

theorem acceptValue {values : List Value} {set : CollectorSet}
    (taken : TakenIn start field values set) (sole : start.Sole field)
    (name : String) : ∀ value : Value,
      TakenIn start field (values ++ Value.under field name value)
        (set.acceptValue name value)
  | .set fields => taken.acceptFields sole fields
  | .unsigned number => taken.accept sole name (.unsigned number)
  | .float number => taken.accept sole name (.float number)
  | .text content => taken.accept sole name (.text content)
  | .bytes content => taken.accept sole name (.bytes content)

/-- Of all fields that are taken in, those under the field get to its collector. -/
theorem acceptFields {values : List Value} {set : CollectorSet}
    (taken : TakenIn start field values set) (sole : start.Sole field) :
    ∀ fields : List (String × Value),
      TakenIn start field (values ++ Value.underFields field fields)
        (set.acceptFields fields)
  | [] => by
    rw [Value.underFields, List.append_nil]
    exact taken
  | (name, value) :: rest => by
    rw [Value.underFields, ← List.append_assoc]
    exact (taken.acceptValue sole name value).acceptFields sole rest

end

/-- Corners that are derived go to other collectors. -/
theorem deriveCorners (taken : TakenIn start field values set)
    (sole : start.Sole field) (unit : Fields) :
    TakenIn start field values (set.deriveCorners unit) := by
  by_cases served : FieldName.corners.all set.serves = true
  · rw [deriveCorners_eq unit set served]
    have known : ∀ entry ∈ derived unit, entry.1 ≠ field := fun entry member same =>
      sole.noCorner (same ▸ mem_corners_of_mem_derived member)
    clear served
    generalize derived unit = corners at known ⊢
    induction corners generalizing set with
    | nil => exact taken
    | cons entry rest ih =>
      obtain ⟨differs, others⟩ := List.forall_mem_cons.mp known
      refine ih (taken.modify_other sole differs fun collector => ?_) others
      split <;> rfl
  · rw [CollectorSet.deriveCorners, if_neg served]
    exact taken

theorem acceptUnit {window : Window} (taken : TakenIn start field values window.collectors)
    (sole : start.Sole field) (unit : Fields) :
    TakenIn start field (values ++ Value.underFields field unit)
      (window.accept unit).collectors := by
  have collected := taken.acceptFields sole unit
  rw [Window.accept]
  by_cases derives : window.derivesCorners = true
  · simp only [if_pos derives]
    exact collected.deriveCorners sole unit
  · simp only [if_neg derives]
    exact collected

/-- In the course of a window the collector of a field takes in its values, unit by unit. -/
theorem collect {window : Window} (taken : TakenIn start field values window.collectors)
    (sole : start.Sole field) (units : List Fields) :
    TakenIn start field (values ++ units.flatMap (Value.underFields field))
      (window.collect units).collectors := by
  induction units generalizing window values with
  | nil =>
    rw [List.flatMap_nil, List.append_nil]
    exact taken
  | cons unit rest ih =>
    rw [List.flatMap_cons, ← List.append_assoc]
    exact ih (taken.acceptUnit sole unit)

end TakenIn

/-- A field of telemetry has a collector for itself, and how that was made. -/
structure Own (field : String) (made : Collector) : Prop where
  sole : uasDatalink.Sole field
  found : uasDatalink.find? field = some made

/-- Fields whose collectors are theirs alone, each with its collector as it was made. -/
def ownFields : List (String × Collector) :=
  [(FieldName.timestamp, .dates AttributeName.timestamp),
    (FieldName.checksum, .list AttributeName.checksum),
    (FieldName.securityClassification, .list AttributeName.securityClassificationCode),
    (FieldName.missionId, .list AttributeName.missionId),
    (FieldName.platformTailNumber, .list AttributeName.platformId),
    (FieldName.platformDesignation, .list AttributeName.platformName),
    (FieldName.platformCallSign, .list AttributeName.platformCallSign),
    (FieldName.imageSourceSensor, .list AttributeName.sensorId)]

theorem own_of_mem {made : Collector} (member : (field, made) ∈ ownFields) : Own field made := by
  have sole : ∀ field ∈ ownFields.map Prod.fst, uasDatalink.Sole field := by decide +kernel
  have found : ∀ entry ∈ ownFields, uasDatalink.find? entry.1 = some entry.2 := by
    simp only [ownFields, List.forall_mem_cons, List.not_mem_nil, false_implies, implies_true,
      and_true]
    and_intros <;> cbv
  exact ⟨sole field (List.mem_map_of_mem member), found (field, made) member⟩

namespace Own
variable {made : Collector} {window : Window}

theorem takenIn (own : Own field made) (fresh : window.collectors = uasDatalink)
    (units : List Fields) :
    TakenIn uasDatalink field (units.flatMap (Value.underFields field))
      (window.collect units).collectors := by
  have nothing : TakenIn uasDatalink field [] window.collectors := fresh ▸ .initial _ field
  simpa using nothing.collect own.sole units

/-- In a window of telemetry the collector of a field has taken in its values. -/
theorem find?_collect (own : Own field made) (fresh : window.collectors = uasDatalink)
    (units : List Fields) :
    (window.collect units).collectors.find? field =
      some (made.acceptAll field (units.flatMap (Value.underFields field))) := by
  rw [(own.takenIn fresh units).found, own.found]
  rfl

theorem values_collect (own : Own field made) (fresh : window.collectors = uasDatalink)
    (units : List Fields) :
    (window.collect units).collectors.values field =
      (made.acceptAll field (units.flatMap (Value.underFields field))).values := by
  rw [CollectorSet.values, CollectorSet.thinned, own.find?_collect fresh]
  rfl

end Own

end CollectorSet

end MotionImagery.Summary
