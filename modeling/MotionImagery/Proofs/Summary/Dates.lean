import MotionImagery.Proofs.Summary.Listing
import MotionImagery.Proofs.Summary.Serving

/-!
When a window began and ended. The collector of timestamps holds every date that its units told, in
the order in which they came, and the attributes name the first and the last of them.
-/
namespace MotionImagery
open Telemetry

namespace Summary

/-- The dates that a unit tells under its timestamp. -/
def timestamps (unit : Fields) : List Time.Instant :=
  (Value.underFields FieldName.timestamp unit).filterMap instant?

theorem CollectorSet.own_timestamp :
    Own FieldName.timestamp (.dates AttributeName.timestamp) :=
  own_of_mem (by simp [ownFields])

theorem Window.values_timestamp (units : List Fields) :
    (uasDatalink.collect units).collectors.values FieldName.timestamp =
      (units.flatMap timestamps).map .date := by
  rw [CollectorSet.own_timestamp.values_collect rfl, Collector.dates, Collector.acceptAll_dates,
    List.nil_append, List.filterMap_flatMap]
  rfl

theorem Window.names_collect (units : List Fields) :
    (uasDatalink.collect units).collectors.collectors.map Collector.name =
      CollectorSet.uasDatalink.collectors.map Collector.name :=
  (CollectorSet.own_timestamp.takenIn rfl units).names

end Summary

/-- The attributes name the first and the last of these instants, and neither when there is none. -/
structure Attributes.Spans (instants : List Time.Instant) (attributes : Attributes) : Prop where
  start : Keyed.find? AttributeName.temporalStart attributes =
    instants.head?.map fun instant => [.date instant]
  stop : Keyed.find? AttributeName.temporalEnd attributes =
    instants.getLast?.map fun instant => [.date instant]

namespace Summary.Derivation
variable {collectors : CollectorSet} {instants : List Time.Instant}

theorem spans_dates {field : String} (gathered : collectors.values field = instants.map .date)
    (settings : Settings) {attributes : Attributes} (unset : attributes.Spans []) :
    (derive collectors settings (.dates field) attributes).Spans instants := by
  have dates : (collectors.values field).filterMap AttributeValue.date? = instants := by
    rw [gathered, List.filterMap_map]
    exact List.filterMap_some
  rw [derive]
  simp only [dates]
  cases first : instants.head? with
  | none =>
    rw [List.head?_eq_none_iff.mp first]
    exact unset
  | some start =>
    cases last : instants.getLast? with
    | none => simp [List.getLast?_eq_none_iff.mp last] at first
    | some stop =>
      have created : ∀ name ∈ [AttributeName.temporalStart, AttributeName.temporalEnd],
          name ≠ AttributeName.created := by decide
      constructor
      · rw [Attributes.find?_setSingle_of_ne (created _ (by simp)),
          Attributes.find?_setSingle_of_ne (by decide), Attributes.setSingle, Keyed.find?_put,
          if_pos rfl, first]
        rfl
      · rw [Attributes.find?_setSingle_of_ne (created _ (by simp)), Attributes.setSingle,
          Keyed.find?_put, if_pos rfl, last]
        rfl

/-- A rule that does not write begin and end leaves them. -/
theorem spans_derive {derivation : Derivation} {attributes : Attributes}
    (spans : attributes.Spans instants) (settings : Settings)
    (noStart : derivation.writes AttributeName.temporalStart = false)
    (noStop : derivation.writes AttributeName.temporalEnd = false) :
    (derive collectors settings derivation attributes).Spans instants :=
  ⟨(find?_derive noStart attributes).trans spans.start,
    (find?_derive noStop attributes).trans spans.stop⟩

/-- The attributes of telemetry name the first and the last timestamp. -/
theorem spans_telemetry
    (gathered : collectors.values FieldName.timestamp = instants.map .date)
    (names : collectors.collectors.map Collector.name =
      CollectorSet.uasDatalink.collectors.map Collector.name) (settings : Settings)
    (center : FrameCenter) (location : Location) (rule : Classification) :
    (derive collectors settings (.telemetry center location rule) []).Spans instants := by
  have unnamed : ∀ name ∈ [AttributeName.temporalStart, AttributeName.temporalEnd],
      ∀ collector ∈ collectors.collectors, collector.name ≠ name := by
    have all : ∀ name ∈ [AttributeName.temporalStart, AttributeName.temporalEnd],
        name ∉ CollectorSet.uasDatalink.collectors.map Collector.name := by decide +kernel
    intro name wanted collector member same
    exact all name wanted (names ▸ same ▸ List.mem_map_of_mem member)
  have copied : (derive collectors settings copyPresent []).Spans [] :=
    ⟨find?_copied (unnamed _ (by simp)) [], find?_copied (unnamed _ (by simp)) []⟩
  rw [telemetry, derive]
  simp only [deriveAll]
  -- The rules behind the one for the dates, and those between it and the first, leave them alone.
  repeat refine spans_derive ?_ settings rfl rfl
  refine spans_dates gathered settings ?_
  repeat refine spans_derive ?_ settings rfl rfl
  exact copied

end Summary.Derivation

/-- A window that is closed names the first and the last timestamp of its units. -/
theorem Summary.Window.spans_finish (units : List Fields) (settings : Settings) :
    ((uasDatalink.collect units).finish settings).1.Spans (units.flatMap timestamps) := by
  rw [finish, collect_derivation]
  exact Derivation.spans_telemetry (values_timestamp units) (names_collect units) settings
    .standard .standard .standard

end MotionImagery
