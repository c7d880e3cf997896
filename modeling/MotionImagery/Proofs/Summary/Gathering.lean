import MotionImagery.Proofs.Summary.Tracks
import MotionImagery.Summary.Window

/-!
What the collectors of places hold in the course of a window: of each field the measures that the
units gave, in the order in which they came.
-/
namespace MotionImagery.Summary
open Telemetry

mutual

/-- The measures of a value, those of a nested set under the names of its own fields. -/
def measuresOf (field : String) : Value → Delivery
  | .float number => [(field, number)]
  | .set fields => measures fields
  | .unsigned _ | .text _ | .bytes _ => []

/-- The measures that a unit gives, in order. -/
def measures : List (String × Value) → Delivery
  | [] => []
  | (field, value) :: rest => measuresOf field value ++ measures rest

end

/-- A measure at the top of a unit. -/
def measure? (field : String) (unit : Fields) : Option Float :=
  (Keyed.find? field unit).bind Value.float?

/-- The corners that a unit gives by its frame centre and the offsets of all corners from it. -/
def derivedCorners? (unit : Fields) : Option (List Float) := do
  let latitude ← measure? FieldName.frameCenterLatitude unit
  let longitude ← measure? FieldName.frameCenterLongitude unit
  let offsets ← FieldName.offsetCorners.mapM fun field => measure? field unit
  return offsets.zipWith (· + ·)
    [latitude, longitude, latitude, longitude, latitude, longitude, latitude, longitude]

/-- The derived corners under the names of the corner fields. -/
def derived (unit : Fields) : Delivery :=
  (derivedCorners? unit).elim [] FieldName.corners.zip

namespace Collected

/-- Only what a collector of places holds. -/
def places : Collected → Collected
  | corners tracks => corners tracks
  | positions tracks => positions tracks
  | _ => latest none

def tracks : Collected → List Track
  | corners tracks => tracks
  | positions tracks => tracks
  | _ => []

/-- The tracks with the samples of their fields in a delivery. -/
def holding (delivery : Delivery) : Collected → Collected
  | corners tracks => corners (Track.holding (tracks.map Track.field) delivery)
  | positions tracks => positions (Track.holding (tracks.map Track.field) delivery)
  | other => other

variable {place collected : Collected} {delivery : Delivery} {field : String}

theorem holding_other (absent : field ∉ place.tracks.map Track.field) (sample : Float) :
    place.holding (delivery ++ [(field, sample)]) = place.holding delivery := by
  cases place with
  | corners tracks => exact congrArg corners (Track.holding_other absent sample)
  | positions tracks => exact congrArg positions (Track.holding_other absent sample)
  | _ => rfl

theorem eq_positions {tracks : List Track} (held : collected.places = positions tracks) :
    collected = positions tracks := by
  cases collected with
  | positions _ => exact held
  | _ => cases held

theorem eq_corners {tracks : List Track} (held : collected.places = corners tracks) :
    collected = corners tracks := by
  cases collected with
  | corners _ => exact held
  | _ => cases held

theorem places_accept {value : Value} (other : value.float? = none) :
    (collected.accept field value).places = collected.places := by
  cases collected with
  | corners tracks => rw [accept, other]; rfl
  | positions tracks => rw [accept, other]; rfl
  | _ => rfl

/-- Taking a measure in is delivering it. -/
theorem places_accept_float (distinct : (place.tracks.map Track.field).Nodup)
    (held : collected.places = place.holding delivery) (sample : Float) :
    (collected.accept field (.float sample)).places =
      place.holding (delivery ++ [(field, sample)]) := by
  cases place with
  | corners tracks =>
    rw [eq_corners held]
    exact congrArg corners (Track.add_holding distinct sample)
  | positions tracks =>
    rw [eq_positions held]
    exact congrArg positions (Track.add_holding distinct sample)
  | _ =>
    cases collected with
    | corners | positions => cases held
    | _ => exact held

/-- What the places hold at the start of a window. -/
theorem places_reset (held : collected.places = place.holding delivery) :
    collected.reset.places = place.holding [] := by
  cases place with
  | corners tracks =>
    rw [eq_corners held]
    simp [reset, places, holding, Track.holding, Track.new]
  | positions tracks =>
    rw [eq_positions held]
    simp [reset, places, holding, Track.holding, Track.new]
  | _ =>
    cases collected with
    | corners | positions => cases held
    | _ => exact held

end Collected

namespace CollectorSet

/-- What a change of one collector keeps of it, it keeps of all. -/
theorem map_modify_of_kept {β : Type} {view : Collector → β} {change : Collector → Collector}
    (kept : ∀ collector, view (change collector) = view collector) (index : Nat)
    (collectors : List Collector) :
    (collectors.modify index change).map view = collectors.map view := by
  refine List.ext_getElem? fun position => ?_
  rw [List.getElem?_map, List.getElem?_map, List.getElem?_modify, Option.map_eq_map, Option.map_map]
  congr 1
  funext collector
  by_cases here : index = position
  · rw [Function.comp, if_pos here, kept]
  · rw [Function.comp, if_neg here]

theorem mem_of_find? {field : String} {collector : Collector} {set : CollectorSet}
    (found : set.find? field = some collector) : collector ∈ set.collectors := by
  obtain ⟨index, -, there⟩ := Option.bind_eq_some_iff.mp found
  exact List.mem_of_getElem? there

def places (set : CollectorSet) : List Collected :=
  set.collectors.map fun collector => collector.collected.places

theorem index?_of_track {place : Collected} {index : Nat} {track : Track}
    (there : uasDatalink.places[index]? = some place) (member : track ∈ place.tracks) :
    uasDatalink.index? track.field = some index := by
  have all : ∀ entry ∈ uasDatalink.places.zipIdx, ∀ field ∈ entry.1.tracks.map Track.field,
      uasDatalink.index? field = some entry.2 := by
    decide +kernel
  exact all (place, index) (List.mem_zipIdx_iff_getElem?.mpr there) track.field
    (List.mem_map_of_mem member)

theorem nodup_fields {place : Collected} (member : place ∈ uasDatalink.places) :
    (place.tracks.map Track.field).Nodup := by
  have all : ∀ place ∈ uasDatalink.places, (place.tracks.map Track.field).Nodup := by
    decide +kernel
  exact all place member

theorem isCorners_of_corner {field : String} (corner : field ∈ FieldName.corners) :
    ∃ index tracks, uasDatalink.index? field = some index ∧
      uasDatalink.places[index]? = some (.corners tracks) := by
  have all : ∀ field ∈ FieldName.corners,
      (uasDatalink.find? field).map (·.collected.isCorners) = some true := by decide +kernel
  obtain ⟨collector, found, kind⟩ := Option.map_eq_some_iff.mp (all field corner)
  obtain ⟨index, served, there⟩ := Option.bind_eq_some_iff.mp found
  obtain ⟨tracks, held⟩ : ∃ tracks, collector.collected = .corners tracks := by
    cases held : collector.collected with
    | corners tracks => exact ⟨tracks, rfl⟩
    | _ => simp [held, Collected.isCorners] at kind
  refine ⟨index, tracks, served, ?_⟩
  rw [places, List.getElem?_map, there, Option.map_some, held]
  rfl

/-- The collectors hold exactly what was delivered of their fields. -/
structure Gathered (delivery : Delivery) (set : CollectorSet) : Prop where
  serving : set.serving = uasDatalink.serving
  places : set.places = uasDatalink.places.map (Collected.holding delivery)

namespace Gathered
variable {delivery later : Delivery} {set : CollectorSet} {field : String}

theorem index? (gathered : Gathered delivery set) (field : String) :
    set.index? field = uasDatalink.index? field := by
  rw [CollectorSet.index?, CollectorSet.index?, gathered.serving]

theorem getElem?_places (gathered : Gathered delivery set) (index : Nat) :
    (set.collectors[index]?).map (fun collector => collector.collected.places) =
      (uasDatalink.places[index]?).map (Collected.holding delivery) := by
  rw [← List.getElem?_map, ← List.getElem?_map, ← gathered.places]
  rfl

/-- Collectors that are changed one by one. -/
theorem changed {change : Nat → Collector → Collector} {collectors : List Collector}
    (gathered : Gathered delivery set)
    (each : ∀ index, collectors[index]? = (set.collectors[index]?).map (change index))
    (holds : ∀ index place, uasDatalink.places[index]? = some place → ∀ collector : Collector,
      collector.collected.places = place.holding delivery →
      (change index collector).collected.places = place.holding later) :
    Gathered later { set with collectors } := by
  refine ⟨gathered.serving, List.ext_getElem? fun index => ?_⟩
  have before := gathered.getElem?_places index
  rw [CollectorSet.places, List.getElem?_map, List.getElem?_map, each]
  cases there : uasDatalink.places[index]? with
  | none =>
    rw [there, Option.map_none, Option.map_eq_none_iff] at before
    rw [before]
    rfl
  | some place =>
    rw [there, Option.map_some, Option.map_eq_some_iff] at before
    obtain ⟨collector, found, held⟩ := before
    rw [found]
    exact congrArg some (holds index place there collector held)

/-- A change of the collector that serves a field, when the others hold the same before and
after. -/
theorem modify {change : Collector → Collector} (gathered : Gathered delivery set)
    (here : ∀ index place, uasDatalink.index? field = some index →
      uasDatalink.places[index]? = some place → ∀ collector : Collector,
        collector.collected.places = place.holding delivery →
        (change collector).collected.places = place.holding later)
    (elsewhere : ∀ index place, uasDatalink.index? field ≠ some index →
      uasDatalink.places[index]? = some place → place.holding later = place.holding delivery) :
    Gathered later (set.modify field change) := by
  unfold CollectorSet.modify
  split
  · -- A field that no collector serves has no track.
    rename_i unserved
    rw [gathered.index?] at unserved
    refine ⟨gathered.serving, gathered.places.trans (List.map_congr_left fun place member => ?_)⟩
    obtain ⟨index, there⟩ := List.mem_iff_getElem?.mp member
    exact (elsewhere index place (by rw [unserved]; exact nofun) there).symm
  · rename_i index served
    rw [gathered.index?] at served
    refine gathered.changed (fun position => List.getElem?_modify change index _ position) ?_
    intro position place there collector held
    by_cases same : index = position
    · subst same
      rw [if_pos rfl]
      exact here index place served there collector held
    · have differ : uasDatalink.index? field ≠ some position := by simpa [served] using same
      rw [if_neg same, held, elsewhere position place differ there]

/-- A sample of a field changes nothing at the collectors that do not serve it. -/
theorem holding_elsewhere {index : Nat} {place : Collected}
    (other : uasDatalink.index? field ≠ some index)
    (there : uasDatalink.places[index]? = some place) (sample : Float) :
    place.holding (delivery ++ [(field, sample)]) = place.holding delivery := by
  refine Collected.holding_other ?_ sample
  intro member
  obtain ⟨track, isTrack, rfl⟩ := List.mem_map.mp member
  exact other (index?_of_track there isTrack)

theorem accept_float (gathered : Gathered delivery set) (field : String) (sample : Float) :
    Gathered (delivery ++ [(field, sample)]) (set.accept field (.float sample)) := by
  refine gathered.modify ?_ fun index place other there => holding_elsewhere other there sample
  intro index place _ there collector held
  exact Collected.places_accept_float (nodup_fields (List.mem_of_getElem? there)) held sample

theorem accept_other (gathered : Gathered delivery set) (field : String) {value : Value}
    (other : value.float? = none) : Gathered delivery (set.accept field value) := by
  refine gathered.modify ?_ fun _ _ _ _ => rfl
  intro index place _ _ collector held
  exact (Collected.places_accept other).trans held

mutual

theorem acceptValue {delivery : Delivery} {set : CollectorSet} (gathered : Gathered delivery set)
    (field : String) : ∀ value : Value,
      Gathered (delivery ++ measuresOf field value) (set.acceptValue field value)
  | .set fields => gathered.acceptFields fields
  | .float number => gathered.accept_float field number
  | .unsigned number => by
    rw [measuresOf, List.append_nil]
    exact gathered.accept_other field rfl
  | .text content => by
    rw [measuresOf, List.append_nil]
    exact gathered.accept_other field rfl
  | .bytes content => by
    rw [measuresOf, List.append_nil]
    exact gathered.accept_other field rfl

/-- Taking a unit in is delivering its measures. -/
theorem acceptFields {delivery : Delivery} {set : CollectorSet} (gathered : Gathered delivery set) :
    ∀ fields : List (String × Value),
      Gathered (delivery ++ measures fields) (set.acceptFields fields)
  | [] => by
    rw [measures, List.append_nil]
    exact gathered
  | (field, value) :: rest => by
    rw [measures, ← List.append_assoc]
    exact (gathered.acceptValue field value).acceptFields rest

end

/-- A corner that is added to the collector of corners. -/
theorem add_corner (gathered : Gathered delivery set) (corner : field ∈ FieldName.corners)
    (sample : Float) :
    Gathered (delivery ++ [(field, sample)]) (set.modify field fun collector =>
      if collector.collected.isCorners then collector.acceptSample field sample else collector) := by
  refine gathered.modify ?_ fun index place other there => holding_elsewhere other there sample
  intro index place served there collector held
  obtain ⟨_, tracks, served', there'⟩ := isCorners_of_corner corner
  cases served.symm.trans served'
  cases there.symm.trans there'
  have distinct := nodup_fields (List.mem_of_getElem? there)
  have kind := Collected.eq_corners held
  have wanted : collector.collected.isCorners = true := by
    rw [kind]
    rfl
  rw [if_pos wanted, Collector.acceptSample, kind]
  exact congrArg Collected.corners (Track.add_holding distinct sample)

theorem add_corners (gathered : Gathered delivery set) {corners : Delivery}
    (known : ∀ entry ∈ corners, entry.1 ∈ FieldName.corners) :
    Gathered (delivery ++ corners) (corners.foldl (fun set entry =>
      set.modify entry.1 fun collector =>
        if collector.collected.isCorners then collector.acceptSample entry.1 entry.2
        else collector) set) := by
  induction corners generalizing delivery set with
  | nil =>
    rw [List.append_nil]
    exact gathered
  | cons entry rest ih =>
    have added := gathered.add_corner (known entry List.mem_cons_self) entry.2
    have rested := ih added fun later member => known later (List.mem_cons_of_mem _ member)
    rwa [List.append_assoc] at rested

end Gathered

end CollectorSet

theorem length_of_mapM {names : List String} {samples : List Float}
    {sample? : String → Option Float} (found : names.mapM sample? = some samples) :
    samples.length = names.length := by
  induction names generalizing samples with
  | nil =>
    cases found
    rfl
  | cons name rest ih =>
    rw [List.mapM_cons] at found
    obtain ⟨sample, _, found⟩ := Option.bind_eq_some_iff.mp found
    obtain ⟨others, given, found⟩ := Option.bind_eq_some_iff.mp found
    cases found
    rw [List.length_cons, List.length_cons, ih given]

theorem mem_corners_of_mem_derived {entry : String × Float} {unit : Fields}
    (member : entry ∈ derived unit) : entry.1 ∈ FieldName.corners := by
  rw [derived] at member
  cases given : derivedCorners? unit with
  | none =>
    rw [given] at member
    cases member
  | some sample =>
    rw [given] at member
    exact (List.of_mem_zip member).1

/-- The corners of the frame centre and the offsets are added one by one. -/
theorem deriveCorners_eq (unit : Fields) (set : CollectorSet)
    (served : FieldName.corners.all set.serves = true) :
    set.deriveCorners unit = (derived unit).foldl (fun set entry =>
      set.modify entry.1 fun collector =>
        if collector.collected.isCorners then collector.acceptSample entry.1 entry.2
        else collector) set := by
  rw [CollectorSet.deriveCorners, if_pos served, derived, derivedCorners?]
  unfold CollectorSet.offsets? measure?
  beta_reduce
  cases (Keyed.find? FieldName.frameCenterLatitude unit).bind Value.float? with
  | none => rfl
  | some latitude =>
    cases (Keyed.find? FieldName.frameCenterLongitude unit).bind Value.float? with
    | none => rfl
    | some longitude =>
      cases given : FieldName.offsetCorners.mapM fun field =>
        (Keyed.find? field unit).bind Value.float? with
      | none => rfl
      | some offsets =>
        -- Latitudes and longitudes alternate, so the eight offsets are looked at one by one.
        have size : offsets.length = 8 := length_of_mapM given
        match offsets, size with
        | [_, _, _, _, _, _, _, _], _ => rfl

namespace CollectorSet.Gathered
variable {delivery : Delivery} {set : CollectorSet}

theorem deriveCorners (gathered : Gathered delivery set) (unit : Fields) :
    Gathered (delivery ++ derived unit) (set.deriveCorners unit) := by
  have served : FieldName.corners.all set.serves = true := by
    have standard : FieldName.corners.all uasDatalink.serves = true := by decide +kernel
    have same : set.serves = uasDatalink.serves := by
      funext field
      rw [serves, serves, gathered.serving]
    rw [same, standard]
  rw [deriveCorners_eq unit set served]
  exact gathered.add_corners fun entry member => mem_corners_of_mem_derived member

theorem initial : Gathered [] uasDatalink := ⟨rfl, rfl⟩

theorem reset (gathered : Gathered delivery set) : Gathered [] set.reset := by
  refine gathered.changed (fun index => List.getElem?_map) ?_
  intro index place _ collector held
  exact Collected.places_reset held

end CollectorSet.Gathered

/-- What a unit delivers: its measures, and the corners derived from them. -/
def delivered (unit : Fields) : Delivery := measures unit ++ derived unit

/-- The rules of telemetry, with those that may be adjusted given. -/
def Derivation.telemetry (center : FrameCenter) (location : Location) (rule : Classification) :
    Derivation :=
  list [
    copyPresent,
    distinct [FieldName.missionId] AttributeName.missionId,
    distinct [FieldName.platformDesignation] AttributeName.platformName,
    distinct [FieldName.imageSourceSensor] AttributeName.sensorId,
    distinct [FieldName.platformTailNumber, FieldName.platformCallSign] AttributeName.platformId,
    dates FieldName.timestamp,
    meanAltitude,
    frameCenter center,
    .location location,
    classification rule]

namespace Window

/-- Takes units in, one after the other. -/
def collect (units : List Fields) (window : Window) : Window :=
  units.foldl (fun window unit => window.accept unit) window

theorem collect_derivation (units : List Fields) (window : Window) :
    (window.collect units).derivation = window.derivation := by
  induction units generalizing window with
  | nil => rfl
  | cons unit rest ih => exact ih (window.accept unit)

/-- Windows of unmanned air system telemetry into which no unit was taken yet: the first one, and
what is left when a window is closed. -/
inductive Began : Window → Prop
  | first : Began .uasDatalink
  | adjust {window : Window} (began : Began window) (visitor : Derivation.Visitor Id) :
      Began (window.adjust visitor)
  | next {window : Window} (began : Began window) (units : List Fields) (settings : Settings) :
      Began ((window.collect units).finish settings).2

variable {window : Window} {delivery : Delivery}

/-- However often it was adjusted, a window has the rules of telemetry in their order. -/
theorem Began.exists_rules (began : Began window) :
    ∃ center location rule, window.derivation = .telemetry center location rule := by
  induction began with
  | first => exact ⟨.standard, .standard, .standard, rfl⟩
  | adjust _ visitor ih =>
    obtain ⟨center, location, rule, same⟩ := ih
    refine ⟨visitor.frameCenter center, visitor.location location, visitor.classification rule, ?_⟩
    rw [Window.adjust, same]
    rfl
  | next _ units settings ih =>
    obtain ⟨center, location, rule, same⟩ := ih
    exact ⟨center, location, rule, (collect_derivation units _).trans same⟩

/-- The collectors of a window hold what was delivered, corners derived from frame centres
included. -/
structure Holds (delivery : Delivery) (window : Window) : Prop where
  derives : window.derivesCorners = true
  gathered : CollectorSet.Gathered delivery window.collectors

theorem Holds.accept (holds : Holds delivery window) (unit : Fields) :
    Holds (delivery ++ delivered unit) (window.accept unit) := by
  refine ⟨holds.derives, ?_⟩
  rw [Window.accept, delivered, ← List.append_assoc]
  simp only [if_pos holds.derives]
  exact (holds.gathered.acceptFields unit).deriveCorners unit

theorem Holds.collect (holds : Holds delivery window) (units : List Fields) :
    Holds (delivery ++ units.flatMap delivered) (window.collect units) := by
  induction units generalizing window delivery with
  | nil =>
    rw [List.flatMap_nil, List.append_nil]
    exact holds
  | cons unit rest ih =>
    rw [List.flatMap_cons, ← List.append_assoc]
    exact ih (holds.accept unit)

theorem Began.holds (began : Began window) : Holds [] window := by
  induction began with
  | first => exact ⟨rfl, .initial⟩
  | adjust _ visitor ih => exact ⟨ih.derives, ih.gathered⟩
  | next _ units settings ih =>
    have held := ih.collect units
    exact ⟨held.derives, held.gathered.reset⟩

/-- In a window of telemetry the collectors hold what its units delivered, and nothing else. -/
theorem Began.collect (began : Began window) (units : List Fields) :
    Holds (units.flatMap delivered) (window.collect units) :=
  began.holds.collect units

end Window

end MotionImagery.Summary
