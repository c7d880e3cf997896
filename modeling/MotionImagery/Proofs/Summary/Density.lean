import MotionImagery.Proofs.Geometry.Ways
import MotionImagery.Proofs.Summary.Isolation

/-!
How detailed the geometry of a window is. Places are thinned out to the count that the settings
allow; whatever the operators, the line of frame centres keeps to it, and what is written is valid.
Without a count there is no geometry.
-/
namespace MotionImagery.Summary
open Telemetry

/-- What may be done to a collector. -/
inductive Collector.Step (collector : Collector) : Collector → Prop
  | stay : Step collector collector
  | accept (field : String) (value : Value) : Step collector (collector.accept field value)
  | acceptSample (field : String) (sample : Float) :
      Step collector (collector.acceptSample field sample)
  | reset : Step collector collector.reset

namespace CollectorSet

/-- Sets of collectors that were put together and then took in whatever values, in whatever order,
one collector or another being reset in between. -/
inductive Filled : CollectorSet → Prop
  | fresh {set : CollectorSet} (fresh : set.Fresh) : Filled set
  | modify {set : CollectorSet} (filled : Filled set) (field : String)
      {change : Collector → Collector}
      (step : ∀ collector, Collector.Step collector (change collector)) :
      Filled (set.modify field change)
  | reset {set : CollectorSet} (filled : Filled set) : Filled set.reset

/-- All measures are finite. -/
def Finite (set : CollectorSet) : Prop :=
  ∀ collector ∈ set.collectors, ∀ track ∈ collector.collected.tracks,
    ∀ sample ∈ track.samples, sample.isFinite = true

namespace Filled
variable {set : CollectorSet}

theorem accept (filled : Filled set) (field : String) (value : Value) :
    Filled (set.accept field value) :=
  filled.modify field fun _ => .accept field value

mutual

theorem acceptValue (field : String) : ∀ (value : Value) {set : CollectorSet}, Filled set →
    Filled (set.acceptValue field value)
  | .set fields, _, filled => acceptFields fields filled
  | .unsigned number, _, filled => filled.accept field (.unsigned number)
  | .float number, _, filled => filled.accept field (.float number)
  | .text content, _, filled => filled.accept field (.text content)
  | .bytes content, _, filled => filled.accept field (.bytes content)

theorem acceptFields : ∀ (fields : List (String × Value)) {set : CollectorSet}, Filled set →
    Filled (set.acceptFields fields)
  | [], _, filled => filled
  | (field, value) :: rest, _, filled => acceptFields rest (acceptValue field value filled)

end

theorem deriveCorners (filled : Filled set) (unit : Fields) : Filled (set.deriveCorners unit) := by
  by_cases served : FieldName.corners.all set.serves = true
  · rw [deriveCorners_eq unit set served]
    clear served
    induction derived unit generalizing set with
    | nil => exact filled
    | cons entry rest ih =>
      refine ih (filled.modify entry.1 fun collector => ?_)
      split
      · exact .acceptSample entry.1 entry.2
      · exact .stay
  · rw [CollectorSet.deriveCorners, if_neg served]
    exact filled

end Filled

end CollectorSet

/-- The collectors of a window hold what was taken in. -/
theorem Window.filled_collect {window : Window} (filled : window.collectors.Filled)
    (units : List Fields) : (window.collect units).collectors.Filled := by
  induction units generalizing window with
  | nil => exact filled
  | cons unit rest ih =>
    have taken : (window.accept unit).collectors.Filled := by
      rw [Window.accept]
      by_cases derives : window.derivesCorners = true
      · simp only [if_pos derives]
        exact (filled.acceptFields unit).deriveCorners unit
      · simp only [if_neg derives]
        exact filled.acceptFields unit
    exact ih taken

namespace Collected

/-- Only tracks give geometry, and those of a position are two. -/
def Orderly : Collected → Prop
  | list values | distinct values => ∀ value ∈ values, value.geometry? = none
  | latest value => ∀ last ∈ value, last.geometry? = none
  | dates _ | corners _ => True
  | positions tracks => tracks.length = 2

theorem geometry?_ofTelemetry? {value : Value} {told : AttributeValue}
    (given : AttributeValue.ofTelemetry? value = some told) : told.geometry? = none := by
  cases value with
  | set => cases given
  | _ =>
    cases given
    rfl

theorem length_add (field : String) (sample : Float) (tracks : List Track) :
    (Track.add field sample tracks).length = tracks.length := by
  have same := congrArg List.length (Track.map_new_add field sample tracks)
  rwa [List.length_map, List.length_map] at same

variable {collected : Collected}

theorem Orderly.acceptSample (orderly : collected.Orderly) (field : String) (sample : Float) :
    (collected.acceptSample field sample).Orderly := by
  cases collected with
  | positions tracks => exact (length_add field sample tracks).trans orderly
  | _ => exact orderly

theorem Orderly.accept (orderly : collected.Orderly) (field : String) (value : Value) :
    (collected.accept field value).Orderly := by
  have plain : ∀ told ∈ AttributeValue.ofTelemetry? value, told.geometry? = none :=
    fun told given => geometry?_ofTelemetry? given
  cases collected with
  | list values =>
    refine List.forall_mem_append.mpr ⟨orderly, fun told member => ?_⟩
    exact plain told (Option.mem_toList.mp member)
  | latest before =>
    intro last isLast
    obtain given | ⟨-, kept⟩ := Option.or_eq_some_iff.mp isLast
    · exact plain last given
    · exact orderly last kept
  | distinct values =>
    rw [Collected.accept]
    cases told : AttributeValue.ofTelemetry? value with
    | none => exact orderly
    | some given =>
      rw [Option.elim, addNew]
      split
      · exact orderly
      · exact List.forall_mem_append.mpr
          ⟨orderly, List.forall_mem_singleton.mpr (plain given told)⟩
  | dates => trivial
  | corners => trivial
  | positions tracks =>
    rw [Collected.accept]
    cases value.float? with
    | none => exact orderly
    | some sample => exact orderly.acceptSample field sample

theorem Orderly.reset (orderly : collected.Orderly) : collected.reset.Orderly := by
  cases collected with
  | positions tracks => exact (List.length_map _).trans orderly
  | list | distinct => exact nofun
  | latest => exact nofun
  | _ => trivial

end Collected

namespace Collector

theorem Step.orderly {collector later : Collector} (step : collector.Step later)
    (orderly : collector.collected.Orderly) : later.collected.Orderly := by
  cases step with
  | stay => exact orderly
  | accept field value => exact orderly.accept field value
  | acceptSample field sample => exact orderly.acceptSample field sample
  | reset => exact orderly.reset

theorem Fresh.orderly {collector : Collector} (fresh : collector.Fresh) :
    collector.collected.Orderly := by
  cases fresh with
  | list | distinct => exact nofun
  | latest => exact nofun
  | positions => exact rfl
  | _ => trivial

end Collector

namespace CollectorSet
variable {set : CollectorSet}

theorem Fresh.orderly (fresh : set.Fresh) :
    ∀ collector ∈ set.collectors, collector.collected.Orderly := by
  induction fresh with
  | empty => exact nofun
  | add _ fields unused ih =>
    exact List.forall_mem_append.mpr ⟨ih, List.forall_mem_singleton.mpr unused.orderly⟩

/-- Whatever was taken in, only tracks give geometry. -/
theorem Filled.orderly (filled : set.Filled) :
    ∀ collector ∈ set.collectors, collector.collected.Orderly := by
  induction filled with
  | fresh fresh => exact fresh.orderly
  | modify _ field step ih =>
    unfold CollectorSet.modify
    split
    · exact ih
    · intro collector member
      obtain ⟨index, there⟩ := List.mem_iff_getElem?.mp member
      rw [List.getElem?_modify, Option.map_eq_map, Option.map_eq_some_iff] at there
      obtain ⟨before, found, rfl⟩ := there
      have orderly := ih before (List.mem_of_getElem? found)
      split
      · exact (step before).orderly orderly
      · exact orderly
  | reset _ ih =>
    intro collector member
    obtain ⟨before, inside, rfl⟩ := List.mem_map.mp member
    exact (ih before inside).reset

end CollectorSet

namespace Collected
variable {collected : Collected} {count : Nat}

/-- The position that is made of the samples at an index. -/
def positionAt (latitudes longitudes : Track) (index : Nat) : Coord :=
  ⟨longitudes.samples.getD index 0.0, latitudes.samples.getD index 0.0⟩

theorem coordsOf_sampleAt {latitudes longitudes : Track} {index : Nat}
    (inside : index < Track.complete [latitudes, longitudes]) :
    coordsOf (Track.sampleAt index [latitudes, longitudes]) =
      [positionAt latitudes longitudes index] := by
  obtain ⟨north, east⟩ : index < latitudes.samples.length ∧ index < longitudes.samples.length :=
    Nat.lt_min.mp inside
  simp [Track.sampleAt, positionAt, coordsOf, north, east]

/-- How many places there are, and each of them. -/
theorem exists_places (orderly : collected.Orderly)
    (isPlaces : (collected.isPositions || collected.isCorners) = true) :
    ∃ (places : Nat) (place : Nat → AttributeValue),
      ∀ count, collected.values count = (subsampleIndices places count).map place := by
  cases collected with
  | corners tracks =>
    refine ⟨Track.complete tracks, fun index =>
      .geometry (.polygon (cornerPolygon (Track.sampleAt index tracks))), fun count => ?_⟩
    rw [values, Track.thinned, List.map_map]
    rfl
  | positions tracks =>
    obtain ⟨latitudes, longitudes, rfl⟩ := List.length_eq_two.mp orderly
    refine ⟨Track.complete [latitudes, longitudes], fun index =>
      .geometry (.point (positionAt latitudes longitudes index)), fun count => ?_⟩
    rw [values, Track.thinned, List.flatMap_map, List.map_eq_flatMap]
    refine List.flatMap_congr fun index member => ?_
    rw [coordsOf_sampleAt (lt_of_mem_subsampleIndices member), List.map_singleton]
  | _ => cases isPlaces

/-- The places that are kept are some of all places, and which ones depends on their number only. -/
theorem map_some_values (orderly : collected.Orderly)
    (isPlaces : (collected.isPositions || collected.isCorners) = true) (count : Nat) :
    (collected.values count).map some =
      (subsampleIndices (collected.values 0).length count).map
        fun index => (collected.values 0)[index]? := by
  obtain ⟨places, place, gives⟩ := exists_places orderly isPlaces
  have all : collected.values 0 = (List.range places).map place := by
    rw [gives, subsampleIndices_of_le (.inl rfl)]
  rw [gives, all, List.length_map, List.length_range, List.map_map]
  refine List.map_congr_left fun index member => ?_
  rw [List.getElem?_map, List.getElem?_range (lt_of_mem_subsampleIndices member)]
  rfl

theorem values_of_scalar (scalar : (collected.isPositions || collected.isCorners) = false)
    (count : Nat) : collected.values count = collected.values 0 := by
  cases collected with
  | corners | positions => cases scalar
  | _ => rfl

theorem Orderly.exists_tracks (orderly : collected.Orderly)
    (isPositions : collected.isPositions = true) :
    ∃ latitudes longitudes, collected = positions [latitudes, longitudes] := by
  cases collected with
  | positions tracks =>
    obtain ⟨latitudes, longitudes, rfl⟩ := List.length_eq_two.mp orderly
    exact ⟨latitudes, longitudes, rfl⟩
  | _ => cases isPositions

theorem points_of_positions (latitudes longitudes : Track) (count : Nat) :
    ((positions [latitudes, longitudes]).values count).filterMap AttributeValue.point? =
      (subsampleIndices (Track.complete [latitudes, longitudes]) count).map
        (positionAt latitudes longitudes) := by
  rw [values, Track.thinned, List.flatMap_map, List.filterMap_flatMap, List.map_eq_flatMap]
  refine List.flatMap_congr fun index member => ?_
  rw [coordsOf_sampleAt (lt_of_mem_subsampleIndices member)]
  rfl

theorem points_of_other (orderly : collected.Orderly) (other : collected.isPositions = false)
    (count : Nat) : (collected.values count).filterMap AttributeValue.point? = [] := by
  have pointless : ∀ value : AttributeValue, value.geometry? = none → value.point? = none := by
    intro value plain
    cases value with
    | geometry shape => cases plain
    | _ => rfl
  rw [List.filterMap_eq_nil_iff]
  intro value member
  cases collected with
  | list | distinct => exact pointless value (orderly value member)
  | latest => exact pointless value (orderly value (Option.mem_toList.mp member))
  | dates =>
    obtain ⟨instant, -, rfl⟩ := List.mem_map.mp member
    rfl
  | corners =>
    obtain ⟨sample, -, rfl⟩ := List.mem_map.mp member
    rfl
  | positions => cases other

theorem isFinite_positionAt {latitudes longitudes : Track} {index : Nat}
    (finite : ∀ track ∈ [latitudes, longitudes], ∀ sample ∈ track.samples, sample.isFinite = true)
    (inside : index < Track.complete [latitudes, longitudes]) :
    (positionAt latitudes longitudes index).isFinite = true := by
  obtain ⟨north, east⟩ : index < latitudes.samples.length ∧ index < longitudes.samples.length :=
    Nat.lt_min.mp inside
  have known : ∀ track ∈ [latitudes, longitudes], index < track.samples.length →
      (track.samples.getD index 0.0).isFinite = true := by
    intro track member inside
    rw [List.getD_eq_getElem?_getD, List.getElem?_eq_getElem inside]
    exact finite track member _ (List.getElem_mem inside)
  rw [Coord.isFinite, Bool.and_eq_true]
  exact ⟨known longitudes (by simp) east, known latitudes (by simp) north⟩

/-- A line through the points that are kept is a way. -/
theorem way_of_lineOf? {line : Geometry} (orderly : collected.Orderly)
    (finite : ∀ track ∈ collected.tracks, ∀ sample ∈ track.samples, sample.isFinite = true)
    (positive : 1 ≤ count) (made : lineOf? (collected.values count) = some line) :
    line.Way count := by
  cases kind : collected.isPositions with
  | false =>
    rw [lineOf?, points_of_other orderly kind] at made
    cases made
  | true =>
    obtain ⟨latitudes, longitudes, rfl⟩ := orderly.exists_tracks kind
    rw [lineOf?, points_of_positions] at made
    refine .of_ofPoints? made ?_ fun position member => ?_
    · rw [List.length_map, length_subsampleIndices positive]
      exact Nat.min_le_right _ _
    · obtain ⟨index, kept, rfl⟩ := List.mem_map.mp member
      exact isFinite_positionAt finite (lt_of_mem_subsampleIndices kept)

/-- There is a line as soon as there is a point. -/
theorem isSome_lineOf? (orderly : collected.Orderly) (positive : 1 ≤ count) :
    (lineOf? (collected.values count)).isSome = true ↔
      (collected.values 0).filterMap AttributeValue.point? ≠ [] := by
  rw [lineOf?, Geometry.isSome_ofPoints?]
  cases kind : collected.isPositions with
  | false => rw [points_of_other orderly kind, points_of_other orderly kind]
  | true =>
    obtain ⟨latitudes, longitudes, rfl⟩ := orderly.exists_tracks kind
    rw [points_of_positions, points_of_positions, subsampleIndices_of_le (.inl rfl), Ne, Ne,
      ← List.length_eq_zero_iff, ← List.length_eq_zero_iff, List.length_map, List.length_map,
      length_subsampleIndices positive, List.length_range]
    omega

end Collected

namespace CollectorSet
variable {set : CollectorSet} {count : Nat} {field : String}

theorem way_of_thinned {line : Geometry} (filled : set.Filled) (finite : set.Finite)
    (positive : 1 ≤ count) (made : lineOf? (set.thinned count field) = some line) :
    line.Way count := by
  rw [thinned] at made
  cases found : set.find? field with
  | none =>
    rw [found] at made
    cases made
  | some collector =>
    rw [found] at made
    have member := mem_of_find? found
    exact Collected.way_of_lineOf? (filled.orderly collector member) (finite collector member)
      positive made

theorem isSome_lineOf?_thinned (filled : set.Filled) (positive : 1 ≤ count) :
    (lineOf? (set.thinned count field)).isSome = true ↔
      (set.values field).filterMap AttributeValue.point? ≠ [] := by
  rw [values, thinned, thinned]
  cases found : set.find? field with
  | none => simp [lineOf?, Geometry.ofPoints?]
  | some collector =>
    exact Collected.isSome_lineOf? (filled.orderly collector (mem_of_find? found)) positive

end CollectorSet

section
variable {methods : Methods} {set : CollectorSet} {settings : Settings} {count : Nat}
  {shape : Geometry}

theorem one_le_of_sampleLimit? (limit : sampleLimit? settings = some count) : 1 ≤ count :=
  of_decide_eq_true (Option.filter_eq_some_iff.mp limit).2

theorem FrameCenter.way (thins : methods.simplifier.Thins) (filled : set.Filled)
    (finite : set.Finite) (limit : sampleLimit? settings = some count) {rule : FrameCenter}
    (given : rule.deriveWith? methods set settings = some shape) : shape.Way count := by
  rw [FrameCenter.deriveWith?, limit] at given
  dsimp only [bind, Option.bind] at given
  split at given
  · cases made : lineOf? (set.thinned count FieldName.frameCenterLatitude) with
    | none =>
      rw [made] at given
      cases given
    | some line =>
      rw [made] at given
      cases given
      have way : line.Way (Detail.mk count rule.tolerance).count :=
        CollectorSet.way_of_thinned filled finite (one_le_of_sampleLimit? limit) made
      exact way.applyWith thins rule.operator
  · cases given

/-- There is a line of frame centres when one collector gathers them and has a point. -/
theorem FrameCenter.isSome_deriveWith? (filled : set.Filled)
    (limit : sampleLimit? settings = some count) (rule : FrameCenter) :
    (rule.deriveWith? methods set settings).isSome = true ↔
      set.share [FieldName.frameCenterLatitude, FieldName.frameCenterLongitude] = true ∧
        (set.values FieldName.frameCenterLatitude).filterMap AttributeValue.point? ≠ [] := by
  rw [← CollectorSet.isSome_lineOf?_thinned filled (one_le_of_sampleLimit? limit),
    FrameCenter.deriveWith?, limit]
  dsimp only [bind, Option.bind]
  by_cases shared :
      set.share [FieldName.frameCenterLatitude, FieldName.frameCenterLongitude] = true
  · rw [if_pos shared]
    cases lineOf? (set.thinned count FieldName.frameCenterLatitude) <;> simp [shared]
  · rw [if_neg shared]
    simp [shared]

namespace Location
variable {detail : Detail} {rule : Location}

theorem isValid_of_fromCorners? (given : rule.fromCorners? methods set detail = some shape) :
    shape.isValid = true := by
  obtain ⟨source, -, given⟩ := Option.bind_eq_some_iff.mp given
  obtain ⟨area, -, repaired⟩ := Option.bind_eq_some_iff.mp given
  exact Geometry.isValid_of_repairWith? repaired

theorem way_of_fromFrameCenter? (thins : methods.simplifier.Thins) (filled : set.Filled)
    (finite : set.Finite) (positive : 1 ≤ detail.count)
    (given : rule.fromFrameCenter? methods set detail = some shape) :
    shape.Way detail.count := by
  obtain ⟨source, found, given⟩ := Option.bind_eq_some_iff.mp given
  obtain ⟨line, made, given⟩ := Option.bind_eq_some_iff.mp given
  cases given
  have member := List.mem_of_find?_eq_some found
  have way := Collected.way_of_lineOf? (filled.orderly source member) (finite source member)
    positive made
  exact .applyWith thins rule.afterUnion (.applyWith thins rule.beforeUnion way)

theorem cases_of_deriveWith? (limit : sampleLimit? settings = some count)
    (given : rule.deriveWith? methods set settings = some shape) :
    rule.fromCorners? methods set ⟨count, rule.tolerance⟩ = some shape ∨
      rule.fromCorners? methods set ⟨count, rule.tolerance⟩ = none ∧
        rule.fromFrameCenter? methods set ⟨count, rule.tolerance⟩ = some shape := by
  rw [Location.deriveWith?, limit] at given
  exact Option.or_eq_some_iff.mp given

end Location

end

/-- What is said of the geometry that may be derived of a set of collectors. -/
structure Detailed (methods : Methods) (set : CollectorSet) (settings : Settings) : Prop where
  /-- The line of frame centres is a way of so many coordinates. -/
  frameCenter : ∀ count, sampleLimit? settings = some count → ∀ (rule : FrameCenter) shape,
    rule.deriveWith? methods set settings = some shape →
      shape.Way count ∧ shape.isValid = true
  /-- It is there as soon as there is a frame centre. -/
  written : ∀ count, sampleLimit? settings = some count → ∀ rule : FrameCenter,
    ((rule.deriveWith? methods set settings).isSome = true ↔
      set.share [FieldName.frameCenterLatitude, FieldName.frameCenterLongitude] = true ∧
        (set.values FieldName.frameCenterLatitude).filterMap AttributeValue.point? ≠ [])
  /-- The area that was seen is valid, and a way as well where frame centres stand for it. -/
  location : ∀ count, sampleLimit? settings = some count → ∀ (rule : Location) shape,
    rule.deriveWith? methods set settings = some shape → shape.isValid = true ∧
      (rule.fromCorners? methods set ⟨count, rule.tolerance⟩ = none → shape.Way count)
  /-- Without a count nothing is written. -/
  unlimited : sampleLimit? settings = none → ∀ attributes,
    (∀ rule, Derivation.derive set settings (.frameCenter rule) attributes = attributes) ∧
      ∀ rule, Derivation.derive set settings (.location rule) attributes = attributes
  /-- Of all places those are kept that are spread evenly. -/
  spread : ∀ count, 1 ≤ count → ∀ collector ∈ set.collectors,
    (collector.collected.isPositions || collector.collected.isCorners) = true →
      (collector.thinned count).map some =
          (subsampleIndices collector.values.length count).map
            (fun index => collector.values[index]?) ∧
        Spread collector.values.length count (subsampleIndices collector.values.length count)
  /-- Anything else is kept. -/
  scalars : ∀ count, ∀ collector ∈ set.collectors,
    (collector.collected.isPositions || collector.collected.isCorners) = false →
      collector.thinned count = collector.values

/-- **Geometry is as detailed as the settings allow.** Whatever was collected, as long as measures
are finite, and whatever the operators and tolerances, the line of frame centres and the area that
was seen are valid, and a line has no more coordinates than the count. The simplifier may be any
that adds none. -/
theorem geometry_within_detail (methods : Methods) (thins : methods.simplifier.Thins)
    {set : CollectorSet} (filled : set.Filled) (finite : set.Finite) (settings : Settings) :
    Detailed methods set settings := by
  constructor
  case frameCenter =>
    intro count limit rule shape given
    have way := FrameCenter.way thins filled finite limit given
    exact ⟨way, way.isValid⟩
  case written => exact fun count limit rule => rule.isSome_deriveWith? filled limit
  case location =>
    intro count limit rule shape given
    have positive := one_le_of_sampleLimit? limit
    obtain corners | ⟨none, frames⟩ := Location.cases_of_deriveWith? limit given
    · refine ⟨Location.isValid_of_fromCorners? corners, fun none => ?_⟩
      rw [none] at corners
      cases corners
    · have way := Location.way_of_fromFrameCenter? thins filled finite positive frames
      exact ⟨way.isValid, fun _ => way⟩
  case unlimited =>
    intro none attributes
    constructor
    · intro rule
      rw [Derivation.derive, FrameCenter.derive?, FrameCenter.deriveWith?, none]
      rfl
    · intro rule
      rw [Derivation.derive, Location.derive?, Location.deriveWith?, none]
      rfl
  case spread =>
    intro count positive collector member isPlaces
    have orderly := filled.orderly collector member
    exact ⟨Collected.map_some_values orderly isPlaces count, spread_subsampleIndices positive⟩
  case scalars => exact fun count collector _ scalar => Collected.values_of_scalar scalar count

namespace Sample

def center (latitude longitude : Float) : Fields :=
  [(FieldName.frameCenterLatitude, .float latitude),
    (FieldName.frameCenterLongitude, .float longitude)]

/-- Three frame centres, of which two are kept. -/
def pass : List Fields := [center 47 8, center 47.5 8.25, center 48 9]

def twoSamples : Settings := [(Settings.subsampleKey, "2")]

end Sample

/-- The line goes through two of the three frame centres. -/
theorem sample_within_detail :
    Methods.standard.simplifier.Thins ∧
    (Window.uasDatalink.collect Sample.pass).collectors.Filled ∧
    (Window.uasDatalink.collect Sample.pass).collectors.Finite ∧
    ∃ line, FrameCenter.standard.deriveWith? .standard
        (Window.uasDatalink.collect Sample.pass).collectors Sample.twoSamples = some line ∧
      line.Way 2 ∧ line.isValid = true := by
  have filled : (Window.uasDatalink.collect Sample.pass).collectors.Filled :=
    Window.filled_collect (.fresh CollectorSet.fresh_uasDatalink) Sample.pass
  have finite : (Window.uasDatalink.collect Sample.pass).collectors.Finite := by
    unfold CollectorSet.Finite
    decide +kernel
  have limit : sampleLimit? Sample.twoSamples = some 2 := by decide +kernel
  have detailed := geometry_within_detail .standard Simplifier.standard_thins filled finite
    Sample.twoSamples
  have there := (detailed.written 2 limit .standard).mpr
    ⟨by decide +kernel, List.ne_nil_of_length_pos (by decide +kernel)⟩
  obtain ⟨line, given⟩ := Option.isSome_iff_exists.mp there
  exact ⟨Simplifier.standard_thins, filled, finite, line, given,
    detailed.frameCenter 2 limit .standard line given⟩

end MotionImagery.Summary
