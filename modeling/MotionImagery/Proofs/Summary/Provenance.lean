import MotionImagery.Proofs.Summary.Gathering
import MotionImagery.Telemetry.Unit

/-!
Which units the places of a window come from. A collector of places pairs the samples of its fields
by their index in the window. They are of one unit as long as every unit gives the fields in step;
a unit that gives only some of them shifts the others for the rest of the window.
-/
namespace MotionImagery.Summary
open Telemetry

/-- The measures of a field that a unit gives, in order. -/
def readings (field : String) (unit : Fields) : List Float := Delivery.of field (measures unit)

/-- The latitudes and longitudes that are collected to positions. -/
def positionFields : List (String × String) :=
  [(FieldName.frameCenterLatitude, FieldName.frameCenterLongitude),
    (FieldName.targetLocationLatitude, FieldName.targetLocationLongitude),
    (FieldName.sensorLatitude, FieldName.sensorLongitude)]

/-- The corners that are collected to polygons. -/
def cornerFields : List (List String) := [FieldName.corners, FieldName.offsetCorners]

variable {unit : Fields} {field : String} {delivery : Delivery} {index : Nat}

theorem of_derived (other : field ∉ FieldName.corners) (unit : Fields) :
    Delivery.of field (derived unit) = [] := by
  refine Delivery.of_eq_nil fun entry member same => ?_
  exact other (same ▸ mem_corners_of_mem_derived member)

theorem of_delivered (other : field ∉ FieldName.corners) (unit : Fields) :
    Delivery.of field (delivered unit) = readings field unit := by
  rw [delivered, Delivery.of_append, of_derived other, List.append_nil, readings]

theorem of_flatMap (field : String) (deliver : Fields → Delivery) (units : List Fields) :
    Delivery.of field (units.flatMap deliver) =
      units.flatMap fun unit => Delivery.of field (deliver unit) := by
  rw [List.flatMap_def, Delivery.of_flatten, List.flatMap_map]

theorem length_derivedCorners {sample : List Float} (given : derivedCorners? unit = some sample) :
    sample.length = FieldName.corners.length := by
  obtain ⟨latitude, _, given⟩ := Option.bind_eq_some_iff.mp given
  obtain ⟨longitude, _, given⟩ := Option.bind_eq_some_iff.mp given
  obtain ⟨offsets, found, given⟩ := Option.bind_eq_some_iff.mp given
  have size : offsets.length = 8 := length_of_mapM found
  cases given
  rw [List.length_zipWith, size]
  rfl

/-- Samples under names of their own are the samples of the names. -/
theorem map_of_zip {names : List String} {sample : List Float} (distinct : names.Nodup)
    (size : sample.length = names.length) :
    names.map (fun name => Delivery.of name (names.zip sample)) = sample.map fun value => [value] := by
  induction names generalizing sample with
  | nil =>
    rw [List.length_eq_zero_iff.mp size]
    rfl
  | cons name rest ih =>
    match sample, size with
    | value :: others, size =>
      obtain ⟨fresh, distinct⟩ := List.nodup_cons.mp distinct
      have first : Delivery.of name (rest.zip others) = [] := by
        refine Delivery.of_eq_nil fun entry member same => ?_
        exact fresh (same ▸ (List.of_mem_zip member).1)
      have later : ∀ other ∈ rest, Delivery.of other ((name, value) :: rest.zip others) =
          Delivery.of other (rest.zip others) := by
        intro other member
        have differ : name ≠ other := fun same => fresh (same ▸ member)
        exact Delivery.of_cons_ne differ value _
      rw [List.zip_cons_cons, List.map_cons, List.map_congr_left later,
        ih distinct (by simpa using size), Delivery.of_cons_self, first, List.map_cons]

theorem nodup_corners : FieldName.corners.Nodup := by decide +kernel

/-- Derived corners are all there or none. -/
theorem of_derived_corners {sample : List Float} (given : derivedCorners? unit = some sample) :
    FieldName.corners.map (fun field => Delivery.of field (derived unit)) =
      sample.map fun value => [value] := by
  rw [derived, given]
  exact map_of_zip nodup_corners (length_derivedCorners given)

theorem length_of_derived {sample : List Float} (given : derivedCorners? unit = some sample)
    (corner : field ∈ FieldName.corners) : (Delivery.of field (derived unit)).length = 1 := by
  have column : Delivery.of field (derived unit) ∈
      FieldName.corners.map fun field => Delivery.of field (derived unit) :=
    List.mem_map_of_mem corner
  rw [of_derived_corners given] at column
  obtain ⟨value, _, same⟩ := List.mem_map.mp column
  rw [← same]
  rfl

theorem inStep_derived_corners (unit : Fields) :
    (derived unit).InStep FieldName.corners := by
  cases given : derivedCorners? unit with
  | none =>
    intro field _ other _
    rw [derived, given]
    rfl
  | some sample =>
    intro field corner other corner'
    rw [length_of_derived given corner, length_of_derived given corner']

theorem inStep_derived_of_disjoint {fields : List String}
    (disjoint : ∀ field ∈ fields, field ∉ FieldName.corners) (unit : Fields) :
    (derived unit).InStep fields := by
  intro field member other member'
  rw [of_derived (disjoint field member), of_derived (disjoint other member')]

theorem not_complete_derived {fields : List String}
    (disjoint : ∀ field ∈ fields, field ∉ FieldName.corners) (unit : Fields) :
    ¬ index < Track.complete (Track.holding fields (derived unit)) := by
  intro inside
  obtain ⟨nonempty, given⟩ := Track.lt_complete_holding.mp inside
  obtain ⟨field, isField⟩ := List.exists_mem_of_ne_nil _ nonempty
  have none := given field isField
  rw [of_derived (disjoint field isField)] at none
  exact Nat.not_lt_zero index none

/-- The sample that the derived corners are. -/
theorem sampleAt_derived (inside : index < Track.complete (Track.holding FieldName.corners
      (derived unit))) :
    derivedCorners? unit =
      some (Track.sampleAt index (Track.holding FieldName.corners (derived unit))) := by
  have each := (Track.lt_complete_holding.mp inside).2
  have values := Track.map_some_sampleAt inside
  cases given : derivedCorners? unit with
  | none =>
    have none := each FieldName.cornerLatitude1 List.mem_cons_self
    rw [derived, given] at none
    exact absurd none (Nat.not_lt_zero index)
  | some sample =>
    have columns := of_derived_corners given
    have among := each FieldName.cornerLatitude1 List.mem_cons_self
    rw [length_of_derived given List.mem_cons_self, Nat.lt_one_iff] at among
    subst among
    have heads : FieldName.corners.map (fun field => (Delivery.of field (derived unit))[0]?) =
        sample.map some := by
      have heads := congrArg (List.map fun column : List Float => column[0]?) columns
      rw [List.map_map, List.map_map] at heads
      exact heads
    have same : sample.map some =
        (Track.sampleAt 0 (Track.holding FieldName.corners (derived unit))).map some :=
      heads.symm.trans values.symm
    rw [(List.map_inj_right fun _ _ => Option.some.inj).mp same]

/-- Where the samples of a window come from when the units give the fields in step: from the measures
of one unit, or from the corners that one unit derives. -/
theorem exists_source {fields : List String} {units : List Fields}
    (derives : ∀ unit, (derived unit).InStep fields)
    (inStep : ∀ unit ∈ units, (measures unit).InStep fields)
    (inside : index < Track.complete (Track.holding fields (units.flatMap delivered))) :
    ∃ unit ∈ units, ∃ part, (part = measures unit ∨ part = derived unit) ∧
      ∃ place < Track.complete (Track.holding fields part),
        Track.sampleAt index (Track.holding fields (units.flatMap delivered)) =
          Track.sampleAt place (Track.holding fields part) := by
  -- A unit is two parts, its measures and its derived corners; each of them is in step.
  have parts : units.flatMap delivered =
      (units.flatMap fun unit => [measures unit, derived unit]).flatten := by
    clear inStep inside
    induction units with
    | nil => rfl
    | cons unit rest ih =>
      rw [List.flatMap_cons, List.flatMap_cons, List.flatten_append, ← ih]
      simp [delivered]
  rw [parts] at inside ⊢
  have each : ∀ part ∈ units.flatMap fun unit => [measures unit, derived unit],
      part.InStep fields := by
    intro part member
    obtain ⟨unit, isUnit, among⟩ := List.mem_flatMap.mp member
    obtain rfl | rfl : part = measures unit ∨ part = derived unit := by simpa using among
    · exact inStep unit isUnit
    · exact derives unit
  obtain ⟨part, member, source⟩ := Track.exists_part each inside
  obtain ⟨unit, isUnit, among⟩ := List.mem_flatMap.mp member
  exact ⟨unit, isUnit, part, by simpa using among, source⟩

namespace CollectorSet.Gathered
variable {set : CollectorSet} {collector : Collector} {tracks : List Track}

theorem exists_place (gathered : Gathered delivery set) (member : collector ∈ set.collectors) :
    ∃ place ∈ uasDatalink.places, collector.collected.places = place.holding delivery := by
  have held : collector.collected.places ∈ uasDatalink.places.map (Collected.holding delivery) := by
    rw [← gathered.places]
    exact List.mem_map_of_mem member
  obtain ⟨place, known, same⟩ := List.mem_map.mp held
  exact ⟨place, known, same.symm⟩

theorem positions (gathered : Gathered delivery set) (member : collector ∈ set.collectors)
    (kind : collector.collected = .positions tracks) :
    ∃ pair ∈ positionFields, tracks = Track.holding [pair.1, pair.2] delivery := by
  have all : ∀ place ∈ uasDatalink.places, place.isPositions = true →
      ∃ pair ∈ positionFields, place.tracks.map Track.field = [pair.1, pair.2] := by
    decide +kernel
  obtain ⟨place, known, held⟩ := gathered.exists_place member
  rw [kind] at held
  cases place with
  | positions empty =>
    obtain ⟨pair, isPair, fields⟩ := all _ known rfl
    cases held
    exact ⟨pair, isPair, congrArg (Track.holding · delivery) fields⟩
  | _ => cases held

/-- The collector that serves a latitude. -/
theorem find? {pair : String × String} (gathered : Gathered delivery set)
    (known : pair ∈ positionFields) :
    ∃ collector ∈ set.collectors, set.find? pair.1 = some collector ∧
      collector.collected = .positions (Track.holding [pair.1, pair.2] delivery) := by
  have all : ∀ pair ∈ positionFields, ∃ index ∈ List.range uasDatalink.places.length,
      uasDatalink.index? pair.1 = some index ∧
      (uasDatalink.places[index]?).map
        (fun place => (place.isPositions, place.tracks.map Track.field)) =
          some (true, [pair.1, pair.2]) := by
    decide +kernel
  obtain ⟨index, _, served, standing⟩ := all pair known
  obtain ⟨place, there, shape⟩ := Option.map_eq_some_iff.mp standing
  obtain ⟨isPositions, fields⟩ := Prod.mk.inj shape
  have before := gathered.getElem?_places index
  rw [there, Option.map_some, Option.map_eq_some_iff] at before
  obtain ⟨collector, found, held⟩ := before
  refine ⟨collector, List.mem_of_getElem? found, ?_, ?_⟩
  · rw [CollectorSet.find?, gathered.index?, served, Option.bind_some, found]
  · cases place with
    | positions empty => rw [Collected.eq_positions held, ← fields]; rfl
    | _ => cases isPositions

theorem corners (gathered : Gathered delivery set) (member : collector ∈ set.collectors)
    (kind : collector.collected = .corners tracks) :
    ∃ fields ∈ cornerFields, tracks = Track.holding fields delivery := by
  have all : ∀ place ∈ uasDatalink.places, place.isCorners = true →
      ∃ fields ∈ cornerFields, place.tracks.map Track.field = fields := by
    decide +kernel
  obtain ⟨place, known, held⟩ := gathered.exists_place member
  rw [kind] at held
  cases place with
  | corners empty =>
    obtain ⟨fields, isCorners, same⟩ := all _ known rfl
    cases held
    exact ⟨fields, isCorners, congrArg (Track.holding · delivery) same⟩
  | _ => cases held

end CollectorSet.Gathered

theorem not_corner {pair : String × String} (known : pair ∈ positionFields) :
    ∀ field ∈ [pair.1, pair.2], field ∉ FieldName.corners := by
  have all : ∀ pair ∈ positionFields, ∀ field ∈ [pair.1, pair.2], field ∉ FieldName.corners := by
    decide +kernel
  exact all pair known

/-- A point whose latitude and longitude one unit gives. -/
def IsPointOf (latitude longitude : String) (unit : Fields) (value : AttributeValue) : Prop :=
  ∃ (place : Nat) (y x : Float), (readings latitude unit)[place]? = some y ∧
    (readings longitude unit)[place]? = some x ∧ value = .geometry (.point ⟨x, y⟩)

/-- A polygon whose coordinates one unit gives, either as they are or by its frame centre and the
offsets from it. -/
def IsPolygonOf (fields : List String) (unit : Fields) (value : AttributeValue) : Prop :=
  ∃ sample, value = .geometry (.polygon (Collected.cornerPolygon sample)) ∧
    ((∃ place : Nat, fields.map (fun field => (readings field unit)[place]?) = sample.map some) ∨
      fields = FieldName.corners ∧ derivedCorners? unit = some sample)

theorem isPointOf_of_mem {latitude longitude : String} {units : List Fields} {count : Nat}
    {value : AttributeValue}
    (apart : ∀ field ∈ [latitude, longitude], field ∉ FieldName.corners)
    (inStep : ∀ unit ∈ units, (measures unit).InStep [latitude, longitude])
    (member : value ∈ (Collected.positions
      (Track.holding [latitude, longitude] (units.flatMap delivered))).values count) :
    ∃ unit ∈ units, IsPointOf latitude longitude unit value := by
  obtain ⟨sample, kept, isPoint⟩ := List.mem_flatMap.mp member
  obtain ⟨index, inside, rfl⟩ := Track.exists_of_mem_thinned kept
  obtain ⟨unit, isUnit, part, source, place, placed, same⟩ :=
    exists_source (inStep_derived_of_disjoint apart) inStep inside
  have own : part = measures unit := by
    refine source.resolve_right ?_
    rintro rfl
    exact not_complete_derived apart unit placed
  subst own
  have columns := Track.map_some_sampleAt placed
  rw [same] at isPoint
  obtain ⟨y, tail, split, first, rest⟩ := List.map_eq_cons_iff.mp columns
  obtain ⟨x, none, rfl, second, last⟩ := List.map_eq_cons_iff.mp rest
  rw [split, List.map_eq_nil_iff.mp last] at isPoint
  exact ⟨unit, isUnit, place, y, x, first.symm, second.symm, by simpa [coordsOf] using isPoint⟩

theorem isPolygonOf_of_mem {fields : List String} {units : List Fields} {count : Nat}
    {value : AttributeValue} (known : fields ∈ cornerFields)
    (inStep : ∀ unit ∈ units, (measures unit).InStep fields)
    (member : value ∈ (Collected.corners
      (Track.holding fields (units.flatMap delivered))).values count) :
    ∃ unit ∈ units, IsPolygonOf fields unit value := by
  obtain ⟨sample, kept, rfl⟩ := List.mem_map.mp member
  obtain ⟨index, inside, rfl⟩ := Track.exists_of_mem_thinned kept
  have apart : fields = FieldName.corners ∨ ∀ field ∈ fields, field ∉ FieldName.corners := by
    have all : ∀ fields ∈ cornerFields,
        fields = FieldName.corners ∨ ∀ field ∈ fields, field ∉ FieldName.corners := by
      decide +kernel
    exact all fields known
  have derives : ∀ unit, (derived unit).InStep fields := by
    obtain rfl | disjoint := apart
    · exact inStep_derived_corners
    · exact inStep_derived_of_disjoint disjoint
  obtain ⟨unit, isUnit, part, source, place, placed, same⟩ := exists_source derives inStep inside
  refine ⟨unit, isUnit, _, rfl, ?_⟩
  rw [same]
  obtain rfl | rfl := source
  · exact .inl ⟨place, (Track.map_some_sampleAt placed).symm⟩
  · obtain rfl | disjoint := apart
    · exact .inr ⟨rfl, sampleAt_derived placed⟩
    · exact absurd placed (not_complete_derived disjoint unit)

/-- What a collector of positions makes of the units of a window. -/
structure GivesPoints (units : List Fields) (latitude longitude : String) (collector : Collector) :
    Prop where
  /-- It holds the latitudes and the longitudes of all units, each in order, and pairs them by their
  index. -/
  pooled : collector.collected = .positions
    [⟨latitude, units.flatMap (readings latitude)⟩, ⟨longitude, units.flatMap (readings longitude)⟩]
  /-- As long as the units give both in step, every point is of one unit. -/
  whole : (∀ unit ∈ units, (measures unit).InStep [latitude, longitude]) →
    ∀ count, ∀ value ∈ collector.thinned count, ∃ unit ∈ units,
      IsPointOf latitude longitude unit value
  /-- Behind units that were in step the next latitude is paired with the next longitude, of
  whichever units they are. -/
  next : ∀ before after, units = before ++ after →
    Delivery.InStep [latitude, longitude] (before.flatMap delivered) →
    ∀ y x, (after.flatMap (readings latitude)).head? = some y →
      (after.flatMap (readings longitude)).head? = some x →
      .geometry (.point ⟨x, y⟩) ∈ collector.values

/-- What a collector of corners makes of the units of a window. -/
structure GivesPolygons (units : List Fields) (fields : List String) (collector : Collector) :
    Prop where
  pooled : collector.collected = .corners (fields.map fun field =>
    ⟨field, units.flatMap fun unit => Delivery.of field (delivered unit)⟩)
  whole : (∀ unit ∈ units, (measures unit).InStep fields) →
    ∀ count, ∀ value ∈ collector.thinned count, ∃ unit ∈ units, IsPolygonOf fields unit value
  next : ∀ before after, units = before ++ after →
    Delivery.InStep fields (before.flatMap delivered) → ∀ sample : List Float,
      fields.map (fun field => (Delivery.of field (after.flatMap delivered)).head?) =
        sample.map some →
      .geometry (.polygon (Collected.cornerPolygon sample)) ∈ collector.values

theorem givesPoints {collector : Collector} {pair : String × String} {units : List Fields}
    (known : pair ∈ positionFields)
    (held : collector.collected =
      .positions (Track.holding [pair.1, pair.2] (units.flatMap delivered))) :
    GivesPoints units pair.1 pair.2 collector := by
  have apart := not_corner known
  have columns : ∀ units : List Fields, ∀ field ∈ [pair.1, pair.2],
      Delivery.of field (units.flatMap delivered) = units.flatMap (readings field) := by
    intro units field isField
    rw [of_flatMap]
    exact List.flatMap_congr fun unit _ => of_delivered (apart field isField) unit
  refine ⟨?_, fun inStep count value kept => ?_, ?_⟩
  · rw [held, Track.holding, List.map_cons, List.map_cons, List.map_nil,
      columns units pair.1 (by simp), columns units pair.2 (by simp)]
  · rw [Collector.thinned, held] at kept
    exact isPointOf_of_mem apart inStep kept
  · rintro before after rfl inStep y x first second
    have next : [pair.1, pair.2].map
        (fun field => (Delivery.of field (after.flatMap delivered)).head?) = [y, x].map some := by
      rw [← columns after pair.1 (by simp)] at first
      rw [← columns after pair.2 (by simp)] at second
      rw [List.map_cons, List.map_cons, List.map_nil, first, second]
      rfl
    have sample := Track.next_mem_samples (List.cons_ne_nil _ _) inStep next
    rw [Collector.values, Collector.thinned, held, List.flatMap_append]
    exact List.mem_flatMap.mpr ⟨[y, x], sample, List.mem_singleton_self _⟩

theorem givesPolygons {collector : Collector} {fields : List String} {units : List Fields}
    (known : fields ∈ cornerFields)
    (held : collector.collected = .corners (Track.holding fields (units.flatMap delivered))) :
    GivesPolygons units fields collector := by
  refine ⟨?_, fun inStep count value kept => ?_, ?_⟩
  · rw [held, Track.holding]
    simp only [of_flatMap]
  · rw [Collector.thinned, held] at kept
    exact isPolygonOf_of_mem known inStep kept
  · rintro before after rfl inStep sample next
    have nonempty : ∀ fields ∈ cornerFields, fields ≠ [] := by decide
    have sample := Track.next_mem_samples (nonempty fields known) inStep next
    rw [Collector.values, Collector.thinned, held, List.flatMap_append]
    exact List.mem_map_of_mem sample

/-- **Places are paired by their index in the window.** Collectors of positions and of corners hold
the measures of each field, of all units in order. While every unit gives the fields in step, each
point and each polygon is of one unit; behind the first unit that does not, they are mixed. -/
theorem places_of_units {window : Window} (began : window.Began) (units : List Fields) :
    ∀ collector ∈ (window.collect units).collectors.collectors,
      (collector.collected.isPositions = true →
        ∃ pair ∈ positionFields, GivesPoints units pair.1 pair.2 collector) ∧
      (collector.collected.isCorners = true →
        ∃ fields ∈ cornerFields, GivesPolygons units fields collector) := by
  intro collector member
  have gathered := (began.collect units).gathered
  constructor
  · intro isPositions
    cases kind : collector.collected with
    | positions tracks =>
      obtain ⟨pair, known, rfl⟩ := gathered.positions member kind
      exact ⟨pair, known, givesPoints known kind⟩
    | _ =>
      rw [kind] at isPositions
      cases isPositions
  · intro isCorners
    cases kind : collector.collected with
    | corners tracks =>
      obtain ⟨fields, known, rfl⟩ := gathered.corners member kind
      exact ⟨fields, known, givesPolygons known kind⟩
    | _ =>
      rw [kind] at isCorners
      cases isCorners

namespace Sample

/-- The fields of a unit, none if it is not decoded. -/
def fieldsOf (pes : Bytes) : Fields :=
  match TelemetryUnit.decode Context.uasDatalink pes with
  | .ok (some unit) => unit.fields
  | _ => []

/-- The sensor at latitude 90; its longitude is out of range. -/
def loneLatitude : Bytes := [
  0x00, 0x00, 0x01, 0xbd, 0x00, 0x24, 0x85, 0x00, 0x00,
  0x06, 0x0e, 0x2b, 0x34, 0x02, 0x0b, 0x01, 0x01, 0x0e, 0x01, 0x03, 0x01, 0x01, 0x00, 0x00, 0x00,
  0x10, 0x0d, 0x04, 0x7f, 0xff, 0xff, 0xff, 0x0e, 0x04, 0x80, 0x00, 0x00, 0x00,
  0x01, 0x02, 0x60, 0x6a]

/-- The sensor at latitude -90 and longitude 180. -/
def bothCoordinates : Bytes := [
  0x00, 0x00, 0x01, 0xbd, 0x00, 0x24, 0x85, 0x00, 0x00,
  0x06, 0x0e, 0x2b, 0x34, 0x02, 0x0b, 0x01, 0x01, 0x0e, 0x01, 0x03, 0x01, 0x01, 0x00, 0x00, 0x00,
  0x10, 0x0d, 0x04, 0x80, 0x00, 0x00, 0x01, 0x0e, 0x04, 0x7f, 0xff, 0xff, 0xff,
  0x01, 0x02, 0x61, 0x6a]

def units : List Fields := [fieldsOf loneLatitude, fieldsOf bothCoordinates]

/-- A unit with both coordinates, and one with neither. -/
def unitsInStep : List Fields :=
  [fieldsOf bothCoordinates, [(FieldName.checksum, .unsigned 0x616a)]]

theorem sensor_known :
    (FieldName.sensorLatitude, FieldName.sensorLongitude) ∈ positionFields := by
  decide +kernel

end Sample

/-- The point of the sensor is that of the unit with both coordinates. -/
theorem sample_places :
    Window.Began .uasDatalink ∧
    ∀ value ∈ (Window.uasDatalink.collect Sample.unitsInStep).collectors.values
        FieldName.sensorLatitude,
      ∃ unit ∈ Sample.unitsInStep,
        IsPointOf FieldName.sensorLatitude FieldName.sensorLongitude unit value := by
  refine ⟨.first, fun value kept => ?_⟩
  obtain ⟨collector, member, found, held⟩ :=
    (Window.Began.first.collect Sample.unitsInStep).gathered.find? Sample.sensor_known
  rw [CollectorSet.values, CollectorSet.thinned, found] at kept
  have isPositions : collector.collected.isPositions = true := by
    rw [held]
    rfl
  obtain ⟨⟨latitude, longitude⟩, _, points⟩ :=
    (places_of_units .first Sample.unitsInStep collector member).1 isPositions
  obtain ⟨rfl, rfl⟩ : latitude = FieldName.sensorLatitude ∧
      longitude = FieldName.sensorLongitude := by
    have same := points.pooled.symm.trans held
    simp only [Track.holding, List.map_cons, Collected.positions.injEq, List.cons.injEq,
      Track.mk.injEq] at same
    exact ⟨same.1.1, same.2.1.1⟩
  exact points.whole (by decide +kernel) 0 value kept

/-- The latitude of the first unit is paired with the longitude of the second. -/
theorem latitude_of_other_unit :
    ∃ value ∈ (Window.uasDatalink.collect Sample.units).collectors.values FieldName.sensorLatitude,
      ¬ ∃ unit ∈ Sample.units, ∃ y ∈ readings FieldName.sensorLatitude unit,
        ∃ x ∈ readings FieldName.sensorLongitude unit, value = .geometry (.point ⟨x, y⟩) := by
  obtain ⟨collector, _, found, held⟩ :=
    (Window.Began.first.collect Sample.units).gathered.find? Sample.sensor_known
  have mixed : .geometry (.point ⟨180, 90⟩) ∈ collector.values :=
    (givesPoints Sample.sensor_known held).next [] Sample.units rfl (fun _ _ _ _ => rfl) 90 180
      (by decide +kernel) (by decide +kernel)
  refine ⟨.geometry (.point ⟨180, 90⟩), ?_, ?_⟩
  · rw [CollectorSet.values, CollectorSet.thinned, found]
    exact mixed
  · rintro ⟨unit, isUnit, y, isLatitude, x, isLongitude, same⟩
    cases same
    have first : readings FieldName.sensorLongitude (Sample.fieldsOf Sample.loneLatitude) = [] := by
      decide +kernel
    have second : readings FieldName.sensorLatitude (Sample.fieldsOf Sample.bothCoordinates) =
        [-90] := by
      decide +kernel
    obtain rfl | rfl : unit = Sample.fieldsOf Sample.loneLatitude ∨
        unit = Sample.fieldsOf Sample.bothCoordinates := by
      simpa [Sample.units] using isUnit
    · rw [first] at isLongitude
      cases isLongitude
    · rw [second, List.mem_singleton] at isLatitude
      exact absurd isLatitude (by decide +kernel)

end MotionImagery.Summary
