import MotionImagery.Summary.Collector

/-!
Collectors by the fields that they serve. A collector may serve several fields.
-/
namespace MotionImagery.Summary
open Telemetry

structure CollectorSet where
  collectors : List Collector
  /-- The place of the collector that serves a field. -/
  serving : Keyed String Nat

namespace CollectorSet

def empty : CollectorSet := ⟨[], []⟩

/-- Adds a collector; a field that was served by another is now served by this one. -/
def add (fields : List String) (collector : Collector) (set : CollectorSet) : CollectorSet :=
  ⟨set.collectors ++ [collector],
    fields.foldl (fun serving field => Keyed.put field set.collectors.length serving) set.serving⟩

def index? (field : String) (set : CollectorSet) : Option Nat := Keyed.find? field set.serving

def find? (field : String) (set : CollectorSet) : Option Collector :=
  (set.index? field).bind fun index => set.collectors[index]?

def serves (field : String) (set : CollectorSet) : Bool := Keyed.contains field set.serving

/-- Whether one collector serves all the fields. -/
def share (fields : List String) (set : CollectorSet) : Bool :=
  match fields with
  | [] => false
  | first :: rest =>
    match set.index? first with
    | none => false
    | some index => rest.all fun field => set.index? field == some index

/-- Changes the collector that serves a field, if there is one. -/
def modify (field : String) (change : Collector → Collector) (set : CollectorSet) :
    CollectorSet :=
  match set.index? field with
  | none => set
  | some index => { set with collectors := set.collectors.modify index change }

def accept (field : String) (value : Value) (set : CollectorSet) : CollectorSet :=
  set.modify field (Collector.accept field value)

mutual

/-- Takes in a value; a nested set is taken in field by field. -/
def acceptValue (field : String) : Value → CollectorSet → CollectorSet
  | .set fields, set => acceptFields fields set
  | value, set => set.accept field value

def acceptFields : List (String × Value) → CollectorSet → CollectorSet
  | [], set => set
  | (field, value) :: rest, set => acceptFields rest (acceptValue field value set)

end

def reset (set : CollectorSet) : CollectorSet :=
  { set with collectors := set.collectors.map Collector.reset }

/-- What the collector of a field gathered, with at most `count` places. -/
def thinned (count : Nat) (field : String) (set : CollectorSet) : List AttributeValue :=
  (set.find? field).elim [] (Collector.thinned count)

def values (field : String) (set : CollectorSet) : List AttributeValue := set.thinned 0 field

/-- The offsets of the corners in a unit, if it has all of them. -/
def offsets? (fields : Fields) : Option (List Float) :=
  FieldName.offsetCorners.mapM fun field => (Keyed.find? field fields).bind Value.float?

/-- Adds the corners that a unit gives by its frame centre and their offsets from it, as one more
sample. It takes a frame centre, all offsets, and a collector for every corner. -/
def deriveCorners (fields : Fields) (set : CollectorSet) : CollectorSet :=
  let measure := fun field => (Keyed.find? field fields).bind Value.float?
  if FieldName.corners.all set.serves then
    match measure FieldName.frameCenterLatitude, measure FieldName.frameCenterLongitude,
        offsets? fields with
    | some latitude, some longitude, some offsets =>
      ((FieldName.corners.zip offsets).zipIdx).foldl (fun set ((field, offset), index) =>
        let center := if index % 2 = 0 then latitude else longitude
        set.modify field fun collector =>
          if collector.collected.isCorners then collector.acceptSample field (offset + center)
          else collector) set
    | _, _, _ => set
  else set

/-- The collectors of unmanned air system telemetry. -/
def uasDatalink : CollectorSet :=
  let list := fun (field name : String) => ([field], Collector.list name)
  let positions := fun (latitude longitude name : String) =>
    ([latitude, longitude], Collector.positions name latitude longitude)
  [
    list FieldName.missionId AttributeName.missionId,
    list FieldName.platformTailNumber AttributeName.platformId,
    list FieldName.platformDesignation AttributeName.platformName,
    list FieldName.platformCallSign AttributeName.platformCallSign,
    list FieldName.operationalMode AttributeName.operationalMode,
    list FieldName.imageSourceSensor AttributeName.sensorId,
    list FieldName.checksum AttributeName.checksum,
    list FieldName.targetWidth AttributeName.targetWidth,
    list FieldName.frameCenterElevation AttributeName.frameCenterElevation,
    list FieldName.sensorTrueAltitude AttributeName.altitude,
    list FieldName.groundRange AttributeName.groundRange,
    list FieldName.slantRange AttributeName.slantRange,
    list FieldName.targetLocationElevation AttributeName.targetLocationElevation,
    list FieldName.securityClassification AttributeName.securityClassificationCode,
    list FieldName.classifyingCountryCodingMethod AttributeName.classifyingCountryCodingMethod,
    list FieldName.objectCountryCodingMethod AttributeName.objectCountryCodingMethod,
    list FieldName.sciShiInformation AttributeName.codewords,
    list FieldName.caveats AttributeName.disseminationControls,
    list FieldName.releasingInstructions AttributeName.releasability,
    ([FieldName.classifyingCountry], .distinct AttributeName.classificationSystem),
    ([FieldName.imageCoordinateSystem], .distinct AttributeName.crsName),
    ([FieldName.objectCountryCodes], .latest AttributeName.countryCode),
    ([FieldName.timestamp], .dates AttributeName.timestamp),
    ([FieldName.eventStartTime], .dates AttributeName.eventStartTime),
    (FieldName.corners, .corners AttributeName.corner FieldName.corners),
    (FieldName.offsetCorners, .corners AttributeName.offsetCorner FieldName.offsetCorners),
    positions FieldName.frameCenterLatitude FieldName.frameCenterLongitude
      AttributeName.frameCenter,
    positions FieldName.targetLocationLatitude FieldName.targetLocationLongitude
      AttributeName.targetLocation,
    positions FieldName.sensorLatitude FieldName.sensorLongitude AttributeName.sensor
  ].foldl (fun set (fields, collector) => set.add fields collector) empty

end CollectorSet

end MotionImagery.Summary
