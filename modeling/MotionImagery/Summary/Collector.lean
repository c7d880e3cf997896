import MotionImagery.Attribute.Map
import MotionImagery.Attribute.Name
import MotionImagery.Geometry.Subsample
import MotionImagery.Telemetry.FieldName

/-!
Collectors gather the values of one or more fields into one attribute. Measures of places are
gathered in tracks, one for each field; the samples at one index of all tracks belong together.
-/
namespace MotionImagery.Summary
open Telemetry

/-- The samples of one field. -/
structure Track where
  field : String
  samples : List Float

namespace Track

def new (field : String) : Track := ⟨field, []⟩

/-- Adds a sample to the first track of the field. -/
def add (field : String) (sample : Float) : List Track → List Track
  | [] => []
  | track :: rest =>
    if track.field = field then { track with samples := track.samples ++ [sample] } :: rest
    else track :: add field sample rest

/-- How many samples every track has. -/
def complete : List Track → Nat
  | [] => 0
  | [track] => track.samples.length
  | track :: rest => min track.samples.length (complete rest)

/-- The samples at an index, in the order of the tracks. -/
def sampleAt (index : Nat) (tracks : List Track) : List Float :=
  tracks.filterMap fun track => track.samples[index]?

/-- The complete samples, thinned out to at most `count`. -/
def thinned (count : Nat) (tracks : List Track) : List (List Float) :=
  (subsampleIndices (complete tracks) count).map fun index => sampleAt index tracks

end Track

/-- Coordinates of latitudes and longitudes in turn; a longitude is an `x`. -/
def coordsOf : List Float → List Coord
  | latitude :: longitude :: rest => ⟨longitude, latitude⟩ :: coordsOf rest
  | _ => []

inductive Collected where
  /-- Every value. -/
  | list (values : List AttributeValue)
  /-- The value seen last. -/
  | latest (value : Option AttributeValue)
  /-- Every value once, where it was first seen. -/
  | distinct (values : List AttributeValue)
  /-- Microseconds since the epoch as dates. -/
  | dates (instants : List Time.Instant)
  /-- Four corners, latitude and longitude of each in turn. -/
  | corners (tracks : List Track)
  /-- A latitude and a longitude. -/
  | positions (tracks : List Track)

namespace Collected

/-- A value that is not there yet goes to the end. -/
def addNew (values : List AttributeValue) (value : AttributeValue) : List AttributeValue :=
  if values.contains value then values else values ++ [value]

/-- Takes in the value of a field. Values of the wrong kind are passed over. -/
def accept (field : String) (value : Value) : Collected → Collected
  | list values => list (values ++ (AttributeValue.ofTelemetry? value).toList)
  | latest before => latest ((AttributeValue.ofTelemetry? value).or before)
  | distinct values => distinct ((AttributeValue.ofTelemetry? value).elim values (addNew values))
  | dates instants =>
    dates (instants ++ ((value.unsigned?.bind fun micros =>
      Time.Instant.ofMicros? (AttributeValue.wrap micros)).toList))
  | corners tracks => corners (value.float?.elim tracks fun sample => Track.add field sample tracks)
  | positions tracks =>
    positions (value.float?.elim tracks fun sample => Track.add field sample tracks)

/-- Takes in a measure; only tracks do. -/
def acceptSample (field : String) (sample : Float) : Collected → Collected
  | corners tracks => corners (Track.add field sample tracks)
  | positions tracks => positions (Track.add field sample tracks)
  | other => other

def reset : Collected → Collected
  | list _ => list []
  | latest _ => latest none
  | distinct _ => distinct []
  | dates _ => dates []
  | corners tracks => corners (tracks.map fun track => .new track.field)
  | positions tracks => positions (tracks.map fun track => .new track.field)

/-- The closed ring through the corners. -/
def cornerPolygon (sample : List Float) : Polygon :=
  let corners := coordsOf sample
  .ofRings (corners ++ corners.take 1) []

/-- What was gathered; of places at most `count`, or all for a count of zero. -/
def values (count : Nat) : Collected → List AttributeValue
  | list values => values
  | latest value => value.toList
  | distinct values => values
  | dates instants => instants.map .date
  | corners tracks =>
    (Track.thinned count tracks).map fun sample => .geometry (.polygon (cornerPolygon sample))
  | positions tracks =>
    (Track.thinned count tracks).flatMap fun sample =>
      (coordsOf sample).map fun position => .geometry (.point position)

def isCorners : Collected → Bool
  | corners _ => true
  | _ => false

def isPositions : Collected → Bool
  | positions _ => true
  | _ => false

end Collected

/-- What is gathered, and the attribute that it goes under. -/
structure Collector where
  name : String
  collected : Collected

namespace Collector

def list (name : String) : Collector := ⟨name, .list []⟩

def latest (name : String) : Collector := ⟨name, .latest none⟩

def distinct (name : String) : Collector := ⟨name, .distinct []⟩

def dates (name : String) : Collector := ⟨name, .dates []⟩

def corners (name : String) (fields : List String) : Collector :=
  ⟨name, .corners (fields.map Track.new)⟩

def positions (name latitude longitude : String) : Collector :=
  ⟨name, .positions [.new latitude, .new longitude]⟩

def accept (field : String) (value : Value) (collector : Collector) : Collector :=
  { collector with collected := collector.collected.accept field value }

def acceptSample (field : String) (sample : Float) (collector : Collector) : Collector :=
  { collector with collected := collector.collected.acceptSample field sample }

def reset (collector : Collector) : Collector :=
  { collector with collected := collector.collected.reset }

/-- What was gathered, with at most `count` places. -/
def thinned (count : Nat) (collector : Collector) : List AttributeValue :=
  collector.collected.values count

def values (collector : Collector) : List AttributeValue := collector.thinned 0

end Collector

end MotionImagery.Summary
