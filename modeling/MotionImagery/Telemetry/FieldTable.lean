import MotionImagery.Telemetry.FieldName
import MotionImagery.Telemetry.Scaling
import MotionImagery.Telemetry.Value
import MotionImagery.Text.Utf8

/-!
Tables of fields: which name a tag stands for, and how its value is decoded.
-/
namespace MotionImagery.Telemetry

inductive Decoder where
  | unsigned (width : Nat)
  | text
  | bytes
  /-- A signed integer mapped onto a range. -/
  | scaledSigned (width : Nat) (low high : Float)
  /-- An unsigned integer mapped onto a range. -/
  | scaledUnsigned (width : Nat) (low high : Float)
  /-- A nested local set with a table of its own. -/
  | set (table : List (Nat × String × Decoder))

/-- A field name and a decoder under each tag. -/
abbrev FieldTable := Keyed Nat (String × Decoder)

/-- A later entry under a tag replaces an earlier one. -/
def FieldTable.ofEntries (entries : List (Nat × String × Decoder)) : FieldTable :=
  entries.foldl (fun table (tag, field) => Keyed.put tag field table) []

/-- The value of an element that is no nested set. Integers of another width than the field's
and measures that are out of range decode to nothing. -/
def Decoder.scalar? (decoder : Decoder) (bytes : Bytes) : Option Value :=
  match decoder with
  | unsigned width =>
    if bytes.length = width then some (.unsigned (readUnsigned bytes)) else none
  | text => some (.text (Text.decode bytes))
  | .bytes => some (.bytes bytes)
  | scaledSigned width low high =>
    if bytes.length = width then
      (scaleSigned? (readSigned bytes) width low high).map Value.float
    else none
  | scaledUnsigned width low high =>
    if bytes.length = width then some (.float (scaleUnsigned (readUnsigned bytes) width low high))
    else none
  | set _ => none

/-- What a packet is decoded with: the universal key it is found by, and the table of its set. -/
structure Context where
  key : Bytes
  table : FieldTable

namespace Context

/-- Universal keys have sixteen bytes. -/
def keyLength : Nat := 16

def uasDatalinkKey : Bytes :=
  [0x06, 0x0E, 0x2B, 0x34, 0x02, 0x0B, 0x01, 0x01, 0x0E, 0x01, 0x03, 0x01, 0x01, 0x00, 0x00, 0x00]

def latitude : Decoder := .scaledSigned 4 (-90.0) 90.0
def longitude : Decoder := .scaledSigned 4 (-180.0) 180.0
def cornerOffset : Decoder := .scaledSigned 2 (-0.075) 0.075
def altitude : Decoder := .scaledUnsigned 2 (-900.0) 19000.0
def range : Decoder := .scaledUnsigned 4 0.0 5000000.0

def securityTable : FieldTable :=
  .ofEntries [
    (1, FieldName.securityClassification, .unsigned 1),
    (2, FieldName.classifyingCountryCodingMethod, .unsigned 1),
    (3, FieldName.classifyingCountry, .text),
    (4, FieldName.sciShiInformation, .text),
    (5, FieldName.caveats, .text),
    (6, FieldName.releasingInstructions, .text),
    (12, FieldName.objectCountryCodingMethod, .unsigned 1),
    (13, FieldName.objectCountryCodes, .bytes)]

def uasDatalinkTable : FieldTable :=
  .ofEntries [
    (1, FieldName.checksum, .unsigned 2),
    (2, FieldName.timestamp, .unsigned 8),
    (3, FieldName.missionId, .text),
    (4, FieldName.platformTailNumber, .text),
    (10, FieldName.platformDesignation, .text),
    (11, FieldName.imageSourceSensor, .text),
    (12, FieldName.imageCoordinateSystem, .text),
    (13, FieldName.sensorLatitude, latitude),
    (14, FieldName.sensorLongitude, longitude),
    (15, FieldName.sensorTrueAltitude, altitude),
    (21, FieldName.slantRange, range),
    (22, FieldName.targetWidth, .scaledUnsigned 2 0.0 10000.0),
    (23, FieldName.frameCenterLatitude, latitude),
    (24, FieldName.frameCenterLongitude, longitude),
    (25, FieldName.frameCenterElevation, altitude),
    (26, FieldName.offsetCornerLatitude1, cornerOffset),
    (27, FieldName.offsetCornerLongitude1, cornerOffset),
    (28, FieldName.offsetCornerLatitude2, cornerOffset),
    (29, FieldName.offsetCornerLongitude2, cornerOffset),
    (30, FieldName.offsetCornerLatitude3, cornerOffset),
    (31, FieldName.offsetCornerLongitude3, cornerOffset),
    (32, FieldName.offsetCornerLatitude4, cornerOffset),
    (33, FieldName.offsetCornerLongitude4, cornerOffset),
    (40, FieldName.targetLocationLatitude, latitude),
    (41, FieldName.targetLocationLongitude, longitude),
    (42, FieldName.targetLocationElevation, altitude),
    (48, FieldName.securityLocalSet, .set securityTable),
    (57, FieldName.groundRange, range),
    (59, FieldName.platformCallSign, .text),
    (72, FieldName.eventStartTime, .unsigned 8),
    (77, FieldName.operationalMode, .unsigned 1),
    (82, FieldName.cornerLatitude1, latitude),
    (83, FieldName.cornerLongitude1, longitude),
    (84, FieldName.cornerLatitude2, latitude),
    (85, FieldName.cornerLongitude2, longitude),
    (86, FieldName.cornerLatitude3, latitude),
    (87, FieldName.cornerLongitude3, longitude),
    (88, FieldName.cornerLatitude4, latitude),
    (89, FieldName.cornerLongitude4, longitude)]

/-- The table of unmanned air system telemetry with its nested security set. -/
def uasDatalink : Context := ⟨uasDatalinkKey, uasDatalinkTable⟩

end Context

end MotionImagery.Telemetry
