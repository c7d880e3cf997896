/-!
The names of the fields that the standard tables decode.
-/
namespace MotionImagery.Telemetry.FieldName

def checksum : String := "checksum"
def timestamp : String := "timestamp"
def missionId : String := "mission id"
def platformTailNumber : String := "platform tail number"
def platformDesignation : String := "platform designation"
def imageSourceSensor : String := "image source sensor"
def imageCoordinateSystem : String := "image coordinate system"
def sensorLatitude : String := "sensor latitude"
def sensorLongitude : String := "sensor longitude"
def sensorTrueAltitude : String := "sensor true altitude"
def slantRange : String := "slant range"
def targetWidth : String := "target width"
def frameCenterLatitude : String := "frame center latitude"
def frameCenterLongitude : String := "frame center longitude"
def frameCenterElevation : String := "frame center elevation"
def offsetCornerLatitude1 : String := "offset corner latitude 1"
def offsetCornerLongitude1 : String := "offset corner longitude 1"
def offsetCornerLatitude2 : String := "offset corner latitude 2"
def offsetCornerLongitude2 : String := "offset corner longitude 2"
def offsetCornerLatitude3 : String := "offset corner latitude 3"
def offsetCornerLongitude3 : String := "offset corner longitude 3"
def offsetCornerLatitude4 : String := "offset corner latitude 4"
def offsetCornerLongitude4 : String := "offset corner longitude 4"
def targetLocationLatitude : String := "target location latitude"
def targetLocationLongitude : String := "target location longitude"
def targetLocationElevation : String := "target location elevation"
def securityLocalSet : String := "security local set"
def groundRange : String := "ground range"
def platformCallSign : String := "platform call sign"
def eventStartTime : String := "event start time"
def operationalMode : String := "operational mode"
def cornerLatitude1 : String := "corner latitude 1"
def cornerLongitude1 : String := "corner longitude 1"
def cornerLatitude2 : String := "corner latitude 2"
def cornerLongitude2 : String := "corner longitude 2"
def cornerLatitude3 : String := "corner latitude 3"
def cornerLongitude3 : String := "corner longitude 3"
def cornerLatitude4 : String := "corner latitude 4"
def cornerLongitude4 : String := "corner longitude 4"

/-! The fields of the nested security set. -/

def securityClassification : String := "security classification"
def classifyingCountryCodingMethod : String := "classifying country coding method"
def classifyingCountry : String := "classifying country"
def sciShiInformation : String := "sci/shi information"
def caveats : String := "caveats"
def releasingInstructions : String := "releasing instructions"
def objectCountryCodingMethod : String := "object country coding method"
def objectCountryCodes : String := "object country codes"

/-- The corner fields, latitude and longitude of each corner in turn. -/
def corners : List String :=
  [cornerLatitude1, cornerLongitude1, cornerLatitude2, cornerLongitude2,
    cornerLatitude3, cornerLongitude3, cornerLatitude4, cornerLongitude4]

/-- The offset corner fields, in the order of `corners`. -/
def offsetCorners : List String :=
  [offsetCornerLatitude1, offsetCornerLongitude1, offsetCornerLatitude2, offsetCornerLongitude2,
    offsetCornerLatitude3, offsetCornerLongitude3, offsetCornerLatitude4, offsetCornerLongitude4]

end MotionImagery.Telemetry.FieldName
