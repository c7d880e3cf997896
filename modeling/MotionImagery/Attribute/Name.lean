/-!
The names of the attributes that a summary writes.
-/
namespace MotionImagery.AttributeName

def temporalStart : String := "datetime.start"
def temporalEnd : String := "datetime.end"
def created : String := "created"
def location : String := "location"
def missionId : String := "isr.mission-id"
def platformId : String := "isr.platform-id"
def platformName : String := "isr.platform-name"
def sensorId : String := "isr.sensor-id"
def timestamp : String := "timestamp"
def eventStartTime : String := "event-start-time"
def platformCallSign : String := "platform-call-sign"
def operationalMode : String := "operational-mode"
def corner : String := "corner-location"
def offsetCorner : String := "offset-corner-location"
def frameCenter : String := "media.frame-center"
def targetLocation : String := "target-location"
def sensor : String := "sensor"
def checksum : String := "klv-packet-checksum"
def crsName : String := "location.crs-name"
def altitude : String := "location.altitude-meters"
def countryCode : String := "location.country-code"
def targetWidth : String := "target-width-meters"
def frameCenterElevation : String := "frame-center-elevation"
def targetLocationElevation : String := "target-location-elevation"
def groundRange : String := "ground-range"
def slantRange : String := "slant-range"
def securityClassification : String := "security.classification"
def securityClassificationCode : String := "security.classification-code"
def classificationSystem : String := "security.classification-system"
def classifyingCountryCodingMethod : String := "classifying-country-coding-method"
def objectCountryCodingMethod : String := "object-country-coding-method"
def codewords : String := "security.codewords"
def disseminationControls : String := "security.dissemination-controls"
def releasability : String := "security.releasability"

end MotionImagery.AttributeName
