import MotionImagery.Geometry.Merge
import MotionImagery.Geometry.Operator
import MotionImagery.Summary.CollectorSet
import MotionImagery.Summary.Settings

/-!
How attributes are derived from what was collected in a window, and how a derivation is adjusted
wherever it stands in a tree of derivations.
-/
namespace MotionImagery.Summary
open Telemetry

/-- The methods by which geometries are simplified, united and repaired. -/
structure Methods where
  simplifier : Simplifier
  unite : List Polygon → List Polygon → List Polygon
  hull : Geometry → Polygon

def Methods.standard : Methods := ⟨.standard, unionAreas, Geometry.convexHull⟩

/-- The line of frame centres. -/
structure FrameCenter where
  operator : GeometryOperator
  tolerance : Option Float

def FrameCenter.standard : FrameCenter := ⟨.chain [.subsample, .simplify, .normalize], none⟩

/-- The area that was seen: the union of the corner polygons, or the line of frame centres when no
corners are fit for use. -/
structure Location where
  beforeUnion : GeometryOperator
  afterUnion : GeometryOperator
  tolerance : Option Float

def Location.standard : Location := ⟨.identity, .chain [.simplify, .normalize], none⟩

/-- The names of classification codes, from the least restrictive to the most. -/
structure Classification where
  table : List (Nat × String)
  deriving DecidableEq, Repr

namespace Classification

def standard : Classification :=
  ⟨[(1, "UNCLASSIFIED"), (2, "RESTRICTED"), (3, "CONFIDENTIAL"), (4, "SECRET"), (5, "TOP SECRET")]⟩

/-- Renames the first entry of a code; a new code becomes the most restrictive. -/
def setName (code : Nat) (name : String) (classification : Classification) : Classification :=
  ⟨go classification.table⟩
where
  go : List (Nat × String) → List (Nat × String)
    | [] => [(code, name)]
    | (other, before) :: rest =>
      if other = code then (code, name) :: rest else (other, before) :: go rest

/-- The place of a code in the table. -/
def position? (code : Int) (classification : Classification) : Option Nat :=
  classification.table.findIdx? fun entry => decide ((entry.1 : Int) = code)

/-- The name of the most restrictive of the codes that are in the table. -/
def mostRestrictive? (codes : List Int) (classification : Classification) : Option String :=
  (codes.filterMap classification.position?).max?.bind fun position =>
    (classification.table[position]?).map Prod.snd

end Classification

inductive Derivation where
  /-- Every collector's attribute as it is. -/
  | copyPresent
  /-- The values of the fields, without blanks and each value once. -/
  | distinct (fields : List String) (name : String)
  /-- The first and the last date of a field. -/
  | dates (field : String)
  /-- The mean altitude of the sensor. -/
  | meanAltitude
  | frameCenter (rule : FrameCenter)
  | location (rule : Location)
  | classification (rule : Classification)
  /-- One after the other. -/
  | list (derivations : List Derivation)

/-- Values that are not blank, each where it was first seen. -/
def distinctValues (values : List AttributeValue) : List AttributeValue :=
  values.foldl (fun seen value => if value.isBlank then seen else Collected.addNew seen value) []

/-- The count of samples that geometry may keep; without a positive one there is no geometry. -/
def sampleLimit? (settings : Settings) : Option Nat :=
  settings.subsampleCount?.filter fun count => decide (1 ≤ count)

/-- The line through the points among the values. -/
def lineOf? (values : List AttributeValue) : Option Geometry :=
  Geometry.ofPoints? (values.filterMap AttributeValue.point?)

namespace FrameCenter

def deriveWith? (methods : Methods) (collectors : CollectorSet) (settings : Settings)
    (rule : FrameCenter) : Option Geometry := do
  let count ← sampleLimit? settings
  if collectors.share [FieldName.frameCenterLatitude, FieldName.frameCenterLongitude] then
    let line ← lineOf? (collectors.thinned count FieldName.frameCenterLatitude)
    return rule.operator.applyWith methods.simplifier ⟨count, rule.tolerance⟩ line
  else none

def derive? (collectors : CollectorSet) (settings : Settings) (rule : FrameCenter) :
    Option Geometry :=
  rule.deriveWith? .standard collectors settings

end FrameCenter

namespace Location

/-- The first collector of an attribute that gathers in the given way. -/
def source? (collectors : CollectorSet) (name : String) (isWanted : Collected → Bool) :
    Option Collector :=
  collectors.collectors.find? fun collector =>
    isWanted collector.collected && collector.name == name

section
variable (methods : Methods) (collectors : CollectorSet)

def fromCorners? (detail : Detail) (rule : Location) : Option Geometry := do
  let source ← source? collectors AttributeName.corner Collected.isCorners
  let shapes := (source.thinned detail.count).filterMap AttributeValue.geometry?
  let polygons := (shapes.filterMap fun shape =>
    (rule.beforeUnion.applyWith methods.simplifier detail shape).polygons?).flatten
  let area ← Geometry.unionWith? methods.unite polygons
  (rule.afterUnion.applyWith methods.simplifier detail area).repairWith? methods.hull

def fromFrameCenter? (detail : Detail) (rule : Location) : Option Geometry := do
  let source ← source? collectors AttributeName.frameCenter Collected.isPositions
  let line ← lineOf? (source.thinned detail.count)
  return rule.afterUnion.applyWith methods.simplifier detail
    (rule.beforeUnion.applyWith methods.simplifier detail line)

def deriveWith? (settings : Settings) (rule : Location) : Option Geometry := do
  let count ← sampleLimit? settings
  let detail : Detail := ⟨count, rule.tolerance⟩
  (rule.fromCorners? methods collectors detail).or
    (rule.fromFrameCenter? methods collectors detail)

end

def derive? (collectors : CollectorSet) (settings : Settings) (rule : Location) :
    Option Geometry :=
  rule.deriveWith? .standard collectors settings

end Location

namespace Derivation

/-- The sum divided by the count, rounded at each step. -/
def mean? (numbers : List Float) : Option Float :=
  if numbers.isEmpty then none
  else some (numbers.foldl (· + ·) (-0.0) / Float.ofNat numbers.length)

def setGeometry (name : String) (shape : Option Geometry) (attributes : Attributes) : Attributes :=
  shape.elim attributes fun shape => attributes.setSingle name (.geometry shape)

mutual

/-- Adds what is derived to the attributes. -/
def derive (collectors : CollectorSet) (settings : Settings) :
    Derivation → Attributes → Attributes
  | copyPresent, attributes =>
    collectors.collectors.foldl (fun attributes collector =>
      if collector.values.isEmpty then attributes
      else attributes.set collector.name collector.values) attributes
  | distinct fields name, attributes =>
    let values := distinctValues (fields.flatMap fun field => collectors.values field)
    if values.isEmpty then attributes else attributes.set name values
  | dates field, attributes =>
    let dates := (collectors.values field).filterMap AttributeValue.date?
    match dates.head?, dates.getLast? with
    | some first, some last =>
      ((attributes.setSingle AttributeName.temporalStart (.date first)).setSingle
        AttributeName.temporalEnd (.date last)).setSingle AttributeName.created (.date first)
    | _, _ => attributes
  | meanAltitude, attributes =>
    let altitudes :=
      (collectors.values FieldName.sensorTrueAltitude).filterMap AttributeValue.float?
    (mean? altitudes).elim attributes fun mean =>
      attributes.setSingle AttributeName.altitude (.float mean)
  | frameCenter rule, attributes =>
    setGeometry AttributeName.frameCenter (rule.derive? collectors settings) attributes
  | location rule, attributes =>
    setGeometry AttributeName.location (rule.derive? collectors settings) attributes
  | classification rule, attributes =>
    let codes :=
      (collectors.values FieldName.securityClassification).filterMap AttributeValue.integer?
    (rule.mostRestrictive? codes).elim attributes fun name =>
      attributes.setSingle AttributeName.securityClassification (.text name)
  | list derivations, attributes => deriveAll collectors settings derivations attributes

def deriveAll (collectors : CollectorSet) (settings : Settings) :
    List Derivation → Attributes → Attributes
  | [], attributes => attributes
  | derivation :: rest, attributes =>
    deriveAll collectors settings rest (derive collectors settings derivation attributes)

end

/-- What is done with the rules of a tree, wherever they stand. -/
structure Visitor (m : Type → Type) where
  frameCenter : FrameCenter → m FrameCenter
  location : Location → m Location
  classification : Classification → m Classification

section
variable {m : Type → Type} [Monad m]

mutual

/-- Visits every rule once, from left to right. -/
def visit (visitor : Visitor m) : Derivation → m Derivation
  | frameCenter rule => frameCenter <$> visitor.frameCenter rule
  | location rule => location <$> visitor.location rule
  | classification rule => classification <$> visitor.classification rule
  | list derivations => list <$> visitAll visitor derivations
  | copyPresent => pure copyPresent
  | distinct fields name => pure (distinct fields name)
  | dates field => pure (dates field)
  | meanAltitude => pure meanAltitude

def visitAll (visitor : Visitor m) : List Derivation → m (List Derivation)
  | [] => pure []
  | derivation :: rest => do
    let visited ← visit visitor derivation
    let others ← visitAll visitor rest
    return visited :: others

end

end

/-- Gives every geometry its tolerance. -/
def Visitor.settingTolerance (tolerance : Float) : Visitor Id :=
  { frameCenter := fun rule => { rule with tolerance := some tolerance }
    location := fun rule => { rule with tolerance := some tolerance }
    classification := id }

/-- Renames or adds a classification. -/
def Visitor.namingClassification (code : Nat) (name : String) : Visitor Id :=
  { frameCenter := id, location := id, classification := Classification.setName code name }

/-- The attributes of unmanned air system telemetry. -/
def uasDatalink : Derivation :=
  list [
    copyPresent,
    distinct [FieldName.missionId] AttributeName.missionId,
    distinct [FieldName.platformDesignation] AttributeName.platformName,
    distinct [FieldName.imageSourceSensor] AttributeName.sensorId,
    distinct [FieldName.platformTailNumber, FieldName.platformCallSign] AttributeName.platformId,
    dates FieldName.timestamp,
    meanAltitude,
    frameCenter .standard,
    location .standard,
    classification .standard]

end Derivation

end MotionImagery.Summary
