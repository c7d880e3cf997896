import MotionImagery.Geometry.Simplify
import MotionImagery.Geometry.Subsample

/-!
Changes of a geometry, and chains of them.
-/
namespace MotionImagery

/-- What operators are told about how detailed a geometry may be. -/
structure Detail where
  /-- The most coordinates a line may keep. -/
  count : Nat
  /-- How far vertices may lie away when they are left out; without it none are. -/
  tolerance : Option Float

inductive GeometryOperator where
  | identity
  | subsample
  | simplify
  | normalize
  /-- One after the other. -/
  | chain (operators : List GeometryOperator)

namespace GeometryOperator

section
variable (simplifier : Simplifier) (detail : Detail)

mutual

def applyWith : GeometryOperator → Geometry → Geometry
  | identity, geometry => geometry
  | subsample, geometry => geometry.subsampleLine detail.count
  | simplify, geometry =>
    match detail.tolerance with
    | some tolerance => geometry.simplifyWith simplifier tolerance
    | none => geometry
  | normalize, geometry => geometry.normalize
  | chain operators, geometry => applyAllWith operators geometry

def applyAllWith : List GeometryOperator → Geometry → Geometry
  | [], geometry => geometry
  | operator :: rest, geometry => applyAllWith rest (applyWith operator geometry)

end

end

def apply (detail : Detail) (operator : GeometryOperator) (geometry : Geometry) : Geometry :=
  operator.applyWith .standard detail geometry

end GeometryOperator

end MotionImagery
