import MotionImagery.Text.Numeral

/-!
When a file is handed off: thresholds on its size and age, any of which suffices.
-/
namespace MotionImagery.Buffer

def bytesPerMegabyte : Nat := 1000000

/-- The largest megabyte count whose byte count fits 64 bits. -/
def maxMegabytes : Nat := Text.unsigned64 / bytesPerMegabyte

/-- What a condition is held against: the bytes in the current file and its age in microseconds. -/
structure FileState where
  byteCount : Nat
  age : Nat
  deriving DecidableEq, Repr

inductive RolloverCondition where
  | byteCount (threshold : Nat)
  /-- The threshold counts microseconds. -/
  | elapsed (threshold : Nat)
  | either (left right : RolloverCondition)
  deriving DecidableEq, Repr

/-- A megabyte count that no threshold can be made of. -/
structure ThresholdError where
  megabytes : Nat
  deriving DecidableEq, Repr

def ThresholdError.message (error : ThresholdError) : String :=
  "Invalid rollover threshold: megabyte count must be in 1..=" ++ Text.decimal maxMegabytes ++
    ", got " ++ Text.decimal error.megabytes

/-- What a walk over a condition meets. -/
inductive Visit where
  | byteCount (threshold : Nat)
  | elapsed (threshold : Nat)
  | either
  deriving DecidableEq, Repr

namespace RolloverCondition

def megabytes (count : Nat) : Except ThresholdError RolloverCondition :=
  if count = 0 ∨ maxMegabytes < count then .error ⟨count⟩
  else .ok (.byteCount (count * bytesPerMegabyte))

/-- Thresholds are reached from the threshold itself on. -/
def isReady (state : FileState) : RolloverCondition → Bool
  | byteCount threshold => decide (threshold ≤ state.byteCount)
  | elapsed threshold => decide (threshold ≤ state.age)
  | either left right => left.isReady state || right.isReady state

/-- Left side, the node itself, right side. -/
def visits : RolloverCondition → List Visit
  | byteCount threshold => [.byteCount threshold]
  | elapsed threshold => [.elapsed threshold]
  | either left right => left.visits ++ .either :: right.visits

end RolloverCondition

/-- Ages are shown in whole milliseconds. -/
def Visit.describe : Visit → String
  | byteCount threshold => "bytes >= " ++ Text.decimal threshold
  | elapsed threshold => "age >= " ++ Text.decimal (threshold / 1000) ++ "ms"
  | either => "OR"

def RolloverCondition.describe (condition : RolloverCondition) : String :=
  String.intercalate " " (condition.visits.map Visit.describe)

end MotionImagery.Buffer
