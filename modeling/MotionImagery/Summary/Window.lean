import MotionImagery.Summary.Derivation

/-!
Windows: telemetry units are collected until the window is closed, which gives its attributes and
begins the next one.
-/
namespace MotionImagery.Summary
open Telemetry

structure Window where
  collectors : CollectorSet
  derivation : Derivation
  /-- Whether corners are also derived from the frame centre. -/
  derivesCorners : Bool
  /-- Units since the window began. -/
  units : Nat

namespace Window

def new (collectors : CollectorSet) (derivation : Derivation) (derivesCorners : Bool) : Window :=
  ⟨collectors, derivation, derivesCorners, 0⟩

def uasDatalink : Window := new .uasDatalink .uasDatalink true

/-- Collects the fields of a unit. -/
def accept (fields : Fields) (window : Window) : Window :=
  let collected := window.collectors.acceptFields fields
  { window with
    collectors := if window.derivesCorners then collected.deriveCorners fields else collected
    units := window.units + 1 }

/-- The attributes of the window, and the next window. -/
def finish (settings : Settings) (window : Window) : Attributes × Window :=
  (window.derivation.derive window.collectors settings [],
    { window with collectors := window.collectors.reset, units := 0 })

def adjust (visitor : Derivation.Visitor Id) (window : Window) : Window :=
  { window with derivation := window.derivation.visit visitor }

end Window

end MotionImagery.Summary
