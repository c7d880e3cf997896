import MotionImagery.Keyed
import MotionImagery.Text.Json

/-!
Settings of a summary: texts under keys, read as numbers or truth values where they are needed.
-/
namespace MotionImagery.Summary

abbrev Settings := Keyed String String

namespace Settings

/-- How many samples a geometry keeps at most. -/
def subsampleKey : String := "subsample-count"

def standard : Settings := [(subsampleKey, "50")]

def unsigned? (key : String) (settings : Settings) : Option Nat :=
  (Keyed.find? key settings).bind fun text => Text.unsigned? Text.unsigned64 text.toList

def signed? (key : String) (settings : Settings) : Option Int :=
  (Keyed.find? key settings).bind fun text => Text.signed? Text.signed64 text.toList

def truth? (key : String) (settings : Settings) : Option Bool :=
  (Keyed.find? key settings).bind Text.truth?

def subsampleCount? (settings : Settings) : Option Nat := settings.unsigned? subsampleKey

def toJson (settings : Settings) : Text.Json :=
  .object (settings.map fun (key, text) => (key, .text text))

end Settings

end MotionImagery.Summary
