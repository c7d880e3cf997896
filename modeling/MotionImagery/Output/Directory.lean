import MotionImagery.Bytes
import MotionImagery.Keyed

/-!
A directory of files, by their names.
-/
namespace MotionImagery.Output

abbrev Directory := Keyed String Bytes

/-- A file that cannot be written. -/
structure WriteError where
  name : String
  deriving DecidableEq, Repr

namespace Directory

/-- The most bytes of a file's name. -/
def longestName : Nat := 255

/-- A name within the directory: not empty, not too long, and without a separator. -/
def isName (name : String) : Bool :=
  !name.isEmpty && decide (name.utf8ByteSize ≤ longestName) &&
    name.toList.all fun c => c != '/' && c != Char.ofNat 0

/-- Writes a file; one that was there under the name is replaced. -/
def write (name : String) (content : Bytes) (directory : Directory) :
    Except WriteError Directory :=
  if isName name then .ok (Keyed.put name content directory) else .error ⟨name⟩

end Directory

end MotionImagery.Output
