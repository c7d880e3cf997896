import MotionImagery.Text.Split

/-!
Templates of file names. A token of an opening, a pattern and a closing stands for the present date
under the pattern. Tokens are replaced from left to right; from the first one on that has no
pattern, no closing or no meaning, the template is kept as it is.

How a pattern is written is a parameter.
-/
namespace MotionImagery.Output

structure NameTemplate where
  text : String
  deriving DecidableEq, Repr

namespace NameTemplate

def opening : List Char := "%\x7bdate=".toList

def closing : Char := '\x7d'

def standard : NameTemplate := ⟨"fmv-%\x7bdate=%Y%m%dT%H%M%S\x7d"⟩

def expandChars (write : String → Option String) (text : List Char) : List Char :=
  match _found : Text.splitAtFirst? opening text with
  | none => text
  | some (before, after) =>
    let pattern := after.takeWhile (· != closing)
    match _token : after.dropWhile (· != closing) with
    | [] => text
    | _ :: rest =>
      if pattern.isEmpty then text
      else
        match write (String.ofList pattern) with
        | none => text
        | some written => before ++ written.toList ++ expandChars write rest
termination_by text.length
decreasing_by
  have shorter := Text.length_of_splitAtFirst? _found
  have tail := (List.dropWhile_suffix (l := after) (· != closing)).length_le
  rw [_token, List.length_cons] at tail
  omega

def expand (write : String → Option String) (template : NameTemplate) : String :=
  String.ofList (expandChars write template.text.toList)

end NameTemplate

end MotionImagery.Output
