import MotionImagery.Log.Level
import MotionImagery.Text.Blank
import MotionImagery.Text.Numeral
import MotionImagery.Text.Split

/-!
Which lines of a log are kept. A filter is a list of directives with commas between them; a
directive is a level, a target, or a target, an equals sign and a level. A directive without a level
keeps everything. Of the directives whose target is how a line's own target begins, the longest
decides; a line that none speaks of is not kept.

A directive for a named span, in brackets, speaks of no line outside of spans.
-/
namespace MotionImagery.Log

/-- The least important level that is kept; nothing is kept without one. -/
abbrev Threshold := Option Level

def admits (threshold : Threshold) (level : Level) : Bool :=
  threshold.any fun least => decide (level.rank ≤ least.rank)

/-- A target of no characters is how every target begins. -/
structure Directive where
  target : String
  threshold : Threshold
  deriving DecidableEq, Repr

structure Filter where
  directives : List Directive
  deriving DecidableEq, Repr

/-- A directive that cannot be read. -/
structure FilterError where
  directive : String
  deriving DecidableEq, Repr

/-- A level by its name in any case, or by its rank. No level at all is rank zero. -/
def threshold? (text : String) : Option Threshold :=
  let levels : List Level := [.error, .warn, .info, .debug, .trace]
  let name := text.map Char.toUpper
  if name = "OFF" then some none
  else
    match levels.find? (·.name = name) with
    | some level => some (some level)
    | none =>
      (Text.unsigned? levels.length text.toList).map fun rank => levels.find? (·.rank = rank)

/-- A character that a directive may begin with; beyond ASCII, all of them. -/
def isOpening (c : Char) : Bool :=
  c.isAlphanum || c ∈ ['-', ':', '_'] || decide (0x7F < c.toNat)

/-- The threshold after an equals sign; without one, everything is kept. -/
def thresholdAfter? (text : List Char) : Option Threshold :=
  if text.isEmpty then some (some .trace) else threshold? (String.ofList text)

/-- A directive, unless it is for a span. Blanks belong to the target, and a target before a level
does not begin with one. -/
def Directive.read? (text : List Char) : Option (Option Directive) :=
  let isMark := fun c => c == '=' || c == '['
  match text.takeWhile (!isMark ·), text.dropWhile (!isMark ·) with
  | target, '=' :: level =>
    if target.head?.any Text.isBlankChar then none
    else (thresholdAfter? level).map fun threshold => some ⟨String.ofList target, threshold⟩
  | _, '[' :: span =>
    match span.dropWhile (· != ']') with
    | [']'] => some none
    | ']' :: '=' :: level => (thresholdAfter? level).map fun _ => none
    | _ => none
  | only, _ =>
    if only.all Text.isBlankChar then some (some ⟨"", some .trace⟩)
    else
      match threshold? (String.ofList only) with
      | some threshold => some (some ⟨"", threshold⟩)
      | none => some (some ⟨String.ofList only, some .trace⟩)

namespace Filter

/-- The filter of the directives; without any, only errors are kept. -/
def read (text : String) : Except FilterError Filter := do
  let parts := (Text.splitAll ',' text.toList).filter (!·.isEmpty)
  let directives ← parts.mapM fun part =>
    let opens := ((part.dropWhile Text.isBlankChar).head?).all fun c => isOpening c || c == '['
    match if opens then Directive.read? part else none with
    | some directive => .ok directive
    | none => .error ⟨String.ofList part⟩
  return ⟨if directives.isEmpty then [⟨"", some .error⟩] else directives.filterMap id⟩

/-- The last of the directives with the longest target that is how this one begins. -/
def deciding? (target : String) (filter : Filter) : Option Directive :=
  (filter.directives.filter fun directive =>
      directive.target.toList.isPrefixOf target.toList).foldl (fun best directive =>
    if best.all fun other => other.target.length ≤ directive.target.length then some directive
    else best) none

def keeps (filter : Filter) (target : String) (level : Level) : Bool :=
  (filter.deciding? target).any fun directive => admits directive.threshold level

end Filter

end MotionImagery.Log
