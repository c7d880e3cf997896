/-!
Cutting text at the first occurrence of a mark, and at all of them.
-/
namespace MotionImagery.Text

/-- What is before the first occurrence of the mark, and what is after it. -/
def splitAtFirst? (mark : List Char) : List Char → Option (List Char × List Char)
  | [] => if mark.isEmpty then some ([], []) else none
  | c :: rest =>
    if mark.isPrefixOf (c :: rest) then some ([], (c :: rest).drop mark.length)
    else (splitAtFirst? mark rest).map fun (before, after) => (c :: before, after)

theorem length_of_splitAtFirst? {mark text before after : List Char}
    (split : splitAtFirst? mark text = some (before, after)) :
    after.length + mark.length ≤ text.length := by
  induction text generalizing before with
  | nil =>
    unfold splitAtFirst? at split
    split at split
    · simp_all
    · simp at split
  | cons c rest ih =>
    unfold splitAtFirst? at split
    split at split
    · rename_i starts
      obtain ⟨tail, text⟩ := List.isPrefixOf_iff_prefix.1 starts
      simp only [Option.some.injEq, Prod.mk.injEq] at split
      rw [← split.2, ← text]
      simp
      omega
    · simp only [Option.map_eq_some_iff, Prod.mk.injEq, Prod.exists] at split
      obtain ⟨_, _, found, _, rfl⟩ := split
      have := ih found
      simp only [List.length_cons]
      omega

/-- The parts between the marks; there is one part more than there are marks. -/
def splitAll (mark : Char) : List Char → List (List Char)
  | [] => [[]]
  | c :: rest =>
    if c = mark then [] :: splitAll mark rest
    else
      match splitAll mark rest with
      | [] => [[c]]
      | part :: parts => (c :: part) :: parts

end MotionImagery.Text
