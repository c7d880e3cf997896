import Mathlib.Data.List.TakeWhile
import MotionImagery.Output.NameTemplate

/-!
What a template of names says. It is read as pieces, each a token behind other text, up to the first
place where no token can be expanded. Each piece is replaced once, whatever is written for its
pattern, and from that place on the template is kept.
-/
namespace MotionImagery

namespace Text
variable {mark text before after : List Char}

theorem splitAtFirst?_eq_none_iff (some : mark ≠ []) :
    splitAtFirst? mark text = none ↔ ¬mark <:+: text := by
  induction text with
  | nil => simp [splitAtFirst?, some]
  | cons c rest ih =>
    rw [splitAtFirst?, List.infix_cons_iff, not_or, ← List.isPrefixOf_iff_prefix]
    split
    · rename_i starts
      simp [starts]
    · rename_i differs
      rw [Option.map_eq_none_iff, ih]
      simp [differs]

theorem of_splitAtFirst? (some : mark ≠ [])
    (split : splitAtFirst? mark text = .some (before, after)) :
    text = before ++ mark ++ after ∧ ¬mark <:+: before := by
  induction text generalizing before with
  | nil => simp [splitAtFirst?, some] at split
  | cons c rest ih =>
    rw [splitAtFirst?] at split
    split at split
    · rename_i starts
      cases split
      obtain ⟨behind, same⟩ := List.isPrefixOf_iff_prefix.mp starts
      refine ⟨?_, fun there => some (List.eq_nil_of_infix_nil there)⟩
      rw [← same, List.drop_left, List.nil_append]
    · rename_i differs
      obtain ⟨⟨front, _⟩, found, same⟩ := Option.map_eq_some_iff.mp split
      cases same
      obtain ⟨rfl, bare⟩ := ih found
      refine ⟨rfl, fun there => ?_⟩
      obtain starts | inside := List.infix_cons_iff.mp there
      · refine differs (List.isPrefixOf_iff_prefix.mpr ?_)
        exact starts.trans ⟨mark ++ after, by simp⟩
      · exact bare inside

/-- What begins a text of two parts ends in the first one, or behind it. -/
theorem prefix_append_cases (begins : mark <+: before ++ after) :
    mark <+: before ∨ ∃ tail, tail <+: after ∧ mark = before ++ tail := by
  obtain inside | ⟨tail, rfl⟩ :=
    List.prefix_or_prefix_of_prefix begins (List.prefix_append before after)
  · exact .inl inside
  · exact .inr ⟨tail, (List.prefix_append_right_inj before).mp begins, rfl⟩

/-- A mark whose first character is nowhere else in it is found behind text that is without it. -/
theorem splitAtFirst?_mark {first : Char} {more : List Char} (sole : first ∉ more)
    (bare : ¬(first :: more) <:+: before) (after : List Char) :
    splitAtFirst? (first :: more) (before ++ (first :: more) ++ after) = some (before, after) := by
  induction before with
  | nil => simp [splitAtFirst?]
  | cons c rest ih =>
    have bareRest : ¬(first :: more) <:+: rest :=
      fun there => bare (there.trans (List.suffix_cons c rest).isInfix)
    have differs : ¬(first :: more) <+: (c :: rest) ++ ((first :: more) ++ after) := by
      intro begins
      obtain inside | ⟨tail, across, same⟩ := prefix_append_cases begins
      · exact bare inside.isInfix
      · cases tail with
        | nil =>
          rw [List.append_nil] at same
          exact bare (same ▸ List.infix_rfl)
        | cons next tail =>
          -- The mark would have its first character once more where the next one begins.
          obtain ⟨rfl, -⟩ := List.cons_prefix_cons.mp across
          obtain ⟨-, rfl⟩ := List.cons.inj same
          exact sole (List.mem_append_right rest List.mem_cons_self)
    rw [← List.append_assoc] at differs
    rw [List.cons_append, List.cons_append] at differs ⊢
    rw [splitAtFirst?, if_neg fun begins => differs (List.isPrefixOf_iff_prefix.mp begins),
      ih bareRest]
    rfl

end Text

namespace Output.NameTemplate

/-- Nothing in the text opens a token. -/
def Bare (text : List Char) : Prop := ¬opening <:+: text

def token (pattern : List Char) : List Char := opening ++ pattern ++ [closing]

/-- A token behind other text. -/
structure Piece where
  before : List Char
  pattern : List Char
  bare : Bare before
  pattern_ne_nil : pattern ≠ []
  closing_notMem : closing ∉ pattern

theorem splitAtFirst?_opening {before : List Char} (bare : Bare before) (after : List Char) :
    Text.splitAtFirst? opening (before ++ opening ++ after) = some (before, after) :=
  Text.splitAtFirst?_mark (by decide) bare after

theorem expandChars_of_bare (write : String → Option String) {text : List Char}
    (bare : Bare text) : expandChars write text = text := by
  have missed : Text.splitAtFirst? opening text = none :=
    (Text.splitAtFirst?_eq_none_iff (by decide)).mpr bare
  rw [expandChars]
  split
  · rfl
  · rename_i found
    cases missed.symm.trans found

theorem expandChars_opening (write : String → Option String) {before : List Char}
    (bare : Bare before) (after : List Char) :
    expandChars write (before ++ opening ++ after) =
      match after.dropWhile (· != closing) with
      | [] => before ++ opening ++ after
      | _ :: rest =>
        let pattern := after.takeWhile (· != closing)
        if pattern.isEmpty then before ++ opening ++ after
        else
          match write (String.ofList pattern) with
          | none => before ++ opening ++ after
          | some written => before ++ written.toList ++ expandChars write rest := by
  rw [expandChars]
  split
  · rename_i missed
    cases (splitAtFirst?_opening bare after).symm.trans missed
  · rename_i found
    cases (splitAtFirst?_opening bare after).symm.trans found
    dsimp only
    split
    · rename_i cut
      rw [cut]
    · rename_i cut
      exact cut ▸ rfl

section
variable {pattern : List Char} (inside : closing ∉ pattern)
include inside

theorem ne_closing : ∀ c ∈ pattern, (c != closing) = true :=
  fun _ member => bne_iff_ne.mpr fun same => inside (same ▸ member)

theorem takeWhile_closing (rest : List Char) :
    (pattern ++ closing :: rest).takeWhile (· != closing) = pattern := by
  rw [List.takeWhile_append_of_pos (ne_closing inside), List.takeWhile_cons_of_neg (by simp),
    List.append_nil]

theorem dropWhile_closing (rest : List Char) :
    (pattern ++ closing :: rest).dropWhile (· != closing) = closing :: rest := by
  rw [List.dropWhile_append_of_pos (ne_closing inside), List.dropWhile_cons_of_neg (by simp)]

theorem dropWhile_unclosed : pattern.dropWhile (· != closing) = [] :=
  List.dropWhile_eq_nil_iff.mpr (ne_closing inside)

end

namespace Piece

def text (piece : Piece) : List Char := piece.before ++ token piece.pattern

def written? (write : String → Option String) (piece : Piece) : Option String :=
  write (String.ofList piece.pattern)

/-- The token is replaced by what is written for its pattern. -/
def expanded (write : String → Option String) (piece : Piece) : List Char :=
  piece.before ++ (piece.written? write).elim (token piece.pattern) String.toList

end Piece

variable {write : String → Option String}

theorem expandChars_piece (piece : Piece) (rest : List Char) :
    expandChars write (piece.text ++ rest) =
      match piece.written? write with
      | none => piece.text ++ rest
      | some written => piece.before ++ written.toList ++ expandChars write rest := by
  have same : piece.text ++ rest =
      piece.before ++ opening ++ (piece.pattern ++ closing :: rest) := by
    simp [Piece.text, token]
  rw [same, expandChars_opening write piece.bare, dropWhile_closing piece.closing_notMem,
    takeWhile_closing piece.closing_notMem]
  exact if_neg fun nothing => piece.pattern_ne_nil (List.isEmpty_iff.mp nothing)

/-- Text in which no token is expanded any more: there is none, or the first one is without a
pattern, without an end, or without anything that could be written for it. -/
inductive Stops (write : String → Option String) : List Char → Prop
  | bare {text : List Char} (bare : Bare text) : Stops write text
  | empty {before : List Char} (bare : Bare before) (behind : List Char) :
      Stops write (before ++ token [] ++ behind)
  | unclosed {before behind : List Char} (bare : Bare before) (unclosed : closing ∉ behind) :
      Stops write (before ++ opening ++ behind)
  | rejected (piece : Piece) (rejected : piece.written? write = none) (behind : List Char) :
      Stops write (piece.text ++ behind)

theorem Stops.expandChars_eq {text : List Char} (stops : Stops write text) :
    expandChars write text = text := by
  cases stops with
  | bare bare => exact expandChars_of_bare write bare
  | @empty before bare behind =>
    have same : before ++ token [] ++ behind = before ++ opening ++ closing :: behind := by
      simp [token]
    rw [same, expandChars_opening write bare]
    rfl
  | unclosed bare unclosed => rw [expandChars_opening write bare, dropWhile_unclosed unclosed]
  | rejected piece rejected behind => rw [expandChars_piece, rejected]

/-- Pieces are replaced one after the other. -/
theorem expandChars_pieces {pieces : List Piece}
    (accepted : ∀ piece ∈ pieces, (piece.written? write).isSome = true) (rest : List Char) :
    expandChars write (pieces.flatMap Piece.text ++ rest) =
      pieces.flatMap (Piece.expanded write) ++ expandChars write rest := by
  induction pieces with
  | nil => rfl
  | cons piece later ih =>
    obtain ⟨here, there⟩ := List.forall_mem_cons.mp accepted
    obtain ⟨written, given⟩ := Option.isSome_iff_exists.mp here
    rw [List.flatMap_cons, List.append_assoc, expandChars_piece, given, List.flatMap_cons,
      Piece.expanded, given, List.append_assoc, ← ih there]
    rfl

/-- A closing that is found ends the pattern before it. -/
theorem eq_of_dropWhile {after rest : List Char} {c : Char}
    (cut : after.dropWhile (· != closing) = c :: rest) :
    after = after.takeWhile (· != closing) ++ closing :: rest := by
  have isClosing := List.head?_dropWhile_not (· != closing) after
  rw [cut] at isClosing
  obtain rfl : c = closing := by simpa using isClosing
  rw [← cut, List.takeWhile_append_dropWhile]

theorem closing_notMem_takeWhile (after : List Char) :
    closing ∉ after.takeWhile (· != closing) := by
  intro member
  simpa using List.mem_takeWhile_imp member

/-- What was found before and inside a token makes a piece. -/
theorem exists_piece {text before after rest : List Char} {c : Char}
    (found : Text.splitAtFirst? opening text = some (before, after))
    (cut : after.dropWhile (· != closing) = c :: rest)
    (some : after.takeWhile (· != closing) ≠ []) :
    ∃ piece : Piece, piece.pattern = after.takeWhile (· != closing) ∧
      text = piece.text ++ rest := by
  obtain ⟨rfl, bare⟩ := Text.of_splitAtFirst? (by decide) found
  refine ⟨⟨before, _, bare, some, closing_notMem_takeWhile after⟩, rfl, ?_⟩
  calc before ++ opening ++ after
    _ = before ++ opening ++ (after.takeWhile (· != closing) ++ closing :: rest) := by
      rw [← eq_of_dropWhile cut]
    _ = _ := by simp [Piece.text, token]

/-- Every text is some pieces that are expanded, and a rest in which nothing is. -/
theorem exists_pieces (write : String → Option String) (text : List Char) :
    ∃ (pieces : List Piece) (rest : List Char),
      (∀ piece ∈ pieces, (piece.written? write).isSome = true) ∧ Stops write rest ∧
        text = pieces.flatMap Piece.text ++ rest := by
  fun_induction expandChars write text with
  | case1 text missed =>
    exact ⟨[], text, nofun, .bare ((Text.splitAtFirst?_eq_none_iff (by decide)).mp missed), rfl⟩
  | case2 text before after found cut =>
    obtain ⟨rfl, bare⟩ := Text.of_splitAtFirst? (by decide) found
    have unclosed : closing ∉ after := fun member => by
      simpa using List.dropWhile_eq_nil_iff.mp cut closing member
    exact ⟨[], _, nofun, .unclosed bare unclosed, rfl⟩
  | case3 text before after found pattern c rest cut nothing =>
    obtain ⟨rfl, bare⟩ := Text.of_splitAtFirst? (by decide) found
    have empty : after.takeWhile (· != closing) = [] := List.isEmpty_iff.mp nothing
    have same : before ++ opening ++ after = before ++ token [] ++ rest := by
      rw [eq_of_dropWhile cut, empty]
      simp [token]
    have stops : Stops write (before ++ opening ++ after) := by
      rw [same]
      exact .empty bare rest
    exact ⟨[], _, nofun, stops, rfl⟩
  | case4 text before after found pattern c rest cut something rejected =>
    obtain ⟨piece, same, rfl⟩ := exists_piece found cut (something ∘ List.isEmpty_iff.mpr)
    have rejected : piece.written? write = none := by rw [Piece.written?, same, rejected]
    exact ⟨[], _, nofun, .rejected piece rejected rest, rfl⟩
  | case5 text before after found pattern c rest cut something written accepted ih =>
    obtain ⟨piece, same, rfl⟩ := exists_piece found cut (something ∘ List.isEmpty_iff.mpr)
    obtain ⟨pieces, last, all, stops, rfl⟩ := ih
    have here : (piece.written? write).isSome = true := by rw [Piece.written?, same, accepted]; rfl
    refine ⟨piece :: pieces, last, List.forall_mem_cons.mpr ⟨here, all⟩, stops, ?_⟩
    rw [List.flatMap_cons, List.append_assoc]

/-- **Expansion is one pass.** The pieces of a template are replaced from left to right, up to the
first place where no token can be expanded; from there on it is kept. What is written for a pattern
is not looked at again. Every template is made so. -/
theorem expansion_is_one_pass (write : String → Option String) :
    (∀ (pieces : List Piece) (rest : List Char),
      (∀ piece ∈ pieces, (piece.written? write).isSome = true) → Stops write rest →
        expand write ⟨String.ofList (pieces.flatMap Piece.text ++ rest)⟩ =
          String.ofList (pieces.flatMap (Piece.expanded write) ++ rest)) ∧
    ∀ template : NameTemplate, ∃ (pieces : List Piece) (rest : List Char),
      (∀ piece ∈ pieces, (piece.written? write).isSome = true) ∧ Stops write rest ∧
        template.text.toList = pieces.flatMap Piece.text ++ rest := by
  refine ⟨fun pieces rest accepted stops => ?_, fun template => exists_pieces write _⟩
  rw [expand, String.toList_ofList, expandChars_pieces accepted, stops.expandChars_eq]

/-- What is written for the first token looks like a token itself. -/
theorem sample_expansion :
    let write := fun pattern => if pattern = "a" then some "%\x7bdate=b\x7d" else none
    expand write ⟨"x%\x7bdate=a\x7d-%\x7bdate=a"⟩ = "x%\x7bdate=b\x7d-%\x7bdate=a" := by
  intro write
  have bare : Bare ['x'] ∧ Bare ['-'] := by
    unfold Bare
    decide
  let first : Piece := ⟨['x'], ['a'], bare.1, by decide, by decide⟩
  have accepted : ∀ piece ∈ [first], (piece.written? write).isSome = true :=
    List.forall_mem_singleton.mpr rfl
  have unclosed : closing ∉ ['a'] := by decide
  exact (expansion_is_one_pass write).1 [first] _ accepted (.unclosed bare.2 unclosed)

end Output.NameTemplate

end MotionImagery
