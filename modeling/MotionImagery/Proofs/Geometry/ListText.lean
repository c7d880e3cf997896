import MotionImagery.Geometry.WellKnownText

/-!
Lists in brackets, read back. An item that can be told from its text, whatever closes it, can be
told in a list as well: a list is lengthened by a comma and ended by a bracket, and no item begins
with one.
-/
namespace MotionImagery.Geometry

/-- A text is at its end, or one of the marks comes next. -/
def EndsAt (marks rest : List Char) : Prop := ∀ c ∈ rest.head?, c ∈ marks

theorem endsAt_nil (marks : List Char) : EndsAt marks [] := nofun

theorem endsAt_cons {marks : List Char} {mark : Char} (member : mark ∈ marks)
    (rest : List Char) : EndsAt marks (mark :: rest) := by
  rintro _ ⟨⟩
  exact member

/-- A word without marks ends where the first mark stands. -/
theorem word_append_inj {marks word other rest rest' : List Char}
    (plain : ∀ c ∈ word, c ∉ marks) (plain' : ∀ c ∈ other, c ∉ marks)
    (ends : EndsAt marks rest) (ends' : EndsAt marks rest')
    (same : word ++ rest = other ++ rest') : word = other ∧ rest = rest' := by
  induction word generalizing other with
  | nil =>
    cases other with
    | nil => exact ⟨rfl, same⟩
    | cons c other =>
      subst same
      exact absurd (ends c rfl) (plain' c List.mem_cons_self)
  | cons c word ih =>
    cases other with
    | nil =>
      subst same
      exact absurd (ends' c rfl) (plain c List.mem_cons_self)
    | cons c' other =>
      obtain ⟨rfl, next⟩ := List.cons.inj same
      obtain ⟨rfl, behind⟩ := ih (List.forall_mem_cons.mp plain).2
        (List.forall_mem_cons.mp plain').2 next
      exact ⟨rfl, behind⟩

/-- What may stand behind an item: nothing, the next item or the end of its list. -/
abbrev Closes (rest : List Char) : Prop := EndsAt [',', ')'] rest

/-- An item is told from its text among certain others, and so is what stands behind it. -/
def Told {α : Type} (write : α → String) (among : α → Prop) (item : α) : Prop :=
  ∀ other, among other → ∀ rest rest', Closes rest → Closes rest' →
    (write item).toList ++ rest = (write other).toList ++ rest' → item = other ∧ rest = rest'

/-- A text that begins with something else than the end of a list. -/
def Opens (text : String) : Prop := ∃ c more, text.toList = c :: more ∧ c ≠ ')'

/-- What follows an item of a list. -/
def tailText : List String → List Char
  | [] => [')']
  | item :: rest => ',' :: ' ' :: (item.toList ++ tailText rest)

theorem closes_tailText (items : List String) (rest : List Char) :
    Closes (tailText items ++ rest) := by
  cases items with
  | nil => exact endsAt_cons (by decide) _
  | cons => exact endsAt_cons (by decide) _

theorem toList_listText_cons (item : String) (items : List String) :
    (listText (item :: items)).toList = '(' :: (item.toList ++ tailText items) := by
  have joined : ∀ item : String, (String.intercalate ", " (item :: items)).toList ++ [')'] =
      item.toList ++ tailText items := by
    induction items with
    | nil =>
      intro item
      rw [String.intercalate_singleton, tailText]
    | cons next items ih =>
      intro item
      rw [String.intercalate_cons_cons, String.toList_append, String.toList_append,
        List.append_assoc, List.append_assoc, ih next, tailText]
      rfl
  rw [listText, String.toList_append, String.toList_append, List.append_assoc]
  exact congrArg ('(' :: ·) (joined item)

section Lists
variable {α : Type} {write : α → String} {among : α → Prop} {items others : List α}

theorem tailText_inj (told : ∀ item ∈ items, Told write among item)
    (known : ∀ other ∈ others, among other) {rest rest' : List Char}
    (same : tailText (items.map write) ++ rest = tailText (others.map write) ++ rest') :
    items = others ∧ rest = rest' := by
  induction items generalizing others with
  | nil =>
    cases others with
    | nil => exact ⟨rfl, (List.cons.inj same).2⟩
    | cons => cases same
  | cons item items ih =>
    cases others with
    | nil => cases same
    | cons other others =>
      obtain ⟨here, later⟩ := List.forall_mem_cons.mp told
      obtain ⟨inside, insides⟩ := List.forall_mem_cons.mp known
      simp only [List.map_cons, tailText, List.cons_append, List.append_assoc, List.cons.injEq,
        true_and] at same
      obtain ⟨rfl, next⟩ := here other inside _ _ (closes_tailText _ _) (closes_tailText _ _) same
      obtain ⟨rfl, behind⟩ := ih later insides next
      exact ⟨rfl, behind⟩

/-- An empty list ends where another one has its first item. -/
theorem listText_nil_ne {item : String} (opens : Opens item) (items : List String)
    (rest rest' : List Char) :
    (listText []).toList ++ rest ≠ (listText (item :: items)).toList ++ rest' := by
  intro same
  obtain ⟨c, more, begins, other⟩ := opens
  rw [toList_listText_cons, begins] at same
  exact other (List.cons.inj (List.cons.inj same).2).1.symm

theorem Told.listText (opens : ∀ item, among item → Opens (write item))
    (member : ∀ item ∈ items, among item) (told : ∀ item ∈ items, Told write among item) :
    Told (fun items => listText (items.map write)) (fun items => ∀ item ∈ items, among item)
      items := by
  intro others known rest rest' _ _ same
  dsimp only at same
  cases items with
  | nil =>
    cases others with
    | nil => exact ⟨rfl, List.append_cancel_left same⟩
    | cons other others =>
      exact absurd same (listText_nil_ne (opens other (known other List.mem_cons_self)) _ _ _)
  | cons item items =>
    cases others with
    | nil =>
      exact absurd same.symm
        (listText_nil_ne (opens item (member item List.mem_cons_self)) _ _ _)
    | cons other others =>
      rw [List.map_cons, List.map_cons, toList_listText_cons, toList_listText_cons] at same
      have behind := congrArg (',' :: ' ' :: ·) (List.cons.inj same).2
      exact tailText_inj told known behind

theorem Told.comp {β : Type} {f : β → α} (injective : Function.Injective f) {item : β}
    (told : Told write among (f item)) : Told (write ∘ f) (among ∘ f) item := by
  intro other inside rest rest' closes closes' same
  obtain ⟨same, behind⟩ := told (f other) inside rest rest' closes closes' same
  exact ⟨injective same, behind⟩

theorem Told.mono {within : α → Prop} (fewer : ∀ item, within item → among item) {item : α}
    (told : Told write among item) : Told write within item :=
  fun other inside => told other (fewer other inside)

end Lists

end MotionImagery.Geometry
