import MotionImagery.Geometry.Normalize
import MotionImagery.Proofs.Geometry.Numbers

/-!
Coordinates and paths are totally ordered, and what is equal in the order is the same. What is
sorted by such an order does not show in which order it was given.
-/
namespace MotionImagery

/-- A test of order by which everything can be compared. -/
structure Orders {α : Type} (notAfter : α → α → Bool) : Prop where
  total : ∀ a b, (notAfter a b || notAfter b a) = true
  trans : ∀ a b c, notAfter a b = true → notAfter b c = true → notAfter a c = true

/-- Items are ordered as their keys are. -/
theorem Orders.on {α β : Type} {notAfter : α → α → Bool} (orders : Orders notAfter) (key : β → α) :
    Orders fun a b => notAfter (key a) (key b) :=
  ⟨fun a b => orders.total (key a) (key b), fun a b c => orders.trans (key a) (key b) (key c)⟩

/-- Two lists of the same items are the same once they are sorted, when items that come neither
before nor after each other are the same. -/
theorem Orders.sorted_eq {α : Type} {notAfter : α → α → Bool} (orders : Orders notAfter)
    {items others : List α}
    (tells : ∀ a ∈ items, ∀ b ∈ items, notAfter a b = true → notAfter b a = true → a = b)
    (same : items.Perm others) : items.mergeSort notAfter = others.mergeSort notAfter := by
  have perm : (items.mergeSort notAfter).Perm (others.mergeSort notAfter) :=
    (List.mergeSort_perm items notAfter).trans
      (same.trans (List.mergeSort_perm others notAfter).symm)
  refine perm.eq_of_pairwise (fun a b member inside => ?_)
    (List.pairwise_mergeSort orders.trans orders.total items)
    (List.pairwise_mergeSort orders.trans orders.total others)
  exact tells a (List.mem_mergeSort.mp member) b
    (same.mem_iff.mpr (List.mem_mergeSort.mp inside))

namespace Coord
variable {a b c : Coord}

theorem key_injective (same : a.key = b.key) : a = b := by
  obtain ⟨x, y⟩ := Prod.mk.inj same
  obtain ⟨_, _⟩ := a
  obtain ⟨_, _⟩ := b
  rw [mk.injEq]
  exact ⟨orderKey_injective x, orderKey_injective y⟩

theorem before_iff :
    a.before b = true ↔ a.key.1 < b.key.1 ∨ a.key.1 = b.key.1 ∧ a.key.2 < b.key.2 := by
  simp [before]

theorem before_trans (first : a.before b = true) (second : b.before c = true) :
    a.before c = true := by
  rw [before_iff] at *
  omega

theorem not_before_of_before (earlier : a.before b = true) : b.before a = false := by
  rw [Bool.eq_false_iff]
  intro later
  rw [before_iff] at *
  omega

theorem eq_of_not_before (least : a.before b = false) (most : b.before a = false) : a = b := by
  rw [Bool.eq_false_iff, Ne, before_iff] at least most
  exact key_injective (Prod.ext (by omega) (by omega))

theorem orders : Orders notAfter where
  total a b := by
    rw [notAfter, notAfter]
    cases later : b.before a with
    | false => rfl
    | true => rw [not_before_of_before later]; rfl
  trans a b c first second := by
    rw [notAfter, Bool.not_eq_true', Bool.eq_false_iff, Ne, before_iff] at *
    omega

theorem eq_of_notAfter (least : a.notAfter b = true) (most : b.notAfter a = true) : a = b :=
  eq_of_not_before (by simpa [notAfter] using most) (by simpa [notAfter] using least)

end Coord

/-- Paths as they differ first: one of them comes before, or they are the same. -/
theorem pathNotAfter_cons (a b : Coord) (p q : List Coord) :
    pathNotAfter (a :: p) (b :: q) = true ↔
      a.before b = true ∨ a = b ∧ pathNotAfter p q = true := by
  rw [pathNotAfter]
  cases earlier : a.before b with
  | true => simp
  | false =>
    cases later : b.before a with
    | true =>
      have differ : a ≠ b := by
        rintro rfl
        rw [earlier] at later
        cases later
      simp [differ]
    | false => simp [Coord.eq_of_not_before earlier later]

theorem orders_paths : Orders pathNotAfter where
  total p q := by
    induction p generalizing q with
    | nil => simp [pathNotAfter]
    | cons a p ih =>
      cases q with
      | nil => simp [pathNotAfter]
      | cons b q =>
        rw [Bool.or_eq_true, pathNotAfter_cons, pathNotAfter_cons]
        cases earlier : a.before b with
        | true => exact .inl (.inl rfl)
        | false =>
          cases later : b.before a with
          | true => exact .inr (.inl rfl)
          | false =>
            have same := Coord.eq_of_not_before earlier later
            obtain least | most := Bool.or_eq_true_iff.mp (ih q)
            · exact .inl (.inr ⟨same, least⟩)
            · exact .inr (.inr ⟨same.symm, most⟩)
  trans p q r first second := by
    induction p generalizing q r with
    | nil => rfl
    | cons a p ih =>
      cases q with
      | nil => cases first
      | cons b q =>
        cases r with
        | nil => cases second
        | cons c r =>
          rw [pathNotAfter_cons] at first second ⊢
          obtain earlier | ⟨rfl, least⟩ := first
          · obtain later | ⟨rfl, -⟩ := second
            · exact .inl (Coord.before_trans earlier later)
            · exact .inl earlier
          · obtain later | ⟨rfl, most⟩ := second
            · exact .inl later
            · exact .inr ⟨rfl, ih q r least most⟩

theorem eq_of_pathNotAfter {p q : List Coord} (least : pathNotAfter p q = true)
    (most : pathNotAfter q p = true) : p = q := by
  induction p generalizing q with
  | nil =>
    cases q with
    | nil => rfl
    | cons => cases most
  | cons a p ih =>
    cases q with
    | nil => cases least
    | cons b q =>
      rw [pathNotAfter_cons] at least most
      obtain earlier | ⟨rfl, least⟩ := least
      · obtain later | ⟨rfl, -⟩ := most
        · rw [Coord.not_before_of_before earlier] at later
          cases later
        · rw [Coord.not_before_of_before earlier] at earlier
          cases earlier
      · obtain later | ⟨-, most⟩ := most
        · rw [Coord.not_before_of_before later] at later
          cases later
        · rw [ih least most]

theorem sorted_paths_eq {paths others : List (List Coord)} (same : paths.Perm others) :
    paths.mergeSort pathNotAfter = others.mergeSort pathNotAfter :=
  orders_paths.sorted_eq (fun _ _ _ _ least most => eq_of_pathNotAfter least most) same

namespace Geometry

/-- A line and the same line turned around have one form. -/
theorem normalizeLine_reverse (line : List Coord) :
    normalizeLine line.reverse = normalizeLine line := by
  rw [normalizeLine, normalizeLine, List.reverse_reverse]
  by_cases least : pathNotAfter line line.reverse = true
  · rw [if_pos least]
    split
    · rename_i most
      exact eq_of_pathNotAfter most least
    · rfl
  · rw [if_neg least]
    obtain turned | most := Bool.or_eq_true_iff.mp (orders_paths.total line line.reverse)
    · exact absurd turned least
    · rw [if_pos most]

end Geometry

end MotionImagery
