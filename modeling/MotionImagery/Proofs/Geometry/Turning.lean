import MotionImagery.Proofs.Geometry.Ordering
import MotionImagery.Geometry.Exact
import Mathlib.Algebra.Ring.Int.Defs
import Mathlib.Data.List.Rotate
import Mathlib.Tactic.Ring

/-!
Rings that are begun at another of their coordinates, or gone along the other way. Their area keeps
its size, and changes its sign when the ring is turned around; where one coordinate comes before
all others, they are begun at the same place again.
-/
namespace MotionImagery.Geometry

/-- A path and back to where it started. -/
def around {α : Type} (path : List α) : List α := path ++ path.take 1

theorem map_around {α β : Type} (f : α → β) (path : List α) :
    (around path).map f = around (path.map f) := by
  rw [around, around, List.map_append, List.map_take]

/-- A restarted list has its two parts in the other order. -/
theorem exists_parts {α : Type} {path other : List α} (rotated : path ~r other) :
    ∃ front back, path = front ++ back ∧ other = back ++ front := by
  obtain ⟨n, rfl⟩ := rotated
  exact ⟨path.take (n % path.length), path.drop (n % path.length),
    (List.take_append_drop _ _).symm, List.rotate_eq_drop_append_take_mod⟩

section Area
variable {α : Type} [CommRing α]

theorem shoelace_go (sum : α) (a : α × α) (rest : List (α × α)) :
    shoelace.go sum a rest = sum + shoelace.go 0 a rest := by
  induction rest generalizing sum a with
  | nil => simp [shoelace.go]
  | cons b rest ih =>
    rw [shoelace.go, shoelace.go, ih, ih (0 + _), zero_add, add_assoc]

theorem shoelace_cons (a b : α × α) (rest : List (α × α)) :
    shoelace (0 : α) (a :: b :: rest) =
      (a.1 * b.2 - b.1 * a.2) + shoelace (0 : α) (b :: rest) := by
  rw [shoelace, shoelace.go, shoelace_go, zero_add]
  cases rest <;> rfl

/-- The area can be summed up in two parts that share a coordinate. -/
theorem shoelace_append (front : List (α × α)) (b : α × α) (back : List (α × α)) :
    shoelace (0 : α) (front ++ b :: back) =
      shoelace (0 : α) (front ++ [b]) + shoelace (0 : α) (b :: back) := by
  induction front with
  | nil => exact (zero_add _).symm
  | cons a front ih =>
    cases front with
    | nil =>
      simp only [List.cons_append, List.nil_append, shoelace_cons]
      rw [show shoelace (0 : α) [b] = 0 from rfl, add_zero]
    | cons c front =>
      simp only [List.cons_append, shoelace_cons] at ih ⊢
      rw [ih, add_assoc]

theorem shoelace_reverse (path : List (α × α)) :
    shoelace (0 : α) path.reverse = -shoelace (0 : α) path := by
  induction path with
  | nil => exact neg_zero.symm
  | cons a path ih =>
    cases path with
    | nil => exact neg_zero.symm
    | cons b path =>
      rw [List.reverse_cons, List.reverse_cons, List.append_assoc, List.singleton_append,
        shoelace_append, ← List.reverse_cons, ih, shoelace_cons, shoelace_cons,
        show shoelace (0 : α) [a] = 0 from rfl]
      ring

theorem shoelace_around {path other : List (α × α)} (rotated : path ~r other) :
    shoelace (0 : α) (around path) = shoelace (0 : α) (around other) := by
  obtain ⟨front, back, rfl, rfl⟩ := exists_parts rotated
  cases front with
  | nil => rw [List.nil_append, List.append_nil]
  | cons a front =>
    cases back with
    | nil => rw [List.nil_append, List.append_nil]
    | cons b back =>
      have split : ∀ (c d : α × α) (p q : List (α × α)),
          shoelace (0 : α) (around ((c :: p) ++ d :: q)) =
            shoelace (0 : α) ((c :: p) ++ [d]) + shoelace (0 : α) ((d :: q) ++ [c]) := by
        intro c d p q
        rw [around, List.append_assoc, List.cons_append (a := d), shoelace_append]
        rfl
      rw [split, split, add_comm]

end Area

/-- Twice the area of a ring, counted in squares of the least positive number. -/
def exactArea (ring : List Coord) : Int :=
  shoelace 0 (ring.map fun c => (exact c.x, exact c.y))

/-- The sense of a ring by exact arithmetic. -/
def turnsLeft (ring : List Coord) : Bool := decide (0 < exactArea ring)

theorem exactArea_around {path other : List Coord} (rotated : path ~r other) :
    exactArea (around path) = exactArea (around other) := by
  rw [exactArea, exactArea, map_around, map_around]
  exact shoelace_around (rotated.map _)

theorem turnsLeft_reverse {ring : List Coord} (encloses : exactArea ring ≠ 0) :
    turnsLeft ring ≠ turnsLeft ring.reverse := by
  have negated : exactArea ring.reverse = -exactArea ring := by
    rw [exactArea, List.map_reverse, shoelace_reverse, exactArea]
  rw [turnsLeft, turnsLeft, negated, Ne, decide_eq_decide]
  omega

section Beginning
variable {least : Coord} {path rest : List Coord}

theorem smallestIndex_go_after (later : ∀ c ∈ rest, least.before c = true) (best index : Nat) :
    smallestIndex.go best least index rest = best := by
  induction rest generalizing index with
  | nil => rfl
  | cons c rest ih =>
    obtain ⟨head, tail⟩ := List.forall_mem_cons.mp later
    rw [smallestIndex.go, if_neg (by simp [Coord.not_before_of_before head]), ih tail]

/-- What comes before all others is met where it stands. -/
theorem smallestIndex_go_eq {front back : List Coord}
    (earlier : ∀ c ∈ front, least.before c = true) (later : ∀ c ∈ back, least.before c = true)
    {smallest : Coord} (first : least.before smallest = true) (best index : Nat) :
    smallestIndex.go best smallest index (front ++ least :: back) = index + front.length := by
  induction front generalizing best smallest index with
  | nil => rw [List.nil_append, smallestIndex.go, if_pos first, smallestIndex_go_after later]; rfl
  | cons c front ih =>
    obtain ⟨head, tail⟩ := List.forall_mem_cons.mp earlier
    rw [List.cons_append, smallestIndex.go, List.length_cons]
    split
    · rw [ih tail head]
      omega
    · rw [ih tail first]
      omega

theorem smallestIndex_eq {front back : List Coord}
    (earlier : ∀ c ∈ front, least.before c = true) (later : ∀ c ∈ back, least.before c = true) :
    smallestIndex (front ++ least :: back) = front.length := by
  cases front with
  | nil => exact smallestIndex_go_after later 0 1
  | cons c front =>
    obtain ⟨head, tail⟩ := List.forall_mem_cons.mp earlier
    rw [List.cons_append, smallestIndex, smallestIndex_go_eq tail later head, List.length_cons,
      Nat.add_comm]

/-- A ring, begun where its smallest coordinate is first met. -/
def begun (ring : List Coord) : List Coord :=
  let path := ring.dropLast
  around (path.drop (smallestIndex path) ++ path.take (smallestIndex path))

theorem dropLast_around (path : List Coord) : (around path).dropLast = path := by
  cases path with
  | nil => rfl
  | cons a path => exact List.dropLast_concat

theorem begun_split {front back : List Coord} (earlier : ∀ c ∈ front, least.before c = true)
    (later : ∀ c ∈ back, least.before c = true) :
    begun (around (front ++ least :: back)) = around (least :: (back ++ front)) := by
  rw [begun, dropLast_around, smallestIndex_eq earlier later, List.drop_left, List.take_left,
    List.cons_append]

/-- A ring goes around the same way, wherever it was begun. -/
theorem begun_around (rotated : path ~r least :: rest)
    (before : ∀ c ∈ rest, least.before c = true) :
    begun (around path) = around (least :: rest) := by
  obtain ⟨back, front, whole, rfl⟩ := exists_parts rotated.symm
  -- The smallest coordinate leads the part that came last, or the whole of it.
  obtain ⟨rfl, rfl⟩ | ⟨back, rfl, rfl⟩ := List.cons_eq_append_iff.mp whole
  · simpa using begun_split (List.forall_mem_nil _) before
  · obtain ⟨later, earlier⟩ := List.forall_mem_append.mp before
    exact begun_split earlier later

theorem exactArea_begun (path : List Coord) :
    exactArea (begun (around path)) = exactArea (around path) := by
  have turned : path.drop (smallestIndex path) ++ path.take (smallestIndex path) ~r path := by
    conv_rhs => rw [← List.take_append_drop (smallestIndex path) path]
    exact List.isRotated_append
  rw [begun, dropLast_around]
  exact exactArea_around turned

theorem reverse_around (a : Coord) (path : List Coord) :
    (around (a :: path)).reverse = around (a :: path.reverse) := by
  simp [around]

/-- The ring turned around, begun at its smallest coordinate. -/
theorem begun_reverse (rotated : path ~r least :: rest)
    (before : ∀ c ∈ rest, least.before c = true) :
    begun (around path).reverse = (begun (around path)).reverse := by
  rw [begun_around rotated before, reverse_around]
  cases path with
  | nil => exact absurd rotated.perm.length_eq (by simp)
  | cons a path =>
    have turned : a :: path.reverse ~r least :: rest.reverse := by
      have backwards := rotated.reverse
      rw [List.reverse_cons, List.reverse_cons] at backwards
      exact (List.isRotated_concat a path.reverse).symm.trans
        (backwards.trans (List.isRotated_concat least rest.reverse))
    rw [reverse_around]
    exact begun_around turned fun c member => before c (List.mem_reverse.mp member)

end Beginning

/-- One coordinate comes before all others. -/
def HasLeast (path : List Coord) : Prop :=
  ∃ front least back, path = front ++ least :: back ∧
    ∀ c ∈ front ++ back, least.before c = true

/-- A ring has a normal form of its own when it is closed and its smallest vertex is met once. -/
structure Turnable (ring : List Coord) : Prop where
  closed : isClosed ring = true
  long : leastRing ≤ ring.length
  least : HasLeast ring.dropLast

theorem HasLeast.exists_begun {path : List Coord} (least : HasLeast path) :
    ∃ least rest, path ~r least :: rest ∧ ∀ c ∈ rest, least.before c = true := by
  obtain ⟨front, least, back, rfl, before⟩ := least
  refine ⟨least, back ++ front, List.isRotated_append, fun c member => before c ?_⟩
  exact List.perm_append_comm.mem_iff.mp member

section Plain
variable {ring path : List Coord}

theorem isClosed_concat (a b : Coord) (path : List Coord) :
    isClosed ((a :: path) ++ [b]) = (a == b) := by
  rw [isClosed, List.getLast?_concat]
  rfl

theorem exists_ends (long : 2 ≤ ring.length) :
    ∃ first path last, ring = (first :: path) ++ [last] := by
  cases ring with
  | nil => cases long
  | cons first rest =>
    obtain rfl | ⟨path, last, rfl⟩ := List.eq_nil_or_concat' rest
    · simp at long
    · exact ⟨first, path, last, rfl⟩

/-- A closed ring of plain coordinates ends where it starts. -/
theorem eq_around (plain : ∀ c ∈ ring, c.isPlain = true) (closed : isClosed ring = true)
    (long : 2 ≤ ring.length) : ring = around ring.dropLast := by
  obtain ⟨first, path, last, rfl⟩ := exists_ends long
  rw [isClosed_concat] at closed
  have same : first = last := Coord.eq_of_isPlain (plain first (by simp)) (plain last (by simp))
    closed
  rw [List.dropLast_concat, same]
  rfl

theorem Turnable.eq_around (turnable : Turnable ring) (plain : ∀ c ∈ ring, c.isPlain = true) :
    ring = around ring.dropLast :=
  Geometry.eq_around plain turnable.closed (Nat.le_trans (by decide) turnable.long)

theorem plain_dropLast (plain : ∀ c ∈ ring, c.isPlain = true) :
    ∀ c ∈ ring.dropLast, c.isPlain = true :=
  fun c member => plain c (List.mem_of_mem_dropLast member)

theorem isClosed_around (alike : ∀ c ∈ path, (c == c) = true) : isClosed (around path) = true := by
  cases path with
  | nil => rfl
  | cons a path => exact (isClosed_concat a a path).trans (alike a List.mem_cons_self)

theorem normalizeRing_of_closed (counterclockwise : List Coord → Bool) (clockwise : Bool)
    (closed : isClosed ring = true) (long : leastRing ≤ ring.length) :
    normalizeRing counterclockwise clockwise ring =
      if counterclockwise (begun ring) = clockwise then (begun ring).reverse else begun ring := by
  rw [normalizeRing, closed, if_neg (by simpa using long)]
  rfl

theorem normalizeRing_around (counterclockwise : List Coord → Bool) (clockwise : Bool)
    (plain : ∀ c ∈ path, c.isPlain = true) (long : leastRing ≤ (around path).length) :
    normalizeRing counterclockwise clockwise (around path) =
      if counterclockwise (begun (around path)) = clockwise then (begun (around path)).reverse
      else begun (around path) :=
  normalizeRing_of_closed _ _
    (isClosed_around fun c member => Coord.beq_self_of_isPlain (plain c member)) long

theorem length_around {path other : List Coord} (same : path.length = other.length) :
    (around path).length = (around other).length := by
  simp [around, same]

variable (counterclockwise : List Coord → Bool) (clockwise : Bool)

theorem normalizeRing_restart (plain : ∀ c ∈ ring, c.isPlain = true) (turnable : Turnable ring)
    (rotated : ring.dropLast ~r path) :
    normalizeRing counterclockwise clockwise (around path) =
      normalizeRing counterclockwise clockwise ring := by
  have long := turnable.long
  have inside := plain_dropLast plain
  have inside' : ∀ c ∈ path, c.isPlain = true :=
    fun c member => inside c (rotated.mem_iff.mpr member)
  obtain ⟨least, rest, begins, before⟩ := turnable.least.exists_begun
  rw [turnable.eq_around plain] at long ⊢
  rw [normalizeRing_around _ _ inside long,
    normalizeRing_around _ _ inside' (length_around rotated.perm.length_eq ▸ long),
    begun_around begins before, begun_around (rotated.symm.trans begins) before]

theorem orient_reverse (told : counterclockwise ring ≠ counterclockwise ring.reverse) :
    (if counterclockwise ring.reverse = clockwise then ring.reverse.reverse else ring.reverse) =
      if counterclockwise ring = clockwise then ring.reverse else ring := by
  rw [List.reverse_reverse, Bool.eq_not.mpr told.symm]
  cases counterclockwise ring <;> cases clockwise <;> rfl

/-- A ring and the ring turned around are alike, if the sense tells which of them is which. -/
theorem normalizeRing_reverse (plain : ∀ c ∈ ring, c.isPlain = true) (turnable : Turnable ring)
    (told : counterclockwise (begun ring) ≠ counterclockwise (begun ring).reverse) :
    normalizeRing counterclockwise clockwise ring.reverse =
      normalizeRing counterclockwise clockwise ring := by
  have long := turnable.long
  have whole := turnable.eq_around plain
  have inside := plain_dropLast plain
  obtain ⟨least, rest, begins, before⟩ := turnable.least.exists_begun
  clear plain turnable
  generalize ring.dropLast = path at *
  subst whole
  cases path with
  | nil => exact absurd long (by decide)
  | cons a path =>
    have inside' : ∀ c ∈ a :: path.reverse, c.isPlain = true := fun c member =>
      inside c (((List.reverse_perm path).cons a).mem_iff.mp member)
    rw [normalizeRing_around _ _ inside long, reverse_around,
      normalizeRing_around _ _ inside' (by simpa [around] using long), ← reverse_around,
      begun_reverse begins before]
    exact orient_reverse counterclockwise clockwise told

theorem turnsLeft_begun (plain : ∀ c ∈ ring, c.isPlain = true) (turnable : Turnable ring)
    (encloses : exactArea ring ≠ 0) : turnsLeft (begun ring) ≠ turnsLeft (begun ring).reverse := by
  rw [turnable.eq_around plain] at encloses ⊢
  rw [← exactArea_begun] at encloses
  exact turnsLeft_reverse encloses

end Plain

end MotionImagery.Geometry
