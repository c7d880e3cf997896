import MotionImagery.Geometry.Validity
import MotionImagery.Proofs.Geometry.Canonical

/-!
Normal forms, and that a geometry which has its normal form is left alone. A ring in normal form is
begun at a smallest coordinate, which it may meet more than once, and its sense is not the one that
it is turned around for. That a ring loses that sense when it is turned around is all that has to be
known of the test of senses.
-/
namespace MotionImagery.Geometry

/-! The exact value of a number does not show the sign of a zero. -/

theorem exact_eq_zero {number : Float}
    (zero : number.toBits.toNat = 0 ∨ number.toBits.toNat = Nat.pow 2 63) : exact number = 0 := by
  rw [exact, Decimal.Binary.ofFloat]
  obtain none | negative := zero
  · rw [none]
    rfl
  · rw [negative]
    rfl

theorem exact_eq_of_beq {a b : Float} (finite : a.isFinite = true) (equal : (a == b) = true) :
    exact a = exact b := by
  obtain same | ⟨sign, sign', zero, zero'⟩ := eq_of_compare finite (beq_iff_compare.mp equal)
  · rw [eq_of_toBits (UInt64.toBitVec_inj.mp (Word.eq_of_unpack finite same))]
  · rw [exact_eq_zero (Word.eq_of_zero zero), exact_eq_zero (Word.eq_of_zero zero')]

/-! Closed rings of finite coordinates. -/

section Closing
variable {ring path : List Coord}

theorem beq_self_of_finite {c : Coord} (finite : c.isFinite = true) : (c == c) = true := by
  obtain ⟨x, y⟩ := Bool.and_eq_true_iff.mp finite
  exact Bool.and_eq_true_iff.mpr ⟨beq_self_of_isFinite x, beq_self_of_isFinite y⟩

theorem ofRings_of_isClosed {interiors : List (List Coord)} (shell : isClosed ring = true)
    (holes : ∀ hole ∈ interiors, isClosed hole = true) :
    Polygon.ofRings ring interiors = ⟨ring, interiors⟩ := by
  have kept : ∀ hole ∈ interiors, close hole = hole := fun hole inside => if_pos (holes hole inside)
  rw [Polygon.ofRings, List.map_congr_left kept, List.map_id', close, if_pos shell]

theorem isClosed_close (finite : ∀ c ∈ path, c.isFinite = true) : isClosed (close path) = true := by
  rw [close]
  split
  · assumption
  · exact isClosed_around fun c member => beq_self_of_finite (finite c member)

/-- A ring that is closed by value has the area of the ring that ends exactly where it starts. -/
theorem exactArea_of_isClosed (finite : ∀ c ∈ ring, c.isFinite = true)
    (closed : isClosed ring = true) (long : 2 ≤ ring.length) :
    exactArea ring = exactArea (around ring.dropLast) := by
  obtain ⟨first, path, last, rfl⟩ := exists_ends long
  rw [isClosed_concat] at closed
  obtain ⟨x, y⟩ := Bool.and_eq_true_iff.mp closed
  obtain ⟨finiteX, finiteY⟩ := Bool.and_eq_true_iff.mp (finite first (by simp))
  rw [List.dropLast_concat, around, exactArea, exactArea, List.map_append, List.map_append,
    List.map_singleton, ← exact_eq_of_beq finiteX x, ← exact_eq_of_beq finiteY y]
  rfl

end Closing

/-! Where the smallest coordinate stands, and rings that are begun there. -/

section Rooted
variable {ring path rest : List Coord} {least : Coord}

/-- The place of a coordinate that no other comes before. -/
def IsPlaceOfLeast (path : List Coord) (index : Nat) : Prop :=
  ∃ front least back, path = front ++ least :: back ∧ index = front.length ∧
    ∀ c ∈ path, c.before least = false

theorem not_before_self (c : Coord) : c.before c = false := by
  cases early : c.before c with
  | false => rfl
  | true => exact early.symm.trans (Coord.not_before_of_before early)

theorem not_before_trans {a b c : Coord} (early : a.before b = true) (least : c.before b = false) :
    c.before a = false := by
  cases earlier : c.before a with
  | false => rfl
  | true => exact (Coord.before_trans earlier early).symm.trans least

/-- What has been met so far keeps its smallest coordinate in sight. -/
theorem isPlaceOfLeast_go (smallest : Coord) (front middle rest : List Coord)
    (least : ∀ c ∈ front ++ smallest :: middle, c.before smallest = false) :
    IsPlaceOfLeast (front ++ smallest :: middle ++ rest)
      (smallestIndex.go front.length smallest (front ++ smallest :: middle).length rest) := by
  induction rest generalizing smallest front middle with
  | nil =>
    rw [List.append_nil]
    exact ⟨front, smallest, middle, rfl, rfl, least⟩
  | cons c rest ih =>
    rw [smallestIndex.go]
    split
    · rename_i early
      have lower : ∀ d ∈ (front ++ smallest :: middle) ++ [c], d.before c = false := by
        rw [List.forall_mem_append, List.forall_mem_singleton]
        exact ⟨fun d member => not_before_trans early (least d member), not_before_self c⟩
      have next := ih c (front ++ smallest :: middle) [] lower
      simpa [Nat.add_assoc] using next
    · rename_i late
      have still : ∀ d ∈ front ++ smallest :: (middle ++ [c]), d.before smallest = false := by
        rw [← List.cons_append, ← List.append_assoc, List.forall_mem_append,
          List.forall_mem_singleton]
        exact ⟨least, Bool.eq_false_iff.mpr late⟩
      have next := ih smallest front (middle ++ [c]) still
      simpa [Nat.add_assoc] using next

theorem isPlaceOfLeast_smallestIndex (some : path ≠ []) :
    IsPlaceOfLeast path (smallestIndex path) := by
  cases path with
  | nil => exact absurd rfl some
  | cons first rest =>
    exact isPlaceOfLeast_go first [] [] rest (List.forall_mem_singleton.mpr (not_before_self first))

/-- A ring that is begun at a coordinate which no other comes before. -/
def Rooted (ring : List Coord) : Prop :=
  ∃ least rest, ring = around (least :: rest) ∧ ∀ c ∈ rest, c.before least = false

theorem rooted_begun (some : ring.dropLast ≠ []) : Rooted (begun ring) := by
  obtain ⟨front, least, back, shape, place, before⟩ := isPlaceOfLeast_smallestIndex some
  refine ⟨least, back ++ front, ?_, fun c member => before c ?_⟩
  · rw [begun, place, shape, List.drop_left, List.take_left, List.cons_append]
  · rw [shape]
    simp only [List.mem_append, List.mem_cons] at member ⊢
    tauto

theorem Rooted.reverse (rooted : Rooted ring) : Rooted ring.reverse := by
  obtain ⟨least, rest, rfl, before⟩ := rooted
  exact ⟨least, rest.reverse, reverse_around least rest,
    fun c member => before c (List.mem_reverse.mp member)⟩

theorem smallestIndex_go_first (before : ∀ c ∈ rest, c.before least = false) (best index : Nat) :
    smallestIndex.go best least index rest = best := by
  induction rest generalizing index with
  | nil => rfl
  | cons c rest ih =>
    obtain ⟨head, tail⟩ := List.forall_mem_cons.mp before
    rw [smallestIndex.go, if_neg (by simp [head]), ih tail]

theorem Rooted.begun_eq (rooted : Rooted ring) : begun ring = ring := by
  obtain ⟨least, rest, rfl, before⟩ := rooted
  rw [begun, dropLast_around, smallestIndex, smallestIndex_go_first before]
  exact congrArg around (List.append_nil _)

end Rooted

/-! Normal forms. -/

section Normal
variable (counterclockwise : List Coord → Bool)

structure NormalRing (clockwise : Bool) (ring : List Coord) : Prop where
  closed : isClosed ring = true
  rooted : leastRing ≤ ring.length → Rooted ring
  sense : leastRing ≤ ring.length → counterclockwise ring ≠ clockwise

structure NormalPolygon (p : Polygon) : Prop where
  shell : NormalRing counterclockwise true p.exterior
  holes : ∀ hole ∈ p.interiors, NormalRing counterclockwise false hole
  sorted : p.interiors.Pairwise fun a b => pathNotAfter a b = true

inductive Normal : Geometry → Prop
  | point (position : Coord) : Normal (point position)
  | line (start stop : Coord) : Normal (line start stop)
  | lineString {path : List Coord} (forward : pathNotAfter path path.reverse = true) :
      Normal (lineString path)
  | polygon {p : Polygon} (normal : NormalPolygon counterclockwise p) : Normal (polygon p)
  | multiPoint {points : List Coord} (sorted : points.Pairwise fun a b => a.notAfter b = true) :
      Normal (multiPoint points)
  | multiLineString {lines : List (List Coord)}
      (forward : ∀ path ∈ lines, pathNotAfter path path.reverse = true)
      (sorted : lines.Pairwise fun a b => pathNotAfter a b = true) : Normal (multiLineString lines)
  | multiPolygon {polygons : List Polygon}
      (normal : ∀ p ∈ polygons, NormalPolygon counterclockwise p)
      (sorted : polygons.Pairwise fun p q => pathNotAfter p.exterior q.exterior = true) :
      Normal (multiPolygon polygons)
  | collection {members : List Geometry} (normal : ∀ member ∈ members, Normal member) :
      Normal (collection members)

end Normal

variable {counterclockwise : List Coord → Bool} {clockwise : Bool} {ring : List Coord} {p : Polygon}

/-! Normal forms are left alone. -/

/-- Sorting does nothing to items that are in order and that are not changed. -/
theorem sorted_map_eq {α : Type} {f : α → α} {notAfter : α → α → Bool} {items : List α}
    (fixed : ∀ item ∈ items, f item = item)
    (sorted : items.Pairwise fun a b => notAfter a b = true) :
    (items.map f).mergeSort notAfter = items := by
  rw [List.map_congr_left fixed, List.map_id', List.mergeSort_of_pairwise sorted]

theorem normalizeLine_of_forward {path : List Coord}
    (forward : pathNotAfter path path.reverse = true) : normalizeLine path = path := if_pos forward

theorem normalizeRing_of_short (counterclockwise : List Coord → Bool) (clockwise : Bool)
    (short : ring.length < leastRing) :
    normalizeRing counterclockwise clockwise ring = ring := by
  rw [normalizeRing, if_pos (by simp [short])]

theorem NormalRing.normalizeRing_eq (normal : NormalRing counterclockwise clockwise ring) :
    normalizeRing counterclockwise clockwise ring = ring := by
  by_cases long : leastRing ≤ ring.length
  · rw [normalizeRing_of_closed _ _ normal.closed long, (normal.rooted long).begun_eq,
      if_neg (normal.sense long)]
  · exact normalizeRing_of_short _ _ (Nat.lt_of_not_le long)

theorem NormalPolygon.normalizePolygon_eq (normal : NormalPolygon counterclockwise p) :
    normalizePolygon counterclockwise p = p := by
  rw [normalizePolygon, normal.shell.normalizeRing_eq,
    sorted_map_eq (fun hole inside => (normal.holes hole inside).normalizeRing_eq) normal.sorted]
  exact ofRings_of_isClosed normal.shell.closed fun hole inside => (normal.holes hole inside).closed

theorem Normal.normalizeWith_eq {g : Geometry} (normal : Normal counterclockwise g) :
    normalizeWith counterclockwise g = g := by
  induction normal with
  | point | line => rw [normalizeWith]
  | lineString forward => rw [normalizeWith, normalizeLine_of_forward forward]
  | polygon normal => rw [normalizeWith, normal.normalizePolygon_eq]
  | multiPoint sorted => rw [normalizeWith, List.mergeSort_of_pairwise sorted]
  | multiLineString forward sorted =>
    rw [normalizeWith,
      sorted_map_eq (fun path inside => normalizeLine_of_forward (forward path inside)) sorted]
  | multiPolygon normal sorted =>
    rw [normalizeWith,
      sorted_map_eq (fun p inside => (normal p inside).normalizePolygon_eq) sorted]
  | collection normal ih =>
    rw [normalizeWith, normalizeAll_eq, List.map_congr_left ih, List.map_id']

/-! Normalizing gives a normal form. -/

/-- Begun at its smallest coordinate, a ring of the sense for which it is turned around has another
one when it is turned around. -/
def Settles (counterclockwise : List Coord → Bool) (clockwise : Bool) (ring : List Coord) : Prop :=
  leastRing ≤ ring.length → counterclockwise (begun ring) = clockwise →
    counterclockwise (begun ring).reverse ≠ clockwise

theorem dropLast_ne_nil (long : leastRing ≤ ring.length) : ring.dropLast ≠ [] := by
  intro none
  have short := congrArg List.length none
  rw [List.length_dropLast, List.length_nil] at short
  rw [leastRing] at long
  omega

theorem begun_subset (ring : List Coord) : begun ring ⊆ ring := by
  intro c member
  have inside := (List.mem_append.mp member).elim id fun first => List.mem_of_mem_take first
  refine List.mem_of_mem_dropLast ((List.mem_append.mp inside).elim ?_ ?_)
  · exact List.mem_of_mem_drop
  · exact List.mem_of_mem_take

theorem normalRing_normalizeRing (finite : ∀ c ∈ ring, c.isFinite = true)
    (closed : isClosed ring = true) (settles : Settles counterclockwise clockwise ring) :
    NormalRing counterclockwise clockwise (normalizeRing counterclockwise clockwise ring) := by
  by_cases long : leastRing ≤ ring.length
  · have rooted := rooted_begun (dropLast_ne_nil long)
    have ends : ∀ {turned : List Coord}, Rooted turned → turned ⊆ ring →
        isClosed turned = true := by
      rintro _ ⟨least, rest, rfl, -⟩ inside
      exact isClosed_around fun c member =>
        beq_self_of_finite (finite c (inside (List.mem_append_left _ member)))
    rw [normalizeRing_of_closed _ _ closed long]
    split
    · rename_i sense
      have inside : (begun ring).reverse ⊆ ring :=
        List.Subset.trans (List.reverse_perm _).subset (begun_subset ring)
      exact ⟨ends rooted.reverse inside, fun _ => rooted.reverse, fun _ => settles long sense⟩
    · rename_i sense
      exact ⟨ends rooted (begun_subset ring), fun _ => rooted, fun _ => sense⟩
  · rw [normalizeRing_of_short _ _ (Nat.lt_of_not_le long)]
    exact ⟨closed, fun there => absurd there long, fun there => absurd there long⟩

/-- A polygon of closed rings that settle. -/
structure Steady (counterclockwise : List Coord → Bool) (p : Polygon) : Prop where
  finite : ∀ ring ∈ p.rings, ∀ c ∈ ring, c.isFinite = true
  closed : ∀ ring ∈ p.rings, isClosed ring = true
  shell : Settles counterclockwise true p.exterior
  holes : ∀ hole ∈ p.interiors, Settles counterclockwise false hole

theorem normalPolygon_normalizePolygon (steady : Steady counterclockwise p) :
    NormalPolygon counterclockwise (normalizePolygon counterclockwise p) := by
  have shell := normalRing_normalizeRing (steady.finite _ List.mem_cons_self)
    (steady.closed _ List.mem_cons_self) steady.shell
  have holes : ∀ hole ∈ (p.interiors.map (normalizeRing counterclockwise false)).mergeSort
      pathNotAfter, NormalRing counterclockwise false hole := by
    intro hole member
    obtain ⟨ring, inside, rfl⟩ := List.mem_map.mp (List.mem_mergeSort.mp member)
    exact normalRing_normalizeRing (steady.finite _ (List.mem_cons_of_mem _ inside))
      (steady.closed _ (List.mem_cons_of_mem _ inside)) (steady.holes ring inside)
  rw [normalizePolygon,
    ofRings_of_isClosed shell.closed fun hole inside => (holes hole inside).closed]
  exact ⟨shell, holes, List.pairwise_mergeSort orders_paths.trans orders_paths.total _⟩

theorem normalizeLine_forward (path : List Coord) :
    pathNotAfter (normalizeLine path) (normalizeLine path).reverse = true := by
  rw [normalizeLine]
  split
  · assumption
  · rename_i backward
    rw [List.reverse_reverse]
    exact (Bool.or_eq_true_iff.mp (orders_paths.total path path.reverse)).resolve_left backward

mutual

/-- The polygons that a geometry consists of, in all its members. -/
def areas : Geometry → List Polygon
  | polygon p => [p]
  | multiPolygon polygons => polygons
  | rect low high => [.rectangle low high]
  | triangle a b c => [.triangle a b c]
  | collection members => areasOfAll members
  | point _ | line _ _ | lineString _ | multiPoint _ | multiLineString _ => []

def areasOfAll : List Geometry → List Polygon
  | [] => []
  | member :: rest => areas member ++ areasOfAll rest

end

theorem areasOfAll_eq (members : List Geometry) : areasOfAll members = members.flatMap areas := by
  induction members with
  | nil => rfl
  | cons member rest ih => rw [areasOfAll, ih, List.flatMap_cons]

theorem normal_normalizeWith (g : Geometry) (steady : ∀ p ∈ g.areas, Steady counterclockwise p) :
    Normal counterclockwise (normalizeWith counterclockwise g) := by
  cases g with
  | point | line =>
    rw [normalizeWith]
    constructor
  | lineString path =>
    rw [normalizeWith]
    exact .lineString (normalizeLine_forward path)
  | polygon | rect | triangle =>
    rw [normalizeWith]
    exact .polygon (normalPolygon_normalizePolygon (steady _ List.mem_cons_self))
  | multiPoint points =>
    rw [normalizeWith]
    exact .multiPoint (List.pairwise_mergeSort Coord.orders.trans Coord.orders.total points)
  | multiLineString lines =>
    rw [normalizeWith]
    refine .multiLineString (fun line member => ?_)
      (List.pairwise_mergeSort orders_paths.trans orders_paths.total _)
    obtain ⟨path, -, rfl⟩ := List.mem_map.mp (List.mem_mergeSort.mp member)
    exact normalizeLine_forward path
  | multiPolygon polygons =>
    have orders := orders_paths.on Polygon.exterior
    rw [normalizeWith]
    refine .multiPolygon (fun q member => ?_) (List.pairwise_mergeSort orders.trans orders.total _)
    obtain ⟨p, inside, rfl⟩ := List.mem_map.mp (List.mem_mergeSort.mp member)
    exact normalPolygon_normalizePolygon (steady p inside)
  | collection members =>
    rw [areas, areasOfAll_eq] at steady
    rw [normalizeWith, normalizeAll_eq]
    refine .collection (List.forall_mem_map.mpr fun member inside => ?_)
    exact normal_normalizeWith member fun p there =>
      steady p (List.mem_flatMap.mpr ⟨member, inside, there⟩)

/-! Polygons whose rings settle. -/

/-- Made of rings, which are closed by that. -/
def Made (p : Polygon) : Prop := ∃ exterior interiors, p = .ofRings exterior interiors

theorem mem_close {path : List Coord} {c : Coord} : c ∈ close path ↔ c ∈ path := by
  rw [close]
  split
  · rfl
  · rw [List.mem_append]
    exact or_iff_left_of_imp List.mem_of_mem_take

theorem Made.isClosed (made : Made p) (finite : ∀ ring ∈ p.rings, ∀ c ∈ ring, c.isFinite = true) :
    ∀ ring ∈ p.rings, isClosed ring = true := by
  obtain ⟨exterior, interiors, rfl⟩ := made
  have closes : ∀ path, close path ∈ (Polygon.ofRings exterior interiors).rings →
      MotionImagery.isClosed (close path) = true :=
    fun path member => isClosed_close fun c inside => finite _ member c (mem_close.mpr inside)
  intro ring member
  obtain rfl | inside := List.mem_cons.mp member
  · exact closes exterior member
  · obtain ⟨path, -, rfl⟩ := List.mem_map.mp inside
    exact closes path member

theorem finite_areas (g : Geometry) (finite : ∀ c ∈ g.coords, c.isFinite = true) :
    ∀ p ∈ g.areas, ∀ ring ∈ p.rings, ∀ c ∈ ring, c.isFinite = true := by
  have alone : ∀ {path : List Coord}, (∀ c ∈ path, c.isFinite = true) →
      ∀ p ∈ [Polygon.ofRings path []], ∀ ring ∈ p.rings, ∀ c ∈ ring, c.isFinite = true := by
    intro path finite p member ring inside c there
    obtain rfl := List.mem_singleton.mp member
    obtain rfl := List.mem_singleton.mp inside
    exact finite c (mem_close.mp there)
  cases g with
  | point | line | lineString | multiPoint | multiLineString => exact List.forall_mem_nil _
  | polygon p =>
    rw [coords] at finite
    exact List.forall_mem_singleton.mpr fun ring inside c there =>
      finite c (List.mem_flatten.mpr ⟨ring, inside, there⟩)
  | multiPolygon polygons =>
    rw [coords] at finite
    exact fun p member ring inside c there =>
      finite c (List.mem_flatMap.mpr ⟨p, member, List.mem_flatten.mpr ⟨ring, inside, there⟩⟩)
  | rect low high =>
    refine alone ?_
    simp_all [coords, Coord.isFinite]
  | triangle a b d =>
    refine alone ?_
    simp_all [coords]
  | collection members =>
    rw [coords, coordsOfAll_eq] at finite
    rw [areas, areasOfAll_eq]
    intro p member
    obtain ⟨part, inside, there⟩ := List.mem_flatMap.mp member
    exact finite_areas part (fun c within =>
      finite c (List.mem_flatMap.mpr ⟨part, inside, within⟩)) p there

theorem exactArea_begun_of_isClosed (finite : ∀ c ∈ ring, c.isFinite = true)
    (closed : isClosed ring = true) (long : leastRing ≤ ring.length) :
    exactArea (begun ring) = exactArea ring := by
  have same : begun (around ring.dropLast) = begun ring := by rw [begun, begun, dropLast_around]
  rw [← same, exactArea_begun,
    exactArea_of_isClosed finite closed (Nat.le_trans (by decide) long)]

theorem settles_of_encloses (encloses : leastRing ≤ ring.length → exactArea (begun ring) ≠ 0) :
    Settles turnsLeft clockwise ring := by
  intro long sense
  rw [← sense]
  exact (turnsLeft_reverse (encloses long)).symm

/-- A shell is turned around only when it encloses something. -/
theorem settles_shell (ring : List Coord) : Settles turnsLeft true ring := by
  intro long sense
  have positive : 0 < exactArea (begun ring) := of_decide_eq_true sense
  rw [← sense]
  exact (turnsLeft_reverse positive.ne').symm

theorem normalizeWith_idem {g : Geometry} (steady : ∀ p ∈ g.areas, Steady counterclockwise p) :
    normalizeWith counterclockwise (normalizeWith counterclockwise g) =
      normalizeWith counterclockwise g :=
  (normal_normalizeWith g steady).normalizeWith_eq

/-- **Normalizing twice is normalizing once.** With exact sums it is enough that holes have an area;
shells need none. With rounded sums rings must lose their sense, as rounded, when they are turned
around, which a hole does not whose products are all rounded to zero. -/
theorem normalize_idempotent {g : Geometry} (finite : ∀ c ∈ g.coords, c.isFinite = true)
    (made : ∀ p ∈ g.areas, Made p) :
    ((∀ p ∈ g.areas, ∀ hole ∈ p.interiors, leastRing ≤ hole.length → exactArea hole ≠ 0) →
      normalizeWith turnsLeft (normalizeWith turnsLeft g) = normalizeWith turnsLeft g) ∧
    ((∀ p ∈ g.areas, Settles isCounterclockwise true p.exterior ∧
        ∀ hole ∈ p.interiors, Settles isCounterclockwise false hole) →
      normalize (normalize g) = normalize g) := by
  have finites := finite_areas g finite
  have closed : ∀ p ∈ g.areas, ∀ ring ∈ p.rings, isClosed ring = true :=
    fun p member => (made p member).isClosed (finites p member)
  constructor
  · intro encloses
    refine normalizeWith_idem fun p member =>
      ⟨finites p member, closed p member, settles_shell _, fun hole inside => ?_⟩
    have ring := List.mem_cons_of_mem p.exterior inside
    refine settles_of_encloses fun long => ?_
    rw [exactArea_begun_of_isClosed (finites p member hole ring) (closed p member hole ring) long]
    exact encloses p member hole inside long
  · intro settles
    exact normalizeWith_idem fun p member =>
      ⟨finites p member, closed p member, (settles p member).1, (settles p member).2⟩

namespace Sample

/-- A triangle of which no product is large enough to be told from zero. -/
def speck : List Coord := [⟨0.0, 0.0⟩, ⟨1e-200, 0.0⟩, ⟨0.0, 1e-200⟩, ⟨0.0, 0.0⟩]

/-- A square with a hole, closed by a zero of the other sign. -/
def yard : Polygon :=
  .ofRings [⟨4.0, 4.0⟩, ⟨0.0, 4.0⟩, ⟨0.0, 0.0⟩, ⟨4.0, 0.0⟩, ⟨4.0, 4.0⟩]
    [[⟨0.0, 1.0⟩, ⟨1.0, 2.0⟩, ⟨2.0, 1.0⟩, ⟨-0.0, 1.0⟩]]

def plan : Geometry :=
  collection [rect ⟨5.0, 0.0⟩ ⟨6.0, 1.0⟩,
    collection [polygon yard, triangle ⟨7.0, 0.0⟩ ⟨8.0, 0.0⟩ ⟨7.0, 1.0⟩], lineString lower]

theorem made_plan : ∀ p ∈ plan.areas, Made p := by
  change ∀ p ∈ [Polygon.rectangle _ _, yard, Polygon.triangle _ _ _], Made p
  simp only [List.forall_mem_cons, List.not_mem_nil, false_implies, implies_true, and_true]
  exact ⟨⟨_, _, rfl⟩, ⟨_, _, rfl⟩, ⟨_, _, rfl⟩⟩

end Sample

example : exactArea Sample.speck ≠ 0 ∧ isCounterclockwise (begun Sample.speck) = false ∧
    isCounterclockwise (begun Sample.speck).reverse = false := by decide +kernel

theorem sample_idempotent :
    (∀ c ∈ Sample.plan.coords, c.isFinite = true) ∧
    normalizeWith turnsLeft (normalizeWith turnsLeft Sample.plan) =
      normalizeWith turnsLeft Sample.plan ∧
    normalize (normalize Sample.plan) = normalize Sample.plan := by
  have finite : ∀ c ∈ Sample.plan.coords, c.isFinite = true := by decide +kernel
  have encloses : ∀ p ∈ Sample.plan.areas, ∀ hole ∈ p.interiors,
      leastRing ≤ hole.length → exactArea hole ≠ 0 := by decide +kernel
  have settles : ∀ p ∈ Sample.plan.areas, Settles isCounterclockwise true p.exterior ∧
      ∀ hole ∈ p.interiors, Settles isCounterclockwise false hole := by
    simp only [Settles]
    decide +kernel
  have idempotent := normalize_idempotent finite Sample.made_plan
  exact ⟨finite, idempotent.1 encloses, idempotent.2 settles⟩

end MotionImagery.Geometry
