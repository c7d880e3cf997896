import MotionImagery.Proofs.Geometry.Turning
import Mathlib.Logic.Relation

/-!
What a geometry looks like from outside does not depend on how it was written down: lines may be
turned around, rings begun elsewhere or gone along the other way, and points, lines, polygons and
holes listed in another order. All ways to write it have one normal form.
-/
namespace MotionImagery.Geometry

theorem coordsOfAll_eq (members : List Geometry) : coordsOfAll members = members.flatMap coords := by
  induction members with
  | nil => rfl
  | cons member rest ih => rw [coordsOfAll, ih, List.flatMap_cons]

theorem normalizeAll_eq (counterclockwise : List Coord → Bool) (members : List Geometry) :
    normalizeAll counterclockwise members = members.map (normalizeWith counterclockwise) := by
  induction members with
  | nil => rfl
  | cons member rest ih => rw [normalizeAll, ih, List.map_cons]

section Changes
variable (counterclockwise : List Coord → Bool) (oriented : List Coord → Prop)

/-- A ring is begun elsewhere or, if it is known to have a sense, gone along the other way. -/
inductive RingChange : List Coord → List Coord → Prop
  | restart {ring path : List Coord} (turnable : Turnable ring)
      (rotated : ring.dropLast ~r path) : RingChange ring (around path)
  | turn {ring : List Coord} (turnable : Turnable ring) (sense : oriented ring) :
      RingChange ring ring.reverse

inductive PolygonChange : Polygon → Polygon → Prop
  | shell {exterior other : List Coord} (interiors : List (List Coord))
      (change : RingChange oriented exterior other) :
      PolygonChange ⟨exterior, interiors⟩ ⟨other, interiors⟩
  | hole (exterior : List Coord) (front back : List (List Coord)) {ring other : List Coord}
      (change : RingChange oriented ring other) :
      PolygonChange ⟨exterior, front ++ ring :: back⟩ ⟨exterior, front ++ other :: back⟩
  | holes (exterior : List Coord) {interiors others : List (List Coord)}
      (reordered : interiors.Perm others) :
      PolygonChange ⟨exterior, interiors⟩ ⟨exterior, others⟩

/-- One change in how a geometry is written. Polygons may be reordered when no two of their
shells are the same ring. -/
inductive Change : Geometry → Geometry → Prop
  | turnLine (path : List Coord) : Change (lineString path) (lineString path.reverse)
  | turnMember (front back : List (List Coord)) (path : List Coord) :
      Change (multiLineString (front ++ path :: back))
        (multiLineString (front ++ path.reverse :: back))
  | points {points others : List Coord} (reordered : points.Perm others) :
      Change (multiPoint points) (multiPoint others)
  | lines {lines others : List (List Coord)} (reordered : lines.Perm others) :
      Change (multiLineString lines) (multiLineString others)
  | polygons {polygons others : List Polygon} (reordered : polygons.Perm others)
      (distinct : (polygons.map fun p => (normalizePolygon counterclockwise p).exterior).Nodup) :
      Change (multiPolygon polygons) (multiPolygon others)
  | polygon {p q : Polygon} (change : PolygonChange oriented p q) : Change (polygon p) (polygon q)
  | polygonMember (front back : List Polygon) {p q : Polygon}
      (change : PolygonChange oriented p q) :
      Change (multiPolygon (front ++ p :: back)) (multiPolygon (front ++ q :: back))
  | member (front back : List Geometry) {a b : Geometry} (change : Change a b) :
      Change (collection (front ++ a :: back)) (collection (front ++ b :: back))

end Changes

variable {counterclockwise : List Coord → Bool} {oriented : List Coord → Prop}

/-! A change brings no new coordinates. -/

theorem flatMap_subset_of_subset {α β : Type} {f : α → List β} {a b : α} (inside : f b ⊆ f a)
    (front back : List α) :
    (front ++ b :: back).flatMap f ⊆ (front ++ a :: back).flatMap f := by
  intro c member
  rw [List.flatMap_append, List.flatMap_cons, List.mem_append, List.mem_append] at member ⊢
  exact member.imp_right (Or.imp_left fun there => inside there)

theorem RingChange.subset {ring other : List Coord} (change : RingChange oriented ring other) :
    other ⊆ ring := by
  cases change with
  | restart _ rotated =>
    intro c member
    have inside := (List.mem_append.mp member).elim id fun first => List.mem_of_mem_take first
    exact List.mem_of_mem_dropLast (rotated.mem_iff.mpr inside)
  | turn => exact (List.reverse_perm ring).subset

theorem PolygonChange.subset {p q : Polygon} (change : PolygonChange oriented p q) :
    q.rings.flatten ⊆ p.rings.flatten := by
  rw [← List.flatMap_id, ← List.flatMap_id]
  cases change with
  | shell interiors change => exact flatMap_subset_of_subset change.subset [] interiors
  | hole exterior front back change =>
    exact flatMap_subset_of_subset change.subset (exterior :: front) back
  | holes exterior reordered => exact ((reordered.symm.cons exterior).flatMap_right id).subset

theorem Change.subset {g h : Geometry} (change : Change counterclockwise oriented g h) :
    h.coords ⊆ g.coords := by
  induction change with
  | turnLine path => exact (List.reverse_perm path).subset
  | turnMember front back path =>
    rw [coords, coords, ← List.flatMap_id, ← List.flatMap_id]
    exact flatMap_subset_of_subset (List.reverse_perm path).subset front back
  | points reordered => exact reordered.symm.subset
  | lines reordered => exact reordered.symm.flatten.subset
  | polygons reordered =>
    rw [coords, coords]
    exact (reordered.symm.flatMap_right _).subset
  | polygon change => exact change.subset
  | polygonMember front back change =>
    rw [coords, coords]
    exact flatMap_subset_of_subset (f := fun p => p.rings.flatten) change.subset front back
  | member front back _ ih =>
    rw [coords, coords, coordsOfAll_eq, coordsOfAll_eq]
    exact flatMap_subset_of_subset ih front back

/-! A change does not show in the normal form. -/

/-- The sense tells every plain ring that is known to have one from the ring turned around. -/
def Tells (counterclockwise : List Coord → Bool) (oriented : List Coord → Prop) : Prop :=
  ∀ ring : List Coord, (∀ c ∈ ring, c.isPlain = true) → Turnable ring → oriented ring →
    counterclockwise (begun ring) ≠ counterclockwise (begun ring).reverse

theorem RingChange.normalizeRing_eq (tells : Tells counterclockwise oriented) (clockwise : Bool)
    {ring other : List Coord} (change : RingChange oriented ring other)
    (plain : ∀ c ∈ ring, c.isPlain = true) :
    normalizeRing counterclockwise clockwise other =
      normalizeRing counterclockwise clockwise ring := by
  cases change with
  | restart turnable rotated =>
    exact normalizeRing_restart counterclockwise clockwise plain turnable rotated
  | turn turnable sense =>
    exact normalizeRing_reverse counterclockwise clockwise plain turnable
      (tells ring plain turnable sense)

theorem PolygonChange.normalizePolygon_eq (tells : Tells counterclockwise oriented)
    {p q : Polygon} (change : PolygonChange oriented p q)
    (plain : ∀ c ∈ p.rings.flatten, c.isPlain = true) :
    normalizePolygon counterclockwise q = normalizePolygon counterclockwise p := by
  have inside : ∀ ring ∈ p.rings, ∀ c ∈ ring, c.isPlain = true :=
    fun ring member c there => plain c (List.mem_flatten.mpr ⟨ring, member, there⟩)
  cases change with
  | shell interiors change =>
    rw [normalizePolygon, normalizePolygon,
      change.normalizeRing_eq tells true (inside _ List.mem_cons_self)]
  | hole exterior front back change =>
    rw [normalizePolygon, normalizePolygon, List.map_append, List.map_append, List.map_cons,
      List.map_cons, change.normalizeRing_eq tells false (inside _ (by simp [Polygon.rings]))]
  | holes exterior reordered =>
    rw [normalizePolygon, normalizePolygon, sorted_paths_eq (reordered.map _)]

theorem Change.normalizeWith_eq (tells : Tells counterclockwise oriented) {g h : Geometry}
    (change : Change counterclockwise oriented g h) (plain : ∀ c ∈ g.coords, c.isPlain = true) :
    normalizeWith counterclockwise h = normalizeWith counterclockwise g := by
  induction change with
  | turnLine path => rw [normalizeWith, normalizeWith, normalizeLine_reverse]
  | turnMember front back path =>
    rw [normalizeWith, normalizeWith, List.map_append, List.map_append, List.map_cons,
      List.map_cons, normalizeLine_reverse]
  | points reordered =>
    rw [normalizeWith, normalizeWith, Coord.orders.sorted_eq
      (fun _ _ _ _ least most => Coord.eq_of_notAfter least most) reordered]
  | lines reordered =>
    rw [normalizeWith, normalizeWith, sorted_paths_eq (reordered.map _)]
  | polygons reordered distinct =>
    rw [normalizeWith, normalizeWith, (orders_paths.on Polygon.exterior).sorted_eq ?_
      (reordered.map _)]
    rw [← Function.comp_def, ← List.map_map] at distinct
    intro p member q inside least most
    exact List.inj_on_of_nodup_map distinct member inside (eq_of_pathNotAfter least most)
  | polygon change => rw [normalizeWith, normalizeWith, change.normalizePolygon_eq tells plain]
  | polygonMember front back change =>
    rw [normalizeWith, normalizeWith, List.map_append, List.map_append, List.map_cons,
      List.map_cons, change.normalizePolygon_eq tells]
    exact fun c there => plain c (List.mem_flatMap.mpr ⟨_, by simp, there⟩)
  | member front back _ ih =>
    rw [coords, coordsOfAll_eq] at plain
    rw [normalizeWith, normalizeWith, normalizeAll_eq, normalizeAll_eq, List.map_append,
      List.map_append, List.map_cons, List.map_cons, ih]
    exact fun c there => plain c (List.mem_flatMap.mpr ⟨_, by simp, there⟩)

theorem normalizeWith_eq_of_changes (tells : Tells counterclockwise oriented) {g h : Geometry}
    (changes : Relation.ReflTransGen (Change counterclockwise oriented) g h)
    (plain : ∀ c ∈ g.coords, c.isPlain = true) :
    normalizeWith counterclockwise h = normalizeWith counterclockwise g := by
  have run : normalizeWith counterclockwise h = normalizeWith counterclockwise g ∧
      h.coords ⊆ g.coords := by
    induction changes with
    | refl => exact ⟨rfl, fun _ member => member⟩
    | tail _ change ih =>
      exact ⟨(change.normalizeWith_eq tells fun c member => plain c (ih.2 member)).trans ih.1,
        List.Subset.trans change.subset ih.2⟩
  exact run.1

/-- Rounding does not take away which way a ring goes: begun at its smallest coordinate it is
counter-clockwise one way along and clockwise the other. A very small ring loses its sense when all
of its products are rounded to zero. -/
def SenseSurvives (ring : List Coord) : Prop :=
  isCounterclockwise (begun ring) ≠ isCounterclockwise (begun ring).reverse

/-- All ways to write a geometry have one normal form. With exact sums it is enough that rings that
are turned around have an area; with rounded sums their sense must survive the rounding. -/
theorem normalize_canonical {g h : Geometry} (plain : ∀ c ∈ g.coords, c.isPlain = true) :
    (Relation.ReflTransGen (Change turnsLeft fun ring => exactArea ring ≠ 0) g h →
      normalizeWith turnsLeft g = normalizeWith turnsLeft h) ∧
    (Relation.ReflTransGen (Change isCounterclockwise SenseSurvives) g h →
      normalize g = normalize h) := by
  have exactly : Tells turnsLeft fun ring => exactArea ring ≠ 0 :=
    fun _ plain turnable encloses => turnsLeft_begun plain turnable encloses
  have rounded : Tells isCounterclockwise SenseSurvives := fun _ _ _ survives => survives
  exact ⟨fun changes => (normalizeWith_eq_of_changes exactly changes plain).symm,
    fun changes => (normalizeWith_eq_of_changes rounded changes plain).symm⟩

namespace Sample

def upper : List Coord := [⟨0.0, 2.0⟩, ⟨1.0, 3.0⟩]

def lower : List Coord := [⟨1.0, 0.0⟩, ⟨0.0, 0.0⟩]

/-- A square, from its upper right corner on. -/
def square : List Coord :=
  [⟨1.0, 1.0⟩, ⟨0.0, 1.0⟩, ⟨0.0, 0.0⟩, ⟨1.0, 0.0⟩, ⟨1.0, 1.0⟩]

theorem turnable_square : Turnable square :=
  ⟨by decide +kernel, by decide, [⟨1.0, 1.0⟩, ⟨0.0, 1.0⟩], ⟨0.0, 0.0⟩, [⟨1.0, 0.0⟩], rfl,
    by decide +kernel⟩

theorem turnable_reversed : Turnable square.reverse :=
  ⟨by decide +kernel, by decide, [⟨1.0, 1.0⟩, ⟨1.0, 0.0⟩], ⟨0.0, 0.0⟩, [⟨0.0, 1.0⟩], rfl,
    by decide +kernel⟩

def drawing : Geometry := collection [multiLineString [upper, lower], polygon ⟨square, []⟩]

/-- The same drawing with its lines in the other order, one of them turned around, and with the
square turned around and begun elsewhere. -/
def redrawn : Geometry :=
  collection [multiLineString [lower.reverse, upper],
    polygon ⟨around [⟨1.0, 0.0⟩, ⟨0.0, 0.0⟩, ⟨0.0, 1.0⟩, ⟨1.0, 1.0⟩], []⟩]

theorem changes_redrawn (counterclockwise : List Coord → Bool) {oriented : List Coord → Prop}
    (sense : oriented square) :
    Relation.ReflTransGen (Change counterclockwise oriented) drawing redrawn := by
  have turned : Change counterclockwise oriented drawing
      (collection [multiLineString [upper, lower.reverse], polygon ⟨square, []⟩]) :=
    .member [] _ (.turnMember [upper] [] lower)
  have swapped : Change counterclockwise oriented
      (collection [multiLineString [upper, lower.reverse], polygon ⟨square, []⟩])
      (collection [multiLineString [lower.reverse, upper], polygon ⟨square, []⟩]) :=
    .member [] _ (.lines (.swap _ _ []))
  have reversed : Change counterclockwise oriented
      (collection [multiLineString [lower.reverse, upper], polygon ⟨square, []⟩])
      (collection [multiLineString [lower.reverse, upper], polygon ⟨square.reverse, []⟩]) :=
    .member [_] [] (.polygon (.shell [] (.turn turnable_square sense)))
  have restarted : Change counterclockwise oriented
      (collection [multiLineString [lower.reverse, upper], polygon ⟨square.reverse, []⟩])
      redrawn :=
    .member [_] [] (.polygon (.shell [] (.restart turnable_reversed ⟨1, rfl⟩)))
  exact ((Relation.ReflTransGen.single turned).tail swapped).tail reversed |>.tail restarted

end Sample

theorem sample_canonical :
    (∀ c ∈ Sample.drawing.coords, c.isPlain = true) ∧
    normalizeWith turnsLeft Sample.drawing = normalizeWith turnsLeft Sample.redrawn ∧
    normalize Sample.drawing = normalize Sample.redrawn := by
  have plain : ∀ c ∈ Sample.drawing.coords, c.isPlain = true := by decide +kernel
  have encloses : exactArea Sample.square ≠ 0 := by decide +kernel
  have survives : SenseSurvives Sample.square := by
    rw [SenseSurvives]
    decide +kernel
  exact ⟨plain, (normalize_canonical plain).1 (Sample.changes_redrawn turnsLeft encloses),
    (normalize_canonical plain).2 (Sample.changes_redrawn isCounterclockwise survives)⟩

end MotionImagery.Geometry
