import MotionImagery.Proofs.Geometry.FixedPoints
import MotionImagery.Proofs.Output.Record

/-!
Points, lines, polygons and holes are put in order by normalizing; members of a collection are not.
Which of them came first shows in the normal form of a collection, and in the location of a stream
which chunk came first.
-/
namespace MotionImagery

namespace Geometry

theorem normalize_collection (members : List Geometry) :
    normalize (collection members) = collection (members.map normalize) := by
  rw [normalize, normalizeWith, normalizeAll_eq]
  rfl

/-- The normal forms of the members. -/
def forms (g : Geometry) : List Geometry := g.members.map normalize

theorem normalize_mergeWith (unite : List Polygon → List Polygon → List Polygon) {a : Geometry}
    (apart : a.polygons? = none) (b : Geometry) :
    normalize (mergeWith unite a b) = collection (a.forms ++ b.forms) := by
  rw [mergeWith, apart, normalize_collection, List.map_append]
  rfl

theorem normalize_collection_eq_iff {items others : List Geometry} :
    normalize (collection items) = normalize (collection others) ↔
      items.map normalize = others.map normalize := by
  rw [normalize_collection, normalize_collection, collection.injEq]

/-- Only a collection whose members all have one normal form has one itself in every order. -/
theorem normalize_perm_iff (items : List Geometry) :
    (∀ others, items.Perm others →
      normalize (collection others) = normalize (collection items)) ↔
        ∀ a ∈ items, ∀ b ∈ items, normalize a = normalize b := by
  constructor
  · intro same a member b inside
    -- Every member can be put in front.
    have leads : ∀ item ∈ items, (items.map normalize).head? = some (normalize item) := by
      intro item there
      obtain ⟨front, back, rfl⟩ := List.append_of_mem there
      have moved := normalize_collection_eq_iff.mp (same _ List.perm_middle)
      rw [← moved]
      rfl
    exact Option.some.inj ((leads a member).symm.trans (leads b inside))
  · intro alike others reordered
    rw [normalize_collection_eq_iff]
    cases items with
    | nil => rw [reordered.nil_eq]
    | cons a rest =>
      have constant : ∀ {members : List Geometry}, (a :: rest).Perm members →
          members.map normalize = List.replicate (rest.length + 1) (normalize a) := by
        intro members same
        have equal : ∀ member ∈ members, normalize member = normalize a :=
          fun member inside => alike member (same.mem_iff.mpr inside) a List.mem_cons_self
        rw [List.map_congr_left equal, List.map_const', ← same.length_eq, List.length_cons]
      rw [constant reordered, constant (.refl _)]

theorem areWellFormed_eq (members : List Geometry) :
    areWellFormed members = members.all isWellFormed := by
  induction members with
  | nil => rfl
  | cons member rest ih => rw [areWellFormed, ih, List.all_cons]

theorem isValid_iff {g : Geometry} :
    g.isValid = true ↔ (∀ c ∈ g.coords, c.isFinite = true) ∧ g.isWellFormed = true := by
  rw [isValid, Bool.and_eq_true, List.all_eq_true]

theorem isValid_collection {members : List Geometry} :
    (collection members).isValid = true ↔ ∀ member ∈ members, member.isValid = true := by
  simp only [isValid_iff, coords, isWellFormed, coordsOfAll_eq, areWellFormed_eq,
    List.all_eq_true, List.mem_flatMap]
  constructor
  · rintro ⟨finite, formed⟩ member inside
    exact ⟨fun c there => finite c ⟨member, inside, there⟩, formed member inside⟩
  · intro valid
    refine ⟨?_, fun member inside => (valid member inside).2⟩
    rintro c ⟨member, inside, there⟩
    exact (valid member inside).1 c there

theorem normalizeLine_perm (path : List Coord) : (normalizeLine path).Perm path := by
  rw [normalizeLine]
  split
  · exact .refl path
  · exact List.reverse_perm path

/-- Points and lines are as valid in normal form. -/
theorem isValid_normalize (g : Geometry) (noArea : g.areas = []) (valid : g.isValid = true) :
    (normalize g).isValid = true := by
  cases g with
  | polygon | rect | triangle => cases noArea
  | point | line =>
    rw [normalize, normalizeWith]
    exact valid
  | lineString path =>
    have same := normalizeLine_perm path
    rw [normalize, normalizeWith]
    simp only [isValid_iff, coords, isWellFormed, isValidLine, same.length_eq, same.mem_iff]
      at valid ⊢
    exact valid
  | multiPoint points =>
    rw [normalize, normalizeWith]
    simp only [isValid_iff, coords, isWellFormed, List.mem_mergeSort] at valid ⊢
    exact valid
  | multiLineString lines =>
    rw [normalize, normalizeWith]
    simp only [isValid_iff, coords, isWellFormed, List.all_eq_true, List.mem_flatten,
      List.mem_mergeSort, List.mem_map] at valid ⊢
    refine ⟨?_, ?_⟩
    · rintro c ⟨_, ⟨path, inside, rfl⟩, there⟩
      exact valid.1 c ⟨path, inside, (normalizeLine_perm path).mem_iff.mp there⟩
    · rintro _ ⟨path, inside, rfl⟩
      rw [isValidLine, (normalizeLine_perm path).length_eq]
      exact valid.2 path inside
  | multiPolygon polygons =>
    obtain rfl : polygons = [] := noArea
    cases valid
  | collection members =>
    rw [areas, areasOfAll_eq, List.flatMap_eq_nil_iff] at noArea
    rw [normalize_collection, isValid_collection]
    refine List.forall_mem_map.mpr fun member inside => ?_
    exact isValid_normalize member (noArea member inside)
      (isValid_collection.mp valid member inside)

end Geometry

namespace Output.StreamRecord
open MotionImagery.Geometry

variable {unite : List Polygon → List Polygon → List Polygon}

/-- A location that is no area, whose members have normal forms that are valid and are left alone
when they are normalized again. -/
structure Apart (location : Geometry) : Prop where
  noArea : location.polygons? = none
  valid : location.isValid = true
  formed : ∀ form ∈ location.forms, form.isValid = true ∧ form.normalize = form

/-- Points and lines, and collections of them, are put side by side. -/
theorem apart_of_areas {location : Geometry} (noArea : location.areas = [])
    (valid : location.isValid = true) : Apart location where
  noArea := by
    cases location with
    | polygon | rect => cases noArea
    | multiPolygon polygons =>
      obtain rfl : polygons = [] := noArea
      cases valid
    | _ => rfl
  valid := valid
  formed := by
    have members : ∀ member ∈ location.members, member.areas = [] ∧ member.isValid = true := by
      cases location with
      | collection members =>
        rw [areas, areasOfAll_eq, List.flatMap_eq_nil_iff] at noArea
        exact fun member inside =>
          ⟨noArea member inside, isValid_collection.mp valid member inside⟩
      | _ => exact List.forall_mem_singleton.mpr ⟨noArea, valid⟩
    refine List.forall_mem_map.mpr fun member inside => ?_
    obtain ⟨noArea, valid⟩ := members member inside
    have steady : ∀ p ∈ member.areas, Steady isCounterclockwise p := by
      rw [noArea]
      exact List.forall_mem_nil _
    exact ⟨isValid_normalize member noArea valid, normalizeWith_idem steady⟩

theorem locationOf?_updateWith {chunk : Attributes} {record : StreamRecord} {location : Geometry}
    (merged : mergedLocation? unite record.attributes chunk = some location)
    (valid : location.isValid = true) (file : String) :
    locationOf? (record.updateWith unite file chunk).attributes = some location := by
  rw [locationOf?, Attributes.first?, find?_location_updateWith, updateLocation, merged]
  dsimp only
  rw [if_pos valid, Attributes.setSingle, Keyed.find?_put, if_pos rfl]
  rfl

/-- A chunk puts the normal forms of its members behind those of the stream. -/
theorem locationOf?_updateWith_of_apart {chunk : Attributes} {record : StreamRecord}
    {before location : Geometry} (known : locationOf? record.attributes = some before)
    (brought : locationOf? chunk = some location) (noArea : before.polygons? = none)
    (formed : ∀ form ∈ before.forms ++ location.forms, form.isValid = true) (file : String) :
    locationOf? (record.updateWith unite file chunk).attributes =
      some (collection (before.forms ++ location.forms)) := by
  refine locationOf?_updateWith ?_ (isValid_collection.mpr formed) file
  rw [mergedLocation?, brought, known, ← normalize_mergeWith unite noArea]
  rfl

theorem locationOf?_updateAll {chunks : List (String × Attributes)} {locations : List Geometry}
    (located : chunks.map (fun chunk => locationOf? chunk.2) = locations.map some)
    (apart : ∀ location ∈ locations, Apart location) {record : StreamRecord} {before : Geometry}
    (known : locationOf? record.attributes = some before) (first : Apart before)
    (more : locations ≠ []) :
    locationOf? (record.updateAll unite chunks).attributes =
      some (collection (before.forms ++ locations.flatMap forms)) := by
  induction locations generalizing chunks record before with
  | nil => exact absurd rfl more
  | cons location locations ih =>
    obtain ⟨chunk, chunks, rfl, here, later⟩ := List.map_eq_cons_iff.mp located
    obtain ⟨this, rest⟩ := List.forall_mem_cons.mp apart
    have formed : ∀ form ∈ before.forms ++ location.forms,
        form.isValid = true ∧ form.normalize = form :=
      List.forall_mem_append.mpr ⟨first.formed, this.formed⟩
    have step : locationOf? (record.updateWith unite chunk.1 chunk.2).attributes =
        some (collection (before.forms ++ location.forms)) :=
      locationOf?_updateWith_of_apart known here first.noArea
        (fun form member => (formed form member).1) chunk.1
    have same : (collection (before.forms ++ location.forms)).forms =
        before.forms ++ location.forms :=
      (List.map_congr_left fun form member => (formed form member).2).trans (List.map_id' _)
    cases locations with
    | nil =>
      obtain rfl := List.map_eq_nil_iff.mp later
      rw [List.flatMap_singleton]
      exact step
    | cons next locations =>
      have merged : Apart (collection (before.forms ++ location.forms)) :=
        ⟨rfl, isValid_collection.mpr fun form member => (formed form member).1, by rwa [same]⟩
      have run := ih later rest step merged (List.cons_ne_nil _ _)
      rw [same, List.append_assoc, ← List.flatMap_cons] at run
      exact run

/-- The location of a stream has the normal forms of all members in the order of the chunks. -/
theorem locationOf?_of_apart {chunks : List (String × Attributes)} {locations : List Geometry}
    (located : chunks.map (fun chunk => locationOf? chunk.2) = locations.map some)
    (apart : ∀ location ∈ locations, Apart location) (two : 2 ≤ locations.length) (name : String) :
    locationOf? ((new name).updateAll unite chunks).attributes =
      some (collection (locations.flatMap forms)) := by
  cases locations with
  | nil => cases two
  | cons first locations =>
    obtain ⟨chunk, chunks, rfl, here, later⟩ := List.map_eq_cons_iff.mp located
    obtain ⟨this, rest⟩ := List.forall_mem_cons.mp apart
    have begun : locationOf? ((new name).updateWith unite chunk.1 chunk.2).attributes =
        some first :=
      locationOf?_updateWith (by rw [mergedLocation?, here]; rfl) this.valid chunk.1
    refine locationOf?_updateAll later rest begun this ?_
    rintro rfl
    exact absurd two (Nat.lt_irrefl _)

theorem locationOf?_of_two {first second : String × Attributes} {a b : Geometry}
    (locatedA : locationOf? first.2 = some a) (locatedB : locationOf? second.2 = some b)
    (apartA : Apart a) (apartB : Apart b) (name : String) :
    locationOf? ((new name).updateAll unite [first, second]).attributes =
      some (collection (a.forms ++ b.forms)) := by
  have located : [first, second].map (fun chunk => locationOf? chunk.2) = [a, b].map some := by
    simp [locatedA, locatedB]
  have apart : ∀ location ∈ [a, b], Apart location :=
    List.forall_mem_cons.mpr ⟨apartA, List.forall_mem_singleton.mpr apartB⟩
  rw [locationOf?_of_apart located apart (Nat.le_refl 2) name, List.flatMap_cons,
    List.flatMap_singleton]

/-- **Members keep their order.** Reordering a collection reorders its normal form, and all orders
of it have one normal form just when all of its members have. Two chunks whose locations are put
side by side leave a stream the same location whichever comes first just when the normal forms of
their members are the same in both orders. -/
theorem members_keep_order (unite : List Polygon → List Polygon → List Polygon) (name : String) :
    (∀ items others : List Geometry, items.Perm others →
      ∃ forms forms', normalize (collection items) = collection forms ∧
        normalize (collection others) = collection forms' ∧ forms.Perm forms') ∧
    (∀ items : List Geometry,
      (∀ others, items.Perm others →
        normalize (collection others) = normalize (collection items)) ↔
          ∀ a ∈ items, ∀ b ∈ items, normalize a = normalize b) ∧
    ∀ (first second : String × Attributes) (a b : Geometry),
      locationOf? first.2 = some a → locationOf? second.2 = some b → Apart a → Apart b →
      let location := fun chunks => locationOf? ((new name).updateAll unite chunks).attributes
      location [first, second] = some (collection (a.forms ++ b.forms)) ∧
      location [second, first] = some (collection (b.forms ++ a.forms)) ∧
      (location [first, second] = location [second, first] ↔
        a.forms ++ b.forms = b.forms ++ a.forms) := by
  refine ⟨fun items others reordered => ?_, normalize_perm_iff, ?_⟩
  · exact ⟨items.map normalize, others.map normalize, normalize_collection items,
      normalize_collection others, reordered.map normalize⟩
  · intro first second a b locatedA locatedB apartA apartB location
    have forward : location [first, second] = _ :=
      locationOf?_of_two locatedA locatedB apartA apartB name
    have backward : location [second, first] = _ :=
      locationOf?_of_two locatedB locatedA apartB apartA name
    refine ⟨forward, backward, ?_⟩
    rw [forward, backward, Option.some.injEq, collection.injEq]

namespace Sample

def near : Geometry := point ⟨0.0, 0.0⟩

def far : Geometry := point ⟨1.0, 1.0⟩

/-- A chunk of which only the location is known. -/
def chunkAt (location : Geometry) : String × Attributes :=
  ("chunk", [(AttributeName.location, [.geometry location])])

theorem locationOf?_chunkAt (location : Geometry) :
    locationOf? (chunkAt location).2 = some location := rfl

theorem apart_near : Apart near := apart_of_areas rfl (by decide +kernel)

theorem apart_far : Apart far := apart_of_areas rfl (by decide +kernel)

end Sample

theorem sample_order :
    let location := fun chunks => locationOf? ((new "stream").updateAll unionAreas chunks).attributes
    [Sample.near, Sample.far].Perm [Sample.far, Sample.near] ∧
    location [Sample.chunkAt Sample.near, Sample.chunkAt Sample.far] =
      some (collection [Sample.near, Sample.far]) ∧
    location [Sample.chunkAt Sample.far, Sample.chunkAt Sample.near] =
      some (collection [Sample.far, Sample.near]) := by
  have stream := (members_keep_order unionAreas "stream").2.2 _ _ _ _
    (Sample.locationOf?_chunkAt _) (Sample.locationOf?_chunkAt _) Sample.apart_near Sample.apart_far
  exact ⟨.swap _ _ [], stream.1, stream.2.1⟩

/-- The order of two points shows in the normal form of their collection, and in the location of a
stream which of them came first. -/
theorem order_of_members_shows :
    let location := fun chunks => locationOf? ((new "stream").updateAll unionAreas chunks).attributes
    [Sample.near, Sample.far].Perm [Sample.far, Sample.near] ∧
    normalize (collection [Sample.near, Sample.far]) ≠
      normalize (collection [Sample.far, Sample.near]) ∧
    location [Sample.chunkAt Sample.near, Sample.chunkAt Sample.far] ≠
      location [Sample.chunkAt Sample.far, Sample.chunkAt Sample.near] := by
  have differ : Sample.near ≠ Sample.far := by
    intro same
    have bits := congrArg (fun c : Coord => c.x.toBits) (point.inj same)
    exact absurd bits (by decide +kernel)
  refine ⟨.swap _ _ [], fun same => ?_, fun same => ?_⟩
  · exact differ (List.cons.inj (normalize_collection_eq_iff.mp same)).1
  · have located := Sample.locationOf?_chunkAt
    dsimp only at same
    rw [locationOf?_of_two (located _) (located _) Sample.apart_near Sample.apart_far,
      locationOf?_of_two (located _) (located _) Sample.apart_far Sample.apart_near] at same
    exact differ (List.cons.inj (collection.inj (Option.some.inj same))).1

end Output.StreamRecord

end MotionImagery
