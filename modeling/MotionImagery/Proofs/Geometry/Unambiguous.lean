import Mathlib.Data.Set.Operations
import MotionImagery.Proofs.Geometry.ListText
import MotionImagery.Proofs.Geometry.Numbers

/-!
Well-known text tells geometries apart. The kind stands in front, and behind it coordinates in
nested brackets, or nothing but the word `EMPTY`: whatever the kind, the text shows where it ends.
-/
namespace MotionImagery.Geometry

/-- Numbers differ in their text, which has none of the marks between coordinates. -/
structure Distinct (number : Float → String) : Prop where
  injective : Function.Injective number
  unmarked : ∀ value, ∀ c ∈ (number value).toList, c ∉ [' ', ',', '(', ')']

/-- An empty shell has no holes; there would be no room for them in the text. -/
def Shelled (p : Polygon) : Prop := p.exterior = [] → p.interiors = []

/-- The kinds of geometries that have a text of their own: lines of two coordinates, rectangles and
triangles are written like lines and polygons. -/
inductive WellKnown : Geometry → Prop
  | point (position : Coord) : WellKnown (point position)
  | lineString (path : List Coord) : WellKnown (lineString path)
  | polygon (p : Polygon) (shelled : Shelled p) : WellKnown (polygon p)
  | multiPoint (points : List Coord) : WellKnown (multiPoint points)
  | multiLineString (lines : List (List Coord)) : WellKnown (multiLineString lines)
  | multiPolygon (polygons : List Polygon) : WellKnown (multiPolygon polygons)
  | collection (members : List Geometry) (known : ∀ member ∈ members, WellKnown member) :
      WellKnown (collection members)

section
variable {number : Float → String}

theorem toList_coordText (c : Coord) :
    (coordText number c).toList = (number c.x).toList ++ ' ' :: (number c.y).toList := by
  rw [coordText, String.toList_append, String.toList_append, List.append_assoc]
  rfl

theorem Distinct.without (distinct : Distinct number) {marks : List Char}
    (some : marks ⊆ [' ', ',', '(', ')']) (value : Float) :
    ∀ c ∈ (number value).toList, c ∉ marks :=
  fun c member mark => distinct.unmarked value c member (some mark)

theorem told_coord (distinct : Distinct number) (c : Coord) :
    Told (coordText number) (fun _ => True) c := by
  have blank : [' '] ⊆ [' ', ',', '(', ')'] := by decide
  have closing : [',', ')'] ⊆ [' ', ',', '(', ')'] := by decide
  intro other _ rest rest' closes closes' same
  rw [toList_coordText, toList_coordText, List.append_assoc, List.append_assoc] at same
  obtain ⟨sameX, next⟩ := word_append_inj (distinct.without blank _) (distinct.without blank _)
    (endsAt_cons (by decide) _) (endsAt_cons (by decide) _) same
  obtain ⟨sameY, behind⟩ := word_append_inj (distinct.without closing _)
    (distinct.without closing _) closes closes' (List.cons.inj next).2
  have x := distinct.injective (String.toList_inj.mp sameX)
  have y := distinct.injective (String.toList_inj.mp sameY)
  obtain ⟨_, _⟩ := c
  obtain ⟨_, _⟩ := other
  exact ⟨congrArg₂ Coord.mk x y, behind⟩

theorem opens_coord (distinct : Distinct number) (c : Coord) : Opens (coordText number c) := by
  rw [Opens, toList_coordText]
  cases text : (number c.x).toList with
  | nil => exact ⟨' ', _, rfl, by decide⟩
  | cons first more =>
    refine ⟨first, _, rfl, fun bracket => ?_⟩
    have member : first ∈ (number c.x).toList := by simp [text]
    exact distinct.unmarked c.x first member (by simp [bracket])

theorem exists_listText (items : List String) : ∃ more, (listText items).toList = '(' :: more := by
  cases items with
  | nil => exact ⟨[')'], rfl⟩
  | cons item items => exact ⟨_, toList_listText_cons item items⟩

theorem opens_listText (items : List String) : Opens (listText items) := by
  obtain ⟨more, opened⟩ := exists_listText items
  exact ⟨'(', more, opened, by decide⟩

/-- Lists of anything that is told from its text and opens. -/
theorem told_list {α : Type} {write : α → String} (opens : ∀ item, Opens (write item))
    (told : ∀ item, Told write (fun _ => True) item) (items : List α) :
    Told (fun items => listText (items.map write)) (fun _ => True) items :=
  (Told.listText (fun item _ => opens item) (fun _ _ => trivial) fun item _ => told item).mono
    fun _ _ _ _ => trivial

theorem told_path (distinct : Distinct number) (path : List Coord) :
    Told (pathText number) (fun _ => True) path :=
  told_list (opens_coord distinct) (told_coord distinct) path

theorem told_polygon (distinct : Distinct number) (p : Polygon) :
    Told (polygonText number) (fun _ => True) p := by
  have injective : Function.Injective Polygon.rings := by
    rintro ⟨exterior, interiors⟩ ⟨exterior', interiors'⟩ same
    obtain ⟨rfl, rfl⟩ := List.cons.inj same
    rfl
  exact (told_list (fun _ => opens_listText _) (told_path distinct) p.rings).comp injective

theorem bracketed_eq (item : String) : "(" ++ item ++ ")" = listText [item] := by
  rw [listText, String.intercalate_singleton]

theorem told_member (distinct : Distinct number) (c : Coord) :
    Told (fun c => "(" ++ coordText number c ++ ")") (fun _ => True) c := by
  have injective : Function.Injective fun c : Coord => [c] :=
    fun _ _ same => (List.cons.inj same).1
  simp only [bracketed_eq]
  exact (told_path distinct [c]).comp injective

/-! The kind in front, and `EMPTY` in place of the rest. -/

/-- A word in place of an empty list is not the beginning of another one. -/
theorem told_unless_empty {α : Type} {write : α → String} {among : α → Prop} {empty : α → Bool}
    {item : α} (member : among item) (told : Told write among item)
    (opened : ∀ item, ∃ more, (write item).toList = '(' :: more)
    (one : ∀ item other, among item → among other → empty item = true → empty other = true →
      item = other) :
    Told (fun item => if empty item then "EMPTY" else write item) among item := by
  have word : ∀ {item : α} {rest rest' : List Char},
      "EMPTY".toList ++ rest ≠ (write item).toList ++ rest' := by
    intro item rest rest' same
    obtain ⟨more, shape⟩ := opened item
    rw [shape] at same
    exact absurd (List.cons.inj same).1 (by decide)
  intro other inside rest rest' closes closes' same
  dsimp only at same
  cases here : empty item with
  | true =>
    rw [if_pos here] at same
    cases there : empty other with
    | true =>
      rw [if_pos there] at same
      exact ⟨one item other member inside here there, List.append_cancel_left same⟩
    | false =>
      rw [if_neg (by simp [there])] at same
      exact absurd same word
  | false =>
    rw [if_neg (by simp [here])] at same
    cases there : empty other with
    | true =>
      rw [if_pos there] at same
      exact absurd same.symm word
    | false =>
      rw [if_neg (by simp [there])] at same
      exact told other inside rest rest' closes closes' same

/-- A list, or the word for an empty one. -/
def bodyText {α : Type} (write : α → String) (items : List α) : String :=
  if items.isEmpty then "EMPTY" else listText (items.map write)

theorem told_body {α : Type} {write : α → String} {among : α → Prop} {items : List α}
    (opens : ∀ item, among item → Opens (write item)) (member : ∀ item ∈ items, among item)
    (told : ∀ item ∈ items, Told write among item) :
    Told (bodyText write) (fun items => ∀ item ∈ items, among item) items :=
  told_unless_empty member (Told.listText opens member told) (fun _ => exists_listText _)
    fun _ _ _ _ here there => (List.isEmpty_iff.mp here).trans (List.isEmpty_iff.mp there).symm

def polygonBody (number : Float → String) (p : Polygon) : String :=
  if p.exterior.isEmpty then "EMPTY" else polygonText number p

theorem told_polygonBody (distinct : Distinct number) {p : Polygon} (shelled : Shelled p) :
    Told (polygonBody number) Shelled p := by
  refine told_unless_empty shelled ((told_polygon distinct p).mono fun _ _ => trivial)
    (fun _ => exists_listText _) ?_
  rintro ⟨exterior, interiors⟩ ⟨exterior', interiors'⟩ shelled shelled' here there
  have none : exterior = [] := List.isEmpty_iff.mp here
  have none' : exterior' = [] := List.isEmpty_iff.mp there
  rw [Polygon.mk.injEq]
  exact ⟨none.trans none'.symm, (shelled none).trans (shelled' none').symm⟩

/-- The kinds that a text tells apart. -/
inductive Kind where
  | point
  | line
  | polygon
  | points
  | lines
  | polygons
  | collection

def Kind.tag : Kind → String
  | point => "POINT"
  | line => "LINESTRING"
  | polygon => "POLYGON"
  | points => "MULTIPOINT"
  | lines => "MULTILINESTRING"
  | polygons => "MULTIPOLYGON"
  | collection => "GEOMETRYCOLLECTION"

theorem Kind.eq_of_tag {kind other : Kind} (same : kind.tag = other.tag) : kind = other := by
  cases kind <;> cases other <;> first | rfl | exact absurd same (by decide)

theorem Kind.blank_notMem_tag (kind : Kind) : ∀ c ∈ kind.tag.toList, c ∉ [' '] := by
  cases kind <;> simp [Kind.tag]

def kind : Geometry → Kind
  | point _ => .point
  | line _ _ | lineString _ => .line
  | polygon _ | rect _ _ | triangle _ _ _ => .polygon
  | multiPoint _ => .points
  | multiLineString _ => .lines
  | multiPolygon _ => .polygons
  | collection _ => .collection

def body (number : Float → String) : Geometry → String
  | point position => "(" ++ coordText number position ++ ")"
  | line start stop => pathText number [start, stop]
  | lineString path => bodyText (coordText number) path
  | polygon p => polygonBody number p
  | rect low high => polygonBody number (.rectangle low high)
  | triangle a b c => polygonBody number (.triangle a b c)
  | multiPoint points => bodyText (fun p => "(" ++ coordText number p ++ ")") points
  | multiLineString lines => bodyText (pathText number) lines
  | multiPolygon polygons => bodyText (polygonText number) polygons
  | collection members => bodyText (wktWith number) members

theorem tagged_eq (tag : String) (empty : Bool) (body : String) :
    tagged tag empty body = tag ++ " " ++ if empty then "EMPTY" else body := by
  cases empty with
  | false => rfl
  | true =>
    rw [if_pos rfl, String.append_assoc]
    rfl

theorem wktOfAll_eq (members : List Geometry) :
    wktOfAll number members = members.map (wktWith number) := by
  induction members with
  | nil => rfl
  | cons member rest ih => rw [wktOfAll, ih, List.map_cons]

theorem wktWith_eq (g : Geometry) : wktWith number g = g.kind.tag ++ " " ++ body number g := by
  cases g with
  | point position => rw [wktWith, body, ← String.append_assoc, ← String.append_assoc]; rfl
  | line => rw [wktWith]; rfl
  | lineString | multiPoint | multiLineString | multiPolygon =>
    rw [wktWith, tagged_eq]
    rfl
  | polygon | rect | triangle =>
    rw [wktWith, taggedPolygon, tagged_eq]
    rfl
  | collection members =>
    rw [wktWith, tagged_eq, wktOfAll_eq]
    rfl

/-- The kind can be read off, and what is behind it. -/
theorem kind_of_text {g h : Geometry} {rest rest' : List Char}
    (same : (wktWith number g).toList ++ rest = (wktWith number h).toList ++ rest') :
    g.kind = h.kind ∧ (body number g).toList ++ rest = (body number h).toList ++ rest' := by
  rw [wktWith_eq, wktWith_eq] at same
  simp only [String.toList_append, List.append_assoc] at same
  obtain ⟨tags, next⟩ := word_append_inj g.kind.blank_notMem_tag h.kind.blank_notMem_tag
    (endsAt_cons (by decide) _) (endsAt_cons (by decide) _) same
  exact ⟨Kind.eq_of_tag (String.toList_inj.mp tags), (List.cons.inj next).2⟩

theorem opens_wktWith (g : Geometry) : Opens (wktWith number g) := by
  rw [Opens, wktWith_eq, String.toList_append, String.toList_append]
  cases g.kind <;> exact ⟨_, _, rfl, by decide⟩

/-- A geometry is told from its text when what it is made of is told from the body, among what
geometries of that kind are made of. -/
theorem Told.wkt {α : Type} {write : α → String} {among : α → Prop} {item : α}
    (told : Told write among item) (make : α → Geometry)
    (bodies : ∀ item, body number (make item) = write item)
    (of_kind : ∀ h, WellKnown h → (make item).kind = h.kind →
      ∃ other, among other ∧ h = make other) :
    Told (wktWith number) WellKnown (make item) := by
  intro h known rest rest' closes closes' same
  obtain ⟨kinds, next⟩ := kind_of_text same
  obtain ⟨other, inside, rfl⟩ := of_kind h known kinds
  rw [bodies, bodies] at next
  exact (told other inside rest rest' closes closes' next).imp_left (congrArg make)

/-- Lists of anything that is told from its text and opens, and the word for an empty one. -/
theorem told_bodies {α : Type} {write : α → String} (opens : ∀ item, Opens (write item))
    (told : ∀ item, Told write (fun _ => True) item) (items : List α) :
    Told (bodyText write) (fun _ => True) items :=
  (told_body (fun item _ => opens item) (fun _ _ => trivial) fun item _ => told item).mono
    fun _ _ _ _ => trivial

theorem told_geometry (distinct : Distinct number) {g : Geometry} (known : WellKnown g) :
    Told (wktWith number) WellKnown g := by
  induction known with
  | point position =>
    have told := told_member distinct position
    refine told.wkt point (fun _ => rfl) fun h known' same => ?_
    cases known' with
    | point other => exact ⟨other, trivial, rfl⟩
    | _ => cases same
  | lineString path =>
    have told := told_bodies (opens_coord distinct) (told_coord distinct) path
    refine told.wkt lineString (fun _ => rfl) fun h known' same => ?_
    cases known' with
    | lineString other => exact ⟨other, trivial, rfl⟩
    | _ => cases same
  | polygon p shelled =>
    have told := told_polygonBody distinct shelled
    refine told.wkt polygon (fun _ => rfl) fun h known' same => ?_
    cases known' with
    | polygon q shelled' => exact ⟨q, shelled', rfl⟩
    | _ => cases same
  | multiPoint points =>
    have opens (p : Coord) : Opens ("(" ++ coordText number p ++ ")") :=
      bracketed_eq (coordText number p) ▸ opens_listText _
    have told := told_bodies opens (told_member distinct) points
    refine told.wkt multiPoint (fun _ => rfl) fun h known' same => ?_
    cases known' with
    | multiPoint others => exact ⟨others, trivial, rfl⟩
    | _ => cases same
  | multiLineString lines =>
    have told := told_bodies (fun _ => opens_listText _) (told_path distinct) lines
    refine told.wkt multiLineString (fun _ => rfl) fun h known' same => ?_
    cases known' with
    | multiLineString others => exact ⟨others, trivial, rfl⟩
    | _ => cases same
  | multiPolygon polygons =>
    have told := told_bodies (fun _ => opens_listText _) (told_polygon distinct) polygons
    refine told.wkt multiPolygon (fun _ => rfl) fun h known' same => ?_
    cases known' with
    | multiPolygon others => exact ⟨others, trivial, rfl⟩
    | _ => cases same
  | collection members inside ih =>
    have told := told_body (fun member _ => opens_wktWith member) inside ih
    refine told.wkt collection (fun _ => rfl) fun h known' same => ?_
    cases known' with
    | collection others inside' => exact ⟨others, inside', rfl⟩
    | _ => cases same

/-- **Well-known text is unambiguous**, if the text of numbers is: two geometries of the kinds that
have a text of their own, however deeply their collections are nested, never have the same one. -/
theorem wkt_unambiguous (injective : Function.Injective number)
    (unmarked : ∀ value, ∀ c ∈ (number value).toList, c ∉ [' ', ',', '(', ')']) :
    Set.InjOn (wktWith number) {g | WellKnown g} := by
  intro g known h known' same
  have told := told_geometry ⟨injective, unmarked⟩ known
  exact (told h known' [] [] (endsAt_nil _) (endsAt_nil _) (by rw [same])).1

end

/-! Numbers written as the number of their bits. -/

theorem injective_bitsText :
    Function.Injective fun value : Float => Text.decimal value.toBits.toNat :=
  fun _ _ same => eq_of_toBits (UInt64.toNat_inj.mp (Text.decimal_injective same))

theorem unmarked_bitsText (value : Float) :
    ∀ c ∈ (Text.decimal value.toBits.toNat).toList, c ∉ [' ', ',', '(', ')'] := by
  intro c member mark
  rw [Text.decimal, String.toList_ofList] at member
  have digit := Nat.isDigit_of_mem_toDigits (by decide) (by decide) member
  have others : ∀ mark ∈ [' ', ',', '(', ')'], mark.isDigit = false := by simp [Char.isDigit]
  simp [others c mark] at digit

/-- Two points and a point apart from the collection they are in, and all of them in it. -/
theorem sample_wkt :
    let number := fun value : Float => Text.decimal value.toBits.toNat
    let apart := collection [multiPoint [⟨1, 2⟩], collection [], point ⟨3, 4⟩]
    let inside := collection [multiPoint [⟨1, 2⟩], collection [point ⟨3, 4⟩]]
    wktWith number apart ≠ wktWith number inside := by
  intro number apart inside same
  have known : WellKnown apart := .collection _ (by
    simp only [List.forall_mem_cons, List.not_mem_nil, false_implies, implies_true, and_true]
    exact ⟨.multiPoint _, .collection [] nofun, .point _⟩)
  have known' : WellKnown inside := .collection _ (by
    simp only [List.forall_mem_cons, List.not_mem_nil, false_implies, implies_true, and_true]
    exact ⟨.multiPoint _, .collection _ (by simpa using WellKnown.point _)⟩)
  have equal := wkt_unambiguous injective_bitsText unmarked_bitsText known known' same
  simp [apart, inside] at equal

end MotionImagery.Geometry
