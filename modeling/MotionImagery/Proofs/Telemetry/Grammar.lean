import MotionImagery.Proofs.Telemetry.Elements

/-!
What is accepted as a local set, and what it says. The bytes have to be elements one after the
other, and the values of nested sets have to be sets of their own tables; nothing else is asked of
them. There is one way to cut them into elements, and of the elements under one name the last that
decodes to a value counts.
-/
namespace MotionImagery.Telemetry

/-- The sets of a table. -/
inductive IsSet : FieldTable → Bytes → Prop
  | intro {table : FieldTable} (elements : List Element)
    (wellFormed : ∀ element ∈ elements, element.WellFormed)
    (nested : ∀ element ∈ elements, ∀ name inner,
      Keyed.find? element.tag.toNat table = some (name, .set inner) → IsSet inner element.value) :
    IsSet table (elements.flatMap Element.bytes)

/-- How many bytes an integer has to have, if the decoder reads one. -/
def Decoder.width? : Decoder → Option Nat
  | unsigned width => some width
  | scaledSigned width _ _ => some width
  | scaledUnsigned width _ _ => some width
  | text | bytes | set _ => none

namespace Element

/-- The value that an element gives a field, if any. -/
def value? (table : FieldTable) (name : String) (element : Element) : Option Value :=
  match element.decode table with
  | .ok (some (given, value)) => if given = name then some value else none
  | _ => none

/-- Elements that say nothing: their tag stands for nothing, or they are of the wrong width, or they
say themselves that a measure is out of range. -/
inductive Silent (table : FieldTable) (element : Element) : Prop
  | unknown (absent : Keyed.find? element.tag.toNat table = none)
  | wrongWidth (name : String) (decoder : Decoder) (width : Nat)
    (found : Keyed.find? element.tag.toNat table = some (name, decoder))
    (wide : decoder.width? = some width) (wrong : element.value.length ≠ width)
  | outOfRange (name : String) (width : Nat) (low high : Float)
    (found : Keyed.find? element.tag.toNat table = some (name, .scaledSigned width low high))
    (marker : isOutOfRange width (readSigned element.value) = true)

variable {table : FieldTable} {element : Element}

/-- An element is written in one way only when others may follow it. -/
theorem bytes_append_inj {other : Element} {rest rest' : Bytes} (wellFormed : element.WellFormed)
    (wellFormed' : other.WellFormed) (same : element.bytes ++ rest = other.bytes ++ rest') :
    element = other ∧ rest = rest' := by
  obtain ⟨tag, lengthField, value⟩ := element
  obtain ⟨tag', lengthField', value'⟩ := other
  simp only [bytes, List.cons_append, List.append_assoc, List.cons.injEq] at same
  obtain ⟨rfl, same⟩ := same
  have read := wellFormed.read (value ++ rest)
  have read' := wellFormed'.read (value' ++ rest')
  simp only at read read'
  rw [same, read'] at read
  simp only [Option.some.injEq, Prod.mk.injEq] at read
  obtain ⟨sameLength, sameSize⟩ := read
  obtain ⟨rfl, behind⟩ := List.append_inj same sameSize.symm
  obtain ⟨rfl, rfl⟩ := List.append_inj behind sameLength.symm
  exact ⟨rfl, rfl⟩

theorem decode_set {name : String} {nested : FieldTable}
    (found : Keyed.find? element.tag.toNat table = some (name, .set nested)) :
    element.decode table =
      (LocalSet.parse nested element.value).map fun inner => some (name, .set inner) := by
  rw [decode, found]

theorem decode_scalar {name : String} {decoder : Decoder}
    (found : Keyed.find? element.tag.toNat table = some (name, decoder))
    (scalar : ∀ nested, decoder ≠ .set nested) :
    element.decode table =
      .ok ((decoder.scalar? element.value).map fun value => (name, value)) := by
  rw [decode, found]
  cases decoder with
  | set nested => exact absurd rfl (scalar nested)
  | _ => rfl

/-- An element can only be refused for the nested set in it. -/
theorem decodes_iff : (∃ added, element.decode table = .ok added) ↔
    ∀ name nested, Keyed.find? element.tag.toNat table = some (name, .set nested) →
      ∃ inner, LocalSet.parse nested element.value = .ok inner := by
  constructor
  · rintro ⟨added, decoded⟩ name nested found
    rw [decode_set found] at decoded
    cases parsed : LocalSet.parse nested element.value with
    | error error =>
      rw [parsed] at decoded
      cases decoded
    | ok inner => exact ⟨inner, rfl⟩
  · intro accepted
    cases found : Keyed.find? element.tag.toNat table with
    | none => exact ⟨none, by rw [decode, found]⟩
    | some entry =>
      obtain ⟨name, decoder⟩ := entry
      cases decoder with
      | set nested =>
        obtain ⟨inner, parsed⟩ := accepted name nested found
        exact ⟨some (name, .set inner), by rw [decode_set found, parsed]; rfl⟩
      | _ => exact ⟨_, decode_scalar found fun nested same => by cases same⟩

/-- The elements that add nothing are those that say nothing. -/
theorem decode_eq_none_iff : element.decode table = .ok none ↔ element.Silent table := by
  constructor
  · intro decoded
    cases found : Keyed.find? element.tag.toNat table with
    | none => exact .unknown found
    | some entry =>
      obtain ⟨name, decoder⟩ := entry
      cases decoder with
      | set nested =>
        rw [decode_set found] at decoded
        cases parsed : LocalSet.parse nested element.value with
        | error error | ok inner =>
          rw [parsed] at decoded
          cases decoded
      | text | bytes =>
        rw [decode_scalar found nofun] at decoded
        cases decoded
      | unsigned width | scaledUnsigned width low high =>
        rw [decode_scalar found nofun, Decoder.scalar?] at decoded
        refine .wrongWidth name _ width found rfl ?_
        intro right
        rw [if_pos right] at decoded
        cases decoded
      | scaledSigned width low high =>
        rw [decode_scalar found nofun, Decoder.scalar?] at decoded
        by_cases right : element.value.length = width
        · rw [if_pos right, scaleSigned?] at decoded
          split at decoded
          · rename_i marker
            exact .outOfRange name width low high found marker
          · cases decoded
        · exact .wrongWidth name _ width found rfl right
  · intro silent
    cases silent with
    | unknown absent => rw [decode, absent]
    | wrongWidth name decoder width found wide wrong =>
      cases decoder with
      | set | text | bytes => cases wide
      | unsigned | scaledSigned | scaledUnsigned =>
        cases wide
        rw [decode_scalar found nofun, Decoder.scalar?, if_neg wrong]
        rfl
    | outOfRange name width low high found marker =>
      rw [decode_scalar found nofun, Decoder.scalar?, scaleSigned?, if_pos marker]
      split <;> rfl

/-- An element gives a field the value that it adds. -/
theorem value?_of_decode {name : String} {added : Option (String × Value)}
    (decoded : element.decode table = .ok added) (fields : Fields) :
    Keyed.find? name (LocalSet.adding fields added) =
      (element.value? table name).or (Keyed.find? name fields) := by
  rw [value?, decoded]
  cases added with
  | none => rfl
  | some entry =>
    obtain ⟨given, value⟩ := entry
    dsimp only [LocalSet.adding]
    rw [Keyed.find?_put]
    by_cases same : given = name
    · rw [if_pos same, if_pos same.symm, Option.some_or]
    · rw [if_neg same, if_neg (Ne.symm same), Option.none_or]

end Element

namespace Elements
variable {table : FieldTable} {data : Bytes}

/-- There is one way to cut bytes into elements. -/
theorem unique {elements others : List Element} (cut : Elements data elements)
    (cut' : Elements data others) : elements = others := by
  induction elements generalizing data others with
  | nil =>
    cases others with
    | nil => rfl
    | cons other rest => cases cut.bytes.symm.trans cut'.bytes
  | cons element rest ih =>
    cases others with
    | nil => cases cut'.bytes.symm.trans cut.bytes
    | cons other rest' =>
      have same := cut.bytes.symm.trans cut'.bytes
      rw [List.flatMap_cons, List.flatMap_cons] at same
      obtain ⟨first, behind⟩ := Element.bytes_append_inj (cut.wellFormed _ List.mem_cons_self)
        (cut'.wellFormed _ List.mem_cons_self) same
      have later : Elements (rest.flatMap Element.bytes) rest :=
        ⟨rfl, fun element member => cut.wellFormed _ (List.mem_cons_of_mem _ member)⟩
      have later' : Elements (rest.flatMap Element.bytes) rest' :=
        ⟨behind, fun element member => cut'.wellFormed _ (List.mem_cons_of_mem _ member)⟩
      rw [first, ih later later']

/-- The value of an element is shorter than the bytes that the element is in. -/
theorem value_length_lt {elements : List Element} (cut : Elements data elements)
    {element : Element} (member : element ∈ elements) : element.value.length < data.length := by
  obtain ⟨before, after, rfl⟩ := List.append_of_mem member
  rw [cut.bytes, List.flatMap_append, List.flatMap_cons, Element.bytes]
  simp only [List.length_append, List.length_cons]
  omega

/-- Elements are decoded in turn, wherever they start. -/
theorem parse_eq_foldlM {elements : List Element} (cut : Elements data elements)
    (fields : Fields) (offset : Nat) :
    LocalSet.parseElements table fields offset data = elements.foldlM
      (fun fields element => (element.decode table).map (LocalSet.adding fields)) fields := by
  induction elements generalizing data fields offset with
  | nil =>
    rw [cut.bytes]
    exact LocalSet.parseElements.eq_1 ..
  | cons element rest ih =>
    have later : Elements (rest.flatMap Element.bytes) rest :=
      ⟨rfl, fun element member => cut.wellFormed _ (List.mem_cons_of_mem _ member)⟩
    rw [cut.bytes, List.flatMap_cons, List.foldlM_cons,
      LocalSet.parseElements_cons (cut.wellFormed _ List.mem_cons_self)]
    cases element.decode table with
    | error error => rfl
    | ok added => exact ih later _ _

/-- Elements are accepted when each of them is. -/
theorem parses_iff {elements : List Element} (cut : Elements data elements) (fields : Fields)
    (offset : Nat) : (∃ out, LocalSet.parseElements table fields offset data = .ok out) ↔
      ∀ element ∈ elements, ∃ added, element.decode table = .ok added := by
  rw [cut.parse_eq_foldlM]
  clear cut
  induction elements generalizing fields with
  | nil => exact ⟨fun _ _ member => (List.not_mem_nil member).elim, fun _ => ⟨fields, rfl⟩⟩
  | cons element rest ih =>
    rw [List.foldlM_cons, List.forall_mem_cons]
    cases element.decode table with
    | error error => exact ⟨nofun, nofun⟩
    | ok added =>
      constructor
      · intro parsed
        exact ⟨⟨added, rfl⟩, (ih _).mp parsed⟩
      · rintro ⟨-, others⟩
        exact (ih _).mpr others

/-- The last element under a name that decodes to a value counts. -/
theorem find?_of_parsed {elements : List Element} (cut : Elements data elements)
    {fields out : Fields} {offset : Nat} (name : String)
    (parsed : LocalSet.parseElements table fields offset data = .ok out) :
    Keyed.find? name out =
      (elements.filterMap (Element.value? table name)).getLast?.or (Keyed.find? name fields) := by
  rw [cut.parse_eq_foldlM] at parsed
  clear cut
  induction elements generalizing fields with
  | nil =>
    cases parsed
    rfl
  | cons element rest ih =>
    rw [List.foldlM_cons] at parsed
    cases decoded : element.decode table with
    | error error =>
      rw [decoded] at parsed
      cases parsed
    | ok added =>
      rw [decoded] at parsed
      rw [ih parsed, Element.value?_of_decode decoded, List.filterMap_cons]
      cases element.value? table name with
      | none => rfl
      | some value =>
        dsimp only
        rw [List.getLast?_cons, Option.some_or]
        cases (rest.filterMap (Element.value? table name)).getLast? <;> rfl

/-- Elements that say nothing may as well not be there. -/
theorem parse_without {before after : List Element} {element : Element}
    (cut : Elements data (before ++ element :: after)) (silent : element.Silent table) :
    LocalSet.parse table ((before ++ after).flatMap Element.bytes) = LocalSet.parse table data := by
  have without : Elements ((before ++ after).flatMap Element.bytes) (before ++ after) := by
    refine ⟨rfl, fun other member => cut.wellFormed _ ?_⟩
    rw [List.mem_append, List.mem_cons]
    exact (List.mem_append.mp member).imp_right .inr
  rw [LocalSet.parse, LocalSet.parse, cut.parse_eq_foldlM, without.parse_eq_foldlM,
    List.foldlM_append, List.foldlM_append]
  congr 1
  funext fields
  rw [List.foldlM_cons, Element.decode_eq_none_iff.mpr silent]
  rfl

end Elements

namespace LocalSet
variable {table : FieldTable} {data : Bytes}

/-- Only sets are accepted. The values of nested sets are shorter than the set they are in. -/
theorem isSet_of_parse {fields : Fields} (parsed : parse table data = .ok fields) :
    IsSet table data := by
  induction same_size : data.length using Nat.strongRecOn generalizing table data fields with
  | ind size ih =>
    obtain ⟨elements, cut⟩ := exists_elements parsed
    have decodes := (cut.parses_iff [] 0).mp ⟨fields, parsed⟩
    rw [cut.bytes]
    refine .intro elements cut.wellFormed ?_
    intro element member name inner found
    obtain ⟨innerFields, accepted⟩ :=
      Element.decodes_iff.mp (decodes element member) name inner found
    have shorter := cut.value_length_lt member
    exact ih _ (by omega) accepted rfl

/-- Sets are accepted, by induction on how they are built. -/
theorem parses_of_isSet (isSet : IsSet table data) : ∃ fields, parse table data = .ok fields := by
  induction isSet with
  | intro elements wellFormed nested ih =>
    have cut : Elements (elements.flatMap Element.bytes) elements := ⟨rfl, wellFormed⟩
    refine (cut.parses_iff [] 0).mpr fun element member => Element.decodes_iff.mpr ?_
    intro name inner found
    exact ih element member name inner found

/-- The sets are what is accepted; they are cut into elements in one way; a field has the value of
the last element that gives it one; and elements that say nothing change nothing. -/
theorem parse_reads_grammar (table : FieldTable) (data : Bytes) :
    ((∃ fields, parse table data = .ok fields) ↔ IsSet table data) ∧
    (∀ elements others, Elements data elements → Elements data others → elements = others) ∧
    ∀ fields, parse table data = .ok fields → ∃ elements, Elements data elements ∧
      (∀ name, Keyed.find? name fields =
        (elements.filterMap (Element.value? table name)).getLast?) ∧
      ∀ before element after, elements = before ++ element :: after → element.Silent table →
        parse table ((before ++ after).flatMap Element.bytes) = .ok fields := by
  refine ⟨?accepted, ?unique, ?fields⟩
  case accepted =>
    constructor
    · rintro ⟨fields, parsed⟩
      exact isSet_of_parse parsed
    · exact parses_of_isSet
  case unique =>
    intro elements others cut cut'
    exact cut.unique cut'
  case fields =>
    intro fields parsed
    obtain ⟨elements, cut⟩ := exists_elements parsed
    refine ⟨elements, cut, ?_, ?_⟩
    · intro name
      rw [cut.find?_of_parsed name parsed, Keyed.find?, Option.or_none]
    · rintro before element after rfl silent
      rw [cut.parse_without silent, parsed]

/-- The second identifier is too short and tag 9 is unknown, so the first identifier stays. -/
example : parse
    (.ofEntries [(1, "id", .unsigned 2), (2, "inner", .set [(1, "code", .unsigned 1)])])
    [1, 2, 0, 7, 2, 0x81, 6, 1, 1, 4, 1, 1, 5, 9, 0, 1, 1, 8] =
      .ok [("id", .unsigned 7), ("inner", .set [("code", .unsigned 5)])] := by
  cbv

end LocalSet

end MotionImagery.Telemetry
