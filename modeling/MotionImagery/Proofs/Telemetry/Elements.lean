import MotionImagery.Telemetry.LocalSet

/-!
The grammar of local sets: an element is written as a tag, a length field and as many bytes as that
says, and a set as its elements one after the other. Reading a set is decoding its elements in turn.
-/
namespace MotionImagery.Telemetry

/-- The ways to write a length. -/
inductive LengthField : Bytes → Nat → Prop
  | short (byte : UInt8) (small : byte.toNat < 0x80) : LengthField [byte] byte.toNat
  | long (first : UInt8) (bytes : Bytes) (count : first.toNat = 0x80 + bytes.length)
    (some_bytes : bytes ≠ []) (few : bytes.length ≤ longestLength) :
    LengthField (first :: bytes) (bigEndian bytes)

namespace LengthField

theorem read {field : Bytes} {length : Nat} (written : LengthField field length) (rest : Bytes) :
    readLength? (field ++ rest) = some (length, field.length) := by
  cases written with
  | short byte small => simp [readLength?, small]
  | long first bytes count some_bytes few =>
    have positive := List.length_pos_iff.mpr some_bytes
    have large : ¬first.toNat < 0x80 := by omega
    have exact_count : first.toNat - 0x80 = bytes.length := by omega
    have fits : ¬(bytes.length = 0 ∨ longestLength < bytes.length ∨
        (bytes ++ rest).length < bytes.length) := by
      rw [List.length_append]
      omega
    simp only [readLength?, List.cons_append, if_neg large, exact_count, if_neg fits,
      List.take_left, List.length_cons, Nat.add_comm 1]

theorem of_read {data : Bytes} {length size : Nat} (read : readLength? data = some (length, size)) :
    LengthField (data.take size) length := by
  unfold readLength? at read
  split at read
  · cases read
  · rename_i first rest
    split at read
    · rename_i small
      cases read
      exact .short first small
    · rename_i large
      dsimp only at read
      split at read
      · cases read
      · rename_i fits
        have shown := Option.some.inj read
        simp only [Prod.mk.injEq] at shown
        obtain ⟨rfl, rfl⟩ := shown
        have size : (rest.take (first.toNat - 0x80)).length = first.toNat - 0x80 := by
          rw [List.length_take]
          omega
        rw [Nat.add_comm 1, List.take_succ_cons]
        refine .long first _ (by omega) ?_ (by omega)
        rintro nothing
        rw [nothing, List.length_nil] at size
        omega

end LengthField

/-- An element as it is written. -/
structure Element where
  tag : UInt8
  lengthField : Bytes
  value : Bytes
  deriving DecidableEq, Repr

namespace Element

def bytes (element : Element) : Bytes :=
  element.tag :: (element.lengthField ++ element.value)

/-- The length field says how many bytes the value has. -/
def WellFormed (element : Element) : Prop :=
  LengthField element.lengthField element.value.length

/-- What an element adds to the fields of a set, if anything. -/
def decode (table : FieldTable) (element : Element) :
    Except TelemetryError (Option (String × Value)) :=
  match Keyed.find? element.tag.toNat table with
  | none => .ok none
  | some (name, .set nested) =>
    (LocalSet.parse nested element.value).map fun inner => some (name, .set inner)
  | some (name, decoder) => .ok ((decoder.scalar? element.value).map fun value => (name, value))

/-- What an element adds goes under the name that its tag stands for. -/
theorem entry_of_decode {table : FieldTable} {element : Element} {name : String} {value : Value}
    (decoded : element.decode table = .ok (some (name, value))) :
    ∃ decoder, Keyed.find? element.tag.toNat table = some (name, decoder) := by
  rw [decode] at decoded
  split at decoded
  · cases decoded
  · rename_i nested found
    cases inner : LocalSet.parse nested element.value with
    | error error =>
      rw [inner] at decoded
      cases decoded
    | ok fields =>
      rw [inner] at decoded
      cases decoded
      exact ⟨_, found⟩
  · rename_i decoder _ found
    have decoded := Except.ok.inj decoded
    obtain ⟨_, -, same⟩ := Option.map_eq_some_iff.mp decoded
    cases same
    exact ⟨_, found⟩

end Element

/-- The bytes are those of the elements, one after the other. -/
structure Elements (data : Bytes) (elements : List Element) : Prop where
  bytes : data = elements.flatMap Element.bytes
  wellFormed : ∀ element ∈ elements, element.WellFormed

namespace LocalSet
open Element

/-- The fields with what an element adds. -/
def adding (fields : Fields) : Option (String × Value) → Fields
  | none => fields
  | some (name, value) => Keyed.put name value fields

theorem parseElements_cons {element : Element} (wellFormed : element.WellFormed)
    (table : FieldTable) (fields : Fields) (offset : Nat) (rest : Bytes) :
    parseElements table fields offset (element.bytes ++ rest) =
      match element.decode table with
      | .error error => .error error
      | .ok added => parseElements table (adding fields added)
          (offset + element.bytes.length) rest := by
  have read := wellFormed.read (element.value ++ rest)
  rw [← List.append_assoc] at read
  have after : (element.lengthField ++ element.value ++ rest).drop element.lengthField.length =
      element.value ++ rest := by rw [List.append_assoc, List.drop_left]
  have enough : ¬(element.lengthField ++ element.value ++ rest).length -
      element.lengthField.length < element.value.length := by
    simp only [List.length_append]
    omega
  have next : offset + element.bytes.length =
      offset + 1 + element.lengthField.length + element.value.length := by
    simp only [Element.bytes, List.length_cons, List.length_append]
    omega
  rw [Element.bytes, List.cons_append, parseElements]
  split
  · rename_i unread
    rw [read] at unread
    cases unread
  · rename_i length size read'
    rw [read] at read'
    cases read'
    rw [if_neg enough, after, List.take_left, List.drop_left, ← Element.bytes, next,
      Element.decode]
    dsimp only
    cases Keyed.find? element.tag.toNat table with
    | none => rfl
    | some entry =>
      obtain ⟨name, decoder⟩ := entry
      cases decoder with
      | set nested =>
        dsimp only
        rw [LocalSet.parse]
        cases parseElements nested [] 0 element.value <;> rfl
      | _ =>
        dsimp only
        generalize Decoder.scalar? _ element.value = decoded
        cases decoded <;> rfl

/-- The elements at the front are decoded before those behind them. -/
theorem parseElements_append {elements : List Element}
    (wellFormed : ∀ element ∈ elements, element.WellFormed) (table : FieldTable) (fields : Fields)
    (offset : Nat) (rest : Bytes) :
    parseElements table fields offset (elements.flatMap Element.bytes ++ rest) =
      (parseElements table fields offset (elements.flatMap Element.bytes)).bind fun middle =>
        parseElements table middle (offset + (elements.flatMap Element.bytes).length) rest := by
  induction elements generalizing fields offset with
  | nil =>
    simp only [List.flatMap_nil, List.nil_append, List.length_nil, Nat.add_zero]
    rw [parseElements.eq_1]
    rfl
  | cons element others ih =>
    have first := wellFormed element List.mem_cons_self
    have ih := ih fun other member => wellFormed other (List.mem_cons_of_mem _ member)
    rw [List.flatMap_cons, List.append_assoc, parseElements_cons first, parseElements_cons first]
    cases element.decode table with
    | error error => rfl
    | ok added =>
      dsimp only
      rw [ih, List.length_append, Nat.add_assoc]

/-- What is read as a set begins with an element, if with anything. -/
theorem exists_first {table : FieldTable} {fields out : Fields} {offset : Nat} {tag : UInt8}
    {afterTag : Bytes} (parsed : parseElements table fields offset (tag :: afterTag) = .ok out) :
    ∃ element rest, tag :: afterTag = Element.bytes element ++ rest ∧ element.WellFormed := by
  rw [parseElements] at parsed
  split at parsed
  · cases parsed
  · rename_i length size read
    dsimp only at parsed
    split at parsed
    · cases parsed
    · rename_i enough
      have inside := size_of_readLength? read
      have whole : ((afterTag.drop size).take length).length = length := by
        rw [List.length_take, List.length_drop]
        omega
      refine ⟨⟨tag, afterTag.take size, (afterTag.drop size).take length⟩,
        (afterTag.drop size).drop length, ?_, ?_⟩
      · rw [Element.bytes, List.cons_append, List.append_assoc, List.take_append_drop,
          List.take_append_drop]
      · rw [Element.WellFormed, whole]
        exact .of_read read

/-- What is read as a set is a sequence of elements. -/
theorem exists_elements {table : FieldTable} {fields out : Fields} {offset : Nat} {data : Bytes}
    (parsed : parseElements table fields offset data = .ok out) :
    ∃ elements, Elements data elements := by
  induction same_size : data.length using Nat.strongRecOn generalizing fields offset data with
  | ind size ih =>
    cases data with
    | nil => exact ⟨[], rfl, by simp⟩
    | cons tag afterTag =>
      obtain ⟨element, rest, same, wellFormed⟩ := exists_first parsed
      rw [same, parseElements_cons wellFormed] at parsed
      have shorter : rest.length < size := by
        rw [← same_size, same, Element.bytes, List.length_append, List.length_cons]
        omega
      split at parsed
      · cases parsed
      · obtain ⟨others, later⟩ := ih rest.length shorter parsed rfl
        refine ⟨element :: others, by rw [same, later.bytes, List.flatMap_cons], ?_⟩
        rintro other member
        obtain rfl | member := List.mem_cons.mp member
        · exact wellFormed
        · exact later.wellFormed other member

end LocalSet

end MotionImagery.Telemetry
