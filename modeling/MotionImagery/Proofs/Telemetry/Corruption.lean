import Mathlib.Data.List.Basic
import MotionImagery.Proofs.Telemetry.Framing

/-!
A byte of a sealed packet cannot change unnoticed. Wherever it stands, apart from the length fields
that say where elements begin and end, the packet is no longer found, its set is no longer read, its
checksum element is gone, or its sum and its checksum differ.
-/
namespace MotionImagery.Checksum

/-- What a byte at an offset counts in the sum. -/
def weight (offset : Nat) : Nat := if offset % 2 = 0 then 256 else 1

theorem octetSum_set {bytes : Bytes} {offset : Nat} (inside : offset < bytes.length)
    (byte : UInt8) :
    octetSum (bytes.set offset byte) + weight offset * (bytes[offset]).toNat =
      octetSum bytes + weight offset * byte.toNat := by
  fun_induction octetSum bytes generalizing offset with
  | case1 => simp at inside
  | case2 high =>
    obtain rfl : offset = 0 := by simpa using inside
    simp [octetSum, weight]
    omega
  | case3 high low rest ih =>
    match offset with
    | 0 =>
      simp [octetSum, weight]
      omega
    | 1 =>
      simp [octetSum, weight]
      omega
    | offset + 2 =>
      have below : offset < rest.length := by simpa using inside
      have ih := ih below
      simp [octetSum, weight] at ih ⊢
      omega

/-- A byte that the sum covers changes the sum. -/
theorem runningSum_set_ne {packet : Bytes} {offset : Nat} {byte : UInt8}
    (covered : offset + 2 < packet.length) (changed : packet[offset]? ≠ some byte) :
    runningSum (packet.set offset byte) ≠ runningSum packet := by
  have inside : offset < (packet.take (packet.length - 2)).length := by
    rw [List.length_take]
    omega
  have sums := octetSum_set inside byte
  rw [List.getElem_take] at sums
  have differ : packet[offset].toNat ≠ byte.toNat := by
    intro same
    exact changed (by rw [List.getElem?_eq_getElem (by omega), UInt8.toNat_inj.mp same])
  have small := byte.toNat_lt
  have small' := packet[offset].toNat_lt
  rw [runningSum, runningSum, List.length_set, List.take_set]
  intro same
  unfold weight at sums
  split at sums <;> omega

/-- The last two bytes are not covered. -/
theorem runningSum_set_of_le {packet : Bytes} {offset : Nat} (byte : UInt8)
    (last : packet.length ≤ offset + 2) :
    runningSum (packet.set offset byte) = runningSum packet := by
  rw [runningSum, runningSum, List.length_set, List.take_set, List.set_eq_of_length_le]
  rw [List.length_take]
  omega

end MotionImagery.Checksum

namespace MotionImagery.Telemetry
open Context

theorem find?_checksumTag :
    Keyed.find? 1 uasDatalinkTable = some (FieldName.checksum, .unsigned 2) := rfl

theorem name_ne_checksum {tag : Nat} {name : String} {decoder : Decoder}
    (found : Keyed.find? tag uasDatalinkTable = some (name, decoder)) (other : tag ≠ 1) :
    name ≠ FieldName.checksum := by
  have all : ∀ entry ∈ uasDatalinkTable, entry.1 ≠ 1 → entry.2.1 ≠ FieldName.checksum := by
    decide +kernel
  exact all _ (Keyed.mem_of_find? found) other

variable {fields out : Fields} {offset : Nat}

theorem decode_sealed {trailer : Element} (tagged : trailer.tag = 1) :
    trailer.decode uasDatalinkTable = .ok (if trailer.value.length = 2 then
      some (FieldName.checksum, .unsigned (readUnsigned trailer.value)) else none) := by
  rw [Element.decode, tagged, show (1 : UInt8).toNat = 1 from rfl, find?_checksumTag]
  dsimp only
  rw [Decoder.scalar?]
  split <;> rfl

theorem find?_checksum_adding {element : Element} (other : element.tag ≠ 1)
    {added : Option (String × Value)} (decoded : element.decode uasDatalinkTable = .ok added) :
    Keyed.find? FieldName.checksum (LocalSet.adding fields added) =
      Keyed.find? FieldName.checksum fields := by
  cases added with
  | none => rfl
  | some entry =>
    obtain ⟨name, value⟩ := entry
    obtain ⟨decoder, found⟩ := Element.entry_of_decode decoded
    have differs := name_ne_checksum found fun same => other (UInt8.toNat_inj.mp same)
    rw [LocalSet.adding, Keyed.find?_put, if_neg differs.symm]

/-- Elements under other tags leave the checksum as it was. -/
theorem find?_checksum_of_untagged {elements : List Element}
    (wellFormed : ∀ element ∈ elements, element.WellFormed)
    (untagged : ∀ element ∈ elements, element.tag ≠ 1)
    (parsed : LocalSet.parseElements uasDatalinkTable fields offset
      (elements.flatMap Element.bytes) = .ok out) :
    Keyed.find? FieldName.checksum out = Keyed.find? FieldName.checksum fields := by
  induction elements generalizing fields offset with
  | nil =>
    rw [List.flatMap_nil, LocalSet.parseElements.eq_1] at parsed
    cases parsed
    rfl
  | cons element others ih =>
    rw [List.flatMap_cons,
      LocalSet.parseElements_cons (wellFormed element List.mem_cons_self)] at parsed
    split at parsed
    · cases parsed
    · rename_i added decoded
      rw [ih (fun other member => wellFormed other (List.mem_cons_of_mem _ member))
        (fun other member => untagged other (List.mem_cons_of_mem _ member)) parsed,
        find?_checksum_adding (untagged element List.mem_cons_self) decoded]

namespace Element

/-- The offsets that the length fields take up when the elements begin at an offset. -/
def lengthOffsets : Nat → List Element → List Nat
  | _, [] => []
  | start, element :: rest =>
    List.range' (start + 1) element.lengthField.length ++
      lengthOffsets (start + element.bytes.length) rest

theorem lengthOffsets_append (start : Nat) (elements later : List Element) :
    lengthOffsets start (elements ++ later) = lengthOffsets start elements ++
      lengthOffsets (start + (elements.flatMap bytes).length) later := by
  induction elements generalizing start with
  | nil => rfl
  | cons element others ih =>
    rw [List.cons_append, lengthOffsets, lengthOffsets, ih, List.flatMap_cons, List.length_append,
      List.append_assoc, Nat.add_assoc]

/-- The element with another byte in its tag or its value. -/
def set (element : Element) (offset : Nat) (byte : UInt8) : Element :=
  if offset = 0 then { element with tag := byte }
  else { element with value := element.value.set (offset - 1 - element.lengthField.length) byte }

variable {element : Element} {start offset : Nat}

theorem bytes_set (elsewhere : start + offset ∉ List.range' (start + 1) element.lengthField.length)
    (byte : UInt8) : (element.set offset byte).bytes = element.bytes.set offset byte := by
  rw [set]
  split
  · rename_i first
    rw [first]
    rfl
  · rename_i later
    obtain ⟨position, rfl⟩ : ∃ position, offset = position + 1 := ⟨offset - 1, by omega⟩
    have behind : element.lengthField.length ≤ position := by
      simp only [List.mem_range'_1] at elsewhere
      omega
    rw [bytes, bytes, List.set_cons_succ, List.set_append_right _ _ behind]
    rfl

theorem wellFormed_set (wellFormed : element.WellFormed) (offset : Nat) (byte : UInt8) :
    (element.set offset byte).WellFormed := by
  rw [set]
  split
  · exact wellFormed
  · simpa [WellFormed] using wellFormed

end Element

/-- Outside the length fields a changed byte leaves a sequence of elements one. -/
theorem Elements.exists_set {data : Bytes} {elements : List Element} {start offset : Nat}
    (written : Elements data elements) (inside : offset < data.length)
    (elsewhere : start + offset ∉ Element.lengthOffsets start elements) (byte : UInt8) :
    ∃ changed, Elements (data.set offset byte) changed := by
  induction elements generalizing data start offset with
  | nil =>
    rw [written.bytes] at inside
    simp at inside
  | cons element others ih =>
    have wellFormed := written.wellFormed element List.mem_cons_self
    have later : Elements (others.flatMap Element.bytes) others :=
      ⟨rfl, fun other member => written.wellFormed other (List.mem_cons_of_mem _ member)⟩
    rw [Element.lengthOffsets, List.mem_append, not_or] at elsewhere
    rw [written.bytes, List.flatMap_cons] at inside ⊢
    by_cases here : offset < element.bytes.length
    · refine ⟨element.set offset byte :: others, ?_, ?_⟩
      · rw [List.set_append_left _ _ here, List.flatMap_cons, Element.bytes_set elsewhere.1]
      · rintro other member
        obtain rfl | member := List.mem_cons.mp member
        · exact Element.wellFormed_set wellFormed offset byte
        · exact later.wellFormed other member
    · have there : element.bytes.length ≤ offset := Nat.le_of_not_lt here
      have inside : offset - element.bytes.length < (others.flatMap Element.bytes).length := by
        rw [List.length_append] at inside
        omega
      have elsewhere : start + element.bytes.length + (offset - element.bytes.length) ∉
          Element.lengthOffsets (start + element.bytes.length) others := by
        rw [Nat.add_assoc, Nat.add_sub_cancel' there]
        exact elsewhere.2
      obtain ⟨changed, written'⟩ := ih later inside elsewhere
      refine ⟨element :: changed, ?_, ?_⟩
      · rw [List.set_append_right _ _ there, written'.bytes, List.flatMap_cons]
      · rintro other member
        obtain rfl | member := List.mem_cons.mp member
        · exact wellFormed
        · exact written'.wellFormed other member

/-- A packet of unmanned air system telemetry. -/
def packetOf (lengthField body : Bytes) : Bytes := uasDatalinkKey ++ (lengthField ++ body)

theorem length_packetOf (lengthField body : Bytes) :
    (packetOf lengthField body).length = keyLength + lengthField.length + body.length := by
  simp only [packetOf, List.length_append, Nat.add_assoc]
  rfl

theorem length_header (lengthField : Bytes) :
    (uasDatalinkKey ++ lengthField).length = keyLength + lengthField.length :=
  List.length_append

theorem getElem?_packetOf (lengthField body : Bytes) (position : Nat) :
    (packetOf lengthField body)[keyLength + lengthField.length + position]? = body[position]? := by
  rw [packetOf, ← List.append_assoc, ← length_header,
    List.getElem?_append_right (Nat.le_add_right _ _), Nat.add_sub_cancel_left]

theorem packetOf_set (lengthField body : Bytes) (position : Nat) (byte : UInt8) :
    packetOf lengthField (body.set position byte) =
      (packetOf lengthField body).set (keyLength + lengthField.length + position) byte := by
  rw [packetOf, packetOf, ← List.append_assoc, ← List.append_assoc, ← length_header,
    List.set_append_right _ _ (Nat.le_add_right _ _), Nat.add_sub_cancel_left]

section
variable {lengthField body : Bytes} {before : List Element} {trailer : Element}
  {position : Nat} {byte : UInt8}

/-- An accepted packet holds its own sum. -/
theorem sum_of_accepted (framed : LengthField lengthField body.length)
    (accepted : decode uasDatalink (packetOf lengthField body) = .ok fields) :
    LocalSet.parse uasDatalinkTable body = .ok fields ∧
      ∃ number, Keyed.find? FieldName.checksum fields = some (.unsigned number) ∧
        number % 0x10000 = Checksum.runningSum (packetOf lengthField body) := by
  have packet : Triplet.WellFormed ⟨uasDatalinkKey, lengthField, body⟩ := ⟨rfl, framed⟩
  have opened : Triplet.contents uasDatalink ⟨uasDatalinkKey, lengthField, body⟩ = .ok fields := by
    rw [← accepted]
    exact ((decode_bytes packet uasDatalink).trans (if_pos rfl)).symm
  exact Triplet.contents_ok_iff.mp opened

/-- The checksum of a set whose last element is under the checksum tag. -/
theorem find?_checksum_of_trailer (written : Elements body (before ++ [trailer]))
    (tagged : trailer.tag = 1) (parsed : LocalSet.parse uasDatalinkTable body = .ok fields) :
    (trailer.value.length = 2 →
      Keyed.find? FieldName.checksum fields = some (.unsigned (readUnsigned trailer.value))) ∧
    (trailer.value.length ≠ 2 → (∀ element ∈ before, element.tag ≠ 1) →
      Keyed.find? FieldName.checksum fields = none) := by
  have wellFormed : ∀ element ∈ before, element.WellFormed := fun element member =>
    written.wellFormed element (List.mem_append_left _ member)
  have trailing : trailer.WellFormed := written.wellFormed trailer (by simp)
  rw [LocalSet.parse, written.bytes, List.flatMap_append,
    LocalSet.parseElements_append wellFormed] at parsed
  cases read : LocalSet.parseElements uasDatalinkTable [] 0 (before.flatMap Element.bytes) with
  | error error =>
    rw [read] at parsed
    cases parsed
  | ok middle =>
    rw [read, Except.bind, List.flatMap_cons, LocalSet.parseElements_cons trailing,
      decode_sealed tagged, List.flatMap_nil] at parsed
    dsimp only at parsed
    rw [LocalSet.parseElements.eq_1] at parsed
    cases parsed
    constructor
    · intro two
      rw [if_pos two, LocalSet.adding, Keyed.find?_put, if_pos rfl]
    · intro other untagged
      rw [if_neg other, LocalSet.adding, find?_checksum_of_untagged wellFormed untagged read]
      rfl

theorem readUnsigned_pair (high low : UInt8) :
    readUnsigned [high, low] = high.toNat * 256 + low.toNat := by
  have := high.toNat_lt
  have := low.toNat_lt
  simp only [readUnsigned, bigEndian, List.foldl_cons, List.foldl_nil]
  omega

/-- Two bytes of which one is changed hold another number. -/
theorem readUnsigned_set_ne {value : Bytes} {offset : Nat} {byte : UInt8}
    (two : value.length = 2) (inside : offset < 2) (changed : value[offset]? ≠ some byte) :
    readUnsigned (value.set offset byte) % 0x10000 ≠ readUnsigned value % 0x10000 := by
  obtain ⟨high, low, rfl⟩ := List.length_eq_two.mp two
  have := high.toNat_lt
  have := low.toNat_lt
  have := byte.toNat_lt
  match offset with
  | 0 =>
    have differ : high.toNat ≠ byte.toNat := fun same => changed (by simp [UInt8.toNat_inj.mp same])
    simp only [List.set_cons_zero, readUnsigned_pair]
    omega
  | 1 =>
    have differ : low.toNat ≠ byte.toNat := fun same => changed (by simp [UInt8.toNat_inj.mp same])
    simp only [List.set_cons_succ, List.set_cons_zero, readUnsigned_pair]
    omega

/-- A packet that is accepted, and whose set ends with its one checksum element. -/
structure Sealed (lengthField body : Bytes) (before : List Element) (trailer : Element) :
    Prop where
  framed : LengthField lengthField body.length
  accepted : ∃ fields, decode uasDatalink (packetOf lengthField body) = .ok fields
  written : Elements body (before ++ [trailer])
  tagged : trailer.tag = 1
  untagged : ∀ element ∈ before, element.tag ≠ 1

namespace Sealed

/-- The checksum is the two bytes at the end. -/
theorem checksum (packet : Sealed lengthField body before trailer) :
    trailer.value.length = 2 ∧ readUnsigned trailer.value % 0x10000 =
      Checksum.runningSum (packetOf lengthField body) := by
  obtain ⟨fields, accepted⟩ := packet.accepted
  obtain ⟨parsed, number, found, same⟩ := sum_of_accepted packet.framed accepted
  obtain ⟨checked, unchecked⟩ := find?_checksum_of_trailer packet.written packet.tagged parsed
  by_cases two : trailer.value.length = 2
  · rw [checked two] at found
    cases found
    exact ⟨two, same⟩
  · rw [unchecked two packet.untagged] at found
    cases found

/-- When a packet with a changed set is accepted as well, it holds its own sum. -/
theorem sum_of_changed (packet : Sealed lengthField body before trailer)
    (accepted : decode uasDatalink (packetOf lengthField (body.set position byte)) = .ok fields) :
    LocalSet.parse uasDatalinkTable (body.set position byte) = .ok fields ∧
      ∃ number, Keyed.find? FieldName.checksum fields = some (.unsigned number) ∧
        number % 0x10000 = Checksum.runningSum ((packetOf lengthField body).set
          (keyLength + lengthField.length + position) byte) := by
  have size : (body.set position byte).length = body.length := List.length_set
  rw [← packetOf_set]
  exact sum_of_accepted (size.symm ▸ packet.framed) accepted

theorem length_body (packet : Sealed lengthField body before trailer) :
    body.length = (before.flatMap Element.bytes).length + 1 + trailer.lengthField.length +
      trailer.value.length := by
  rw [packet.written.bytes]
  simp only [List.flatMap_append, List.flatMap_cons, List.flatMap_nil, List.append_nil,
    List.length_append, Element.bytes, List.length_cons]
  omega

/-- A changed byte of the key: the packet is not found. -/
theorem refused_of_key (packet : Sealed lengthField body before trailer)
    (inside : position < keyLength) (changed : uasDatalinkKey[position]? ≠ some byte) :
    decode uasDatalink ((packetOf lengthField body).set position byte) =
      .error .missingLocalSet := by
  have other : uasDatalinkKey.set position byte ≠ uasDatalink.key := by
    intro same
    exact changed (by rw [← show uasDatalink.key = uasDatalinkKey from rfl, ← same,
      List.getElem?_set_self (by exact inside)])
  have framed : Triplet.WellFormed ⟨uasDatalinkKey.set position byte, lengthField, body⟩ :=
    ⟨List.length_set, packet.framed⟩
  rw [packetOf, List.set_append_left _ _ inside]
  exact (decode_bytes framed uasDatalink).trans (if_neg other)

/-- A changed byte before the checksum element: the sum is another, the checksum is not. -/
theorem refused_of_covered (packet : Sealed lengthField body before trailer)
    (inside : position < (before.flatMap Element.bytes).length)
    (changed : body[position]? ≠ some byte) {start : Nat}
    (elsewhere : start + position ∉ Element.lengthOffsets start before) :
    decode uasDatalink (packetOf lengthField (body.set position byte)) ≠ .ok fields := by
  intro accepted
  obtain ⟨two, sum⟩ := packet.checksum
  have front : Elements (before.flatMap Element.bytes) before :=
    ⟨rfl, fun element member => packet.written.wellFormed element (List.mem_append_left _ member)⟩
  obtain ⟨before', written⟩ := front.exists_set inside elsewhere byte
  have written' : Elements (body.set position byte) (before' ++ [trailer]) := by
    refine ⟨?_, fun element member => ?_⟩
    · rw [packet.written.bytes, List.flatMap_append, List.set_append_left _ _ inside,
        written.bytes, List.flatMap_append]
    · obtain earlier | last := List.mem_append.mp member
      · exact written.wellFormed element earlier
      · exact packet.written.wellFormed element (List.mem_append_right _ last)
  obtain ⟨parsed, number, found, sum'⟩ := packet.sum_of_changed accepted
  rw [(find?_checksum_of_trailer written' packet.tagged parsed).1 two] at found
  cases found
  rw [sum] at sum'
  refine Checksum.runningSum_set_ne ?_ ?_ sum'.symm
  · rw [length_packetOf, packet.length_body, two]
    omega
  · rw [getElem?_packetOf]
    exact changed

theorem getElem?_tag (packet : Sealed lengthField body before trailer) :
    body[(before.flatMap Element.bytes).length]? = some 1 := by
  rw [packet.written.bytes, List.flatMap_append, List.getElem?_append_right (Nat.le_refl _),
    Nat.sub_self, List.flatMap_cons, Element.bytes, packet.tagged]
  rfl

theorem getElem?_value (packet : Sealed lengthField body before trailer) (position : Nat) :
    body[(before.flatMap Element.bytes).length + 1 + trailer.lengthField.length + position]? =
      trailer.value[position]? := by
  rw [packet.written.bytes, List.flatMap_append,
    List.getElem?_append_right (by omega), List.flatMap_cons, List.flatMap_nil, List.append_nil,
    Element.bytes, show (before.flatMap Element.bytes).length + 1 + trailer.lengthField.length +
      position - (before.flatMap Element.bytes).length =
        trailer.lengthField.length + position + 1 by omega,
    List.getElem?_cons_succ, List.getElem?_append_right (Nat.le_add_right _ _),
    Nat.add_sub_cancel_left]

/-- Outside its length field a changed byte of the last element leaves an element. -/
theorem written_set (packet : Sealed lengthField body before trailer) {offset : Nat}
    (elsewhere : offset ∉ List.range' 1 trailer.lengthField.length) (byte : UInt8) :
    Elements (body.set ((before.flatMap Element.bytes).length + offset) byte)
      (before ++ [trailer.set offset byte]) := by
  have elsewhere' : 0 + offset ∉ List.range' (0 + 1) trailer.lengthField.length := by
    rwa [Nat.zero_add, Nat.zero_add]
  refine ⟨?_, fun element member => ?_⟩
  · rw [packet.written.bytes, List.flatMap_append, List.flatMap_append,
      List.set_append_right _ _ (Nat.le_add_right _ _), Nat.add_sub_cancel_left]
    simp only [List.flatMap_cons, List.flatMap_nil, List.append_nil,
      Element.bytes_set elsewhere' byte]
  · obtain earlier | last := List.mem_append.mp member
    · exact packet.written.wellFormed element (List.mem_append_left _ earlier)
    · rw [List.mem_singleton.mp last]
      exact Element.wellFormed_set (packet.written.wellFormed trailer (by simp)) offset byte

/-- Under another tag the last element is no checksum, and there is none before it. -/
theorem refused_of_tag (packet : Sealed lengthField body before trailer) (other : byte ≠ 1) :
    decode uasDatalink (packetOf lengthField
      (body.set (before.flatMap Element.bytes).length byte)) ≠ .ok fields := by
  intro accepted
  have first : 0 ∉ List.range' 1 trailer.lengthField.length := by simp
  have written := packet.written_set first byte
  rw [Nat.add_zero] at written
  have untagged : ∀ element ∈ before ++ [trailer.set 0 byte], element.tag ≠ 1 := by
    intro element member
    obtain earlier | last := List.mem_append.mp member
    · exact packet.untagged element earlier
    · rw [List.mem_singleton.mp last]
      exact other
  obtain ⟨parsed, number, found, _⟩ := packet.sum_of_changed accepted
  rw [LocalSet.parse, written.bytes] at parsed
  rw [find?_checksum_of_untagged written.wellFormed untagged parsed] at found
  cases found

/-- With a byte of its value changed the checksum is another, and the sum is the same. -/
theorem refused_of_value (packet : Sealed lengthField body before trailer) {place : Nat}
    (inside : place < trailer.value.length) (changed : trailer.value[place]? ≠ some byte) :
    decode uasDatalink (packetOf lengthField (body.set ((before.flatMap Element.bytes).length +
      (trailer.lengthField.length + 1 + place)) byte)) ≠ .ok fields := by
  intro accepted
  have behind : trailer.lengthField.length + 1 + place ∉
      List.range' 1 trailer.lengthField.length := by
    rw [List.mem_range'_1]
    omega
  have written := packet.written_set behind byte
  obtain ⟨two, sum⟩ := packet.checksum
  obtain ⟨parsed, number, found, sum'⟩ := packet.sum_of_changed accepted
  have later : trailer.lengthField.length + 1 + place ≠ 0 := by omega
  have value : (trailer.set (trailer.lengthField.length + 1 + place) byte).value =
      trailer.value.set place byte := by
    rw [Element.set, if_neg later, show trailer.lengthField.length + 1 + place - 1 -
      trailer.lengthField.length = place by omega]
  have tagged : (trailer.set (trailer.lengthField.length + 1 + place) byte).tag = 1 := by
    rw [Element.set, if_neg later]
    exact packet.tagged
  have two' : (trailer.set (trailer.lengthField.length + 1 + place) byte).value.length = 2 := by
    rw [value, List.length_set, two]
  rw [(find?_checksum_of_trailer written tagged parsed).1 two', value] at found
  cases found
  have length := packet.length_body
  rw [Checksum.runningSum_set_of_le byte (by rw [length_packetOf]; omega), ← sum] at sum'
  exact readUnsigned_set_ne two (by omega) changed sum'

/-- A changed byte of the checksum element: it is none any more, or holds another checksum. -/
theorem refused_of_trailer (packet : Sealed lengthField body before trailer)
    (behind : (before.flatMap Element.bytes).length ≤ position)
    (inside : position < body.length) (changed : body[position]? ≠ some byte) {start : Nat}
    (elsewhere : start + position ∉ List.range' (start + (before.flatMap Element.bytes).length + 1)
      trailer.lengthField.length) :
    decode uasDatalink (packetOf lengthField (body.set position byte)) ≠ .ok fields := by
  obtain ⟨offset, rfl⟩ := Nat.exists_eq_add_of_le behind
  by_cases first : offset = 0
  · subst first
    refine packet.refused_of_tag ?_
    rintro rfl
    exact changed packet.getElem?_tag
  · have later : trailer.lengthField.length + 1 ≤ offset := by
      simp only [List.mem_range'_1] at elsewhere
      omega
    obtain ⟨place, rfl⟩ := Nat.exists_eq_add_of_le later
    have length := packet.length_body
    refine packet.refused_of_value (by omega) ?_
    rw [← packet.getElem?_value, ← show (before.flatMap Element.bytes).length +
      (trailer.lengthField.length + 1 + place) = (before.flatMap Element.bytes).length + 1 +
        trailer.lengthField.length + place by omega]
    exact changed

end Sealed
end

/-- **A byte that changes in a sealed packet does not pass.** Take any packet under the key of
unmanned air system telemetry that is accepted, and whose set ends with its one checksum element.
The bytes of the set are elements, and with any one byte changed that is in no length field, the
outer one included, the packet is refused. -/
theorem single_change_refused {lengthField body : Bytes} {fields : Fields}
    (framed : LengthField lengthField body.length)
    (accepted : decode uasDatalink (packetOf lengthField body) = .ok fields) :
    (∃ elements, Elements body elements) ∧
    ∀ (before : List Element) (trailer : Element) (offset : Nat) (byte : UInt8),
      Elements body (before ++ [trailer]) → trailer.tag = 1 →
      (∀ element ∈ before, element.tag ≠ 1) →
      offset < (packetOf lengthField body).length →
      (packetOf lengthField body)[offset]? ≠ some byte →
      offset ∉ List.range' keyLength lengthField.length →
      offset ∉ Element.lengthOffsets (keyLength + lengthField.length) (before ++ [trailer]) →
      ∃ error, decode uasDatalink ((packetOf lengthField body).set offset byte) =
        .error error := by
  refine ⟨LocalSet.exists_elements (sum_of_accepted framed accepted).1,
    fun before trailer offset byte written tagged untagged inside changed outer inner => ?_⟩
  have packet : Sealed lengthField body before trailer :=
    ⟨framed, ⟨fields, accepted⟩, written, tagged, untagged⟩
  by_cases inKey : offset < keyLength
  · refine ⟨_, packet.refused_of_key inKey ?_⟩
    rwa [packetOf, List.getElem?_append_left (by exact inKey)] at changed
  · have behind : keyLength + lengthField.length ≤ offset := by
      simp only [List.mem_range'_1] at outer
      omega
    obtain ⟨position, rfl⟩ := Nat.exists_eq_add_of_le behind
    rw [length_packetOf, Nat.add_lt_add_iff_left] at inside
    rw [getElem?_packetOf] at changed
    rw [Element.lengthOffsets_append, List.mem_append, not_or, Element.lengthOffsets,
      Element.lengthOffsets, List.append_nil] at inner
    rw [← packetOf_set]
    cases outcome : decode uasDatalink (packetOf lengthField (body.set position byte)) with
    | error error => exact ⟨error, rfl⟩
    | ok fields' =>
      exfalso
      by_cases covered : position < (before.flatMap Element.bytes).length
      · exact packet.refused_of_covered covered changed inner.1 outcome
      · exact packet.refused_of_trailer (Nat.le_of_not_lt covered) inside changed inner.2 outcome

namespace Sample

/-- An element under a tag that stands for nothing, and a nested set. -/
def before : List Element := [⟨5, [2], [0xAA, 0xBB]⟩, ⟨48, [3], [1, 1, 3]⟩]

def trailer : Element := ⟨1, [2], [0x16, 0x35]⟩

def body : Bytes := (before ++ [trailer]).flatMap Element.bytes

end Sample

/-- The tag of the first element turns into that of a checksum, so that there are two. -/
theorem sample_single_change :
    LengthField [13] Sample.body.length ∧
    (∃ fields, decode uasDatalink (packetOf [13] Sample.body) = .ok fields) ∧
    Elements Sample.body (Sample.before ++ [Sample.trailer]) ∧ Sample.trailer.tag = 1 ∧
    (∀ element ∈ Sample.before, element.tag ≠ 1) ∧
    17 < (packetOf [13] Sample.body).length ∧ (packetOf [13] Sample.body)[17]? ≠ some 1 ∧
    17 ∉ List.range' keyLength [(13 : UInt8)].length ∧
    17 ∉ Element.lengthOffsets (keyLength + [(13 : UInt8)].length)
      (Sample.before ++ [Sample.trailer]) ∧
    ∃ error, decode uasDatalink ((packetOf [13] Sample.body).set 17 1) = .error error := by
  have framed : LengthField [13] Sample.body.length := .short 13 (by decide)
  have accepted : ∃ fields, decode uasDatalink (packetOf [13] Sample.body) = .ok fields := by
    have evaluated : (decode uasDatalink (packetOf [13] Sample.body)).isOk = true := by
      decide +kernel
    cases outcome : decode uasDatalink (packetOf [13] Sample.body) with
    | error error =>
      rw [outcome] at evaluated
      cases evaluated
    | ok fields => exact ⟨fields, rfl⟩
  have written : Elements Sample.body (Sample.before ++ [Sample.trailer]) := by
    refine ⟨rfl, ?_⟩
    simp only [Sample.before, Sample.trailer, List.cons_append, List.nil_append, List.forall_mem_cons,
      List.not_mem_nil, false_implies, implies_true, and_true]
    exact ⟨.short 2 (by decide), .short 3 (by decide), .short 2 (by decide)⟩
  obtain ⟨fields, accepted'⟩ := accepted
  refine ⟨framed, ⟨fields, accepted'⟩, written, rfl, by decide, by decide, by decide, by decide,
    by decide, ?_⟩
  exact (single_change_refused framed accepted').2 Sample.before Sample.trailer 17 1 written rfl
    (by decide) (by decide) (by decide) (by decide) (by decide)

end MotionImagery.Telemetry
