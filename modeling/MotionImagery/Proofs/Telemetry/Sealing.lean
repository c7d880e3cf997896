import MotionImagery.Proofs.Telemetry.Decoded

/-!
Packets with their sum behind them. A packet that is sealed so is accepted wherever it stands. An
accepted packet need not be sealed: its sum covers all bytes but the last two, while the checksum that
it is held against may stand anywhere in the set.
-/
namespace MotionImagery.Checksum

/-- Bytes with their sum behind them. -/
def withSum (covered : Bytes) : Bytes := covered ++ toBigEndian 2 (octetSum covered % 0x10000)

theorem runningSum_append (covered : Bytes) {trailer : Bytes} (two : trailer.length = 2) :
    runningSum (covered ++ trailer) = octetSum covered % 0x10000 := by
  rw [runningSum, List.length_append, two, Nat.add_sub_cancel, List.take_left]

theorem runningSum_withSum (covered : Bytes) :
    runningSum (withSum covered) = octetSum covered % 0x10000 :=
  runningSum_append covered (length_toBigEndian 2 _)

/-- Bytes are sealed when the last two are their sum. -/
theorem exists_eq_withSum_iff (covered : Bytes) {trailer : Bytes} (two : trailer.length = 2) :
    (∃ other, covered ++ trailer = withSum other) ↔
      bigEndian trailer = runningSum (covered ++ trailer) := by
  have small : octetSum covered % 0x10000 < 0x10000 := Nat.mod_lt _ (by decide)
  rw [runningSum_append covered two, ← eq_toBigEndian_iff two small]
  constructor
  · rintro ⟨other, same⟩
    have sizes : trailer.length = (toBigEndian 2 (octetSum other % 0x10000)).length := by
      rw [two, length_toBigEndian]
    obtain ⟨rfl, last⟩ := List.append_inj' same sizes
    exact last
  · intro last
    exact ⟨covered, by rw [withSum, ← last]⟩

end MotionImagery.Checksum

namespace MotionImagery.Telemetry
open Context

/-- An element that gives the checksum: it is under its tag and has two bytes. -/
def Element.IsChecksum (element : Element) : Prop := element.tag = 1 ∧ element.value.length = 2

instance (element : Element) : Decidable element.IsChecksum :=
  inferInstanceAs (Decidable (_ ∧ _))

theorem readUnsigned_two {value : Bytes} (two : value.length = 2) :
    readUnsigned value = bigEndian value := by
  obtain ⟨high, low, rfl⟩ := List.length_eq_two.mp two
  rw [readUnsigned_pair]
  simp [bigEndian]

theorem Element.value?_checksum (element : Element) :
    element.value? uasDatalinkTable FieldName.checksum =
      if element.IsChecksum then some (.unsigned (bigEndian element.value)) else none := by
  by_cases tagged : element.tag = 1
  · rw [value?, decode_sealed tagged]
    by_cases two : element.value.length = 2
    · rw [if_pos two, if_pos ⟨tagged, two⟩, readUnsigned_two two]
      rfl
    · rw [if_neg two, if_neg fun checksum => two checksum.2]
  · rw [if_neg fun checksum => tagged checksum.1]
    unfold value?
    split
    · rename_i given value decoded
      obtain ⟨decoder, found⟩ := entry_of_decode decoded
      have differs := name_ne_checksum found fun same => tagged (UInt8.toNat_inj.mp same)
      rw [if_neg differs]
    · rfl

/-- The element that counts as the checksum: the last one that gives it. -/
theorem exists_checksum {body : Bytes} {fields : Fields} {value : Value}
    (parsed : LocalSet.parse uasDatalinkTable body = .ok fields)
    (found : Keyed.find? FieldName.checksum fields = some value) :
    ∃ earlier checksum later, Elements body (earlier ++ checksum :: later) ∧
      Element.IsChecksum checksum ∧ (∀ element ∈ later, ¬element.IsChecksum) ∧
      value = .unsigned (bigEndian checksum.value) := by
  obtain ⟨elements, cut⟩ := LocalSet.exists_elements parsed
  rw [cut.find?_of_parsed _ parsed, Keyed.find?, Option.or_none, List.getLast?_filterMap,
    List.findSome?_eq_some_iff] at found
  obtain ⟨after, checksum, before, reversed, given, silent⟩ := found
  have order : elements = before.reverse ++ checksum :: after.reverse := by
    have same := congrArg List.reverse reversed
    simpa using same
  rw [Element.value?_checksum] at given
  split at given
  · rename_i isChecksum
    refine ⟨before.reverse, checksum, after.reverse, order ▸ cut, isChecksum, ?_, ?_⟩
    · intro element member isChecksum'
      have none_given := silent element (List.mem_reverse.mp member)
      rw [Element.value?_checksum, if_pos isChecksum'] at none_given
      cases none_given
    · exact (Option.some.inj given).symm
  · cases given

/-- The packet ends with its checksum element, and the bytes before the checksum are all covered. -/
def EndsWithChecksum (packet : Triplet) : Prop :=
  ∃ earlier checksum covered, Elements packet.value (earlier ++ [checksum]) ∧
    Element.IsChecksum checksum ∧ packet.bytes = Checksum.withSum covered

/-- The last bytes of a packet are those of its last element's value. -/
theorem bytes_of_last {packet : Triplet} {earlier : List Element} {last : Element}
    (cut : Elements packet.value (earlier ++ [last])) :
    ∃ covered, packet.bytes = covered ++ last.value := by
  refine ⟨packet.key ++ (packet.lengthField ++
    (earlier.flatMap Element.bytes ++ last.tag :: last.lengthField)), ?_⟩
  rw [Triplet.bytes, cut.bytes, List.flatMap_append, List.flatMap_cons, List.flatMap_nil,
    List.append_nil, Element.bytes]
  simp only [List.append_assoc, List.cons_append]

/-- A packet ends with its checksum when no element stands behind the one that counts. -/
theorem endsWithChecksum_iff {packet : Triplet} {earlier later : List Element}
    {checksum : Element} (cut : Elements packet.value (earlier ++ checksum :: later))
    (isChecksum : checksum.IsChecksum) (last : ∀ element ∈ later, ¬element.IsChecksum)
    (sum : bigEndian checksum.value = Checksum.runningSum packet.bytes) :
    EndsWithChecksum packet ↔ later = [] := by
  constructor
  · rintro ⟨earlier', trailer, covered, cut', isChecksum', -⟩
    obtain rfl | ⟨others, final, rfl⟩ := later.eq_nil_or_concat
    · rfl
    · rw [List.concat_eq_append] at cut last
      have same := cut.unique cut'
      rw [← List.cons_append, ← List.append_assoc] at same
      obtain ⟨-, ends⟩ := List.append_inj' same rfl
      cases ends
      exact absurd isChecksum' (last trailer (List.mem_append_right _ List.mem_cons_self))
  · rintro rfl
    obtain ⟨covered, bytes⟩ := bytes_of_last cut
    rw [bytes] at sum
    obtain ⟨other, same⟩ := (Checksum.exists_eq_withSum_iff covered isChecksum.2).mpr sum
    exact ⟨earlier, checksum, other, cut, isChecksum, bytes.trans same⟩

/-- The last two bytes are the sum of those before them when they repeat the checksum. -/
theorem exists_eq_withSum_iff {packet : Triplet} (wellFormed : packet.WellFormed)
    {checksum : Bytes} (two : checksum.length = 2)
    (sum : bigEndian checksum = Checksum.runningSum packet.bytes) :
    (∃ covered, packet.bytes = Checksum.withSum covered) ↔
      packet.bytes.drop (packet.bytes.length - 2) = checksum := by
  have size := Triplet.length_bytes wellFormed
  have enough : 2 ≤ packet.bytes.length := by
    rw [size, keyLength]
    omega
  have last : (packet.bytes.drop (packet.bytes.length - 2)).length = 2 := by
    rw [List.length_drop]
    omega
  have small : bigEndian checksum < 0x10000 := by
    rw [sum, Checksum.runningSum]
    exact Nat.mod_lt _ (by decide)
  have written := (eq_toBigEndian_iff two small).mpr rfl
  have split := Checksum.exists_eq_withSum_iff (packet.bytes.take (packet.bytes.length - 2)) last
  rw [List.take_append_drop, ← sum, ← eq_toBigEndian_iff last small, ← written] at split
  exact split

/-- **What an accepted packet's checksum covers.** The first packet under the key is the one that is
accepted, and the last element in it that gives a checksum holds the sum of all bytes but the last
two. So the packet ends with its checksum exactly when no element stands behind that one; otherwise
the two bytes that the sum leaves out hold it only when they happen to repeat the checksum. -/
theorem accepted_packet_sum {data : Bytes} {fields : Fields}
    (accepted : decode uasDatalink data = .ok fields) :
    ∃ before packet behind earlier checksum later,
      Placed uasDatalinkKey data before packet behind ∧
      Elements packet.value (earlier ++ checksum :: later) ∧ checksum.IsChecksum ∧
      (∀ element ∈ later, ¬element.IsChecksum) ∧
      bigEndian checksum.value = Checksum.runningSum packet.bytes ∧
      (EndsWithChecksum packet ↔ later = []) ∧
      ((∃ covered, packet.bytes = Checksum.withSum covered) ↔
        packet.bytes.drop (packet.bytes.length - 2) = checksum.value) := by
  obtain ⟨before, packet, behind, placed, contents⟩ := exists_placed accepted
  obtain ⟨parsed, number, found, same⟩ := Triplet.contents_ok_iff.mp contents
  obtain ⟨earlier, checksum, later, cut, isChecksum, last, value⟩ := exists_checksum parsed found
  have sum : bigEndian checksum.value = Checksum.runningSum packet.bytes := by
    have small := bigEndian_lt checksum.value
    rw [isChecksum.2] at small
    cases value
    rw [← same]
    exact (Nat.mod_eq_of_lt small).symm
  exact ⟨before, packet, behind, earlier, checksum, later, placed, cut, isChecksum, last, sum,
    endsWithChecksum_iff cut isChecksum last sum,
    exists_eq_withSum_iff placed.wellFormed isChecksum.2 sum⟩

namespace Sample

/-- A packet whose tail number stands behind its checksum. -/
def tailBehind : Triplet :=
  ⟨uasDatalinkKey, [0x81, 12], [5, 2, 0x2E, 0x9E, 1, 2, 0xAB, 0xCD, 4, 2, 0x58, 0x59]⟩

theorem tailBehind_accepted : ∃ fields, decode uasDatalink tailBehind.bytes = .ok fields :=
  exists_ok (by decide +kernel)

end Sample

/-- The checksum is that of the packet up to the tail number, which nothing is held against. -/
theorem tail_escapes_checksum :
    Placed uasDatalinkKey Sample.tailBehind.bytes [] Sample.tailBehind [] ∧
    (∃ fields, decode uasDatalink Sample.tailBehind.bytes = .ok fields) ∧
    (∀ covered, Sample.tailBehind.bytes ≠ Checksum.withSum covered) ∧
    ¬EndsWithChecksum Sample.tailBehind := by
  have wellFormed : Sample.tailBehind.WellFormed :=
    ⟨rfl, .long 0x81 [12] rfl (by decide) (by decide)⟩
  have unsealed : ∀ covered, Sample.tailBehind.bytes ≠ Checksum.withSum covered := by
    intro covered same
    have two : ([0x58, 0x59] : Bytes).length = 2 := rfl
    have sum := (Checksum.exists_eq_withSum_iff (Sample.tailBehind.bytes.take 28) two).mp
      ⟨covered, same⟩
    revert sum
    decide +kernel
  refine ⟨⟨rfl, nofun, nofun, wellFormed, rfl⟩, Sample.tailBehind_accepted, unsealed, ?_⟩
  rintro ⟨_, _, covered, _, _, same⟩
  exact unsealed covered same

theorem sample_accepted_sum :
    ∃ fields, decode uasDatalink Sample.tailBehind.bytes = .ok fields ∧
      ∃ before packet behind earlier checksum later,
        Placed uasDatalinkKey Sample.tailBehind.bytes before packet behind ∧
        Elements packet.value (earlier ++ checksum :: later) ∧ checksum.IsChecksum ∧
        (∀ element ∈ later, ¬element.IsChecksum) ∧
        bigEndian checksum.value = Checksum.runningSum packet.bytes ∧
        (EndsWithChecksum packet ↔ later = []) ∧
        ((∃ covered, packet.bytes = Checksum.withSum covered) ↔
          packet.bytes.drop (packet.bytes.length - 2) = checksum.value) := by
  obtain ⟨fields, accepted⟩ := Sample.tailBehind_accepted
  exact ⟨fields, accepted, accepted_packet_sum accepted⟩

/-- A checksum element behind a set adds the checksum to its fields. -/
theorem parse_with_checksum {body checksum : Bytes} {fields : Fields} (two : checksum.length = 2)
    (parsed : LocalSet.parse uasDatalinkTable body = .ok fields) :
    LocalSet.parse uasDatalinkTable (body ++ 1 :: 2 :: checksum) =
      .ok (Keyed.put FieldName.checksum (.unsigned (bigEndian checksum)) fields) := by
  obtain ⟨elements, cut⟩ := LocalSet.exists_elements parsed
  have wellFormed : Element.WellFormed ⟨1, [2], checksum⟩ := by
    rw [Element.WellFormed, two]
    exact .short 2 (by decide)
  have bytes : 1 :: 2 :: checksum = Element.bytes ⟨1, [2], checksum⟩ ++ [] := by simp [Element.bytes]
  rw [LocalSet.parse, cut.bytes] at parsed
  rw [LocalSet.parse, cut.bytes, LocalSet.parseElements_append cut.wellFormed, parsed, Except.bind,
    bytes, LocalSet.parseElements_cons wellFormed, decode_sealed rfl, if_pos two, readUnsigned_two two]
  exact LocalSet.parseElements.eq_1 ..

/-- A packet whose set ends with the checksum element that it asks for. -/
def sealing (lengthField body : Bytes) : Triplet where
  key := uasDatalinkKey
  lengthField := lengthField
  value := body ++ 1 :: 2 ::
    toBigEndian 2 (Checksum.octetSum (packetOf lengthField (body ++ [1, 2])) % 0x10000)

theorem bytes_sealing (lengthField body : Bytes) :
    (sealing lengthField body).bytes = Checksum.withSum (packetOf lengthField (body ++ [1, 2])) := by
  simp [sealing, Triplet.bytes, Checksum.withSum, packetOf]

theorem wellFormed_sealing {lengthField body : Bytes}
    (framed : LengthField lengthField (body.length + 4)) :
    (sealing lengthField body).WellFormed := by
  have size : (sealing lengthField body).value.length = body.length + 4 := by
    simp [sealing, length_toBigEndian]
  refine ⟨rfl, ?_⟩
  rwa [size]

theorem contents_sealing {lengthField body : Bytes} {fields : Fields}
    (parsed : LocalSet.parse uasDatalinkTable body = .ok fields) :
    (sealing lengthField body).contents uasDatalink =
      .ok (Keyed.put FieldName.checksum
        (.unsigned (Checksum.runningSum (sealing lengthField body).bytes)) fields) := by
  have sum : Checksum.runningSum (sealing lengthField body).bytes =
      Checksum.octetSum (packetOf lengthField (body ++ [1, 2])) % 0x10000 := by
    rw [bytes_sealing, Checksum.runningSum_withSum]
  have small : Checksum.runningSum (sealing lengthField body).bytes < 0x10000 :=
    Nat.mod_lt _ (by decide)
  have two := length_toBigEndian 2 (Checksum.runningSum (sealing lengthField body).bytes)
  have written := (eq_toBigEndian_iff two small).mp rfl
  have ends : (sealing lengthField body).value =
      body ++ 1 :: 2 :: toBigEndian 2 (Checksum.runningSum (sealing lengthField body).bytes) := by
    rw [sum]
    rfl
  apply Triplet.contents_ok_iff.mpr
  refine ⟨?_, Checksum.runningSum (sealing lengthField body).bytes, ?_, Nat.mod_eq_of_lt small⟩
  · have read := parse_with_checksum two parsed
    rw [← ends, written] at read
    exact read
  · rw [Keyed.find?_put, if_pos rfl]

/-- **A sealed packet is accepted wherever it stands.** A packet is decoded to the same, or refused
for the same reason, whichever whole packets under other keys stand before it and whatever stands
behind it. A set that is read, with its checksum element behind it and sealed under any length field,
is accepted so, with the fields of the set and the checksum. -/
theorem sealed_packet_accepted :
    (∀ (context : Context) (data : Bytes) (before : List Triplet) (packet : Triplet) (behind : Bytes),
      Placed context.key data before packet behind →
      decode context data = decode context packet.bytes) ∧
    ∀ (before : List Triplet) (lengthField body behind : Bytes) (fields : Fields),
      (∀ triplet ∈ before, triplet.WellFormed ∧ triplet.key ≠ uasDatalinkKey) →
      LengthField lengthField (body.length + 4) →
      LocalSet.parse uasDatalinkTable body = .ok fields →
      let packet := Checksum.withSum (packetOf lengthField (body ++ [1, 2]))
      decode uasDatalink (before.flatMap Triplet.bytes ++ (packet ++ behind)) =
        .ok (Keyed.put FieldName.checksum (.unsigned (Checksum.runningSum packet)) fields) := by
  constructor
  · intro context data before packet behind placed
    rw [placed.decode_eq, decode_bytes placed.wellFormed, if_pos placed.wanted]
  · intro before lengthField body behind fields foreign framed parsed packet
    have placed : Placed uasDatalink.key (before.flatMap Triplet.bytes ++ (packet ++ behind)) before
        (sealing lengthField body) behind := by
      refine ⟨?_, ?_, ?_, wellFormed_sealing framed, rfl⟩
      · rw [bytes_sealing]
      · intro triplet member
        exact (foreign triplet member).1
      · intro triplet member
        exact (foreign triplet member).2
    rw [placed.decode_eq, contents_sealing parsed, bytes_sealing]

namespace Sample

/-- Packets under other keys; the bytes of the first are odd in number. -/
def foreign : List Triplet :=
  [⟨List.replicate 16 7, [0x82, 0, 2], [1, 2]⟩, ⟨List.replicate 16 9, [0], []⟩]

/-- A mission and a nested set. -/
def openSet : Bytes := [3, 1, 0x41, 48, 3, 1, 1, 3]

theorem foreign_wellFormed :
    ∀ triplet ∈ foreign, triplet.WellFormed ∧ triplet.key ≠ uasDatalinkKey := by
  simp only [foreign, List.forall_mem_cons, List.not_mem_nil, false_implies, implies_true, and_true]
  exact ⟨⟨⟨rfl, .long 0x82 [0, 2] rfl (by decide) (by decide)⟩, by decide⟩,
    ⟨⟨rfl, .short 0 (by decide)⟩, by decide⟩⟩

theorem openSet_parses : ∃ fields, LocalSet.parse uasDatalinkTable openSet = .ok fields :=
  exists_ok (by decide +kernel)

end Sample

/-- A sealed set with an eight-byte length field, at an odd offset and with a torn packet behind it. -/
theorem sample_sealed_accepted :
    (∀ triplet ∈ Sample.foreign, triplet.WellFormed ∧ triplet.key ≠ uasDatalinkKey) ∧
    LengthField [0x88, 0, 0, 0, 0, 0, 0, 0, 12] (Sample.openSet.length + 4) ∧
    ∃ fields, LocalSet.parse uasDatalinkTable Sample.openSet = .ok fields ∧
      let packet := Checksum.withSum
        (packetOf [0x88, 0, 0, 0, 0, 0, 0, 0, 12] (Sample.openSet ++ [1, 2]))
      decode uasDatalink (Sample.foreign.flatMap Triplet.bytes ++ (packet ++ [6, 0xE, 0x2B])) =
        .ok (Keyed.put FieldName.checksum (.unsigned (Checksum.runningSum packet)) fields) := by
  have framed : LengthField [0x88, 0, 0, 0, 0, 0, 0, 0, 12] (Sample.openSet.length + 4) :=
    .long 0x88 [0, 0, 0, 0, 0, 0, 0, 12] rfl (by decide) (by decide)
  obtain ⟨fields, parsed⟩ := Sample.openSet_parses
  exact ⟨Sample.foreign_wellFormed, framed, fields, parsed, sealed_packet_accepted.2 Sample.foreign
    _ Sample.openSet [6, 0xE, 0x2B] fields Sample.foreign_wellFormed framed parsed⟩

end MotionImagery.Telemetry
