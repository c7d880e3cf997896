import MotionImagery.Proofs.Telemetry.Elements
import MotionImagery.Telemetry.Packet

/-!
Packets among other packets. Whatever stands whole before a packet under another key is passed over,
and what stands behind it is not looked at, so a packet is decoded to the same wherever it stands.
-/
namespace MotionImagery.Telemetry

theorem exists_ok {ε α : Type} {outcome : Except ε α} (ok : outcome.isOk = true) :
    ∃ value, outcome = .ok value := by
  cases outcome with
  | error error => cases ok
  | ok value => exact ⟨value, rfl⟩

/-- What passes the check holds the sum of the packet, as a checksum. -/
theorem verifyChecksum_ok_iff {packet : Bytes} {fields out : Fields} :
    verifyChecksum packet fields = .ok out ↔ out = fields ∧
      ∃ number, Keyed.find? FieldName.checksum fields = some (.unsigned number) ∧
        number % 0x10000 = Checksum.runningSum packet := by
  constructor
  · intro verified
    unfold verifyChecksum at verified
    split at verified
    · cases verified
    · rename_i number found
      dsimp only at verified
      split at verified
      · rename_i same
        cases verified
        obtain ⟨value, here, shown⟩ := Option.bind_eq_some_iff.mp found
        cases value with
        | unsigned other =>
          cases shown
          exact ⟨rfl, number, here, same⟩
        | _ => cases shown
      · cases verified
  · rintro ⟨rfl, number, found, same⟩
    unfold verifyChecksum
    rw [found]
    exact if_pos same

/-- A universal key, a length field and a value, as they are written. -/
structure Triplet where
  key : Bytes
  lengthField : Bytes
  value : Bytes
  deriving DecidableEq, Repr

namespace Triplet

def bytes (triplet : Triplet) : Bytes := triplet.key ++ (triplet.lengthField ++ triplet.value)

/-- The key has its size, and the length field says how many bytes the value has. -/
structure WellFormed (triplet : Triplet) : Prop where
  keySize : triplet.key.length = Context.keyLength
  framed : LengthField triplet.lengthField triplet.value.length

theorem length_bytes {triplet : Triplet} (wellFormed : triplet.WellFormed) :
    triplet.bytes.length =
      Context.keyLength + triplet.lengthField.length + triplet.value.length := by
  rw [bytes, List.length_append, List.length_append, wellFormed.keySize, Nat.add_assoc]

/-- What a packet under the wanted key is decoded to. -/
def contents (context : Context) (triplet : Triplet) : Except TelemetryError Fields :=
  match LocalSet.parse context.table triplet.value with
  | .error error => .error error
  | .ok fields => verifyChecksum triplet.bytes fields

theorem contents_ok_iff {context : Context} {packet : Triplet} {fields : Fields} :
    packet.contents context = .ok fields ↔
      LocalSet.parse context.table packet.value = .ok fields ∧
      ∃ number, Keyed.find? FieldName.checksum fields = some (.unsigned number) ∧
        number % 0x10000 = Checksum.runningSum packet.bytes := by
  rw [contents]
  cases LocalSet.parse context.table packet.value with
  | error error => exact ⟨nofun, nofun⟩
  | ok parsed =>
    rw [verifyChecksum_ok_iff, Except.ok.injEq]
    constructor
    · rintro ⟨rfl, holds⟩
      exact ⟨rfl, holds⟩
    · rintro ⟨rfl, holds⟩
      exact ⟨rfl, holds⟩

end Triplet

/-- The packet is the first under the key; whole ones under other keys stand before it. -/
structure Placed (key data : Bytes) (before : List Triplet) (packet : Triplet) (behind : Bytes) :
    Prop where
  bytes : data = before.flatMap Triplet.bytes ++ (packet.bytes ++ behind)
  whole : ∀ triplet ∈ before, triplet.WellFormed
  foreign : ∀ triplet ∈ before, triplet.key ≠ key
  wellFormed : packet.WellFormed
  wanted : packet.key = key

/-- The search looks at one triplet, and goes on behind it unless its key is the wanted one. -/
theorem decodeFrom_triplet {triplet : Triplet} (wellFormed : triplet.WellFormed) (context : Context)
    (offset : Nat) (rest : Bytes) :
    decodeFrom context offset (triplet.bytes ++ rest) =
      if triplet.key = context.key then triplet.contents context
      else decodeFrom context (offset + triplet.bytes.length) rest := by
  have size := Triplet.length_bytes wellFormed
  have read := wellFormed.framed.read (triplet.value ++ rest)
  have key : (triplet.bytes ++ rest).take Context.keyLength = triplet.key := by
    rw [Triplet.bytes, List.append_assoc, ← wellFormed.keySize, List.take_left]
  have behindKey : (triplet.bytes ++ rest).drop Context.keyLength =
      triplet.lengthField ++ (triplet.value ++ rest) := by
    rw [Triplet.bytes, List.append_assoc, ← wellFormed.keySize, List.drop_left, List.append_assoc]
  have whole : (triplet.bytes ++ rest).take triplet.bytes.length = triplet.bytes := List.take_left ..
  have set : slice (triplet.bytes ++ rest) (Context.keyLength + triplet.lengthField.length)
      triplet.bytes.length = triplet.value := by
    rw [slice, whole, Triplet.bytes, ← List.append_assoc, ← wellFormed.keySize,
      ← List.length_append, List.drop_left]
  rw [decodeFrom, if_neg (by rw [List.length_append]; omega)]
  split
  · rename_i unread
    rw [behindKey, read] at unread
    cases unread
  · rename_i length fieldSize read'
    rw [behindKey, read] at read'
    cases read'
    dsimp only
    rw [if_neg (by rw [List.length_append]; omega), ← size, set, whole, key, List.drop_left,
      Nat.add_assoc, ← size]
    rfl

/-- A packet that takes up all the bytes is the only one that can be found. -/
theorem decode_bytes {packet : Triplet} (wellFormed : packet.WellFormed) (context : Context) :
    decode context packet.bytes =
      if packet.key = context.key then packet.contents context else .error .missingLocalSet := by
  have searched := decodeFrom_triplet wellFormed context 0 []
  have exhausted (offset : Nat) : decodeFrom context offset [] = .error .missingLocalSet := by
    rw [decodeFrom, if_pos (by decide)]
  rw [exhausted, List.append_nil] at searched
  exact searched

/-- Whole packets under other keys are passed over. -/
theorem decodeFrom_foreign {context : Context} {before : List Triplet}
    (whole : ∀ triplet ∈ before, triplet.WellFormed)
    (foreign : ∀ triplet ∈ before, triplet.key ≠ context.key) (offset : Nat) (rest : Bytes) :
    decodeFrom context offset (before.flatMap Triplet.bytes ++ rest) =
      decodeFrom context (offset + (before.flatMap Triplet.bytes).length) rest := by
  induction before generalizing offset with
  | nil => rfl
  | cons triplet others ih =>
    have first := decodeFrom_triplet (whole triplet List.mem_cons_self) context offset
    rw [List.flatMap_cons, List.append_assoc, first, if_neg (foreign triplet List.mem_cons_self),
      ih (fun other member => whole other (List.mem_cons_of_mem _ member))
        (fun other member => foreign other (List.mem_cons_of_mem _ member)),
      List.length_append, Nat.add_assoc]

/-- A packet is decoded to what it contains, wherever it stands. -/
theorem Placed.decode_eq {context : Context} {data : Bytes} {before : List Triplet}
    {packet : Triplet} {behind : Bytes}
    (placed : Placed context.key data before packet behind) :
    decode context data = packet.contents context := by
  rw [decode, placed.bytes, decodeFrom_foreign placed.whole placed.foreign,
    decodeFrom_triplet placed.wellFormed, if_pos placed.wanted]

/-- A search that succeeds begins with a triplet that is whole. -/
theorem exists_whole {context : Context} {offset : Nat} {data : Bytes} {fields : Fields}
    (decoded : decodeFrom context offset data = .ok fields) :
    ∃ triplet rest, data = Triplet.bytes triplet ++ rest ∧ triplet.WellFormed := by
  rw [decodeFrom] at decoded
  split at decoded
  · cases decoded
  · rename_i enough
    split at decoded
    · cases decoded
    · rename_i length size read
      dsimp only at decoded
      split at decoded
      · cases decoded
      · rename_i fits
        have inside := size_of_readLength? read
        rw [List.length_drop] at inside
        refine ⟨⟨data.take Context.keyLength, (data.drop Context.keyLength).take size,
          ((data.drop Context.keyLength).drop size).take length⟩,
          ((data.drop Context.keyLength).drop size).drop length, ?_, ?_, ?_⟩
        · rw [Triplet.bytes, List.append_assoc, List.append_assoc, List.take_append_drop,
            List.take_append_drop, List.take_append_drop]
        · exact List.length_take_of_le (Nat.le_of_not_lt enough)
        · have whole : (((data.drop Context.keyLength).drop size).take length).length = length := by
            rw [List.length_take, List.length_drop, List.length_drop]
            omega
          rw [whole]
          exact .of_read read

/-- What is decoded is what the first packet under the key contains. -/
theorem exists_placed {context : Context} {offset : Nat} {data : Bytes} {fields : Fields}
    (decoded : decodeFrom context offset data = .ok fields) :
    ∃ before packet behind, Placed context.key data before packet behind ∧
      packet.contents context = .ok fields := by
  induction same_size : data.length using Nat.strongRecOn generalizing offset data with
  | ind size ih =>
    obtain ⟨triplet, rest, same, wellFormed⟩ := exists_whole decoded
    rw [same, decodeFrom_triplet wellFormed] at decoded
    by_cases wanted : triplet.key = context.key
    · rw [if_pos wanted] at decoded
      exact ⟨[], triplet, rest, ⟨same, nofun, nofun, wellFormed, wanted⟩, decoded⟩
    · rw [if_neg wanted] at decoded
      have shorter : rest.length < size := by
        rw [← same_size, same, List.length_append, Triplet.length_bytes wellFormed,
          Context.keyLength]
        omega
      obtain ⟨before, packet, behind, placed, contents⟩ := ih rest.length shorter decoded rfl
      refine ⟨triplet :: before, packet, behind, ⟨?_, ?_, ?_, placed.wellFormed, placed.wanted⟩,
        contents⟩
      · rw [same, List.flatMap_cons, List.append_assoc, ← placed.bytes]
      · exact List.forall_mem_cons.mpr ⟨wellFormed, placed.whole⟩
      · exact List.forall_mem_cons.mpr ⟨wanted, placed.foreign⟩

end MotionImagery.Telemetry
