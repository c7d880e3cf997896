import MotionImagery.Proofs.Checksum.Bursts
import MotionImagery.Proofs.Transport.Lane
import MotionImagery.Proofs.Transport.Tables

/-!
Sections that were damaged on the way. A short burst of wrong bits, wherever it falls and also when it
falls on the check itself, leaves no section whose check holds, so no table comes from one.
-/
namespace MotionImagery.Transport

namespace Section

/-- What the twelve length bits of a section say. -/
def lengthField? : Bytes → Option Nat
  | _ :: high :: low :: _ => some (lengthOf high low)
  | _ => none

theorem lengthField?_of_prefix {data longer : Bytes} {length : Nat} (part : data <+: longer)
    (found : lengthField? data = some length) : lengthField? longer = some length := by
  obtain ⟨behind, rfl⟩ := part
  match data, found with
  | _ :: _ :: _ :: _, found => exact found

theorem length_encode (tableId extension version : Nat) (body : Bytes) :
    (encode tableId extension version body).length = 3 + (5 + body.length + 4) := by
  simp only [encode, List.length_append, List.length_cons, length_toBigEndian]
  omega

theorem lengthField?_encode (tableId extension version : Nat) {body : Bytes}
    (fits : body.length ≤ maxBodyLength) :
    lengthField? (encode tableId extension version body) = some (5 + body.length + 4) := by
  rw [maxBodyLength] at fits
  have high : (UInt8.ofNat (0xB0 + (5 + body.length + 4) / 256 % 16)).toNat =
      (0xB0 + (5 + body.length + 4) / 256 % 16) % 256 := UInt8.toNat_ofNat
  have low : (UInt8.ofNat (5 + body.length + 4)).toNat = (5 + body.length + 4) % 256 :=
    UInt8.toNat_ofNat
  simp only [encode, List.cons_append, lengthField?, lengthOf, high, low, Option.some.injEq]
  omega

/-- What is written leaves nothing in the register. -/
theorem crc32_encode (tableId extension version : Nat) (body : Bytes) :
    Checksum.crc32 (encode tableId extension version body) = 0 := Checksum.crc32_with_check _

/-- Where a section that was read ends, and what it takes for its check. -/
theorem extent_of_parse {data : Bytes} {s : Section} (parsed : parse data = .ok s) :
    lengthField? data = some s.length ∧ 5 ≤ s.length ∧ s.totalLength ≤ data.length ∧
      s.check = bigEndian (slice data (s.totalLength - 4) s.totalLength) := by
  unfold parse at parsed
  split at parsed
  · rename_i id high low afterLength
    have stop : ∀ length, 3 + length - 4 = length - 1 := by omega
    dsimp only at parsed
    split at parsed
    · cases parsed
    · rename_i long
      split at parsed
      · cases parsed
      · rename_i whole
        split at parsed
        · cases parsed
          refine ⟨rfl, Nat.le_of_not_lt long, Nat.le_of_not_lt whole, ?_⟩
          rw [totalLength, stop]
        · split at parsed
          · cases parsed
          · split at parsed
            · cases parsed
              refine ⟨rfl, Nat.le_of_not_lt long, Nat.le_of_not_lt whole, ?_⟩
              rw [totalLength, stop]
            · cases parsed
  · cases parsed

/-- The bytes of a section whose check holds leave nothing in the register. -/
theorem crc32_of_verifies {data : Bytes} {s : Section} (parsed : parse data = .ok s)
    (verified : s.verifies data = true) : Checksum.crc32 (data.take s.totalLength) = 0 := by
  obtain ⟨-, long, inside, check⟩ := extent_of_parse parsed
  have enough : 8 ≤ s.totalLength := by
    rw [totalLength]
    omega
  obtain ⟨-, agrees⟩ := (Bool.and_eq_true _ _).mp verified
  have agrees : (Checksum.crc32 (data.take (s.totalLength - 4))).toNat = s.check :=
    of_decide_eq_true agrees
  have four : (slice data (s.totalLength - 4) s.totalLength).length = 4 := by
    rw [length_slice inside]
    omega
  have parts := List.take_append_drop (s.totalLength - 4) (data.take s.totalLength)
  rw [List.take_take, Nat.min_eq_left (Nat.sub_le _ _), ← slice] at parts
  have written := (eq_toBigEndian_iff four (UInt32.toNat_lt _)).mpr (check.symm.trans agrees.symm)
  rw [← parts, written]
  exact Checksum.crc32_with_check _

section
variable {tableId extension version : Nat} {body received : Bytes}
  (fits : body.length ≤ maxBodyLength)
  (burst : Checksum.Burst (encode tableId extension version body) received)
  (sameLength : lengthField? received = lengthField? (encode tableId extension version body))
include fits burst sameLength

/-- However much of a damaged section there is, and whatever stands behind it, it is not a section
whose check holds. -/
theorem damage_noticed {data behind : Bytes} (part : data <+: received ++ behind) {s : Section}
    (parsed : parse data = .ok s) : s.verifies data = false := by
  cases verified : s.verifies data with
  | false => rfl
  | true =>
    obtain ⟨found, -, inside, -⟩ := extent_of_parse parsed
    have length : s.length = 5 + body.length + 4 := by
      have here := lengthField?_of_prefix (List.prefix_append received behind)
        (sameLength.trans (lengthField?_encode tableId extension version fits))
      have there := lengthField?_of_prefix part found
      exact Option.some.inj (there.symm.trans here)
    have total : received.length = s.totalLength := by
      rw [burst.sameLength, length_encode, totalLength, length]
    have size : (data.take s.totalLength).length = received.length := by
      rw [List.length_take, total, Nat.min_eq_left inside]
    have bytes : data.take s.totalLength = received := by
      have front : data.take s.totalLength <+: received :=
        List.prefix_of_prefix_length_le ((List.take_prefix _ _).trans part)
          (List.prefix_append received behind) (Nat.le_of_eq size)
      exact front.eq_of_length size
    have nothing := crc32_of_verifies parsed verified
    rw [bytes, ← crc32_encode tableId extension version body] at nothing
    exact absurd nothing (Checksum.crc32_ne_of_burst burst)

end

end Section

namespace Demux

/-- Without a section whose check holds the tables stay as they are. -/
theorem tables_of_unverified {d : Demux} (verified : d.verifyCheck = true) {raw data : Bytes}
    {packet : Packet} (parsed : Packet.parse raw = .ok packet)
    (payload : packet.sectionPayload? = some data)
    (unverified : ∀ s, Section.parse data = .ok s → s.verifies data = false) :
    (d.read raw).2.mapPids = d.mapPids ∧ (d.read raw).2.streamTypes = d.streamTypes := by
  have carries_none : ∀ pid s, ¬CarriesSection raw pid s := by
    rintro pid s ⟨packet', data', parsed', -, -, -, payload', read, holds⟩
    obtain rfl := Except.ok.inj (parsed.symm.trans parsed')
    obtain rfl := Option.some.inj (payload.symm.trans payload')
    rw [unverified s read] at holds
    cases holds
  have effect := d.read_effect verified raw
  generalize (d.read raw).1 = outcome, (d.read raw).2 = next at effect ⊢
  cases effect with
  | refused | passed | flagged => exact ⟨rfl, rfl⟩
  | association table carried =>
    obtain ⟨-, s, onPid, -⟩ := carried
    exact absurd onPid (carries_none _ s)
  | map pid table types carried =>
    obtain ⟨-, s, onPid, -⟩ := carried
    exact absurd onPid (carries_none _ s)
  | payload packet streamType =>
    obtain ⟨mapPids, streamTypes, -, -⟩ := d.readPayload_rest streamType packet
    exact ⟨mapPids, streamTypes⟩

end Demux

/-- **Short bursts are noticed.** Byte strings that differ within 32 bits in a row have different
checks. So a written section that arrives with such a damage, its check included and only its
length as it was, is refused or fails its check, and a packet that carries as much of it as there is
room for leaves a demultiplexer that verifies checks with the tables that it had. -/
theorem short_bursts_noticed :
    (∀ sent received, Checksum.Burst sent received →
      Checksum.crc32 received ≠ Checksum.crc32 sent) ∧
    ∀ (tableId extension version : Nat) (body received : Bytes),
      body.length ≤ Section.maxBodyLength →
      Checksum.Burst (Section.encode tableId extension version body) received →
      Section.lengthField? received =
        Section.lengthField? (Section.encode tableId extension version body) →
      (∀ s, Section.parse received = .ok s → s.verifies received = false) ∧
      ∀ (d : Demux) (raw data behind : Bytes) (packet : Packet), d.verifyCheck = true →
        Packet.parse raw = .ok packet → packet.sectionPayload? = some data →
        data <+: received ++ behind →
        (d.read raw).2.mapPids = d.mapPids ∧ (d.read raw).2.streamTypes = d.streamTypes := by
  refine ⟨fun sent received => Checksum.crc32_ne_of_burst, ?_⟩
  intro tableId extension version body received fits burst sameLength
  constructor
  · intro s parsed
    exact Section.damage_noticed fits burst sameLength (List.prefix_append received []) parsed
  · intro d raw data behind packet verified parsed payload part
    apply Demux.tables_of_unverified verified parsed payload
    intro s read
    exact Section.damage_noticed fits burst sameLength part read

namespace Sample

/-- The section of the association table, where the last three bits of the map PID's high byte, what
follows them and the first five bits of the third byte of the check are other ones. -/
def burstSection : Bytes :=
  [0x00, 0xB0, 0x0D, 0x00, 0x01, 0xC1, 0x00, 0x00, 0x00, 0x01, 0xF7, 0x00, 0x2A, 0xB1, 0xFC, 0xB2]

theorem burst_in_association :
    Checksum.Burst (Section.encode 0 1 0 [0x00, 0x01, 0xF0, 0x00]) burstSection := by
  have written : Section.encode 0 1 0 [0x00, 0x01, 0xF0, 0x00] = [0x00, 0xB0, 0x0D, 0x00, 0x01, 0xC1,
      0x00, 0x00, 0x00, 0x01, 0xF0, 0x00, 0x2A, 0xB1, 0x04, 0xB2] := by decide +kernel
  have window : ∀ i < 128, (Bits.ofBytes burstSection)[i]? ≠ (Bits.ofBytes [0x00, 0xB0, 0x0D, 0x00,
      0x01, 0xC1, 0x00, 0x00, 0x00, 0x01, 0xF0, 0x00, 0x2A, 0xB1, 0x04, 0xB2])[i]? →
      85 ≤ i ∧ i < 85 + 32 := by decide +kernel
  rw [written]
  refine ⟨rfl, by decide, 85, ?_⟩
  intro i differ
  by_cases inside : i < 128
  · exact window i inside differ
  · rw [List.getElem?_eq_none, List.getElem?_eq_none] at differ
    · exact absurd rfl differ
    · rw [Bits.length_ofBytes]
      exact Nat.le_of_not_lt inside
    · rw [Bits.length_ofBytes]
      exact Nat.le_of_not_lt inside

end Sample

/-- The damaged table would name another map PID; the one that was known stays. -/
theorem sample_burst_noticed :
    Checksum.crc32 Sample.burstSection ≠
      Checksum.crc32 (Section.encode 0 1 0 [0x00, 0x01, 0xF0, 0x00]) ∧
    (∃ s, Section.parse Sample.burstSection = .ok s ∧ s.verifies Sample.burstSection = false) ∧
    let d := ((Demux.new true).read Sample.pat).2
    d.mapPids = [0x1000] ∧ (d.read (wrapSection 0 Sample.burstSection)).2.mapPids = [0x1000] := by
  have known : ((Demux.new true).read Sample.pat).2.mapPids = [0x1000] := by
    rw [Demux.read_association _ Sample.pat_announces]
    rfl
  have verified : ((Demux.new true).read Sample.pat).2.verifyCheck = true := by
    rw [Demux.read_association _ Sample.pat_announces]
    rfl
  have parsed : Section.parse Sample.burstSection =
      .ok ⟨0, true, 13, 1, 0, true, [0x00, 0x01, 0xF7, 0x00], 0x2AB1FCB2⟩ := by decide +kernel
  have carried : ∃ packet, Packet.parse (wrapSection 0 Sample.burstSection) = .ok packet ∧
      packet.sectionPayload? =
        some (Sample.burstSection ++ List.replicate 167 0xFF) := by
    refine ⟨⟨⟨false, true, 0, 1, 0⟩, none, 0 :: (Sample.burstSection ++ List.replicate 167 0xFF)⟩, ?_⟩
    decide +kernel
  obtain ⟨packet, intact, payload⟩ := carried
  obtain ⟨checks, sections⟩ := short_bursts_noticed
  obtain ⟨refused, kept⟩ := sections 0 1 0 [0x00, 0x01, 0xF0, 0x00] Sample.burstSection (by decide)
    Sample.burst_in_association (by decide +kernel)
  refine ⟨checks _ _ Sample.burst_in_association, ⟨_, parsed, refused _ parsed⟩, known, ?_⟩
  rw [← known]
  exact (kept _ _ _ (List.replicate 167 0xFF) packet verified intact payload
    (List.prefix_refl _)).1

end MotionImagery.Transport
