import MotionImagery.Proofs.Telemetry.Framing
import MotionImagery.Telemetry.Unit

/-!
The two ways in which units carry telemetry: as it is, or in a metadata cell that a timestamp goes
with. Carried either way, the same bytes decode to the same fields, to nothing or to the same error.
-/
namespace MotionImagery.Transport

/-- A timestamp as it is written: behind a lead of four bits and in three parts, with a marker bit
behind each. -/
structure Stamp where
  lead : Fin 16
  time : Fin 0x200000000
  markers : Bool × Bool × Bool

def Stamp.bytes (stamp : Stamp) : Bytes :=
  let time := stamp.time.val
  [.ofNat (stamp.lead.val * 16 + time / 0x40000000 * 2 + stamp.markers.1.toNat),
    .ofNat (time / 0x400000),
    .ofNat (time / 0x8000 * 2 + stamp.markers.2.1.toNat),
    .ofNat (time / 0x80),
    .ofNat (time * 2 + stamp.markers.2.2.toNat)]

/-- The bits around a timestamp do not matter. -/
theorem Stamp.read (stamp : Stamp) : ∃ a b c d e, stamp.bytes = [a, b, c, d, e] ∧
    readTimestamp a b c d e = stamp.time := by
  obtain ⟨lead, ⟨time, bound⟩, first, second, third⟩ := stamp
  have := first.toNat_lt
  have := second.toNat_lt
  have := third.toNat_lt
  refine ⟨_, _, _, _, _, rfl, ?_⟩
  simp only [readTimestamp, UInt8.toNat_ofNat']
  omega

/-- The header of an elementary packet as it is written, with room for a timestamp when its flags
promise one. -/
structure WrittenPesHeader where
  streamId : UInt8
  packetLength : Fin 0x10000
  marks : UInt8
  flags : UInt8
  optional : Bytes
  optionalFits : optional.length < 0x100
  roomy : 128 ≤ flags.toNat → 5 ≤ optional.length

namespace WrittenPesHeader

def bytes (header : WrittenPesHeader) : Bytes :=
  0 :: 0 :: 1 :: header.streamId :: (toBigEndian 2 header.packetLength ++
    header.marks :: header.flags :: .ofNat header.optional.length :: header.optional)

/-- The packet length is open, or goes as far as so many bytes behind the header. -/
def Reaches (header : WrittenPesHeader) (size : Nat) : Prop :=
  header.packetLength.val = 0 ∨ 3 + header.optional.length + size ≤ header.packetLength.val

def timestamp? (header : WrittenPesHeader) : Option Nat :=
  if header.flags.toNat < 128 then none
  else match header.optional with
    | a :: b :: c :: d :: e :: _ => some (readTimestamp a b c d e)
    | _ => none

def read (header : WrittenPesHeader) : PesHeader where
  streamId := header.streamId.toNat
  packetLength := header.packetLength
  optionalLength := header.optional.length
  timestamp := header.timestamp?

theorem length_bytes (header : WrittenPesHeader) :
    header.bytes.length = header.read.payloadOffset := by
  simp [bytes, read, PesHeader.payloadOffset, PesHeader.fixedSize, length_toBigEndian]
  omega

theorem parse_bytes (header : WrittenPesHeader) (payload : Bytes) :
    PesHeader.parse (header.bytes ++ payload) = .ok header.read := by
  obtain ⟨streamId, ⟨packetLength, lengthFits⟩, marks, flags, optional, optionalFits, roomy⟩ := header
  have length : packetLength / 256 % 256 * 256 + packetLength % 256 = packetLength := by omega
  have room : optional.length % 256 = optional.length := Nat.mod_eq_of_lt optionalFits
  simp only [bytes, toBigEndian, PesHeader.parse, read, timestamp?, List.cons_append,
    List.nil_append, and_self, not_true_eq_false, if_false, UInt8.toNat_ofNat', Nat.pow_eq,
    Nat.pow_zero, Nat.pow_one, Nat.div_one, Nat.reducePow, length, room]
  by_cases untimed : flags.toNat < 128
  · rw [if_pos untimed, if_pos untimed]
  · have enough := roomy (Nat.le_of_not_lt untimed)
    rw [if_neg untimed, if_neg untimed]
    rcases optional with _ | ⟨a, _ | ⟨b, _ | ⟨c, _ | ⟨d, _ | ⟨e, rest⟩⟩⟩⟩⟩
    case cons.cons.cons.cons.cons => rfl
    all_goals simp at enough

/-- What the packet length reaches is in the payload, and behind it is a part of what follows. -/
theorem payload_bytes (header : WrittenPesHeader) (content behind : Bytes)
    (reached : header.Reaches content.length) : ∃ kept, kept <+: behind ∧
      header.read.payload (header.bytes ++ (content ++ behind)) = content ++ kept := by
  have size := length_bytes header
  obtain ⟨stop, enough, payload⟩ : ∃ stop, header.bytes.length + content.length ≤ stop ∧
      header.read.payload (header.bytes ++ (content ++ behind)) =
        slice (header.bytes ++ (content ++ behind)) header.read.payloadOffset stop := by
    refine ⟨_, ?_, rfl⟩
    split
    · simp only [List.length_append]
      omega
    · rename_i stated
      obtain unbounded | reached := reached
      · exact absurd unbounded stated
      · simp only [size, PesHeader.payloadOffset, read, PesHeader.fixedSize]
        omega
  obtain ⟨more, rfl⟩ := Nat.exists_eq_add_of_le enough
  refine ⟨behind.take more, List.take_prefix .., ?_⟩
  rw [payload, slice, ← size, ← List.append_assoc, ← List.length_append, List.take_length_add_append,
    List.append_assoc, List.drop_left]

end WrittenPesHeader

/-- The stream id and the flags are where they are written. -/
theorem exists_of_parse {data : Bytes} {header : PesHeader}
    (parsed : PesHeader.parse data = .ok header) :
    ∃ streamId flags, data[3]? = some streamId ∧ data[7]? = some flags ∧
      header.streamId = streamId.toNat ∧ (header.timestamp.isSome ↔ 128 ≤ flags.toNat) := by
  unfold PesHeader.parse at parsed
  split at parsed
  · rename_i streamId _ _ _ flags _ rest
    refine ⟨streamId, flags, rfl, rfl, ?_⟩
    dsimp only at parsed
    split at parsed
    · cases parsed
    · split at parsed
      · rename_i untimed
        cases parsed
        exact ⟨rfl, nofun, fun timed => absurd untimed (Nat.not_lt.mpr timed)⟩
      · rename_i timed
        split at parsed
        · cases parsed
          exact ⟨rfl, fun _ => Nat.le_of_not_lt timed, fun _ => rfl⟩
        · cases parsed
  · cases parsed

end MotionImagery.Transport

namespace MotionImagery.Telemetry
open Transport

namespace TelemetryUnit

/-- A metadata cell; nothing looks at its first three bytes. -/
def cell (service sequence marks : UInt8) (content : Bytes) : Bytes :=
  service :: sequence :: marks :: (toBigEndian 2 content.length ++ content)

/-- What a cell announces is its content, unless nothing at all follows its header. -/
theorem cellContent?_cell (service sequence marks : UInt8) {content : Bytes}
    (small : content.length < 0x10000) (behind : Bytes) :
    cellContent? (cell service sequence marks content ++ behind) =
      if (content ++ behind).isEmpty then none else some content := by
  have length : content.length / 256 % 256 * 256 + content.length % 256 = content.length := by omega
  simp only [cell, cellContent?, toBigEndian, List.cons_append, List.nil_append, UInt8.toNat_ofNat',
    Nat.pow_eq, Nat.pow_zero, Nat.pow_one, Nat.div_one, Nat.reducePow, length, List.take_left]

/-- What the bytes of a packet decode to by themselves, if there are enough for a key. -/
def decodeContent (context : Context) (content : Bytes) :
    Except TelemetryError (Option Fields) :=
  if content.length < Context.keyLength then .ok none
  else (Telemetry.decode context content).map some

/-- The fields with the time that they came with. -/
def withTimestamp (timestamp : Option Nat) (outcome : Except TelemetryError (Option Fields)) :
    Except TelemetryError (Option TelemetryUnit) :=
  outcome.map fun fields? => fields?.map fun fields => ⟨fields, timestamp⟩

/-- A unit that is decoded has the fields of its content and the time that is given with it. -/
theorem exists_of_decode {context : Context} {pes : Bytes} {unit : TelemetryUnit}
    (decoded : decode context pes = .ok (some unit)) :
    ∃ header content, PesHeader.parse pes = .ok header ∧
      content? header (header.payload pes) = some (content, unit.timestamp) ∧
      Telemetry.decode context content = .ok unit.fields := by
  unfold decode at decoded
  split at decoded
  · cases decoded
  · rename_i header parsed
    split at decoded
    · cases decoded
    · rename_i content timestamp given
      split at decoded
      · cases decoded
      · cases accepted : Telemetry.decode context content with
        | error error =>
          rw [accepted] at decoded
          cases decoded
        | ok fields =>
          rw [accepted] at decoded
          cases decoded
          exact ⟨header, content, parsed, given, accepted⟩

theorem decode_of_content {context : Context} {pes content : Bytes} {header : PesHeader}
    {timestamp : Option Nat} (parsed : PesHeader.parse pes = .ok header)
    (given : content? header (header.payload pes) = some (content, timestamp)) :
    decode context pes = withTimestamp timestamp (decodeContent context content) := by
  rw [decode, parsed]
  dsimp only
  rw [given, decodeContent]
  dsimp only
  by_cases short : content.length < Context.keyLength
  · rw [if_pos short, if_pos short]
    rfl
  · rw [if_neg short, if_neg short]
    cases Telemetry.decode context content <;> rfl

/-- A header of a metadata unit, with a timestamp. -/
structure Synchronous (header : WrittenPesHeader) (stamp : Stamp) : Prop where
  metadata : header.streamId = 0xFC
  timed : 128 ≤ header.flags.toNat
  stamped : stamp.bytes <+: header.optional

theorem Synchronous.timestamp? {header : WrittenPesHeader} {stamp : Stamp}
    (synchronous : Synchronous header stamp) : header.timestamp? = some stamp.time.val := by
  obtain ⟨others, optional⟩ := synchronous.stamped
  obtain ⟨a, b, c, d, e, bytes, time⟩ := stamp.read
  rw [WrittenPesHeader.timestamp?, if_neg (Nat.not_lt.mpr synchronous.timed), ← optional, bytes, ← time]
  rfl

theorem decode_synchronous (context : Context) {header : WrittenPesHeader} {stamp : Stamp}
    (synchronous : Synchronous header stamp) (service sequence marks : UInt8) {content : Bytes}
    (small : content.length < 0x10000) (trailing : Bytes)
    (reached : header.Reaches (cell service sequence marks content).length) :
    decode context (header.bytes ++ (cell service sequence marks content ++ trailing)) =
      withTimestamp (some stamp.time.val) (decodeContent context content) := by
  have parsed := header.parse_bytes (cell service sequence marks content ++ trailing)
  have metadata : header.read.streamId = PesHeader.metadataStream :=
    congrArg UInt8.toNat synchronous.metadata
  have timestamp : header.read.timestamp = some stamp.time.val := synchronous.timestamp?
  obtain ⟨kept, -, payload⟩ := header.payload_bytes _ trailing reached
  have given := cellContent?_cell service sequence marks small kept
  by_cases nothing : (content ++ kept).isEmpty
  · -- the cell is empty and the last of the unit, which is too short in both ways
    obtain ⟨rfl, -⟩ := List.append_eq_nil_iff.mp (List.isEmpty_iff.mp nothing)
    rw [decode, parsed]
    dsimp only
    rw [payload, content?, if_pos metadata, given, if_pos nothing]
    rfl
  · refine decode_of_content parsed ?_
    rw [payload, content?, if_pos metadata, given, if_neg nothing, timestamp]
    rfl

theorem decode_asynchronous (context : Context) {header : WrittenPesHeader}
    (other : header.streamId ≠ 0xFC) {content : Bytes} (reached : header.Reaches content.length) :
    decode context (header.bytes ++ content) =
      withTimestamp none (decodeContent context content) := by
  have metadata : header.read.streamId ≠ PesHeader.metadataStream := fun same =>
    other (UInt8.toNat_inj.mp same)
  obtain ⟨kept, none_left, payload⟩ := header.payload_bytes content [] reached
  rw [List.prefix_nil.mp none_left, List.append_nil] at payload
  refine decode_of_content (header.parse_bytes content) ?_
  rw [payload, content?, if_neg metadata]

/-- Only the headers of metadata units give times. -/
theorem timestamp_of_content? {header : PesHeader} {payload content : Bytes}
    {timestamp : Option Nat} (given : content? header payload = some (content, timestamp)) :
    timestamp.isSome ↔ header.streamId = PesHeader.metadataStream ∧ header.timestamp.isSome := by
  unfold content? at given
  split at given
  · rename_i metadata
    obtain ⟨_, -, same⟩ := Option.map_eq_some_iff.mp given
    cases same
    exact (and_iff_right metadata).symm
  · rename_i other
    cases given
    exact ⟨nofun, fun timed => absurd timed.1 other⟩

/-- The stream id and the flags say whether a unit is synchronous. -/
theorem isSynchronous_iff {context : Context} {pes : Bytes} {unit : TelemetryUnit}
    (decoded : decode context pes = .ok (some unit)) :
    unit.isSynchronous ↔
      pes[3]? = some 0xFC ∧ ∃ flags, pes[7]? = some flags ∧ 128 ≤ flags.toNat := by
  obtain ⟨header, content, parsed, given, -⟩ := exists_of_decode decoded
  obtain ⟨streamId, flags, third, seventh, streamId_eq, timestamp⟩ := exists_of_parse parsed
  have metadata : header.streamId = PesHeader.metadataStream ↔ streamId = 0xFC := by
    rw [streamId_eq, ← UInt8.toNat_inj]
    rfl
  rw [isSynchronous, timestamp_of_content? given, metadata, timestamp, third, seventh]
  simp only [Option.some.injEq, exists_eq_left']

/-- **The way a unit carries a packet does not matter.** Bytes that fit a metadata cell decode to the same
there and on their own, whatever the headers around them say that is no length: the timestamp, or
that there is none, is all that differs. A unit is synchronous exactly when it is on the metadata
stream and its header has a timestamp. -/
theorem units_decode_alike (context : Context) :
    (∀ content : Bytes, content.length < 0x10000 →
      (∀ header stamp service sequence marks trailing, Synchronous header stamp →
        header.Reaches (cell service sequence marks content).length →
        decode context (header.bytes ++ (cell service sequence marks content ++ trailing)) =
          withTimestamp (some stamp.time.val) (decodeContent context content)) ∧
      ∀ header : WrittenPesHeader, header.streamId ≠ 0xFC → header.Reaches content.length →
        decode context (header.bytes ++ content) =
          withTimestamp none (decodeContent context content)) ∧
    ∀ pes unit, decode context pes = .ok (some unit) →
      (unit.isSynchronous ↔
        pes[3]? = some 0xFC ∧ ∃ flags, pes[7]? = some flags ∧ 128 ≤ flags.toNat) := by
  refine ⟨?alike, ?kinds⟩
  case alike =>
    intro content small
    constructor
    · intro header stamp service sequence marks trailing synchronous reached
      exact decode_synchronous context synchronous service sequence marks small trailing reached
    · intro header other reached
      exact decode_asynchronous context other reached
  case kinds =>
    intro pes unit decoded
    exact isSynchronous_iff decoded

namespace Sample

/-- A packet that holds nothing but its checksum. -/
def packet : Bytes := Context.uasDatalinkKey ++ [4, 1, 2, 0x4C, 0x51]

def stamp : Stamp := ⟨2, 3326777800, true, true, true⟩

/-- The optional fields end with two bytes of stuffing, and the length leaves out what follows the
cell. -/
def metadataHeader : WrittenPesHeader :=
  ⟨0xFC, 36, 0x85, 0x80, [0x27, 0x19, 0x2B, 0x33, 0x91, 0xFF, 0xFF], by decide, by decide⟩

/-- The length is open. -/
def privateHeader : WrittenPesHeader := ⟨0xBD, 0, 0x85, 0x00, [], by decide, by decide⟩

theorem packet_decodes :
    ∃ fields, decodeContent Context.uasDatalink packet = .ok (some fields) := by
  have evaluated : (Telemetry.decode Context.uasDatalink packet).isOk = true := by decide +kernel
  obtain ⟨fields, decoded⟩ := exists_ok evaluated
  refine ⟨fields, ?_⟩
  rw [decodeContent, if_neg (by decide), decoded]
  rfl

end Sample

/-- The same packet in a cell with a timestamp, behind which a byte is left, and as it is. -/
theorem sample_units_alike :
    Sample.packet.length < 0x10000 ∧
    Synchronous Sample.metadataHeader Sample.stamp ∧
    Sample.metadataHeader.Reaches (cell 1 1 1 Sample.packet).length ∧
    Sample.privateHeader.streamId ≠ 0xFC ∧
    Sample.privateHeader.Reaches Sample.packet.length ∧
    ∃ fields,
      decode Context.uasDatalink (Sample.metadataHeader.bytes ++ (cell 1 1 1 Sample.packet ++ [6])) =
        .ok (some ⟨fields, some 3326777800⟩) ∧
      decode Context.uasDatalink (Sample.privateHeader.bytes ++ Sample.packet) =
        .ok (some ⟨fields, none⟩) ∧
      ((⟨fields, none⟩ : TelemetryUnit).isSynchronous ↔
        (Sample.privateHeader.bytes ++ Sample.packet)[3]? = some 0xFC ∧
        ∃ flags, (Sample.privateHeader.bytes ++ Sample.packet)[7]? = some flags ∧
          128 ≤ flags.toNat) := by
  have small : Sample.packet.length < 0x10000 := by decide
  have synchronous : Synchronous Sample.metadataHeader Sample.stamp :=
    ⟨rfl, by decide, [0xFF, 0xFF], by decide⟩
  have reached : Sample.metadataHeader.Reaches (cell 1 1 1 Sample.packet).length :=
    .inr (by decide)
  have other : Sample.privateHeader.streamId ≠ 0xFC := by decide
  have reached' : Sample.privateHeader.Reaches Sample.packet.length := .inl rfl
  obtain ⟨alike, kinds⟩ := units_decode_alike Context.uasDatalink
  obtain ⟨inCell, asItIs⟩ := alike Sample.packet small
  have first := inCell _ _ 1 1 1 [6] synchronous reached
  have second := asItIs _ other reached'
  obtain ⟨fields, decoded⟩ := Sample.packet_decodes
  rw [decoded] at first second
  exact ⟨small, synchronous, reached, other, reached', fields, first, second, kinds _ _ second⟩

end TelemetryUnit

end MotionImagery.Telemetry
