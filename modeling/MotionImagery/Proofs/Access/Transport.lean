import MotionImagery.Proofs.Access.Basic
import MotionImagery.Transport.Demux

/-!
The readers of packets, sections and tables, with every access to a byte or a range checked and
every length and offset computed in a word. Whatever the bytes are, no check fails, and what is
read is what the unchecked readers read.
-/
namespace MotionImagery.Access
open Transport

/-- Where the payload of a packet begins, and the discontinuity flag. -/
def adaptation (header : Header) (data : Bytes) : Access (Nat × Option Bool) := do
  if header.hasAdaptation then
    let length ← byteAt data 4
    let offset ← word (5 + length.toNat)
    if 0 < length.toNat then
      let flags ← byteAt data 5
      return (offset, some (decide (128 ≤ flags.toNat)))
    else return (offset, some false)
  else return (4, none)

def parsePacket (data : Bytes) : Access (Except PacketFault Packet) := do
  if data.length < packetSize then return .error .tooShort
  let sync ← byteAt data 0
  if sync ≠ syncByte then return .error .badSync
  let header := Header.ofBytes (← byteAt data 1) (← byteAt data 2) (← byteAt data 3)
  let (offset, discontinuity) ← adaptation header data
  if header.hasPayload ∧ offset < packetSize then
    return .ok ⟨header, discontinuity, ← range data offset packetSize⟩
  else return .ok ⟨header, discontinuity, []⟩

theorem slice_eq_nil {data : Bytes} {start stop : Nat} (behind : stop ≤ start) :
    slice data start stop = [] := by
  rw [slice, List.drop_eq_nil_iff, List.length_take]
  omega

theorem adaptation_eq (header : Header) (sync first second third length flags : UInt8)
    (rest : Bytes) :
    adaptation header (sync :: first :: second :: third :: length :: flags :: rest) =
      pure (Packet.payloadOffset header length, if header.hasAdaptation then
        some (decide (0 < length.toNat) && decide (128 ≤ flags.toNat)) else none) := by
  have small := length.toNat_lt
  have fits : 5 + length.toNat < wordSize := by
    rw [wordSize]
    omega
  unfold adaptation Packet.payloadOffset
  by_cases extended : header.hasAdaptation = true
  · simp only [if_pos extended, byteAt_succ, byteAt_zero, pure_bind, word_eq fits]
    by_cases flagged : 0 < length.toNat
    · rw [if_pos flagged, decide_eq_true flagged, Bool.true_and]
    · rw [if_neg flagged, decide_eq_false flagged, Bool.false_and]
  · rw [if_neg extended, if_neg extended, if_neg extended]

theorem parsePacket_eq (data : Bytes) : parsePacket data = pure (Packet.parse data) := by
  unfold parsePacket Packet.parse
  by_cases short : data.length < packetSize
  · rw [if_pos short, if_pos short]
  · rw [if_neg short, if_neg short]
    match data, short with
    | [], short | [_], short | [_, _], short | [_, _, _], short | [_, _, _, _], short
    | [_, _, _, _, _], short => exact absurd (by simp [packetSize]) short
    | sync :: first :: second :: third :: length :: flags :: rest, short =>
      simp only [byteAt_succ, byteAt_zero, pure_bind, adaptation_eq]
      by_cases synced : sync = syncByte
      · rw [if_neg (not_not_intro synced), if_pos synced]
        generalize Header.ofBytes first second third = header
        by_cases inside : Packet.payloadOffset header length < packetSize
        · have ordered := Nat.le_of_lt inside
          rw [range_eq ordered (Nat.le_of_not_lt short), pure_bind]
          by_cases filled : header.hasPayload = true
          · rw [if_pos ⟨filled, inside⟩, if_pos filled]
          · rw [if_neg fun both => filled both.1, if_neg filled]
        · rw [if_neg fun both => inside both.2, slice_eq_nil (Nat.le_of_not_lt inside), ite_self]
      · rw [if_pos synced, if_neg synced]

def sectionPayload (packet : Packet) : Access (Option Bytes) := do
  if packet.carriesPayload then
    if packet.header.unitStart then
      let pointer ← byteAt packet.payload 0
      let start ← word (pointer.toNat + 1)
      if start < packet.payload.length then
        return some (← range packet.payload start packet.payload.length)
      else return none
    else return some packet.payload
  else return none

theorem sectionPayload_eq (packet : Packet) :
    sectionPayload packet = pure packet.sectionPayload? := by
  unfold sectionPayload Packet.sectionPayload?
  by_cases carries : packet.carriesPayload = true
  · rw [if_pos carries, if_pos carries]
    by_cases starts : packet.header.unitStart = true
    · rw [if_pos starts, if_pos starts]
      cases found : packet.payload with
      | nil =>
        rw [Packet.carriesPayload, found] at carries
        simp at carries
      | cons pointer rest =>
        have small := pointer.toNat_lt
        have fits : pointer.toNat + 1 < wordSize := by
          rw [wordSize]
          omega
        simp only [byteAt_zero, pure_bind, word_eq fits, List.length_cons, Nat.add_lt_add_iff_right]
        by_cases inside : pointer.toNat < rest.length
        · rw [if_pos inside, if_pos inside, range_eq (by simp; omega) (by simp), pure_bind]
          rw [slice, List.take_succ_cons, List.take_length, List.drop_succ_cons]
        · rw [if_neg inside, if_neg inside]
    · rw [if_neg starts, if_neg starts]
  · rw [if_neg carries, if_neg carries]

/-- The four bytes of a check. -/
def check (data : Bytes) (offset : Nat) : Access Nat := do
  return bigEndian [← byteAt data offset, ← byteAt data (← word (offset + 1)),
    ← byteAt data (← word (offset + 2)), ← byteAt data (← word (offset + 3))]

/-- Whether the section has room for its body is not asked: it always has. -/
def parseSection (data : Bytes) : Access (Except SectionFault Section) := do
  if data.length < 3 then return .error .shortHeader
  let id ← byteAt data 0
  let high ← byteAt data 1
  let length := high.toNat % 16 * 256 + (← byteAt data 2).toNat
  if length < 5 then return .error .smallLength
  let total ← word (3 + length)
  if data.length < total then return .error .incomplete
  let stop ← difference total 4
  if 128 ≤ high.toNat then
    if total < 12 then return .error .shortExtendedHeader
    let extension := (← byteAt data 3).toNat * 256 + (← byteAt data 4).toNat
    let flags ← byteAt data 5
    return .ok {
      tableId := id.toNat, longForm := true, length, extension
      version := flags.toNat / 2 % 32, current := decide (flags.toNat % 2 = 1)
      body := ← range data 8 stop, check := ← check data stop }
  else
    return .ok {
      tableId := id.toNat, longForm := false, length, extension := 0, version := 0
      current := true, body := ← range data 3 stop, check := ← check data stop }

theorem drop_four {data : Bytes} {offset : Nat} (inside : offset + 4 ≤ data.length) :
    data.drop offset = data[offset] :: data[offset + 1] :: data[offset + 2] :: data[offset + 3] ::
      data.drop (offset + 4) := by
  rw [List.drop_eq_getElem_cons (by omega), List.drop_eq_getElem_cons (by omega),
    List.drop_eq_getElem_cons (by omega), List.drop_eq_getElem_cons (by omega)]

theorem slice_four {data : Bytes} {offset : Nat} (inside : offset + 4 ≤ data.length) :
    slice data offset (offset + 4) =
      [data[offset], data[offset + 1], data[offset + 2], data[offset + 3]] := by
  rw [slice, List.drop_take, Nat.add_sub_cancel_left, drop_four inside]
  rfl

theorem check_eq {data : Bytes} {offset : Nat} (inside : offset + 4 ≤ data.length)
    (fits : offset + 4 < wordSize) :
    check data offset = pure (bigEndian (slice data offset (offset + 4))) := by
  unfold check
  rw [slice_four inside, byteAt_eq (by omega), pure_bind, word_eq (by omega), pure_bind,
    byteAt_eq (by omega), pure_bind, word_eq (by omega), pure_bind, byteAt_eq (by omega), pure_bind,
    word_eq (by omega), pure_bind, byteAt_eq (by omega), pure_bind]

theorem parseSection_eq (data : Bytes) : parseSection data = pure (Section.parse data) := by
  unfold parseSection Section.parse
  match data with
  | [] | [_] | [_, _] => rfl
  | id :: high :: low :: afterLength =>
    have present : ¬(id :: high :: low :: afterLength).length < 3 := by simp
    have := high.toNat_lt
    have := low.toNat_lt
    simp only [if_neg present, byteAt_zero, byteAt_succ, pure_bind]
    generalize length_eq : high.toNat % 16 * 256 + low.toNat = length
    have fits : 3 + length < wordSize := by
      rw [wordSize]
      omega
    by_cases small : length < 5
    · rw [if_pos small, if_pos small]
    · rw [if_neg small, if_neg small, word_eq fits, pure_bind]
      by_cases cut : (id :: high :: low :: afterLength).length < 3 + length
      · rw [if_pos cut, if_pos cut]
      · have stop : 3 + length - 4 = length - 1 := by omega
        have whole : length - 1 + 4 = 3 + length := by omega
        have checked : check (id :: high :: low :: afterLength) (length - 1) =
            pure (bigEndian (slice (id :: high :: low :: afterLength) (length - 1)
              (3 + length))) := by
          rw [check_eq (by omega) (by omega), whole]
        rw [if_neg cut, if_neg cut, difference_eq (by omega), pure_bind, stop]
        by_cases long : 128 ≤ high.toNat
        · have longForm : ¬(!decide (128 ≤ high.toNat)) = true := by simp [long]
          rw [if_pos long, if_neg longForm]
          by_cases short : length < 9
          · rw [if_pos (by omega), if_pos short]
          · rw [if_neg (by omega), if_neg short]
            match afterLength, cut with
            | [], cut | [_], cut | [_, _], cut => exact absurd (by simp; omega) cut
            | extensionHigh :: extensionLow :: flags :: rest, cut =>
              simp only [byteAt_succ, byteAt_zero, pure_bind, checked,
                range_eq (show 8 ≤ length - 1 by omega)
                  (show length - 1 ≤ (id :: high :: low :: extensionHigh :: extensionLow :: flags ::
                    rest).length by omega), long, decide_true]
        · have shortForm : (!decide (128 ≤ high.toNat)) = true := by simp [long]
          rw [if_neg long, if_pos shortForm, checked, range_eq (by omega) (by omega), pure_bind,
            pure_bind, decide_eq_false long]

/-- Twelve bits of length leave every later computation far below the size of a word. -/
theorem bounds_of_parse {data : Bytes} {s : Section} (parsed : Section.parse data = .ok s) :
    5 ≤ s.length ∧ s.length < 4096 ∧ s.body.length < 4096 := by
  unfold Section.parse at parsed
  split at parsed
  · rename_i id high low afterLength
    have := high.toNat_lt
    have := low.toNat_lt
    have shorter (start stop : Nat) : (slice (id :: high :: low :: afterLength) start stop).length ≤
        stop := by
      rw [slice, List.length_drop, List.length_take]
      omega
    dsimp only at parsed
    generalize length_eq : high.toNat % 16 * 256 + low.toNat = length at parsed
    have short := shorter 3 (length - 1)
    have long := shorter 8 (length - 1)
    split at parsed
    · cases parsed
    · split at parsed
      · cases parsed
      · split at parsed
        · cases parsed
          dsimp only
          omega
        · split at parsed
          · cases parsed
          · split at parsed
            · cases parsed
              dsimp only
              omega
            · cases parsed
  · cases parsed

/-- One step of the check; the table has an entry for every byte. -/
def shiftByte (register : UInt32) (byte : UInt8) : Access UInt32 := do
  let ⟨inside⟩ ← require (((register >>> 24) ^^^ byte.toUInt32).toNat < 256) .outOfRange
  return (register <<< 8) ^^^ Checksum.table.get ⟨_, inside⟩

def crc32 (data : Bytes) : Access UInt32 := data.foldlM shiftByte Checksum.initialRegister

theorem shiftByte_eq (register : UInt32) (byte : UInt8) :
    shiftByte register byte = pure (Checksum.shiftByte register byte) := by
  have top : (register >>> 24).toNat < 256 := by
    have := register.toNat_lt
    rw [UInt32.toNat_shiftRight, Nat.shiftRight_eq_div_pow]
    simp
    omega
  have index : ((register >>> 24) ^^^ byte.toUInt32).toNat =
      ((register >>> 24).toUInt8 ^^^ byte).toNat := by
    rw [UInt32.toNat_xor, UInt8.toNat_xor, UInt32.toNat_toUInt8, Nat.mod_eq_of_lt top]
    rfl
  have inside : ((register >>> 24) ^^^ byte.toUInt32).toNat < 256 := by
    rw [index]
    exact UInt8.toNat_lt _
  rw [shiftByte, require_eq inside, pure_bind, Checksum.shiftByte, Checksum.lookup]
  simp only [index]

theorem crc32_eq (data : Bytes) : crc32 data = pure (Checksum.crc32 data) := by
  unfold crc32 Checksum.crc32
  generalize Checksum.initialRegister = register
  induction data generalizing register with
  | nil => rfl
  | cons byte rest ih => rw [List.foldlM_cons, shiftByte_eq, pure_bind, ih, List.foldl_cons]

/-- Whether the check of a section agrees with the bytes it was read from. -/
def verifies (s : Section) (data : Bytes) : Access Bool := do
  let total ← word (3 + s.length)
  if data.length < total then return false
  let covered ← range data 0 (← difference total 4)
  return decide ((← crc32 covered).toNat = s.check)

theorem verifies_eq {s : Section} (some_length : 5 ≤ s.length) (few : s.length < 4096)
    (data : Bytes) : verifies s data = pure (s.verifies data) := by
  unfold verifies Section.verifies Section.totalLength
  have fits : 3 + s.length < wordSize := by
    rw [wordSize]
    omega
  rw [word_eq fits, pure_bind]
  by_cases cut : data.length < 3 + s.length
  · rw [if_pos cut, decide_eq_false (Nat.not_le_of_lt cut), Bool.false_and]
  · rw [if_neg cut, difference_eq (by omega), pure_bind, range_eq (Nat.zero_le _) (by omega),
      pure_bind, crc32_eq, pure_bind, decide_eq_true (Nat.le_of_not_lt cut), Bool.true_and]
    rfl

/-- The programs in the entries from an offset on. -/
def programs (body : Bytes) (offset : Nat) : Access (List ProgramEntry) :=
  if offset + 4 ≤ body.length then do
    let entry ← range body offset (offset + 4)
    let number := (← byteAt entry 0).toNat * 256 + (← byteAt entry 1).toNat
    let pid := pidOf (← byteAt entry 2) (← byteAt entry 3)
    let rest ← programs body (offset + 4)
    return if number = 0 then rest else ⟨number, pid⟩ :: rest
  else return []
termination_by body.length - offset

theorem programs_eq (body : Bytes) (offset : Nat) :
    programs body offset = pure (AssociationTable.entries (body.drop offset)) := by
  fun_induction programs body offset with
  | case1 offset inside ih =>
    rw [range_eq (Nat.le_add_right _ _) inside, slice_four inside, drop_four inside,
      AssociationTable.entries]
    simp only [byteAt_succ, byteAt_zero, pure_bind, ih]
  | case2 offset outside =>
    have few : (body.drop offset).length < 4 := by
      rw [List.length_drop]
      omega
    match body.drop offset, few with
    | [], _ | [_], _ | [_, _], _ | [_, _, _], _ => rfl

/-- The streams in the entries from an offset on. -/
def streams (body : Bytes) (offset : Nat) : Access (List StreamEntry) := do
  let _ ← word (offset + 5)
  if offset + 5 ≤ body.length then
    let streamType ← byteAt body offset
    let pid := pidOf (← byteAt body (offset + 1)) (← byteAt body (offset + 2))
    let described := lengthOf (← byteAt body (offset + 3)) (← byteAt body (offset + 4))
    let _ ← word (offset + (5 + described))
    if offset + (5 + described) ≤ body.length then
      return ⟨streamType.toNat, pid⟩ :: (← streams body (offset + (5 + described)))
    else return []
  else return []
termination_by body.length - offset

theorem entries_of_short {body : Bytes} (few : body.length < 5) : MapTable.entries body = [] := by
  unfold MapTable.entries
  split
  · simp only [List.length_cons] at few
    omega
  · rfl

theorem streams_eq {body : Bytes} (short : body.length < 4096) {offset : Nat}
    (inside : offset ≤ body.length) :
    streams body offset = pure (MapTable.entries (body.drop offset)) := by
  fun_induction streams body offset with
  | case1 offset ih =>
    have fits : offset + 5 < wordSize := by
      rw [wordSize]
      omega
    rw [word_eq fits, pure_bind]
    by_cases whole : offset + 5 ≤ body.length
    · have first := drop_four (show offset + 4 ≤ body.length by omega)
      rw [List.drop_eq_getElem_cons (show offset + 4 < body.length by omega)] at first
      rw [if_pos whole, byteAt_eq (by omega), pure_bind, byteAt_eq (by omega), pure_bind,
        byteAt_eq (by omega), pure_bind, byteAt_eq (by omega), pure_bind, byteAt_eq (by omega),
        pure_bind, first, MapTable.entries]
      have ih := ih whole body[offset + 3] body[offset + 4]
      generalize described_eq : lengthOf body[offset + 3] body[offset + 4] = described at ih ⊢
      have bounded : described < 4096 := by
        have := body[offset + 3].toNat_lt
        have := body[offset + 4].toNat_lt
        rw [← described_eq, lengthOf]
        omega
      have fits : offset + (5 + described) < wordSize := by
        rw [wordSize]
        omega
      dsimp only
      rw [word_eq fits, pure_bind, List.length_drop, List.drop_drop]
      by_cases present : offset + (5 + described) ≤ body.length
      · rw [if_pos present, if_pos (by omega), ih present present, pure_bind,
          show offset + 4 + 1 + described = offset + (5 + described) by omega]
      · rw [if_neg present, if_neg (by omega)]
    · have few : (body.drop offset).length < 5 := by
        rw [List.length_drop]
        omega
      rw [if_neg whole, entries_of_short few]

def association (s : Section) : Access (Except TableFault AssociationTable) := do
  if s.tableId ≠ AssociationTable.tableId then return .error .notAssociation
  if s.body.length % 4 ≠ 0 then return .error .associationLength
  return .ok ⟨s.version, ← programs s.body 0⟩

theorem association_eq (s : Section) : association s = pure (AssociationTable.ofSection s) := by
  unfold association AssociationTable.ofSection
  by_cases other : s.tableId ≠ AssociationTable.tableId
  · rw [if_pos other, if_pos other]
  · rw [if_neg other, if_neg other]
    by_cases partial_entry : s.body.length % 4 ≠ 0
    · rw [if_pos partial_entry, if_pos partial_entry]
    · rw [if_neg partial_entry, if_neg partial_entry, programs_eq, pure_bind, List.drop_zero]

def programMap (s : Section) : Access (Except TableFault MapTable) := do
  if s.tableId ≠ MapTable.tableId then return .error .notMap
  if s.body.length < 4 then return .error .mapTooShort
  let described := lengthOf (← byteAt s.body 2) (← byteAt s.body 3)
  let start ← word (4 + described)
  if s.body.length < start then return .error .programInfoLength
  return .ok ⟨s.extension, s.version, ← streams s.body start⟩

theorem programMap_eq {s : Section} (short : s.body.length < 4096) :
    programMap s = pure (MapTable.ofSection s) := by
  unfold programMap MapTable.ofSection
  by_cases other : s.tableId ≠ MapTable.tableId
  · rw [if_pos other, if_pos other]
  · rw [if_neg other, if_neg other]
    match s.body, short with
    | [], _ | [_], _ | [_, _], _ | [_, _, _], _ => rfl
    | clockHigh :: clockLow :: lengthHigh :: lengthLow :: rest, short =>
      have present : ¬(clockHigh :: clockLow :: lengthHigh :: lengthLow :: rest).length < 4 := by
        simp
      rw [if_neg present]
      simp only [byteAt_succ, byteAt_zero, pure_bind]
      generalize described_eq : lengthOf lengthHigh lengthLow = described
      have bounded : described < 4096 := by
        have := lengthHigh.toNat_lt
        have := lengthLow.toNat_lt
        rw [← described_eq, lengthOf]
        omega
      have fits : 4 + described < wordSize := by
        rw [wordSize]
        omega
      rw [word_eq fits, pure_bind]
      simp only [List.length_cons] at short ⊢
      by_cases inside : described ≤ rest.length
      · rw [if_neg (by omega), if_pos inside, streams_eq (by simpa using short) (by simp; omega),
          pure_bind, Nat.add_comm 4]
        rfl
      · rw [if_pos (by omega), if_neg inside]

variable (d : Demux) (packet : Packet)

def readSection : Access (Except DemuxError (Option Section)) := do
  let pid := packet.header.pid
  match ← sectionPayload packet with
  | none => return .error (.invalidTable pid .missingPayload)
  | some data =>
    match ← parseSection data with
    | .error fault => return .error (.invalidTable pid (.badSection fault))
    | .ok s =>
      if d.verifyCheck then return .ok (if ← verifies s data then some s else none)
      else return .ok (some s)

theorem readSection_eq : readSection d packet = pure (d.readSection packet) := by
  unfold readSection Demux.readSection
  rw [sectionPayload_eq, pure_bind]
  cases packet.sectionPayload? with
  | none => rfl
  | some data =>
    dsimp only
    rw [parseSection_eq, pure_bind]
    cases parsed : Section.parse data with
    | error fault => rfl
    | ok s =>
      obtain ⟨some_length, few, -⟩ := bounds_of_parse parsed
      dsimp only
      by_cases verify : d.verifyCheck = true
      · rw [if_pos verify, verifies_eq some_length few, pure_bind, verify, Bool.true_and]
        cases s.verifies data <;> rfl
      · rw [if_neg verify, (Bool.not_eq_true _).mp verify, Bool.false_and]
        rfl

theorem short_of_readSection {s : Section} (read : d.readSection packet = .ok (some s)) :
    s.body.length < 4096 := by
  unfold Demux.readSection at read
  dsimp only at read
  split at read
  · cases read
  · split at read
    · cases read
    · rename_i parsed
      split at read
      · cases read
      · cases read
        exact (bounds_of_parse parsed).2.2

def readAssociation : Access (Except DemuxError Demux) := do
  match ← readSection d packet with
  | .error error => return .error error
  | .ok none => return .ok d
  | .ok (some s) =>
    match ← association s with
    | .error fault => return .error (.invalidTable packet.header.pid (.badTable fault))
    | .ok table =>
      if table.programs.isEmpty then return .error .emptyProgramList
      else return .ok { d with mapPids := table.mapPids }

theorem readAssociation_eq : readAssociation d packet = pure (d.readAssociation packet) := by
  unfold readAssociation Demux.readAssociation
  rw [readSection_eq, pure_bind]
  cases d.readSection packet with
  | error error => rfl
  | ok carried =>
    cases carried with
    | none => rfl
    | some s =>
      dsimp only
      rw [association_eq, pure_bind]
      simp only [bind, Except.bind]
      cases AssociationTable.ofSection s with
      | error fault => rfl
      | ok table =>
        by_cases empty : table.programs.isEmpty = true
        · simp only [if_pos empty]
        · simp only [if_neg empty]
          rfl

def readMap : Access (Except DemuxError Demux) := do
  match ← readSection d packet with
  | .error error => return .error error
  | .ok none => return .ok d
  | .ok (some s) =>
    match ← programMap s with
    | .error fault => return .error (.invalidTable packet.header.pid (.badTable fault))
    | .ok table =>
      let register := fun (types : Std.ExtTreeMap Nat Nat) (entry : StreamEntry) =>
        types.insert entry.pid entry.streamType
      return .ok { d with streamTypes := table.streams.foldl register d.streamTypes }

theorem readMap_eq : readMap d packet = pure (d.readMap packet) := by
  unfold readMap Demux.readMap
  rw [readSection_eq, pure_bind]
  cases read : d.readSection packet with
  | error error => rfl
  | ok carried =>
    cases carried with
    | none => rfl
    | some s =>
      dsimp only
      rw [programMap_eq (short_of_readSection d packet read), pure_bind]
      simp only [bind, Except.bind]
      cases MapTable.ofSection s <;> rfl

/-- Reads a packet: the tables with every access checked, payload as it is. -/
def read (raw : Bytes) : Access (Except DemuxError (Option ElementaryUnit) × Demux) := do
  match ← parsePacket raw with
  | .error fault => return (.error (.invalidPacket fault), d)
  | .ok packet =>
    let header := packet.header
    if header.transportError then return d.readPacket packet
    else if header.pid = AssociationTable.tablePid ∧ header.unitStart then
      match ← readAssociation d packet with
      | .error error => return (.error error, d)
      | .ok next => return (.ok none, next)
    else if header.pid ∈ d.mapPids ∧ header.unitStart then
      match ← readMap d packet with
      | .error error => return (.error error, d)
      | .ok next => return (.ok none, next)
    else return d.readPacket packet

/-- **Reading a packet never faults.** Whatever the bytes and the state of the demultiplexer are,
every byte and range that is asked for is there, and every length and offset fits its word. -/
theorem read_eq (raw : Bytes) : read d raw = pure (d.read raw) := by
  unfold read Demux.read
  rw [parsePacket_eq, pure_bind]
  cases Packet.parse raw with
  | error fault => rfl
  | ok packet =>
    dsimp only
    rw [readAssociation_eq, readMap_eq, pure_bind, pure_bind]
    by_cases flagged : packet.header.transportError = true
    · rw [if_pos flagged]
    · rw [if_neg flagged]
      by_cases associates : packet.header.pid = AssociationTable.tablePid ∧
          packet.header.unitStart = true
      · rw [if_pos associates, Demux.readPacket]
        simp only [if_neg flagged, if_pos associates]
        cases d.readAssociation packet <;> rfl
      · rw [if_neg associates]
        by_cases maps : packet.header.pid ∈ d.mapPids ∧ packet.header.unitStart = true
        · rw [if_pos maps, Demux.readPacket]
          simp only [if_neg flagged, if_neg associates, if_pos maps]
          cases d.readMap packet <;> rfl
        · rw [if_neg maps]

end MotionImagery.Access
