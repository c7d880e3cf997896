import MotionImagery.Proofs.Transport.DamagedSections

/-!
Tables as they are written, with every reserved bit free. What is written is what is read: a section
whatever stands behind it, an association table but for its network entries, and of a map table that
was cut off the entries that are there in full.
-/
namespace MotionImagery.Transport

theorem toBigEndian_two (number : Nat) :
    toBigEndian 2 number = [UInt8.ofNat (number / 256), UInt8.ofNat number] := by
  simp [toBigEndian]

theorem number_word {number : Nat} (small : number < 0x10000) :
    (UInt8.ofNat (number / 256)).toNat * 256 + (UInt8.ofNat number).toNat = number := by
  simp only [UInt8.toNat_ofNat']
  omega

theorem pidOf_word (reserved : Nat) {pid : Nat} (small : pid < 0x2000) :
    pidOf (UInt8.ofNat ((reserved * 0x2000 + pid) / 256)) (UInt8.ofNat (reserved * 0x2000 + pid)) =
      pid := by
  simp only [pidOf, UInt8.toNat_ofNat']
  omega

theorem lengthOf_word (reserved : Nat) {length : Nat} (small : length < 0x1000) :
    lengthOf (UInt8.ofNat ((reserved * 0x1000 + length) / 256))
      (UInt8.ofNat (reserved * 0x1000 + length)) = length := by
  simp only [lengthOf, UInt8.toNat_ofNat']
  omega

theorem slice_middle (before middle after : Bytes) {start stop : Nat} (starts : start = before.length)
    (stops : stop = before.length + middle.length) :
    slice (before ++ middle ++ after) start stop = middle := by
  subst starts stops
  rw [slice, List.take_left' List.length_append, List.drop_left]

namespace Section

/-- The first eight bytes of a section with a body of this size. -/
def headBytes (tableId extension version size : Nat) : Bytes :=
  let length := 5 + size + 4
  [UInt8.ofNat tableId, UInt8.ofNat (0xB0 + length / 256 % 16), UInt8.ofNat length,
    UInt8.ofNat (extension / 256), UInt8.ofNat extension, UInt8.ofNat (0xC1 + version % 32 * 2), 0, 0]

/-- The section that is read where this one was written. -/
def written (tableId extension version : Nat) (body : Bytes) : Section where
  tableId := tableId
  longForm := true
  length := 5 + body.length + 4
  extension := extension
  version := version
  current := true
  body := body
  check := (Checksum.crc32 (headBytes tableId extension version body.length ++ body)).toNat

variable {tableId extension version : Nat} {body : Bytes}

theorem encode_eq : encode tableId extension version body =
    headBytes tableId extension version body.length ++ body ++
      toBigEndian 4 (written tableId extension version body).check := rfl

theorem bigEndian_check :
    bigEndian (toBigEndian 4 (written tableId extension version body).check) =
      (written tableId extension version body).check := by
  rw [bigEndian_toBigEndian]
  exact Nat.mod_eq_of_lt (UInt32.toNat_lt _)

/-- How a section of the long form is read that is there in full. -/
theorem parse_long {id high low extensionHigh extensionLow flags number last : UInt8} {rest : Bytes}
    (long : 128 ≤ high.toNat) (enough : 9 ≤ lengthOf high low)
    (whole : lengthOf high low ≤ 5 + rest.length) :
    parse (id :: high :: low :: extensionHigh :: extensionLow :: flags :: number :: last :: rest) =
      .ok {
        tableId := id.toNat
        longForm := true
        length := lengthOf high low
        extension := extensionHigh.toNat * 256 + extensionLow.toNat
        version := flags.toNat / 2 % 32
        current := decide (flags.toNat % 2 = 1)
        body := rest.take (lengthOf high low - 9)
        check := bigEndian (slice rest (lengthOf high low - 9) (lengthOf high low - 5)) } := by
  have behindHead : ∀ stop, slice (id :: high :: low :: extensionHigh :: extensionLow :: flags ::
      number :: last :: rest) 8 (8 + stop) = rest.take stop := by
    intro stop
    rw [Nat.add_comm]
    rfl
  have skipsHead : ∀ start stop, slice (id :: high :: low :: extensionHigh :: extensionLow ::
      flags :: number :: last :: rest) (8 + start) (8 + stop) = slice rest start stop := by
    intro start stop
    rw [Nat.add_comm, Nat.add_comm 8]
    rfl
  have bodyStop : lengthOf high low - 1 = 8 + (lengthOf high low - 9) := by omega
  have checkStop : 3 + lengthOf high low = 8 + (lengthOf high low - 5) := by omega
  have size : ¬(id :: high :: low :: extensionHigh :: extensionLow :: flags :: number :: last ::
      rest).length < 3 + lengthOf high low := by
    simp only [List.length_cons]
    omega
  unfold parse
  dsimp only
  rw [← lengthOf, if_neg (by omega : ¬lengthOf high low < 5), if_neg size, decide_eq_true long,
    if_neg (by decide), if_neg (by omega : ¬lengthOf high low < 9), bodyStop, checkStop, behindHead,
    skipsHead]

/-- **A section survives encoding**, whatever stands behind it. -/
theorem parse_encode (tableId_small : tableId < 256) (extension_small : extension < 0x10000)
    (version_small : version < 32) (fits : body.length ≤ maxBodyLength) (behind : Bytes) :
    parse (encode tableId extension version body ++ behind) =
      .ok (written tableId extension version body) := by
  have length := Option.some.inj (lengthField?_encode tableId extension version fits)
  have long : 128 ≤ (UInt8.ofNat (0xB0 + (5 + body.length + 4) / 256 % 16)).toNat := by
    rw [UInt8.toNat_ofNat']
    omega
  have flags : (UInt8.ofNat (0xC1 + version % 32 * 2)).toNat = 0xC1 + version * 2 := by
    rw [UInt8.toNat_ofNat']
    omega
  have version_read : (0xC1 + version * 2) / 2 % 32 = version := by omega
  have current : (0xC1 + version * 2) % 2 = 1 := by omega
  have id : (UInt8.ofNat tableId).toNat = tableId := by
    rw [UInt8.toNat_ofNat']
    omega
  have bodySize : 5 + body.length + 4 - 9 = body.length := by omega
  have checkStop : 5 + body.length + 4 - 5 = body.length + 4 := by omega
  rw [encode_eq, headBytes, List.append_assoc, List.append_assoc]
  simp only [List.cons_append, List.nil_append]
  rw [parse_long long (by rw [length]; omega) (by
    simp only [length, List.length_append, length_toBigEndian]
    omega)]
  rw [length, bodySize, checkStop, List.take_left, ← List.append_assoc,
    slice_middle body _ behind rfl (by rw [length_toBigEndian]), bigEndian_check,
    number_word extension_small, flags, id, version_read, current]
  rfl

theorem verifies_written (behind : Bytes) :
    (written tableId extension version body).verifies
      (encode tableId extension version body ++ behind) = true := by
  have size : (written tableId extension version body).totalLength ≤
      (encode tableId extension version body ++ behind).length := by
    rw [List.length_append, length_encode]
    exact Nat.le_add_right _ _
  have covered : (encode tableId extension version body ++ behind).take
      ((written tableId extension version body).totalLength - 4) =
        headBytes tableId extension version body.length ++ body := by
    rw [encode_eq, List.append_assoc]
    apply List.take_left'
    simp only [totalLength, written, List.length_append, headBytes, List.length_cons, List.length_nil]
    omega
  rw [verifies, covered, decide_eq_true size, Bool.true_and]
  exact decide_eq_true rfl

end Section

/-- A program as it is written, whatever its reserved bits. -/
structure WrittenProgram where
  number : Fin 0x10000
  reserved : Fin 8
  pid : Fin 0x2000

namespace WrittenProgram

def bytes (program : WrittenProgram) : Bytes :=
  toBigEndian 2 program.number ++ toBigEndian 2 (program.reserved * 0x2000 + program.pid)

def entry (program : WrittenProgram) : ProgramEntry := ⟨program.number, program.pid⟩

end WrittenProgram

namespace AssociationTable

theorem length_written (programs : List WrittenProgram) :
    (programs.flatMap (·.bytes)).length = 4 * programs.length := by
  induction programs with
  | nil => rfl
  | cons program rest ih =>
    have four : program.bytes.length = 4 := by
      rw [WrittenProgram.bytes, List.length_append, length_toBigEndian, length_toBigEndian]
    rw [List.flatMap_cons, List.length_append, four, ih, List.length_cons, Nat.mul_succ, Nat.add_comm]

/-- Every entry is read but those for program zero. -/
theorem entries_written (programs : List WrittenProgram) :
    entries (programs.flatMap (·.bytes)) =
      (programs.map (·.entry)).filter fun entry => decide (entry.number ≠ 0) := by
  induction programs with
  | nil => rfl
  | cons program rest ih =>
    rw [List.flatMap_cons, WrittenProgram.bytes, toBigEndian_two, toBigEndian_two]
    simp only [List.cons_append, List.nil_append, entries]
    rw [number_word program.number.isLt, pidOf_word program.reserved program.pid.isLt, ih,
      List.map_cons]
    by_cases zero : program.number.val = 0
    · rw [if_pos zero, List.filter_cons_of_neg (by simp [WrittenProgram.entry, zero])]
    · rw [if_neg zero, List.filter_cons_of_pos (by simp [WrittenProgram.entry, zero])]
      rfl

theorem ofSection_written {s : Section} {programs : List WrittenProgram}
    (tabled : s.tableId = tableId) (body : s.body = programs.flatMap (·.bytes)) :
    ofSection s =
      .ok ⟨s.version, (programs.map (·.entry)).filter fun entry => decide (entry.number ≠ 0)⟩ := by
  have whole : s.body.length % 4 = 0 := by
    rw [body, length_written]
    exact Nat.mul_mod_right 4 _
  rw [ofSection, if_neg (not_not_intro tabled), if_neg (not_not_intro whole), body, entries_written]

end AssociationTable

/-- A stream as it is written, whatever its reserved bits. -/
structure WrittenStream where
  streamType : UInt8
  pidReserved : Fin 8
  pid : Fin 0x2000
  lengthReserved : Fin 16
  descriptors : Bytes
  fits : descriptors.length < 0x1000

namespace WrittenStream

def bytes (stream : WrittenStream) : Bytes :=
  stream.streamType :: (toBigEndian 2 (stream.pidReserved * 0x2000 + stream.pid) ++
    toBigEndian 2 (stream.lengthReserved * 0x1000 + stream.descriptors.length) ++ stream.descriptors)

def entry (stream : WrittenStream) : StreamEntry := ⟨stream.streamType.toNat, stream.pid⟩

theorem bytes_eq (stream : WrittenStream) : ∃ pidHigh pidLow lengthHigh lengthLow,
    stream.bytes = stream.streamType :: pidHigh :: pidLow :: lengthHigh :: lengthLow ::
      stream.descriptors ∧ pidOf pidHigh pidLow = stream.pid ∧
      lengthOf lengthHigh lengthLow = stream.descriptors.length := by
  refine ⟨_, _, _, _, ?_, pidOf_word stream.pidReserved stream.pid.isLt,
    lengthOf_word stream.lengthReserved stream.fits⟩
  rw [bytes, toBigEndian_two, toBigEndian_two]
  rfl

end WrittenStream

/-- A map table as it is written: the clock's PID, what describes the program, and the streams. -/
structure WrittenMap where
  clock : Fin 0x10000
  infoReserved : Fin 16
  info : Bytes
  fits : info.length < 0x1000
  streams : List WrittenStream

namespace WrittenMap

def head (map : WrittenMap) : Bytes :=
  toBigEndian 2 map.clock ++ toBigEndian 2 (map.infoReserved * 0x1000 + map.info.length) ++ map.info

/-- The entries behind one another. -/
def loop (streams : List WrittenStream) : Bytes := streams.flatMap (·.bytes)

def body (map : WrittenMap) : Bytes := map.head ++ loop map.streams

@[simp] theorem loop_nil : loop [] = [] := rfl

theorem loop_cons (stream : WrittenStream) (rest : List WrittenStream) :
    loop (stream :: rest) = stream.bytes ++ loop rest := rfl

end WrittenMap

namespace MapTable

/-- An entry that is there in full is read, and then what stands behind it. -/
theorem entries_whole (stream : WrittenStream) (more : Bytes) :
    entries (stream.bytes ++ more) = stream.entry :: entries more := by
  obtain ⟨pidHigh, pidLow, lengthHigh, lengthLow, bytes, pid, length⟩ := stream.bytes_eq
  have inside : stream.descriptors.length ≤ (stream.descriptors ++ more).length := by simp
  rw [bytes]
  simp only [List.cons_append]
  rw [entries]
  rw [length, if_pos inside, pid, List.drop_left]
  rfl

/-- An entry that is cut off is not read. -/
theorem entries_part (stream : WrittenStream) {cut : Nat} (short : cut < stream.bytes.length) :
    entries (stream.bytes.take cut) = [] := by
  obtain ⟨pidHigh, pidLow, lengthHigh, lengthLow, bytes, -, length⟩ := stream.bytes_eq
  rw [bytes] at short ⊢
  match cut, short with
  | 0, _ | 1, _ | 2, _ | 3, _ | 4, _ => simp [entries]
  | cut + 5, short =>
    have cutOff : ¬stream.descriptors.length ≤ (stream.descriptors.take cut).length := by
      simp only [List.length_cons, List.length_take] at short ⊢
      omega
    simp only [List.take_succ_cons]
    rw [entries]
    rw [length, if_neg cutOff]

/-- Of entries that are cut off anywhere those are read that end before the cut. -/
theorem entries_cut (streams : List WrittenStream) (cut : Nat) :
    ∃ count, entries ((WrittenMap.loop streams).take cut) = (streams.take count).map (·.entry) ∧
      ∀ first ≤ streams.length,
        (first ≤ count ↔ (WrittenMap.loop (streams.take first)).length ≤ cut) := by
  induction streams generalizing cut with
  | nil => exact ⟨0, by simp [entries], by simp⟩
  | cons stream rest ih =>
    rw [WrittenMap.loop_cons]
    by_cases whole : stream.bytes.length ≤ cut
    · obtain ⟨count, read, counted⟩ := ih (cut - stream.bytes.length)
      refine ⟨count + 1, ?_, ?_⟩
      · rw [List.take_append, List.take_of_length_le whole, entries_whole, read, List.take_succ_cons,
          List.map_cons]
      · intro first within
        cases first with
        | zero => simp
        | succ first =>
          have counted := counted first (Nat.le_of_succ_le_succ within)
          rw [List.take_succ_cons, WrittenMap.loop_cons, List.length_append]
          omega
    · have short := Nat.lt_of_not_le whole
      refine ⟨0, ?_, ?_⟩
      · rw [List.take_append_of_le_length (Nat.le_of_lt short), entries_part stream short]
        rfl
      · intro first within
        cases first with
        | zero => simp
        | succ first =>
          rw [List.take_succ_cons, WrittenMap.loop_cons, List.length_append]
          omega

theorem entries_written (streams : List WrittenStream) :
    entries (WrittenMap.loop streams) = streams.map (·.entry) := by
  induction streams with
  | nil => simp [entries]
  | cons stream rest ih => rw [WrittenMap.loop_cons, entries_whole, ih, List.map_cons]

/-- Whatever describes the program is passed over. -/
theorem ofSection_head {s : Section} (map : WrittenMap) {entryBytes : Bytes}
    (tabled : s.tableId = tableId) (body : s.body = map.head ++ entryBytes) :
    ofSection s = .ok ⟨s.extension, s.version, entries entryBytes⟩ := by
  rw [WrittenMap.head, toBigEndian_two, toBigEndian_two, List.append_assoc] at body
  have inside : map.info.length ≤ (map.info ++ entryBytes).length := by simp
  rw [ofSection, if_neg (not_not_intro tabled), body]
  simp only [List.cons_append, List.nil_append]
  rw [lengthOf_word map.infoReserved map.fits, if_pos inside, List.drop_left]

end MapTable

theorem registered_of_absent {pid : Nat} {entries : List StreamEntry}
    (absent : ∀ entry ∈ entries, entry.pid ≠ pid) : registered pid entries = none := by
  cases found : registered pid entries with
  | none => rfl
  | some streamType =>
    obtain ⟨entry, member, same, -⟩ := exists_entry_of_registered found
    exact absurd same (absent entry member)

theorem registered_of_last (before : List StreamEntry) {entry : StreamEntry}
    {after : List StreamEntry} (last : ∀ later ∈ after, later.pid ≠ entry.pid) :
    registered entry.pid (before ++ entry :: after) = some entry.streamType := by
  induction before with
  | nil => rw [List.nil_append, registered, registered_of_absent last, if_pos rfl, Option.none_or]
  | cons first before ih => rw [List.cons_append, registered, ih, Option.some_or]

/-- Behind its pointer and the bytes that it counts the packet holds all that was written. -/
def StartsSection (raw : Bytes) (pid : Nat) (written : Bytes) : Prop :=
  ∃ packet pointer skipped behind, Packet.parse raw = .ok packet ∧
    packet.header.transportError = false ∧ packet.header.unitStart = true ∧
    packet.header.pid = pid ∧ packet.payload = pointer :: (skipped ++ written ++ behind) ∧
    pointer.toNat = skipped.length

/-- A payload leaves room for the header, and only a packet with payload has one. -/
theorem payload_of_parse {raw : Bytes} {packet : Packet} (parsed : Packet.parse raw = .ok packet) :
    packet.payload.length ≤ 184 ∧ (packet.payload ≠ [] → packet.carriesPayload = true) := by
  unfold Packet.parse at parsed
  split at parsed
  · cases parsed
  · split at parsed
    · rename_i sync first second third fieldLength flags rest enough
      split at parsed
      · obtain rfl := Except.ok.inj parsed
        dsimp only [Packet.carriesPayload]
        cases present : (Header.ofBytes first second third).hasPayload with
        | false => exact ⟨Nat.zero_le _, fun some => absurd rfl some⟩
        | true =>
          constructor
          · have offset : 4 ≤ Packet.payloadOffset (Header.ofBytes first second third) fieldLength := by
              rw [Packet.payloadOffset]
              split <;> omega
            rw [if_pos rfl, length_slice (Nat.le_of_not_lt enough), packetSize]
            omega
          · intro some
            simpa using some
      · cases parsed
    · cases parsed

theorem carriesSection_of_starts {raw body : Bytes} {pid tableId extension version : Nat}
    (tableId_small : tableId < 256) (extension_small : extension < 0x10000)
    (version_small : version < 32)
    (starts : StartsSection raw pid (Section.encode tableId extension version body)) :
    CarriesSection raw pid (Section.written tableId extension version body) := by
  obtain ⟨packet, pointer, skipped, behind, parsed, intact, unitStart, same, payload, points⟩ := starts
  obtain ⟨short, carries⟩ := payload_of_parse parsed
  have size := Section.length_encode tableId extension version body
  have fits : body.length ≤ Section.maxBodyLength := by
    rw [payload] at short
    simp only [List.length_cons, List.length_append, size] at short
    rw [Section.maxBodyLength]
    omega
  refine ⟨packet, Section.encode tableId extension version body ++ behind, parsed, intact, unitStart,
    same, ?_, Section.parse_encode tableId_small extension_small version_small fits behind,
    Section.verifies_written behind⟩
  have inside : pointer.toNat <
      (skipped ++ Section.encode tableId extension version body ++ behind).length := by
    simp only [List.length_append, size]
    omega
  rw [Packet.sectionPayload?, if_pos (carries (by simp [payload])), if_pos unitStart, payload]
  dsimp only
  rw [if_pos inside, points, List.append_assoc, List.drop_left]

namespace Demux
variable {raw : Bytes} {extension : Fin 0x10000} {version : Fin 32}

/-- The association table that was written puts its map PIDs in force. -/
theorem read_written_association (d : Demux) {programs : List WrittenProgram}
    {program : WrittenProgram} (listed : program ∈ programs) (inhabited : program.number.val ≠ 0)
    (starts : StartsSection raw AssociationTable.tablePid
      (Section.encode AssociationTable.tableId extension version (programs.flatMap (·.bytes)))) :
    ∃ mapPids, d.read raw = (.ok none, { d with mapPids := mapPids }) ∧
      program.pid.val ∈ mapPids := by
  have member : program.entry ∈ (programs.map (·.entry)).filter fun entry =>
      decide (entry.number ≠ 0) :=
    List.mem_filter.mpr ⟨List.mem_map_of_mem listed, decide_eq_true inhabited⟩
  have onPid := carriesSection_of_starts (by decide) extension.isLt version.isLt starts
  have carried : CarriesAssociation raw _ := ⟨List.ne_nil_of_mem member, _, onPid,
    AssociationTable.ofSection_written rfl rfl⟩
  exact ⟨_, d.read_association carried, List.mem_map_of_mem member⟩

/-- The map table that was written gives each PID the type of its last entry. -/
theorem read_written_map {d : Demux} {map : WrittenMap} {mapPid : Nat} (apart : mapPid ≠ 0)
    (announced : mapPid ∈ d.mapPids)
    (starts : StartsSection raw mapPid
      (Section.encode MapTable.tableId extension version map.body)) :
    ∃ types, d.read raw = (.ok none, { d with streamTypes := types }) ∧
      (∀ before stream after, map.streams = before ++ stream :: after →
        (∀ later ∈ after, later.pid ≠ stream.pid) →
        types[stream.pid.val]? = some stream.streamType.toNat) ∧
      ∀ pid, (∀ stream ∈ map.streams, stream.pid.val ≠ pid) → types[pid]? = d.streamType? pid := by
  have onPid := carriesSection_of_starts (by decide) extension.isLt version.isLt starts
  have carried : CarriesMap raw mapPid ⟨extension, version, map.streams.map (·.entry)⟩ :=
    ⟨apart, _, onPid, by rw [MapTable.ofSection_head map rfl rfl, MapTable.entries_written]; rfl⟩
  obtain ⟨types, read, added⟩ := d.read_map carried announced
  refine ⟨types, read, ?_, ?_⟩
  · intro before stream after split last
    have later : ∀ later ∈ after.map (·.entry), later.pid ≠ stream.entry.pid := by
      intro later member
      obtain ⟨other, behind, rfl⟩ := List.mem_map.mp member
      exact fun same => last other behind (Fin.ext same)
    have found := registered_of_last (before.map (·.entry)) later
    rw [added, MapTable.streamType?, split, List.map_append, List.map_cons]
    exact congrArg (Option.or · _) found
  · intro pid absent
    have none : registered pid (map.streams.map (·.entry)) = none := by
      apply registered_of_absent
      intro entry member
      obtain ⟨stream, inside, rfl⟩ := List.mem_map.mp member
      exact absent stream inside
    rw [added, MapTable.streamType?, none, Option.none_or]

end Demux

/-- **Program tables survive encoding.** A section is read as it was written, with a check that holds,
whatever stands behind it. Of an association table every entry is read but those for program zero; of
a map table every entry, and when its entries are cut off anywhere those that end before the cut. A
demultiplexer that reads both tables gives a PID the type of the last entry for it, and what it knew of
the PIDs that are not listed stays. -/
theorem tables_survive_encoding :
    (∀ (tableId : Fin 256) (extension : Fin 0x10000) (version : Fin 32) (body behind : Bytes),
      body.length ≤ Section.maxBodyLength →
      let encoded := Section.encode tableId extension version body ++ behind
      ∃ s, Section.parse encoded = .ok s ∧ s.tableId = tableId ∧ s.extension = extension ∧
        s.version = version ∧ s.body = body ∧ s.verifies encoded = true) ∧
    (∀ (s : Section) (programs : List WrittenProgram), s.tableId = AssociationTable.tableId →
      s.body = programs.flatMap (·.bytes) →
      AssociationTable.ofSection s =
        .ok ⟨s.version, (programs.map (·.entry)).filter fun entry => decide (entry.number ≠ 0)⟩) ∧
    (∀ (s : Section) (map : WrittenMap), s.tableId = MapTable.tableId →
      (s.body = map.body →
        MapTable.ofSection s = .ok ⟨s.extension, s.version, map.streams.map (·.entry)⟩) ∧
      ∀ cut, s.body = map.head ++ (WrittenMap.loop map.streams).take cut →
        ∃ count, MapTable.ofSection s =
            .ok ⟨s.extension, s.version, (map.streams.take count).map (·.entry)⟩ ∧
          ∀ first ≤ map.streams.length,
            (first ≤ count ↔ (WrittenMap.loop (map.streams.take first)).length ≤ cut)) ∧
    ∀ (d : Demux) (announcing mapping : Bytes) (network number : Fin 0x10000)
      (version mapVersion : Fin 32) (programs : List WrittenProgram) (map : WrittenMap),
      ∀ program ∈ programs, program.number.val ≠ 0 → program.pid.val ≠ 0 →
      StartsSection announcing AssociationTable.tablePid
        (Section.encode AssociationTable.tableId network version (programs.flatMap (·.bytes))) →
      StartsSection mapping program.pid
        (Section.encode MapTable.tableId number mapVersion map.body) →
      ((d.read announcing).1 = .ok none ∧ (d.read announcing).2.streamTypes = d.streamTypes ∧
        program.pid.val ∈ (d.read announcing).2.mapPids) ∧
      ∀ e : Demux, program.pid.val ∈ e.mapPids →
        (e.read mapping).1 = .ok none ∧
        (∀ before stream after, map.streams = before ++ stream :: after →
          (∀ later ∈ after, later.pid ≠ stream.pid) →
          (e.read mapping).2.streamType? stream.pid = some stream.streamType.toNat) ∧
        ∀ pid, (∀ stream ∈ map.streams, stream.pid.val ≠ pid) →
          (e.read mapping).2.streamType? pid = e.streamType? pid := by
  refine ⟨?_, ?_, ?_, ?_⟩
  · intro tableId extension version body behind fits
    exact ⟨_, Section.parse_encode tableId.isLt extension.isLt version.isLt fits behind, rfl, rfl, rfl,
      rfl, Section.verifies_written behind⟩
  · intro s programs
    exact AssociationTable.ofSection_written
  · intro s map tabled
    constructor
    · intro body
      rw [MapTable.ofSection_head map tabled body, MapTable.entries_written]
    · intro cut body
      obtain ⟨count, read, counted⟩ := MapTable.entries_cut map.streams cut
      refine ⟨count, ?_, counted⟩
      rw [MapTable.ofSection_head map tabled body, read]
  · intro d announcing mapping network number version mapVersion programs map program listed inhabited
      apart announces maps
    obtain ⟨mapPids, read, announced⟩ := d.read_written_association listed inhabited announces
    refine ⟨by rw [read]; exact ⟨rfl, rfl, announced⟩, ?_⟩
    intro e announced
    obtain ⟨types, read, last, kept⟩ := Demux.read_written_map apart announced maps
    rw [read]
    exact ⟨rfl, last, kept⟩

namespace Sample

/-- Program 1, with its map table on PID `0x1000`. -/
def program : WrittenProgram := ⟨⟨1, by decide⟩, ⟨7, by decide⟩, ⟨0x1000, by decide⟩⟩

/-- The network's table and the program. -/
def writtenPrograms : List WrittenProgram :=
  [⟨⟨0, by decide⟩, ⟨7, by decide⟩, ⟨0x10, by decide⟩⟩, program]

/-- A stream on PID `0x100`. -/
def videoEntry (streamType : UInt8) : WrittenStream :=
  ⟨streamType, ⟨7, by decide⟩, ⟨0x100, by decide⟩, ⟨15, by decide⟩, [], by decide⟩

/-- A stream on PID `0x102` with an empty descriptor. -/
def telemetryEntry : WrittenStream :=
  ⟨0x15, ⟨7, by decide⟩, ⟨0x102, by decide⟩, ⟨15, by decide⟩, [0x05, 0x00], by decide⟩

/-- The first and the last entry are for one PID. -/
def writtenMap : WrittenMap :=
  ⟨⟨0xE100, by decide⟩, ⟨15, by decide⟩, [], by decide,
    [videoEntry 0x1B, telemetryEntry, videoEntry 0x24]⟩

/-- A packet whose pointer counts two bytes before what was written. -/
def behindPointer (pid : Nat) (written : Bytes) : Bytes :=
  syncByte :: UInt8.ofNat (64 + pid / 256) :: UInt8.ofNat pid :: 0x10 :: 2 ::
    ([0xFF, 0xFF] ++ written ++ List.replicate (181 - written.length) 0xFF)

theorem startsSection_behindPointer {pid : Nat} {written : Bytes}
    (parsed : Packet.parse (behindPointer pid written) = .ok ⟨⟨false, true, pid, 1, 0⟩, none,
      2 :: ([0xFF, 0xFF] ++ written ++ List.replicate (181 - written.length) 0xFF)⟩) :
    StartsSection (behindPointer pid written) pid written :=
  ⟨_, 2, [0xFF, 0xFF], _, parsed, rfl, rfl, rfl, rfl, rfl⟩

def announcing : Bytes :=
  behindPointer 0 (Section.encode 0 0 0 (writtenPrograms.flatMap (·.bytes)))

def mapping : Bytes := behindPointer 0x1000 (Section.encode 2 0 0 writtenMap.body)

/-- The last of the two entries counts, and a PID without one stays unknown. -/
theorem last_entry_counts :
    let announced := ((Demux.new true).read announcing).2
    let mapped := (announced.read mapping).2
    mapped.streamType? 0x100 = some 0x24 ∧ mapped.streamType? 0x102 = some 0x15 ∧
      mapped.streamType? 0x101 = announced.streamType? 0x101 := by
  have announces : StartsSection announcing AssociationTable.tablePid
      (Section.encode AssociationTable.tableId (0 : Fin 0x10000) (0 : Fin 32)
        (writtenPrograms.flatMap (·.bytes))) :=
    startsSection_behindPointer (by decide +kernel)
  have maps : StartsSection mapping program.pid
      (Section.encode MapTable.tableId (0 : Fin 0x10000) (0 : Fin 32) writtenMap.body) :=
    startsSection_behindPointer (by decide +kernel)
  obtain ⟨-, -, -, onPackets⟩ := tables_survive_encoding
  obtain ⟨⟨-, -, listed⟩, mapped⟩ := onPackets (Demux.new true) announcing mapping 0 0 0 0
    writtenPrograms writtenMap program (.tail _ (.head _)) (by decide) (by decide) announces maps
  obtain ⟨-, last, kept⟩ := mapped _ listed
  refine ⟨?_, ?_, ?_⟩
  · exact last [videoEntry 0x1B, telemetryEntry] (videoEntry 0x24) [] rfl nofun
  · exact last [videoEntry 0x1B] telemetryEntry [videoEntry 0x24] rfl (by decide)
  · exact kept 0x101 (by decide)

end Sample

end MotionImagery.Transport
