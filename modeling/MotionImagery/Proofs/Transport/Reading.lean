import MotionImagery.Transport.Demux

/-!
Everything that reading one packet can do, whether checks are verified or not. A packet is refused
only for a cause that it shows, and then nothing has changed; a table that is taken changes the tables
alone, and a payload moves what is kept for its PID.
-/
namespace MotionImagery.Transport.Demux

/-- The packet arrived whole and starts a section on the PID of a table. -/
structure Due (d : Demux) (raw : Bytes) (packet : Packet) : Prop where
  parsed : Packet.parse raw = .ok packet
  intact : packet.header.transportError = false
  starts : packet.header.unitStart = true
  place : packet.header.pid = AssociationTable.tablePid ∨ packet.header.pid ∈ d.mapPids

/-- The packet has this section, and its check holds if it is looked at. -/
def Takes (d : Demux) (packet : Packet) (s : Section) : Prop :=
  ∃ data, packet.sectionPayload? = some data ∧ Section.parse data = .ok s ∧
    (d.verifyCheck = true → s.verifies data = true)

/-- The check of the packet's section is looked at and does not hold. -/
def FailsCheck (d : Demux) (packet : Packet) : Prop :=
  d.verifyCheck = true ∧ ∃ data s, packet.sectionPayload? = some data ∧
    Section.parse data = .ok s ∧ s.verifies data = false

/-- Why no section can be read from a packet. -/
inductive SectionRefusal (packet : Packet) : TablePacketFault → Prop
  | missing (payload : packet.sectionPayload? = none) : SectionRefusal packet .missingPayload
  | malformed (data : Bytes) (fault : SectionFault) (payload : packet.sectionPayload? = some data)
      (failed : Section.parse data = .error fault) : SectionRefusal packet (.badSection fault)

/-- Why a packet brings no table though one is due. -/
inductive TableRefusal (d : Demux) (packet : Packet) : TablePacketFault → Prop
  | unreadable (fault : TablePacketFault) (cause : SectionRefusal packet fault) :
      TableRefusal d packet fault
  | notAssociation (s : Section) (fault : TableFault)
      (pid : packet.header.pid = AssociationTable.tablePid) (takes : d.Takes packet s)
      (failed : AssociationTable.ofSection s = .error fault) : TableRefusal d packet (.badTable fault)
  | notMap (s : Section) (fault : TableFault)
      (apart : packet.header.pid ≠ AssociationTable.tablePid) (takes : d.Takes packet s)
      (failed : MapTable.ofSection s = .error fault) : TableRefusal d packet (.badTable fault)

/-- Why a read fails. -/
inductive Refusal (d : Demux) (raw : Bytes) : DemuxError → Prop
  | packet (fault : PacketFault) (failed : Packet.parse raw = .error fault) :
      Refusal d raw (.invalidPacket fault)
  | table (packet : Packet) (fault : TablePacketFault) (due : d.Due raw packet)
      (cause : TableRefusal d packet fault) : Refusal d raw (.invalidTable packet.header.pid fault)
  | programs (packet : Packet) (s : Section) (table : AssociationTable) (due : d.Due raw packet)
      (pid : packet.header.pid = AssociationTable.tablePid) (takes : d.Takes packet s)
      (tabled : AssociationTable.ofSection s = .ok table) (empty : table.programs = []) :
      Refusal d raw .emptyProgramList

/-- What can come of a section being due. -/
inductive SectionRead (d : Demux) (packet : Packet) : Except DemuxError (Option Section) → Prop
  | refused (fault : TablePacketFault) (cause : SectionRefusal packet fault) :
      SectionRead d packet (.error (.invalidTable packet.header.pid fault))
  | unverified (fails : d.FailsCheck packet) : SectionRead d packet (.ok none)
  | taken (s : Section) (takes : d.Takes packet s) : SectionRead d packet (.ok (some s))

theorem sectionRead (d : Demux) (packet : Packet) : SectionRead d packet (d.readSection packet) := by
  unfold readSection
  dsimp only
  split
  · rename_i payload
    exact .refused _ (.missing payload)
  · rename_i data payload
    split
    · rename_i fault failed
      exact .refused _ (.malformed data fault payload failed)
    · rename_i s parsed
      split
      · rename_i fails
        obtain ⟨verified, fails⟩ := (Bool.and_eq_true _ _).mp fails
        exact .unverified ⟨verified, data, s, payload, parsed, by simpa using fails⟩
      · rename_i holds
        exact .taken s ⟨data, payload, parsed, fun verified => by simpa [verified] using holds⟩

theorem readSection_of_refusal (d : Demux) {packet : Packet} {fault : TablePacketFault}
    (cause : SectionRefusal packet fault) :
    d.readSection packet = .error (.invalidTable packet.header.pid fault) := by
  cases cause with
  | missing payload => simp [readSection, payload]
  | malformed data fault payload failed => simp [readSection, payload, failed]

theorem readSection_of_takes {d : Demux} {packet : Packet} {s : Section}
    (takes : d.Takes packet s) : d.readSection packet = .ok (some s) := by
  obtain ⟨data, payload, parsed, verified⟩ := takes
  cases check : d.verifyCheck with
  | false => simp [readSection, payload, parsed, check]
  | true => simp [readSection, payload, parsed, verified check]

theorem readSection_of_failsCheck {d : Demux} {packet : Packet} (fails : d.FailsCheck packet) :
    d.readSection packet = .ok none := by
  obtain ⟨verified, data, s, payload, parsed, fails⟩ := fails
  simp [readSection, payload, parsed, verified, fails]

/-- What becomes of the outcome of reading a table. -/
def settle (d : Demux) (read : Except DemuxError Demux) :
    Except DemuxError (Option ElementaryUnit) × Demux :=
  match read with
  | .error error => (.error error, d)
  | .ok next => (.ok none, next)

/-- The stream types of a map table among those known before. -/
def register (types : Std.ExtTreeMap Nat Nat) (entries : List StreamEntry) :
    Std.ExtTreeMap Nat Nat :=
  entries.foldl (fun types entry => types.insert entry.pid entry.streamType) types

section
variable {d : Demux} {raw : Bytes} {packet : Packet} (due : d.Due raw packet)
include due

theorem read_association_due (pid : packet.header.pid = AssociationTable.tablePid) :
    d.read raw = d.settle (d.readAssociation packet) := by
  obtain ⟨parsed, intact, starts, -⟩ := due
  simp only [Demux.read, parsed, readPacket, intact, starts, pid, and_self, Bool.false_eq_true,
    ↓reduceIte]
  rfl

theorem read_map_due (apart : packet.header.pid ≠ AssociationTable.tablePid) :
    d.read raw = d.settle (d.readMap packet) := by
  obtain ⟨parsed, intact, starts, place⟩ := due
  have listed := place.resolve_left apart
  simp only [Demux.read, parsed, readPacket, intact, starts, apart, listed, and_self, false_and,
    Bool.false_eq_true, ↓reduceIte]
  rfl

end

/-- What a packet does where no table is due. -/
inductive PlainReading (d : Demux) (packet : Packet) :
    Except DemuxError (Option ElementaryUnit) → Demux → Prop
  | flagged (marked : packet.header.transportError = true) :
      PlainReading d packet (.ok none) { d with lostPackets := d.lostPackets + 1 }
  | passed (intact : packet.header.transportError = false)
      (idle : d.streamType? packet.header.pid = none ∨ packet.carriesPayload = false) :
      PlainReading d packet (.ok none) d
  | payload (streamType : Nat) (intact : packet.header.transportError = false)
      (carries : packet.carriesPayload = true)
      (known : d.streamType? packet.header.pid = some streamType) :
      PlainReading d packet (.ok (d.readPayload streamType packet).1)
        (d.readPayload streamType packet).2

/-- Everything that reading a packet can do. -/
inductive Reading (d : Demux) (raw : Bytes) :
    Except DemuxError (Option ElementaryUnit) → Demux → Prop
  | refused (error : DemuxError) (cause : d.Refusal raw error) : Reading d raw (.error error) d
  | unverified (packet : Packet) (due : d.Due raw packet) (fails : d.FailsCheck packet) :
      Reading d raw (.ok none) d
  | association (packet : Packet) (s : Section) (table : AssociationTable) (due : d.Due raw packet)
      (pid : packet.header.pid = AssociationTable.tablePid) (takes : d.Takes packet s)
      (tabled : AssociationTable.ofSection s = .ok table) (inhabited : table.programs ≠ []) :
      Reading d raw (.ok none) { d with mapPids := table.mapPids }
  | map (packet : Packet) (s : Section) (table : MapTable) (due : d.Due raw packet)
      (apart : packet.header.pid ≠ AssociationTable.tablePid) (takes : d.Takes packet s)
      (tabled : MapTable.ofSection s = .ok table) :
      Reading d raw (.ok none) { d with streamTypes := register d.streamTypes table.streams }
  | plain (packet : Packet) (outcome : Except DemuxError (Option ElementaryUnit)) (next : Demux)
      (parsed : Packet.parse raw = .ok packet) (other : ¬d.Due raw packet)
      (plain : PlainReading d packet outcome next) : Reading d raw outcome next

section
variable {d : Demux} {raw : Bytes} {packet : Packet}

theorem reading_association_due (due : d.Due raw packet)
    (pid : packet.header.pid = AssociationTable.tablePid) :
    Reading d raw (d.read raw).1 (d.read raw).2 := by
  rw [read_association_due due pid, readAssociation]
  have outcome := d.sectionRead packet
  generalize d.readSection packet = read at outcome
  cases outcome with
  | refused fault cause => exact .refused _ (.table packet fault due (.unreadable fault cause))
  | unverified fails => exact .unverified packet due fails
  | taken s takes =>
    simp only [bind, Except.bind]
    cases tabled : AssociationTable.ofSection s with
    | error fault => exact .refused _ (.table packet _ due (.notAssociation s fault pid takes tabled))
    | ok table =>
      by_cases inhabited : table.programs = []
      · simp only [List.isEmpty_iff, if_pos inhabited]
        exact .refused _ (.programs packet s table due pid takes tabled inhabited)
      · simp only [List.isEmpty_iff, if_neg inhabited]
        exact .association packet s table due pid takes tabled inhabited

theorem reading_map_due (due : d.Due raw packet)
    (apart : packet.header.pid ≠ AssociationTable.tablePid) :
    Reading d raw (d.read raw).1 (d.read raw).2 := by
  rw [read_map_due due apart, readMap]
  have outcome := d.sectionRead packet
  generalize d.readSection packet = read at outcome
  cases outcome with
  | refused fault cause => exact .refused _ (.table packet fault due (.unreadable fault cause))
  | unverified fails => exact .unverified packet due fails
  | taken s takes =>
    simp only [bind, Except.bind]
    cases tabled : MapTable.ofSection s with
    | error fault => exact .refused _ (.table packet _ due (.notMap s fault apart takes tabled))
    | ok table => exact .map packet s table due apart takes tabled

theorem plainReading (parsed : Packet.parse raw = .ok packet) (other : ¬d.Due raw packet) :
    PlainReading d packet (d.read raw).1 (d.read raw).2 := by
  simp only [Demux.read, parsed, readPacket]
  cases flag : packet.header.transportError with
  | true => exact .flagged flag
  | false =>
    rw [if_neg Bool.false_ne_true,
      if_neg fun due => other ⟨parsed, flag, due.2, .inl due.1⟩,
      if_neg fun due => other ⟨parsed, flag, due.2, .inr due.1⟩]
    cases known : d.streamType? packet.header.pid with
    | none => exact .passed flag (.inl known)
    | some streamType =>
      cases carries : packet.carriesPayload with
      | false => exact .passed flag (.inr carries)
      | true => exact .payload streamType flag carries known

end

/-- There is nothing else that a read does. -/
theorem reading (d : Demux) (raw : Bytes) : Reading d raw (d.read raw).1 (d.read raw).2 := by
  cases parsed : Packet.parse raw with
  | error fault => simpa [Demux.read, parsed] using .refused _ (.packet fault parsed)
  | ok packet =>
    by_cases due : d.Due raw packet
    · by_cases pid : packet.header.pid = AssociationTable.tablePid
      · exact reading_association_due due pid
      · exact reading_map_due due pid
    · exact .plain packet _ _ parsed due (plainReading parsed due)

/-- A read that fails has such a cause, and nothing changes. -/
theorem refusal_of_read {d : Demux} {raw : Bytes} {error : DemuxError}
    (failed : (d.read raw).1 = .error error) : d.Refusal raw error ∧ (d.read raw).2 = d := by
  have outcome := d.reading raw
  generalize (d.read raw).1 = answer, (d.read raw).2 = next at failed outcome ⊢
  subst failed
  cases outcome with
  | refused _ cause => exact ⟨cause, rfl⟩
  | plain _ _ _ _ _ plain => cases plain

/-- What shows such a cause is refused for it. -/
theorem read_of_refusal {d : Demux} {raw : Bytes} {error : DemuxError}
    (cause : d.Refusal raw error) : d.read raw = (.error error, d) := by
  cases cause with
  | packet fault failed => simp only [Demux.read, failed]
  | table packet fault due cause =>
    cases cause with
    | unreadable _ cause =>
      by_cases pid : packet.header.pid = AssociationTable.tablePid
      · rw [read_association_due due pid, readAssociation, d.readSection_of_refusal cause]
        rfl
      · rw [read_map_due due pid, readMap, d.readSection_of_refusal cause]
        rfl
    | notAssociation s fault pid takes failed =>
      rw [read_association_due due pid, readAssociation, readSection_of_takes takes]
      simp [settle, failed, bind, Except.bind]
    | notMap s fault apart takes failed =>
      rw [read_map_due due apart, readMap, readSection_of_takes takes]
      simp [settle, failed, bind, Except.bind]
  | programs packet s table due pid takes tabled empty =>
    rw [read_association_due due pid, readAssociation, readSection_of_takes takes]
    simp [settle, tabled, empty, bind, Except.bind]

/-- A section whose check fails is left aside. -/
theorem read_unverified {d : Demux} {raw : Bytes} {packet : Packet} (due : d.Due raw packet)
    (fails : d.FailsCheck packet) : d.read raw = (.ok none, d) := by
  by_cases pid : packet.header.pid = AssociationTable.tablePid
  · rw [read_association_due due pid, readAssociation, readSection_of_failsCheck fails]
    rfl
  · rw [read_map_due due pid, readMap, readSection_of_failsCheck fails]
    rfl

end MotionImagery.Transport.Demux
