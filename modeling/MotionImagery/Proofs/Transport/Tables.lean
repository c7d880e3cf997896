import MotionImagery.Proofs.Transport.Reading

/-!
What reading a packet does to the tables. A packet carries a table when it starts a section on
the right PID whose check holds; such a packet puts its table in force, and no other packet
changes which tables are.
-/
namespace MotionImagery.Transport

/-- The packet starts this section on a PID, arrived whole, and the check holds. -/
def CarriesSection (raw : Bytes) (pid : Nat) (s : Section) : Prop :=
  ∃ packet data, Packet.parse raw = .ok packet ∧ packet.header.transportError = false ∧
    packet.header.unitStart = true ∧ packet.header.pid = pid ∧
    packet.sectionPayload? = some data ∧ Section.parse data = .ok s ∧ s.verifies data = true

/-- A stream without programs cannot be read, so its table does not count as one. -/
def CarriesAssociation (raw : Bytes) (table : AssociationTable) : Prop :=
  table.programs ≠ [] ∧ ∃ s, CarriesSection raw AssociationTable.tablePid s ∧
    AssociationTable.ofSection s = .ok table

instance decidableEqExcept {ε α : Type} [DecidableEq ε] [DecidableEq α] :
    DecidableEq (Except ε α)
  | .ok a, .ok b => decidable_of_iff (a = b) ⟨congrArg _, Except.ok.inj⟩
  | .error a, .error b => decidable_of_iff (a = b) ⟨congrArg _, Except.error.inj⟩
  | .ok _, .error _ => .isFalse nofun
  | .error _, .ok _ => .isFalse nofun

instance (raw : Bytes) (pid : Nat) (s : Section) : Decidable (CarriesSection raw pid s) :=
  match parsed : Packet.parse raw with
  | .error fault => .isFalse (by rintro ⟨packet, data, parsed', -⟩; simp [parsed] at parsed')
  | .ok packet =>
    match payload : packet.sectionPayload? with
    | none => .isFalse (by
        rintro ⟨_, data, parsed', -, -, -, payload', -⟩
        obtain rfl := Except.ok.inj (parsed.symm.trans parsed')
        simp [payload] at payload')
    | some data =>
      decidable_of_iff (packet.header.transportError = false ∧ packet.header.unitStart = true ∧
        packet.header.pid = pid ∧ Section.parse data = .ok s ∧ s.verifies data = true) (by
        constructor
        · rintro ⟨intact, starts, same, sectionParsed, verified⟩
          exact ⟨packet, data, parsed, intact, starts, same, payload, sectionParsed, verified⟩
        · rintro ⟨_, _, parsed', intact, starts, same, payload', sectionParsed, verified⟩
          obtain rfl := Except.ok.inj (parsed.symm.trans parsed')
          obtain rfl := Option.some.inj (payload.symm.trans payload')
          exact ⟨intact, starts, same, sectionParsed, verified⟩)

theorem carriesSection_pid {raw : Bytes} {packet : Packet} {pid : Nat} {s : Section}
    (carried : CarriesSection raw pid s) (parsed : Packet.parse raw = .ok packet) :
    packet.header.pid = pid := by
  obtain ⟨_, -, parsed', -, -, same, -⟩ := carried
  obtain rfl := Except.ok.inj (parsed.symm.trans parsed')
  exact same

/-- A packet carries at most one section, on one PID. -/
theorem carriesSection_unique {raw : Bytes} {pid pid' : Nat} {s s' : Section}
    (carried : CarriesSection raw pid s) (carried' : CarriesSection raw pid' s') :
    pid = pid' ∧ s = s' := by
  obtain ⟨packet, data, parsed, -, -, same, payload, sectionParsed, -⟩ := carried
  have same' := carriesSection_pid carried' parsed
  obtain ⟨_, _, parsed', -, -, -, payload', sectionParsed', -⟩ := carried'
  obtain rfl := Except.ok.inj (parsed.symm.trans parsed')
  obtain rfl := Option.some.inj (payload.symm.trans payload')
  exact ⟨same.symm.trans same', Except.ok.inj (sectionParsed.symm.trans sectionParsed')⟩

/-- A packet that starts a section on a PID and is filled up behind it. -/
def wrapSection (pid : Nat) (written : Bytes) : Bytes :=
  syncByte :: UInt8.ofNat (64 + pid / 256) :: UInt8.ofNat pid :: 0x10 :: 0 ::
    (written ++ List.replicate (183 - written.length) 0xFF)

def CarriesMap (raw : Bytes) (pid : Nat) (table : MapTable) : Prop :=
  pid ≠ AssociationTable.tablePid ∧ ∃ s, CarriesSection raw pid s ∧ MapTable.ofSection s = .ok table

theorem carriesAssociation_unique {raw : Bytes} {table table' : AssociationTable}
    (carried : CarriesAssociation raw table) (carried' : CarriesAssociation raw table') :
    table = table' := by
  obtain ⟨-, s, onPid, tabled⟩ := carried
  obtain ⟨-, s', onPid', tabled'⟩ := carried'
  obtain rfl := (carriesSection_unique onPid onPid').2
  exact Except.ok.inj (tabled.symm.trans tabled')

theorem carriesMap_unique {raw : Bytes} {pid pid' : Nat} {table table' : MapTable}
    (carried : CarriesMap raw pid table) (carried' : CarriesMap raw pid' table') :
    pid = pid' ∧ table = table' := by
  obtain ⟨-, s, onPid, tabled⟩ := carried
  obtain ⟨-, s', onPid', tabled'⟩ := carried'
  obtain ⟨rfl, rfl⟩ := carriesSection_unique onPid onPid'
  exact ⟨rfl, Except.ok.inj (tabled.symm.trans tabled')⟩

/-- The stream type of a PID in a list of entries; its last entry counts. -/
def registered (pid : Nat) : List StreamEntry → Option Nat
  | [] => none
  | entry :: rest =>
    (registered pid rest).or (if entry.pid = pid then some entry.streamType else none)

def MapTable.streamType? (table : MapTable) (pid : Nat) : Option Nat := registered pid table.streams

theorem pidOf_lt (high low : UInt8) : pidOf high low < 8192 := by
  have := low.toNat_lt
  simp only [pidOf]
  omega

theorem entry_pid_lt (body : Bytes) : ∀ entry ∈ MapTable.entries body, entry.pid < 8192 := by
  fun_induction MapTable.entries body with
  | case1 streamType pidHigh pidLow lengthHigh lengthLow rest described fits ih =>
    intro entry member
    obtain rfl | later := List.mem_cons.mp member
    · exact pidOf_lt pidHigh pidLow
    · exact ih entry later
  | case2 => simp
  | case3 => simp

theorem exists_entry_of_registered {pid streamType : Nat} {entries : List StreamEntry}
    (found : registered pid entries = some streamType) :
    ∃ entry ∈ entries, entry.pid = pid ∧ entry.streamType = streamType := by
  induction entries with
  | nil => simp [registered] at found
  | cons entry rest ih =>
    rw [registered, Option.or_eq_some_iff] at found
    obtain later | ⟨-, here⟩ := found
    · obtain ⟨other, member, same⟩ := ih later
      exact ⟨other, List.mem_cons_of_mem _ member, same⟩
    · by_cases same : entry.pid = pid
      · rw [if_pos same] at here
        exact ⟨entry, List.mem_cons_self, same, Option.some.inj here⟩
      · simp [same] at here

theorem pid_lt_of_streamType {raw : Bytes} {mapPid pid streamType : Nat} {table : MapTable}
    (carried : CarriesMap raw mapPid table) (found : table.streamType? pid = some streamType) :
    pid < 8192 := by
  obtain ⟨entry, member, rfl, -⟩ := exists_entry_of_registered found
  obtain ⟨-, s, -, parsed⟩ := carried
  unfold MapTable.ofSection at parsed
  split at parsed
  · cases parsed
  · split at parsed
    · dsimp only at parsed
      split at parsed
      · cases parsed
        exact entry_pid_lt _ entry member
      · cases parsed
    · cases parsed

namespace Demux

theorem getElem?_register (entries : List StreamEntry) (types : Std.ExtTreeMap Nat Nat)
    (pid : Nat) : (register types entries)[pid]? = (registered pid entries).or types[pid]? := by
  induction entries generalizing types with
  | nil => rfl
  | cons entry rest ih =>
    rw [register, List.foldl_cons, ← register, ih, Std.ExtTreeMap.getElem?_insert, registered,
      Option.or_assoc]
    by_cases same : entry.pid = pid
    · simp [same]
    · simp [same]

theorem takes_of_carriesSection (d : Demux) {raw : Bytes} {pid : Nat} {s : Section}
    {packet : Packet} (carried : CarriesSection raw pid s) (parsed : Packet.parse raw = .ok packet) :
    d.Takes packet s := by
  obtain ⟨_, data, parsed', -, -, -, payload, sectionParsed, verified⟩ := carried
  obtain rfl := Except.ok.inj (parsed.symm.trans parsed')
  exact ⟨data, payload, sectionParsed, fun _ => verified⟩

/-- A packet with an association table replaces the map PIDs. -/
theorem read_association (d : Demux) {raw : Bytes} {table : AssociationTable}
    (carried : CarriesAssociation raw table) :
    d.read raw = (.ok none, { d with mapPids := table.mapPids }) := by
  obtain ⟨inhabited, s, onPid, tabled⟩ := carried
  obtain ⟨packet, -, parsed, intact, starts, pid, -⟩ := id onPid
  have due : d.Due raw packet := ⟨parsed, intact, starts, .inl pid⟩
  rw [read_association_due due pid, readAssociation,
    readSection_of_takes (d.takes_of_carriesSection onPid parsed)]
  simp [settle, tabled, inhabited, bind, Except.bind, pure, Except.pure]

/-- A packet with a map table adds its stream types. -/
theorem read_map (d : Demux) {raw : Bytes} {pid : Nat} {table : MapTable}
    (carried : CarriesMap raw pid table) (listed : pid ∈ d.mapPids) :
    ∃ types : Std.ExtTreeMap Nat Nat, d.read raw = (.ok none, { d with streamTypes := types }) ∧
      ∀ other, types[other]? = (table.streamType? other).or (d.streamType? other) := by
  obtain ⟨apart, s, onPid, tabled⟩ := carried
  obtain ⟨packet, -, parsed, intact, starts, same, -⟩ := id onPid
  subst same
  have due : d.Due raw packet := ⟨parsed, intact, starts, .inr listed⟩
  refine ⟨_, ?_, getElem?_register table.streams d.streamTypes⟩
  rw [read_map_due due apart, readMap,
    readSection_of_takes (d.takes_of_carriesSection onPid parsed)]
  simp [settle, tabled, register, bind, Except.bind, pure, Except.pure]

theorem carriesSection_of_takes {d : Demux} (verified : d.verifyCheck = true) {raw : Bytes}
    {packet : Packet} {s : Section} (due : d.Due raw packet) (takes : d.Takes packet s) :
    CarriesSection raw packet.header.pid s := by
  obtain ⟨parsed, intact, starts, -⟩ := due
  obtain ⟨data, payload, sectionParsed, holds⟩ := takes
  exact ⟨packet, data, parsed, intact, starts, rfl, payload, sectionParsed, holds verified⟩

/-- What reading a packet does to the tables when checks are verified. -/
inductive Effect (d : Demux) (raw : Bytes) :
    Except DemuxError (Option ElementaryUnit) → Demux → Prop
  | refused (error : DemuxError) : Effect d raw (.error error) d
  | passed : Effect d raw (.ok none) d
  | flagged : Effect d raw (.ok none) { d with lostPackets := d.lostPackets + 1 }
  | association (table : AssociationTable) (carried : CarriesAssociation raw table) :
      Effect d raw (.ok none) { d with mapPids := table.mapPids }
  | map (pid : Nat) (table : MapTable) (types : Std.ExtTreeMap Nat Nat)
      (carried : CarriesMap raw pid table) (listed : pid ∈ d.mapPids)
      (added : ∀ other, types[other]? = (table.streamType? other).or (d.streamType? other)) :
      Effect d raw (.ok none) { d with streamTypes := types }
  | payload (packet : Packet) (streamType : Nat) (parsed : Packet.parse raw = .ok packet)
      (intact : packet.header.transportError = false) (carries : packet.carriesPayload = true)
      (known : d.streamType? packet.header.pid = some streamType) :
      Effect d raw (.ok (d.readPayload streamType packet).1) (d.readPayload streamType packet).2

/-- There is nothing else that a read does when checks are verified. -/
theorem read_effect {d : Demux} (verified : d.verifyCheck = true) (raw : Bytes) :
    Effect d raw (d.read raw).1 (d.read raw).2 := by
  have outcome := d.reading raw
  generalize (d.read raw).1 = answer, (d.read raw).2 = next at outcome ⊢
  cases outcome with
  | refused error => exact .refused error
  | unverified => exact .passed
  | association packet s table due pid takes tabled inhabited =>
    exact .association table
      ⟨inhabited, s, pid ▸ carriesSection_of_takes verified due takes, tabled⟩
  | map packet s table due apart takes tabled =>
    exact .map packet.header.pid table _
      ⟨apart, s, carriesSection_of_takes verified due takes, tabled⟩ (due.place.resolve_left apart)
      (getElem?_register table.streams d.streamTypes)
  | plain packet _ _ parsed _ plain =>
    cases plain with
    | flagged => exact .flagged
    | passed => exact .passed
    | payload streamType intact carries known =>
      exact .payload packet streamType parsed intact carries known

end Demux

/-! One program with a video stream on PID `0x100` and a telemetry stream on PID `0x102`. -/
namespace Sample

def association : AssociationTable := ⟨0, [⟨1, 0x1000⟩]⟩

def map : MapTable := ⟨1, 0, [⟨0x1B, 0x100⟩, ⟨0x15, 0x102⟩]⟩

def pat : Bytes := wrapSection 0 (Section.encode 0 1 0 [0x00, 0x01, 0xF0, 0x00])

def pmt : Bytes :=
  wrapSection 0x1000 (Section.encode 2 1 0
    [0xE1, 0x00, 0xF0, 0x00, 0x1B, 0xE1, 0x00, 0xF0, 0x00, 0x15, 0xE1, 0x02, 0xF0, 0x00])

theorem pat_announces : CarriesAssociation pat association := by
  have carried : CarriesSection pat 0 ⟨0, true, 13, 1, 0, true, [0x00, 0x01, 0xF0, 0x00],
      0x2AB104B2⟩ := by decide +kernel
  exact ⟨by decide, _, carried, by decide +kernel⟩

theorem pmt_maps : CarriesMap pmt 0x1000 map := by
  have carried : CarriesSection pmt 0x1000 ⟨2, true, 23, 1, 0, true,
      [0xE1, 0x00, 0xF0, 0x00, 0x1B, 0xE1, 0x00, 0xF0, 0x00, 0x15, 0xE1, 0x02, 0xF0, 0x00],
      0x7D0C8A02⟩ := by decide +kernel
  exact ⟨by decide, _, carried, by decide +kernel⟩

theorem listed : 0x1000 ∈ association.mapPids := by decide

theorem streamType_cases {pid streamType : Nat} (known : map.streamType? pid = some streamType) :
    pid = 0x100 ∧ streamType = 0x1B ∨ pid = 0x102 ∧ streamType = 0x15 := by
  obtain ⟨entry, member, rfl, rfl⟩ := exists_entry_of_registered known
  revert entry
  decide

end Sample

end MotionImagery.Transport
