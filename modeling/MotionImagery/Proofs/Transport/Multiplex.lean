import MotionImagery.Proofs.Transport.Sending

/-!
Many PIDs in one stream whose tables stay the same. Every packet either leaves all lanes as they
are or moves the one lane it arrives on, so a run over the stream is, PID by PID, a run of the
lane over what arrives there.
-/
namespace MotionImagery.Transport

namespace Demux

/-- One packet after the other, with what every read gives. -/
def readAll (d : Demux) : List Bytes → List (Except DemuxError (Option ElementaryUnit)) × Demux
  | [] => ([], d)
  | raw :: rest =>
    let (outcome, next) := d.read raw
    let (outcomes, last) := next.readAll rest
    (outcome :: outcomes, last)

end Demux

theorem Demux.readAll_append (d : Demux) (before after : List Bytes) :
    d.readAll (before ++ after) =
      ((d.readAll before).1 ++ ((d.readAll before).2.readAll after).1,
        ((d.readAll before).2.readAll after).2) := by
  induction before generalizing d with
  | nil => rfl
  | cons raw rest ih => simp only [List.cons_append, readAll, ih]

/-- The units among what reads give, in order. -/
def unitsOf (outcomes : List (Except DemuxError (Option ElementaryUnit))) : List ElementaryUnit :=
  outcomes.flatMap fun
    | .ok unit => unit.toList
    | .error _ => []

/-- Whether the packet is marked as damaged on the way. -/
def isFlagged (raw : Bytes) : Bool :=
  match Packet.parse raw with
  | .ok packet => packet.header.transportError
  | .error _ => false

section
variable (association : AssociationTable) (mapPid : Nat) (map : MapTable)

/-- What may travel besides units when the tables stay the same: marked packets, the tables
again, and packets that do not start anything on the PID of a table. -/
inductive Traffic (raw : Bytes) : Prop where
  | flagged (marked : isFlagged raw = true)
  | association (carried : CarriesAssociation raw association)
  | map (carried : CarriesMap raw mapPid map)
  | other (packet : Packet) (parsed : Packet.parse raw = .ok packet)
      (apart : packet.header.unitStart = true →
        packet.header.pid ≠ AssociationTable.tablePid ∧ packet.header.pid ∉ association.mapPids)

structure InForce (d : Demux) : Prop where
  mapPids : d.mapPids = association.mapPids
  streamTypes : ∀ pid, d.streamType? pid = map.streamType? pid

/-- No table travels on the PID of an elementary stream. -/
def Apart : Prop :=
  ∀ pid streamType, map.streamType? pid = some streamType →
    pid ≠ AssociationTable.tablePid ∧ pid ∉ association.mapPids

theorem Sample.apart : Apart Sample.association Sample.map := by
  intro pid streamType known
  obtain ⟨rfl, -⟩ | ⟨rfl, -⟩ := Sample.streamType_cases known <;> decide

/-- What becomes of such traffic while the tables are in force. -/
inductive Passage (d : Demux) (raw : Bytes) :
    Except DemuxError (Option ElementaryUnit) → Demux → Prop
  | flagged (marked : isFlagged raw = true) :
      Passage d raw (.ok none) { d with lostPackets := d.lostPackets + 1 }
  | quiet (next : Demux) (force : InForce association map next) (lanes : next.lane = d.lane)
      (lost : next.lostPackets = d.lostPackets) (unmarked : isFlagged raw = false)
      (absent : ∀ pid streamType, map.streamType? pid = some streamType →
        arriving? pid raw = none) :
      Passage d raw (.ok none) next
  | payload (packet : Packet) (streamType : Nat)
      (arrives : arriving? packet.header.pid raw = some packet)
      (known : map.streamType? packet.header.pid = some streamType) :
      Passage d raw (.ok (d.readPayload streamType packet).1) (d.readPayload streamType packet).2

end

theorem isFlagged_of_arriving {pid : Nat} {raw : Bytes} {packet : Packet}
    (arrives : arriving? pid raw = some packet) : isFlagged raw = false := by
  obtain ⟨parsed, intact, -⟩ := arriving?_eq_some.mp arrives
  simp [isFlagged, parsed, intact]

theorem arriving_of_flagged {raw : Bytes} (marked : isFlagged raw = true) (pid : Nat) :
    arriving? pid raw = none := by
  cases arrives : arriving? pid raw with
  | none => rfl
  | some packet => simp [isFlagged_of_arriving arrives] at marked

section
variable {association : AssociationTable} {mapPid : Nat} {map : MapTable}

/-- A section on the PID of a table does not arrive on any lane. -/
theorem quiet_of_section {raw : Bytes} {tablePid : Nat} {s : Section}
    (apart : Apart association map) (onPid : CarriesSection raw tablePid s)
    (table : tablePid = AssociationTable.tablePid ∨ tablePid ∈ association.mapPids) :
    isFlagged raw = false ∧
      ∀ pid streamType, map.streamType? pid = some streamType → arriving? pid raw = none := by
  obtain ⟨packet, data, parsed, intact, -, same, -⟩ := onPid
  refine ⟨by simp [isFlagged, parsed, intact], ?_⟩
  intro pid streamType known
  cases arrives : arriving? pid raw with
  | none => rfl
  | some other =>
    obtain ⟨parsed', -, same', -⟩ := arriving?_eq_some.mp arrives
    obtain rfl := Except.ok.inj (parsed.symm.trans parsed')
    obtain ⟨notFirst, notListed⟩ := apart pid streamType known
    rw [← same', same] at notFirst notListed
    exact absurd table (by simp [notFirst, notListed])

theorem read_of_flagged (d : Demux) {raw : Bytes} (marked : isFlagged raw = true) :
    d.read raw = (.ok none, { d with lostPackets := d.lostPackets + 1 }) := by
  unfold isFlagged at marked
  split at marked
  · rename_i packet parsed
    simp [Demux.read, Demux.readPacket, parsed, marked]
  · cases marked

theorem passage_other {d : Demux} (force : InForce association map d) {raw : Bytes}
    {packet : Packet} (parsed : Packet.parse raw = .ok packet)
    (intact : packet.header.transportError = false)
    (outside : packet.header.unitStart = true →
      packet.header.pid ≠ AssociationTable.tablePid ∧ packet.header.pid ∉ association.mapPids) :
    Passage association map d raw (d.read raw).1 (d.read raw).2 := by
  have unmarked : isFlagged raw = false := by simp [isFlagged, parsed, intact]
  have other : ¬d.Due raw packet := fun due =>
    due.place.elim (outside due.starts).1 fun listed =>
      (outside due.starts).2 (force.mapPids ▸ listed)
  have reading := Demux.plainReading parsed other
  generalize (d.read raw).1 = outcome, (d.read raw).2 = next at reading ⊢
  cases reading with
  | flagged marked =>
    rw [intact] at marked
    cases marked
  | passed _ idle =>
    refine .quiet d force rfl rfl unmarked fun pid streamType registered => ?_
    cases arrives : arriving? pid raw with
    | none => rfl
    | some found =>
      obtain ⟨parsed', -, rfl, carries⟩ := arriving?_eq_some.mp arrives
      obtain rfl := Except.ok.inj (parsed.symm.trans parsed')
      obtain unknown | empty := idle
      · rw [force.streamTypes, registered] at unknown
        cases unknown
      · rw [carries] at empty
        cases empty
  | payload streamType _ carries known =>
    rw [force.streamTypes] at known
    exact .payload packet streamType (arriving?_eq_some.mpr ⟨parsed, intact, rfl, carries⟩) known

theorem read_passage {d : Demux} (force : InForce association map d)
    (apart : Apart association map) (listed : mapPid ∈ association.mapPids) {raw : Bytes}
    (traffic : Traffic association mapPid map raw) :
    Passage association map d raw (d.read raw).1 (d.read raw).2 := by
  cases traffic with
  | flagged marked =>
    rw [read_of_flagged d marked]
    exact .flagged marked
  | association carried =>
    rw [d.read_association carried]
    obtain ⟨-, s, onPid, -⟩ := carried
    obtain ⟨unmarked, absent⟩ := quiet_of_section apart onPid (.inl rfl)
    exact .quiet _ ⟨rfl, force.streamTypes⟩ rfl rfl unmarked absent
  | map carried =>
    obtain ⟨types, read, added⟩ := d.read_map carried (force.mapPids ▸ listed)
    rw [read]
    obtain ⟨-, s, onPid, -⟩ := carried
    obtain ⟨unmarked, absent⟩ := quiet_of_section apart onPid (.inr listed)
    refine .quiet _ ⟨force.mapPids, fun pid => ?_⟩ rfl rfl unmarked absent
    rw [Demux.streamType?, added, force.streamTypes]
    cases map.streamType? pid <;> rfl
  | other packet parsed outside =>
    cases flagged : packet.header.transportError with
    | true =>
      have marked : isFlagged raw = true := by simp [isFlagged, parsed, flagged]
      rw [read_of_flagged d marked]
      exact .flagged marked
    | false => exact passage_other force parsed flagged outside

theorem Passage.ok {d next : Demux} {raw : Bytes}
    {outcome : Except DemuxError (Option ElementaryUnit)}
    (passage : Passage association map d raw outcome next) : ∃ unit, outcome = .ok unit := by
  cases passage <;> exact ⟨_, rfl⟩

theorem Passage.inForce {d next : Demux} {raw : Bytes}
    {outcome : Except DemuxError (Option ElementaryUnit)} (force : InForce association map d)
    (passage : Passage association map d raw outcome next) : InForce association map next := by
  cases passage with
  | flagged => exact ⟨force.mapPids, force.streamTypes⟩
  | quiet _ force' => exact force'
  | payload packet streamType =>
    have mapPids := (d.readPayload_rest streamType packet).1
    refine ⟨mapPids.trans force.mapPids, fun pid => ?_⟩
    rw [d.readPayload_streamType?]
    exact force.streamTypes pid

/-- A lane moves by what arrives on its PID. -/
theorem Passage.lane {d next : Demux} {raw : Bytes}
    {outcome : Except DemuxError (Option ElementaryUnit)}
    (passage : Passage association map d raw outcome next) {pid streamType : Nat}
    (registered : map.streamType? pid = some streamType) :
    next.lane pid = ((d.lane pid).run (arriving? pid raw).toList).2 ∧
      (unitsOf [outcome]).filter (·.pid = pid) =
        ((d.lane pid).run (arriving? pid raw).toList).1.map
          fun data => ⟨pid, streamType, data⟩ := by
  cases passage with
  | flagged marked =>
    rw [arriving_of_flagged marked pid]
    exact ⟨rfl, rfl⟩
  | quiet _ _ lanes _ _ absent =>
    rw [absent pid streamType registered]
    exact ⟨congrFun lanes pid, rfl⟩
  | payload packet streamType' arrives known =>
    rw [d.readPayload_lane, d.readPayload_unit]
    by_cases same : pid = packet.header.pid
    · subst same
      rw [known] at registered
      obtain rfl := Option.some.inj registered
      rw [arrives, if_pos rfl]
      cases given : ((d.lane packet.header.pid).read packet).1 <;>
        simp [unitsOf, Lane.run, given]
    · have absent : arriving? pid raw = none := by
        cases arrives' : arriving? pid raw with
        | none => rfl
        | some other =>
          obtain ⟨parsed, -⟩ := arriving?_eq_some.mp arrives
          obtain ⟨parsed', -, rfl, -⟩ := arriving?_eq_some.mp arrives'
          obtain rfl := Except.ok.inj (parsed.symm.trans parsed')
          exact absurd rfl same
      rw [absent, if_neg same]
      have other : packet.header.pid ≠ pid := Ne.symm same
      cases given : ((d.lane packet.header.pid).read packet).1 <;>
        simp [unitsOf, Lane.run, other]

/-- Only registered PIDs have units. -/
theorem Passage.registered {d next : Demux} {raw : Bytes}
    {outcome : Except DemuxError (Option ElementaryUnit)}
    (passage : Passage association map d raw outcome next) :
    ∀ unit ∈ unitsOf [outcome], map.streamType? unit.pid = some unit.streamType := by
  cases passage with
  | flagged | quiet => simp [unitsOf]
  | payload packet streamType arrives known =>
    intro unit member
    rw [d.readPayload_unit] at member
    cases given : ((d.lane packet.header.pid).read packet).1 with
    | none => simp [unitsOf, given] at member
    | some data =>
      simp only [unitsOf, given, Option.map_some, List.flatMap_cons, Option.toList_some,
        List.flatMap_nil, List.append_nil, List.mem_singleton] at member
      subst member
      exact known

/-- What counts as lost is what is marked and what the lanes miss. -/
theorem Passage.lost {d next : Demux} {raw : Bytes}
    {outcome : Except DemuxError (Option ElementaryUnit)}
    (passage : Passage association map d raw outcome next)
    (gapless : ∀ pid streamType, map.streamType? pid = some streamType →
      (d.lane pid).Gapless (arriving? pid raw).toList) :
    next.lostPackets = d.lostPackets + (isFlagged raw).toNat := by
  cases passage with
  | flagged marked => simp [marked]
  | quiet _ _ _ lost unmarked => simp [lost, unmarked]
  | payload packet streamType arrives known =>
    obtain ⟨-, -, -, lost⟩ := d.readPayload_rest streamType packet
    have none_missed := gapless packet.header.pid streamType known
    rw [arrives] at none_missed
    rw [lost, none_missed.1, isFlagged_of_arriving arrives]
    rfl

theorem unitsOf_append (before after : List (Except DemuxError (Option ElementaryUnit))) :
    unitsOf (before ++ after) = unitsOf before ++ unitsOf after := List.flatMap_append

theorem unitsOf_cons (outcome : Except DemuxError (Option ElementaryUnit))
    (rest : List (Except DemuxError (Option ElementaryUnit))) :
    unitsOf (outcome :: rest) = unitsOf [outcome] ++ unitsOf rest := by
  simp [unitsOf]

theorem filterMap_arriving_cons (pid : Nat) (raw : Bytes) (rest : List Bytes) :
    (raw :: rest).filterMap (arriving? pid) =
      (arriving? pid raw).toList ++ rest.filterMap (arriving? pid) := by
  cases arrives : arriving? pid raw <;> simp [arrives]

/-- **Lanes do not disturb each other.** However the packets of all PIDs are mixed, the units of a
PID and what is left in its lane are those of the PID read alone, and no read fails. -/
theorem readAll_lane {d : Demux} (force : InForce association map d)
    (apart : Apart association map) (listed : mapPid ∈ association.mapPids) {stream : List Bytes}
    (traffic : ∀ raw ∈ stream, Traffic association mapPid map raw) :
    InForce association map (d.readAll stream).2 ∧
      (∀ outcome ∈ (d.readAll stream).1, ∃ unit, outcome = .ok unit) ∧
      (∀ unit ∈ unitsOf (d.readAll stream).1, map.streamType? unit.pid = some unit.streamType) ∧
      ∀ pid streamType, map.streamType? pid = some streamType →
        (d.readAll stream).2.lane pid =
            ((d.lane pid).run (stream.filterMap (arriving? pid))).2 ∧
          (unitsOf (d.readAll stream).1).filter (·.pid = pid) =
            ((d.lane pid).run (stream.filterMap (arriving? pid))).1.map
              fun data => ⟨pid, streamType, data⟩ := by
  induction stream generalizing d with
  | nil => exact ⟨force, by simp [Demux.readAll], by simp [Demux.readAll, unitsOf],
      fun pid streamType _ => ⟨rfl, rfl⟩⟩
  | cons raw rest ih =>
    have passage := read_passage force apart listed (traffic raw List.mem_cons_self)
    obtain ⟨force', succeed, known, lanes⟩ := ih (passage.inForce force)
      fun later member => traffic later (List.mem_cons_of_mem _ member)
    simp only [Demux.readAll]
    refine ⟨force', ?_, ?_, fun pid streamType registered => ?_⟩
    · intro outcome member
      obtain rfl | later := List.mem_cons.mp member
      · exact passage.ok
      · exact succeed outcome later
    · intro unit member
      rw [unitsOf_cons, List.mem_append] at member
      obtain here | later := member
      · exact passage.registered unit here
      · exact known unit later
    · obtain ⟨here, units⟩ := passage.lane registered
      obtain ⟨later, units'⟩ := lanes pid streamType registered
      rw [filterMap_arriving_cons, Lane.run_append, unitsOf_cons, List.filter_append,
        List.map_append, units, units', later, here]
      exact ⟨rfl, rfl⟩

/-- When no lane misses anything, only marked packets count as lost. -/
theorem readAll_lost {d : Demux} (force : InForce association map d)
    (apart : Apart association map) (listed : mapPid ∈ association.mapPids) {stream : List Bytes}
    (traffic : ∀ raw ∈ stream, Traffic association mapPid map raw)
    (gapless : ∀ pid streamType, map.streamType? pid = some streamType →
      (d.lane pid).Gapless (stream.filterMap (arriving? pid))) :
    (d.readAll stream).2.lostPackets = d.lostPackets + stream.countP isFlagged := by
  induction stream generalizing d with
  | nil => rfl
  | cons raw rest ih =>
    have passage := read_passage force apart listed (traffic raw List.mem_cons_self)
    have both (pid streamType : Nat) (registered : map.streamType? pid = some streamType) :
        (d.lane pid).Gapless (arriving? pid raw).toList ∧
          ((d.read raw).2.lane pid).Gapless (rest.filterMap (arriving? pid)) := by
      have all := gapless pid streamType registered
      rwa [filterMap_arriving_cons, Lane.gapless_append, ← (passage.lane registered).1] at all
    have here := passage.lost fun pid streamType registered => (both pid streamType registered).1
    have later := ih (passage.inForce force)
      (fun later member => traffic later (List.mem_cons_of_mem _ member))
      fun pid streamType registered => (both pid streamType registered).2
    simp only [Demux.readAll]
    rw [later, here, List.countP_cons]
    cases isFlagged raw with
    | true => simp; omega
    | false => simp

end

/-- Units on every elementary PID, mixed in any order with other traffic. -/
structure Multiplexed (association : AssociationTable) (mapPid : Nat) (map : MapTable)
    (units : Nat → List CutUnit) (stream : List Bytes) : Prop where
  traffic : ∀ raw ∈ stream, Traffic association mapPid map raw
  /-- The payload packets of a PID are those of its units, one after the other. -/
  lanes : ∀ pid streamType, map.streamType? pid = some streamType → ∃ counter,
    Resent none (packetize pid counter (units pid))
      (stream.filter fun raw => (arriving? pid raw).isSome)

theorem filterMap_filter_arriving (pid : Nat) (stream : List Bytes) :
    (stream.filter fun raw => (arriving? pid raw).isSome).filterMap (arriving? pid) =
      stream.filterMap (arriving? pid) := by
  rw [List.filterMap_filter]
  congr
  funext raw
  cases arriving? pid raw <;> rfl

theorem isSome_arriving_of_mem_encodeFrom {pid counter : Nat} (small : pid < 8192)
    {cells : List (Bool × Cell)} :
    ∀ raw ∈ encodeFrom pid counter cells, (arriving? pid raw).isSome := by
  induction cells generalizing counter with
  | nil => simp [encodeFrom]
  | cons cell rest ih =>
    intro raw member
    obtain rfl | later := List.mem_cons.mp member
    · simp [arriving?_encode cell.2 cell.1 counter small]
    · exact ih raw later

/-- What arrives of packets that are sent in turn is what is read of them, in turn. -/
theorem resent_arriving {pid counter : Nat} (small : pid < 8192) {units : List CutUnit}
    {stream : List Bytes}
    (sent : Resent none (packetize pid counter units)
      (stream.filter fun raw => (arriving? pid raw).isSome)) :
    Resent none (packetsFrom pid counter (units.flatMap CutUnit.marked))
      (stream.filterMap (arriving? pid)) := by
  have read := sent.filterMap (f := arriving? pid) (by simp)
    (isSome_arriving_of_mem_encodeFrom small)
  rwa [packetize, arriving?_encodeFrom small, filterMap_filter_arriving] at read

/-- A new demultiplexer that has read both tables has them in force and nothing else. -/
theorem inForce_new {association : AssociationTable} {mapPid : Nat} {map : MapTable}
    {pat pmt : Bytes} (announced : CarriesAssociation pat association)
    (mapped : CarriesMap pmt mapPid map) (listed : mapPid ∈ association.mapPids) (verify : Bool) :
    ∃ d : Demux, InForce association map d ∧ d.lane = (fun _ => .empty) ∧ d.lostPackets = 0 ∧
      ∀ stream, (Demux.new verify).readAll (pat :: pmt :: stream) =
        (.ok none :: .ok none :: (d.readAll stream).1, (d.readAll stream).2) := by
  let associated := { Demux.new verify with mapPids := association.mapPids }
  obtain ⟨types, read, added⟩ := associated.read_map mapped listed
  refine ⟨{ associated with streamTypes := types }, ⟨rfl, fun pid => ?_⟩, ?_, rfl, fun stream => ?_⟩
  · rw [Demux.streamType?, added]
    simp [associated, Demux.new, Demux.streamType?]
  · funext pid
    simp [Demux.lane, associated, Demux.new, Lane.empty]
  · simp only [Demux.readAll, (Demux.new verify).read_association announced]
    rw [read]

/-- Packets of a unit are traffic like any other. -/
theorem traffic_packetize {association : AssociationTable} {mapPid : Nat} {map : MapTable}
    (apart : Apart association map) {pid streamType : Nat}
    (known : map.streamType? pid = some streamType) (small : pid < 8192) (counter : Nat)
    (units : List CutUnit) :
    ∀ raw ∈ packetize pid counter units, Traffic association mapPid map raw := by
  intro raw member
  have arrives := isSome_arriving_of_mem_encodeFrom small raw member
  obtain ⟨packet, arrives⟩ := Option.isSome_iff_exists.mp arrives
  obtain ⟨parsed, -, rfl, -⟩ := arriving?_eq_some.mp arrives
  exact .other packet parsed fun _ => apart _ streamType known

namespace Sample

/-- Three video units, the first of them in two packets, and one telemetry unit. -/
def units (pid : Nat) : List CutUnit :=
  if pid = 0x100 then
    [⟨.ofPayload (0xA5 :: List.replicate 183 0xA5) (by decide)
          (Nat.le_of_eq (by rw [List.length_cons, List.length_replicate])),
        [.ofPayload [1, 2, 3] (by decide) (by decide)]⟩,
      ⟨.ofPayload [9] (by decide) (by decide), []⟩, ⟨.ofPayload [8] (by decide) (by decide), []⟩]
  else [⟨.ofPayload [7, 7] (by decide) (by decide), []⟩]

def video : List Bytes := packetize 0x100 15 (units 0x100)

def telemetry : List Bytes := packetize 0x102 3 (units 0x102)

/-- A packet that is all adaptation field. -/
def stuffed (pidHigh pidLow : UInt8) : Bytes :=
  syncByte :: pidHigh :: pidLow :: 0x20 :: 183 :: 0 :: List.replicate 182 0xFF

/-- Marked as damaged, on a PID that no table mentions. -/
def stranger : Bytes := stuffed 0x80 0x77

def stream : List Bytes :=
  video.take 1 ++ [stuffed 0x01 0x00, stranger] ++ video.take 1 ++ telemetry ++ [pat] ++
    video.drop 1

theorem multiplexed : Multiplexed association 0x1000 map units stream where
  traffic := by
    have ofVideo : ∀ raw ∈ video, Traffic association 0x1000 map raw :=
      traffic_packetize apart rfl (by decide) 15 _
    have ofTelemetry : ∀ raw ∈ telemetry, Traffic association 0x1000 map raw :=
      traffic_packetize apart rfl (by decide) 3 _
    intro raw member
    simp only [stream, List.mem_append, List.mem_cons, List.not_mem_nil, or_false] at member
    obtain ((((first | idle | damaged) | again) | unit) | table) | rest := member
    · exact ofVideo raw (List.mem_of_mem_take first)
    · exact idle ▸ .other ⟨⟨false, false, 0x100, 2, 0⟩, some false, []⟩ (by decide +kernel)
        (by decide)
    · exact damaged ▸ .flagged (by decide +kernel)
    · exact ofVideo raw (List.mem_of_mem_take again)
    · exact ofTelemetry raw unit
    · exact table ▸ .association pat_announces
    · exact ofVideo raw (List.mem_of_mem_drop rest)
  lanes := by
    intro pid streamType known
    obtain ⟨rfl, -⟩ | ⟨rfl, -⟩ := streamType_cases known
    · have sent : stream.filter (fun raw => (arriving? 0x100 raw).isSome) =
          video.take 1 ++ video := by decide +kernel
      rw [sent]
      exact ⟨15, .next (.again (.once _ _))⟩
    · have sent : stream.filter (fun raw => (arriving? 0x102 raw).isSome) = telemetry := by
        decide +kernel
      rw [sent]
      exact ⟨3, .once _ _⟩

end Sample

end MotionImagery.Transport
