import MotionImagery.Proofs.Transport.Multiplex

/-!
PIDs that know nothing of each other. As long as no packet starts a table, a read looks only at
what is held about the packet's own PID and changes only that and the count of lost packets. So a
PID sees its own packets and nothing else, and packets of different PIDs may change places. Nothing
is assumed here about the state, nor about which PIDs the tables name.
-/
namespace MotionImagery.Transport

/-- A packet that starts nothing on the PID of a table. -/
def Plain (mapPids : List Nat) (packet : Packet) : Prop :=
  packet.header.unitStart = true →
    packet.header.pid ≠ AssociationTable.tablePid ∧ packet.header.pid ∉ mapPids

instance (mapPids : List Nat) (packet : Packet) : Decidable (Plain mapPids packet) :=
  inferInstanceAs (Decidable (_ → _))

/-- The bytes can be read as a packet that starts no table. -/
def ReadsPlain (mapPids : List Nat) (raw : Bytes) : Prop :=
  ∃ packet, Packet.parse raw = .ok packet ∧ Plain mapPids packet

instance (mapPids : List Nat) (raw : Bytes) : Decidable (ReadsPlain mapPids raw) :=
  match parsed : Packet.parse raw with
  | .ok packet =>
    decidable_of_iff (Plain mapPids packet)
      ⟨fun plain => ⟨packet, parsed, plain⟩,
        fun ⟨_, parsed', plain⟩ => Except.ok.inj (parsed.symm.trans parsed') ▸ plain⟩
  | .error _ => .isFalse fun ⟨_, parsed', _⟩ => nomatch parsed.symm.trans parsed'

def pidOf? (raw : Bytes) : Option Nat :=
  match Packet.parse raw with
  | .ok packet => some packet.header.pid
  | .error _ => none

def isOn (pid : Nat) (raw : Bytes) : Bool := pidOf? raw == some pid

theorem pidOf?_of_parse {raw : Bytes} {packet : Packet} (parsed : Packet.parse raw = .ok packet) :
    pidOf? raw = some packet.header.pid := by
  rw [pidOf?, parsed]

/-- What comes of a packet: the unit it completes, what its PID is left with, and how many packets
are found lost. -/
structure Encounter where
  unit : Option ElementaryUnit
  lane : Lane
  lost : Nat

/-- How a PID meets a packet, from what is held about the PID alone. -/
def Lane.meet (lane : Lane) (streamType? : Option Nat) (packet : Packet) : Encounter :=
  if packet.header.transportError then ⟨none, lane, 1⟩
  else match streamType? with
    | some streamType =>
      if packet.carriesPayload then
        let (data, next) := lane.read packet
        ⟨data.map fun data => ⟨packet.header.pid, streamType, data⟩, next, lane.missing packet⟩
      else ⟨none, lane, 0⟩
    | none => ⟨none, lane, 0⟩

namespace Lane
variable (lane : Lane) {packet : Packet}

theorem meet_flagged (flagged : packet.header.transportError = true) (streamType? : Option Nat) :
    lane.meet streamType? packet = ⟨none, lane, 1⟩ := by
  simp [meet, flagged]

theorem meet_unregistered (intact : packet.header.transportError = false) :
    lane.meet none packet = ⟨none, lane, 0⟩ := by
  simp [meet, intact]

theorem meet_empty (intact : packet.header.transportError = false)
    (empty : packet.carriesPayload = false) (streamType : Nat) :
    lane.meet (some streamType) packet = ⟨none, lane, 0⟩ := by
  simp [meet, intact, empty]

theorem meet_payload (intact : packet.header.transportError = false)
    (carries : packet.carriesPayload = true) (streamType : Nat) :
    lane.meet (some streamType) packet =
      ⟨(lane.read packet).1.map fun data => ⟨packet.header.pid, streamType, data⟩,
        (lane.read packet).2, lane.missing packet⟩ := by
  simp [meet, intact, carries]

theorem pid_of_meet {lane : Lane} {streamType? : Option Nat} {unit : ElementaryUnit}
    (given : (lane.meet streamType? packet).unit = some unit) : unit.pid = packet.header.pid := by
  unfold meet at given
  split at given
  · cases given
  · split at given
    · split at given
      · obtain ⟨data, -, rfl⟩ := Option.map_eq_some_iff.mp given
        rfl
      · cases given
    · cases given

end Lane

namespace Demux

def meet (d : Demux) (packet : Packet) : Encounter :=
  (d.lane packet.header.pid).meet (d.streamType? packet.header.pid) packet

/-- All that a plain packet does. -/
structure Turn (d : Demux) (packet : Packet) (outcome : Except DemuxError (Option ElementaryUnit))
    (next : Demux) : Prop where
  outcome : outcome = .ok (d.meet packet).unit
  lane : ∀ pid, next.lane pid = if pid = packet.header.pid then (d.meet packet).lane else d.lane pid
  lost : next.lostPackets = d.lostPackets + (d.meet packet).lost
  mapPids : next.mapPids = d.mapPids
  streamTypes : next.streamTypes = d.streamTypes
  verifyCheck : next.verifyCheck = d.verifyCheck

/-- A packet of which nothing is kept. -/
theorem Turn.unkept {d : Demux} {packet : Packet} (lost : Nat)
    (met : d.meet packet = ⟨none, d.lane packet.header.pid, lost⟩) :
    Turn d packet (.ok none) { d with lostPackets := d.lostPackets + lost } where
  outcome := by rw [met]
  lane pid := by
    rw [met]
    split
    · rename_i same
      exact congrArg d.lane same
    · rfl
  lost := by rw [met]
  mapPids := rfl
  streamTypes := rfl
  verifyCheck := rfl

theorem Turn.payload {d : Demux} {packet : Packet} {streamType : Nat}
    (met : d.meet packet =
      ⟨(d.readPayload streamType packet).1, ((d.lane packet.header.pid).read packet).2,
        (d.lane packet.header.pid).missing packet⟩) :
    Turn d packet (.ok (d.readPayload streamType packet).1) (d.readPayload streamType packet).2 := by
  obtain ⟨mapPids, streamTypes, verifyCheck, lost⟩ := d.readPayload_rest streamType packet
  refine ⟨by rw [met], fun pid => ?_, by rw [lost, met], mapPids, streamTypes, verifyCheck⟩
  rw [d.readPayload_lane, met]
  split
  · rename_i same
    rw [same]
  · rfl

theorem read_turn (d : Demux) {raw : Bytes} {packet : Packet}
    (parsed : Packet.parse raw = .ok packet) (plain : Plain d.mapPids packet) :
    Turn d packet (d.read raw).1 (d.read raw).2 := by
  have other : ¬d.Due raw packet := fun due =>
    due.place.elim (plain due.starts).1 (plain due.starts).2
  have reading := plainReading parsed other
  generalize (d.read raw).1 = outcome, (d.read raw).2 = next at reading ⊢
  cases reading with
  | flagged marked => exact .unkept 1 (Lane.meet_flagged _ marked _)
  | passed intact idle =>
    refine .unkept 0 ?_
    rw [meet]
    obtain unknown | empty := idle
    · rw [unknown]
      exact Lane.meet_unregistered _ intact
    · cases d.streamType? packet.header.pid with
      | none => exact Lane.meet_unregistered _ intact
      | some streamType => exact Lane.meet_empty _ intact empty streamType
  | payload streamType intact carries known =>
    refine .payload ?_
    rw [meet, known, d.readPayload_unit]
    exact Lane.meet_payload _ intact carries streamType

/-- A state is what it holds about every PID, its tables, and its count. -/
theorem eq_of_lane {d e : Demux} (verifyCheck : d.verifyCheck = e.verifyCheck)
    (mapPids : d.mapPids = e.mapPids) (streamTypes : d.streamTypes = e.streamTypes)
    (lane : ∀ pid, d.lane pid = e.lane pid) (lost : d.lostPackets = e.lostPackets) : d = e := by
  have counters : d.counters = e.counters :=
    Std.ExtTreeMap.ext_getElem? fun pid => congrArg Lane.counter (lane pid)
  have pending : d.pending = e.pending :=
    Std.ExtTreeMap.ext_getElem? fun pid => congrArg Lane.pending (lane pid)
  cases d
  cases e
  cases verifyCheck
  cases mapPids
  cases streamTypes
  cases counters
  cases pending
  cases lost
  rfl

/-- States that hold the same about a PID. -/
structure Alike (pid : Nat) (d e : Demux) : Prop where
  lane : d.lane pid = e.lane pid
  streamType? : d.streamType? pid = e.streamType? pid
  mapPids : d.mapPids = e.mapPids

theorem Alike.trans {pid : Nat} {d e f : Demux} (first : Alike pid d e) (second : Alike pid e f) :
    Alike pid d f :=
  ⟨first.lane.trans second.lane, first.streamType?.trans second.streamType?,
    first.mapPids.trans second.mapPids⟩

namespace Turn
variable {d next : Demux} {packet : Packet}
  {outcome : Except DemuxError (Option ElementaryUnit)}

theorem streamType? (turn : Turn d packet outcome next) (pid : Nat) :
    next.streamType? pid = d.streamType? pid := by
  rw [Demux.streamType?, turn.streamTypes, Demux.streamType?]

/-- What is held about another PID stays. -/
theorem alike_before (turn : Turn d packet outcome next) {pid : Nat}
    (other : pid ≠ packet.header.pid) : Alike pid next d :=
  ⟨by rw [turn.lane, if_neg other], turn.streamType? pid, turn.mapPids⟩

/-- Packets of another PID are met as they were before. -/
theorem meet_other (turn : Turn d packet outcome next) {other : Packet}
    (apart : other.header.pid ≠ packet.header.pid) : next.meet other = d.meet other := by
  rw [meet, (turn.alike_before apart).lane, turn.streamType?]
  rfl

/-- States that hold the same about a PID read its packets in the same way. -/
theorem agree {e following : Demux} {outcome' : Except DemuxError (Option ElementaryUnit)}
    (turn : Turn d packet outcome next) (turn' : Turn e packet outcome' following)
    (alike : Alike packet.header.pid d e) :
    outcome = outcome' ∧ Alike packet.header.pid next following := by
  have same : d.meet packet = e.meet packet := by
    rw [meet, alike.lane, alike.streamType?]
    rfl
  refine ⟨by rw [turn.outcome, turn'.outcome, same], ?_, ?_, ?_⟩
  · rw [turn.lane, turn'.lane, if_pos rfl, if_pos rfl, same]
  · rw [turn.streamType?, turn'.streamType?, alike.streamType?]
  · rw [turn.mapPids, turn'.mapPids, alike.mapPids]

/-- Only the packet's own PID gives out a unit. -/
theorem pid_of_unit (turn : Turn d packet outcome next) {unit : ElementaryUnit}
    (member : unit ∈ unitsOf [outcome]) : unit.pid = packet.header.pid := by
  rw [turn.outcome] at member
  have given : (d.meet packet).unit = some unit := by simpa [unitsOf] using member
  exact Lane.pid_of_meet given

theorem units_other (turn : Turn d packet outcome next) {pid : Nat}
    (other : pid ≠ packet.header.pid) : (unitsOf [outcome]).filter (·.pid = pid) = [] := by
  rw [List.filter_eq_nil_iff]
  intro unit member
  simpa [turn.pid_of_unit member] using other.symm

theorem units_own (turn : Turn d packet outcome next) :
    (unitsOf [outcome]).filter (·.pid = packet.header.pid) = unitsOf [outcome] := by
  rw [List.filter_eq_self]
  intro unit member
  exact decide_eq_true (turn.pid_of_unit member)

/-- Two turns on different PIDs may be taken in either order. -/
theorem swap {a b : Packet} (apart : a.header.pid ≠ b.header.pid)
    {first second first' second' : Except DemuxError (Option ElementaryUnit)}
    {afterA afterAB afterB afterBA : Demux} (turnA : Turn d a first afterA)
    (turnAB : Turn afterA b second afterAB) (turnB : Turn d b second' afterB)
    (turnBA : Turn afterB a first' afterBA) : afterAB = afterBA := by
  have metB := turnA.meet_other apart.symm
  have metA := turnB.meet_other apart
  apply eq_of_lane
  · rw [turnAB.verifyCheck, turnA.verifyCheck, turnBA.verifyCheck, turnB.verifyCheck]
  · rw [turnAB.mapPids, turnA.mapPids, turnBA.mapPids, turnB.mapPids]
  · rw [turnAB.streamTypes, turnA.streamTypes, turnBA.streamTypes, turnB.streamTypes]
  · intro pid
    rw [turnAB.lane, turnA.lane, turnBA.lane, turnB.lane, metA, metB]
    by_cases onA : pid = a.header.pid
    · have notB : pid ≠ b.header.pid := onA ▸ apart
      rw [if_neg notB, if_pos onA, if_pos onA]
    · rw [if_neg onA, if_neg onA]
  · rw [turnAB.lost, turnA.lost, turnBA.lost, turnB.lost, metA, metB]
    exact Nat.add_right_comm ..

end Turn

theorem readAll_ok {d : Demux} {stream : List Bytes}
    (plain : ∀ raw ∈ stream, ReadsPlain d.mapPids raw) :
    (∀ outcome ∈ (d.readAll stream).1, ∃ unit, outcome = .ok unit) ∧
      (d.readAll stream).2.mapPids = d.mapPids := by
  induction stream generalizing d with
  | nil => exact ⟨nofun, rfl⟩
  | cons raw rest ih =>
    obtain ⟨packet, parsed, starts⟩ := plain raw List.mem_cons_self
    have turn := d.read_turn parsed starts
    obtain ⟨succeed, mapPids⟩ := ih fun raw member =>
      turn.mapPids ▸ plain raw (List.mem_cons_of_mem _ member)
    refine ⟨fun outcome member => ?_, mapPids.trans turn.mapPids⟩
    obtain rfl | later := List.mem_cons.mp member
    · exact ⟨_, turn.outcome⟩
    · exact succeed outcome later

/-- The units of a PID, and what is held about it, come from its own packets. -/
theorem readAll_isOn (pid : Nat) {d e : Demux} (alike : Alike pid d e) {stream : List Bytes}
    (plain : ∀ raw ∈ stream, ReadsPlain d.mapPids raw) :
    (unitsOf (d.readAll stream).1).filter (·.pid = pid) =
        unitsOf (e.readAll (stream.filter (isOn pid))).1 ∧
      Alike pid (d.readAll stream).2 (e.readAll (stream.filter (isOn pid))).2 := by
  -- The second state reads along only where the first reads a packet of the PID.
  induction stream generalizing d e with
  | nil => exact ⟨rfl, alike⟩
  | cons raw rest ih =>
    obtain ⟨packet, parsed, starts⟩ := plain raw List.mem_cons_self
    have turn := d.read_turn parsed starts
    have later : ∀ later ∈ rest, ReadsPlain (d.read raw).2.mapPids later := fun later member =>
      turn.mapPids ▸ plain later (List.mem_cons_of_mem _ member)
    by_cases own : pid = packet.header.pid
    · subst own
      have kept : isOn packet.header.pid raw = true := by simp [isOn, pidOf?_of_parse parsed]
      obtain ⟨same, alike'⟩ := turn.agree (e.read_turn parsed (alike.mapPids ▸ starts)) alike
      obtain ⟨units, left⟩ := ih alike' later
      rw [List.filter_cons_of_pos kept]
      simp only [readAll]
      rw [unitsOf_cons, List.filter_append, turn.units_own, units, same, ← unitsOf_cons]
      exact ⟨rfl, left⟩
    · have dropped : ¬isOn pid raw = true := by
        simpa [isOn, pidOf?_of_parse parsed] using Ne.symm own
      have before := turn.alike_before own
      obtain ⟨units, left⟩ := ih (before.trans alike) later
      rw [List.filter_cons_of_neg dropped]
      simp only [readAll]
      rw [unitsOf_cons, List.filter_append, turn.units_other own, units]
      exact ⟨rfl, left⟩

theorem filter_isOn_swap {a b : Bytes} (apart : pidOf? a ≠ pidOf? b) (pid : Nat)
    (before after : List Bytes) :
    (before ++ b :: a :: after).filter (isOn pid) =
      (before ++ a :: b :: after).filter (isOn pid) := by
  have one : isOn pid a = false ∨ isOn pid b = false := by
    simp only [isOn, beq_eq_false_iff_ne]
    by_cases onA : pidOf? a = some pid
    · exact .inr fun onB => apart (onA.trans onB.symm)
    · exact .inl onA
  rw [List.filter_append, List.filter_append]
  obtain out | out := one <;> simp only [List.filter_cons, out, Bool.false_eq_true, ↓reduceIte]

/-- Neighbours on different PIDs lead to the same state in either order. -/
theorem readAll_swap {d : Demux} {a b : Bytes} (apart : pidOf? a ≠ pidOf? b)
    (plainA : ReadsPlain d.mapPids a) (plainB : ReadsPlain d.mapPids b) (rest : List Bytes) :
    (d.readAll (b :: a :: rest)).2 = (d.readAll (a :: b :: rest)).2 := by
  obtain ⟨first, parsedA, startsA⟩ := plainA
  obtain ⟨second, parsedB, startsB⟩ := plainB
  have pids : first.header.pid ≠ second.header.pid := by
    simpa [pidOf?_of_parse parsedA, pidOf?_of_parse parsedB] using apart
  have turnA := d.read_turn parsedA startsA
  have turnB := d.read_turn parsedB startsB
  have turnAB := (d.read a).2.read_turn parsedB (turnA.mapPids ▸ startsB)
  have turnBA := (d.read b).2.read_turn parsedA (turnB.mapPids ▸ startsA)
  simp only [readAll]
  rw [Turn.swap pids turnA turnAB turnB turnBA]

/-- **PIDs do not interfere.** Whatever packets arrive in whatever order, as long as none starts a
table, no read fails; a PID gives out the units, and is left with the state, of its own packets
read alone; and neighbours on different PIDs may change places, which leaves the last state and
the units of every PID as they are. -/
theorem pids_do_not_interfere (d : Demux) {stream : List Bytes}
    (plain : ∀ raw ∈ stream, ReadsPlain d.mapPids raw) :
    let run := d.readAll stream
    (∀ outcome ∈ run.1, ∃ unit, outcome = .ok unit) ∧
      (∀ pid, let alone := d.readAll (stream.filter (isOn pid))
        (unitsOf run.1).filter (·.pid = pid) = unitsOf alone.1 ∧
          run.2.lane pid = alone.2.lane pid ∧ run.2.streamType? pid = alone.2.streamType? pid) ∧
      ∀ before a b after, stream = before ++ a :: b :: after → pidOf? a ≠ pidOf? b →
        let swapped := d.readAll (before ++ b :: a :: after)
        swapped.2 = run.2 ∧
          ∀ pid, (unitsOf swapped.1).filter (·.pid = pid) = (unitsOf run.1).filter (·.pid = pid) := by
  intro run
  have same (pid : Nat) : Alike pid d d := ⟨rfl, rfl, rfl⟩
  refine ⟨(readAll_ok plain).1, fun pid => ?_, ?_⟩
  · obtain ⟨units, left⟩ := readAll_isOn pid (same pid) plain
    exact ⟨units, left.lane, left.streamType?⟩
  · rintro before a b after rfl apart swapped
    constructor
    · have kept : (d.readAll before).2.mapPids = d.mapPids :=
        (readAll_ok fun raw member => plain raw (List.mem_append_left _ member)).2
      have plainA : ReadsPlain (d.readAll before).2.mapPids a := kept ▸ plain a (by simp)
      have plainB : ReadsPlain (d.readAll before).2.mapPids b := kept ▸ plain b (by simp)
      simp only [swapped, run, readAll_append]
      exact readAll_swap apart plainA plainB after
    · intro pid
      have plain' : ∀ raw ∈ before ++ b :: a :: after, ReadsPlain d.mapPids raw := by
        intro raw member
        apply plain
        simp only [List.mem_append, List.mem_cons] at member ⊢
        exact member.imp_right or_left_comm.mp
      rw [(readAll_isOn pid (same pid) plain).1, (readAll_isOn pid (same pid) plain').1,
        filter_isOn_swap apart]

end Demux

namespace Sample

/-- A damaged packet, then video and telemetry, with neither table. -/
def mixed : List Bytes := stranger :: (video ++ telemetry)

/-- The state once both tables are read. -/
def ready : Demux := ((Demux.new true).readAll [pat, pmt]).2

/-- Two video units are completed among the rest, and the damaged packet may as well come second. -/
theorem video_undisturbed :
    (∀ raw ∈ mixed, ReadsPlain ready.mapPids raw) ∧
      (unitsOf (ready.readAll mixed).1).filter (·.pid = 0x100) =
        unitsOf (ready.readAll video).1 ∧
      (unitsOf (ready.readAll video).1).length = 2 ∧
      (ready.readAll (video.take 1 ++ stranger :: (video.drop 1 ++ telemetry))).2 =
        (ready.readAll mixed).2 := by
  have plain : ∀ raw ∈ mixed, ReadsPlain ready.mapPids raw := by decide +kernel
  obtain ⟨-, alone, swapped⟩ := Demux.pids_do_not_interfere ready plain
  have own : mixed.filter (isOn 0x100) = video := by decide +kernel
  obtain ⟨units, -⟩ := alone 0x100
  rw [own] at units
  have apart : ∀ raw ∈ video, pidOf? stranger ≠ pidOf? raw := by decide +kernel
  obtain ⟨first, rest, split⟩ := List.exists_cons_of_ne_nil (show video ≠ [] by decide +kernel)
  have order : mixed = [] ++ stranger :: first :: (rest ++ telemetry) := by simp [mixed, split]
  have onVideo : first ∈ video := by simp [split]
  obtain ⟨last, -⟩ := swapped [] stranger first (rest ++ telemetry) order (apart first onVideo)
  refine ⟨plain, units, by decide +kernel, ?_⟩
  simpa [split] using last

end Sample

end MotionImagery.Transport
