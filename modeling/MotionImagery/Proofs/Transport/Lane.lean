import MotionImagery.Proofs.Transport.Cutting
import MotionImagery.Proofs.Transport.Tables

/-!
The demultiplexer as it looks from one PID. A lane is what is kept for a PID, its last counter and
its unit in progress; a packet that arrives on the PID moves its lane and no other. Read all by
itself, a lane gives out a unit when the next one starts.
-/
namespace MotionImagery.Transport

structure Lane where
  counter : Option Nat
  pending : Option Bytes
  deriving DecidableEq, Repr

namespace Lane

def empty : Lane := ⟨none, none⟩

def accumulate (lane : Lane) (packet : Packet) : Option Bytes × Lane :=
  if packet.header.unitStart then (lane.pending, { lane with pending := some packet.payload })
  else (none, { lane with pending := lane.pending.map (· ++ packet.payload) })

/-- How the packet follows what the lane has read. -/
def continuity (lane : Lane) (packet : Packet) : Continuity :=
  .between lane.counter packet.header.counter packet.isDiscontinuous

def read (lane : Lane) (packet : Packet) : Option Bytes × Lane :=
  let counted := { lane with counter := some packet.header.counter }
  match lane.continuity packet with
  | .inOrder => counted.accumulate packet
  | .duplicate => (none, counted)
  | .gap _ => { counted with pending := none }.accumulate packet

/-- The units given out one packet after the other. -/
def run (lane : Lane) : List Packet → List Bytes × Lane
  | [] => ([], lane)
  | packet :: rest =>
    let (unit, next) := lane.read packet
    let (units, last) := next.run rest
    (unit.toList ++ units, last)

theorem run_one (lane : Lane) (packet : Packet) :
    lane.run [packet] = ((lane.read packet).1.toList, (lane.read packet).2) := by
  simp [run]

theorem run_append (lane : Lane) (before after : List Packet) :
    lane.run (before ++ after) =
      ((lane.run before).1 ++ ((lane.run before).2.run after).1,
        ((lane.run before).2.run after).2) := by
  induction before generalizing lane with
  | nil => rfl
  | cons packet rest ih => simp only [List.cons_append, run, ih, List.append_assoc]

/-- The packets that the lane misses before this one. -/
def missing (lane : Lane) (packet : Packet) : Nat :=
  match lane.continuity packet with
  | .gap missing => missing
  | _ => 0

/-- No packet is missed on the way. -/
def Gapless (lane : Lane) : List Packet → Prop
  | [] => True
  | packet :: rest => lane.missing packet = 0 ∧ (lane.read packet).2.Gapless rest

theorem gapless_append {lane : Lane} {before after : List Packet} :
    lane.Gapless (before ++ after) ↔ lane.Gapless before ∧ (lane.run before).2.Gapless after := by
  induction before generalizing lane with
  | nil => simp [Gapless, run]
  | cons packet rest ih => simp only [List.cons_append, Gapless, run, ih, and_assoc]

end Lane

/-- The packet when it arrives whole on the PID and brings payload. -/
def arriving? (pid : Nat) (raw : Bytes) : Option Packet :=
  match Packet.parse raw with
  | .error _ => none
  | .ok packet =>
    if packet.header.transportError = false ∧ packet.header.pid = pid ∧ packet.carriesPayload = true
    then some packet else none

theorem arriving?_eq_some {pid : Nat} {raw : Bytes} {packet : Packet} :
    arriving? pid raw = some packet ↔ Packet.parse raw = .ok packet ∧
      packet.header.transportError = false ∧ packet.header.pid = pid ∧
      packet.carriesPayload = true := by
  unfold arriving?
  split
  · rename_i fault failed
    simp [failed]
  · rename_i found parsed
    constructor
    · intro arrives
      split at arrives
      · rename_i holds
        exact Option.some.inj arrives ▸ ⟨parsed, holds⟩
      · cases arrives
    · rintro ⟨parsed', holds⟩
      obtain rfl := Except.ok.inj (parsed.symm.trans parsed')
      rw [if_pos holds]

theorem arriving?_encode (cell : Cell) {pid : Nat} (start : Bool) (counter : Nat)
    (small : pid < 8192) :
    arriving? pid (cell.encode pid start counter) = some (cell.packet pid start counter) :=
  arriving?_eq_some.mpr
    ⟨cell.parse_encode start counter small, rfl, rfl, cell.carriesPayload_packet pid start counter⟩

theorem arriving?_encodeFrom {pid : Nat} (small : pid < 8192) (counter : Nat)
    (cells : List (Bool × Cell)) :
    (encodeFrom pid counter cells).filterMap (arriving? pid) = packetsFrom pid counter cells := by
  induction cells generalizing counter with
  | nil => rfl
  | cons cell rest ih =>
    rw [encodeFrom, List.filterMap_cons_some (arriving?_encode cell.2 cell.1 counter small), ih,
      packetsFrom]

namespace Demux

def lane (d : Demux) (pid : Nat) : Lane := ⟨d.counters[pid]?, d.pending[pid]?⟩

theorem accumulate_unit (d : Demux) (streamType : Nat) (packet : Packet) :
    (d.accumulate streamType packet).1 =
      ((d.lane packet.header.pid).accumulate packet).1.map
        fun data => ⟨packet.header.pid, streamType, data⟩ := by
  by_cases starts : packet.header.unitStart <;>
    simp [accumulate, Lane.accumulate, lane, starts]

theorem accumulate_lane (d : Demux) (streamType : Nat) (packet : Packet) (pid : Nat) :
    (d.accumulate streamType packet).2.lane pid =
      if pid = packet.header.pid then ((d.lane pid).accumulate packet).2 else d.lane pid := by
  by_cases same : pid = packet.header.pid
  · subst same
    by_cases starts : packet.header.unitStart
    · simp [accumulate, Lane.accumulate, lane, starts]
    · cases pending : d.pending[packet.header.pid]? <;>
        simp [accumulate, Lane.accumulate, lane, starts, pending]
  · have apart : packet.header.pid ≠ pid := Ne.symm same
    by_cases starts : packet.header.unitStart
    · simp [accumulate, lane, starts, Std.ExtTreeMap.getElem?_insert, same, apart]
    · cases pending : d.pending[packet.header.pid]? <;>
        simp [accumulate, lane, starts, pending, Std.ExtTreeMap.getElem?_insert, same, apart]

theorem accumulate_rest (d : Demux) (streamType : Nat) (packet : Packet) :
    (d.accumulate streamType packet).2.mapPids = d.mapPids ∧
      (d.accumulate streamType packet).2.streamTypes = d.streamTypes ∧
      (d.accumulate streamType packet).2.verifyCheck = d.verifyCheck ∧
      (d.accumulate streamType packet).2.lostPackets = d.lostPackets := by
  simp only [accumulate]
  split
  · exact ⟨rfl, rfl, rfl, rfl⟩
  · split <;> exact ⟨rfl, rfl, rfl, rfl⟩

/-- What is accumulated after the counter has been looked at. -/
theorem readPayload_eq (d : Demux) (streamType : Nat) (packet : Packet) :
    d.readPayload streamType packet =
      let counted :=
        { d with counters := d.counters.insert packet.header.pid packet.header.counter }
      match (d.lane packet.header.pid).continuity packet with
      | .inOrder => counted.accumulate streamType packet
      | .duplicate => (none, counted)
      | .gap missing =>
        { counted with
          lostPackets := d.lostPackets + missing
          pending := d.pending.erase packet.header.pid }.accumulate streamType packet := rfl

theorem readPayload_unit (d : Demux) (streamType : Nat) (packet : Packet) :
    (d.readPayload streamType packet).1 =
      ((d.lane packet.header.pid).read packet).1.map
        fun data => ⟨packet.header.pid, streamType, data⟩ := by
  rw [readPayload_eq, Lane.read]
  cases (d.lane packet.header.pid).continuity packet with
  | inOrder => simp [accumulate_unit, lane]
  | duplicate => rfl
  | gap missing => simp [accumulate_unit, lane]

theorem readPayload_lane (d : Demux) (streamType : Nat) (packet : Packet) (pid : Nat) :
    (d.readPayload streamType packet).2.lane pid =
      if pid = packet.header.pid then ((d.lane pid).read packet).2 else d.lane pid := by
  rw [readPayload_eq]
  by_cases same : pid = packet.header.pid
  · subst same
    rw [if_pos rfl, Lane.read]
    cases (d.lane packet.header.pid).continuity packet with
    | inOrder => simp only [accumulate_lane]; simp [lane]
    | duplicate => simp [lane]
    | gap missing => simp only [accumulate_lane]; simp [lane]
  · have apart : packet.header.pid ≠ pid := Ne.symm same
    rw [if_neg same]
    cases (d.lane packet.header.pid).continuity packet with
    | inOrder =>
      simp only [accumulate_lane, same, ↓reduceIte]
      simp [lane, apart, Std.ExtTreeMap.getElem?_insert]
    | duplicate => simp [lane, apart, Std.ExtTreeMap.getElem?_insert]
    | gap missing =>
      simp only [accumulate_lane, same, ↓reduceIte]
      simp [lane, apart, Std.ExtTreeMap.getElem?_insert, Std.ExtTreeMap.getElem?_erase]

theorem readPayload_rest (d : Demux) (streamType : Nat) (packet : Packet) :
    (d.readPayload streamType packet).2.mapPids = d.mapPids ∧
      (d.readPayload streamType packet).2.streamTypes = d.streamTypes ∧
      (d.readPayload streamType packet).2.verifyCheck = d.verifyCheck ∧
      (d.readPayload streamType packet).2.lostPackets =
        d.lostPackets + (d.lane packet.header.pid).missing packet := by
  rw [readPayload_eq, Lane.missing]
  cases (d.lane packet.header.pid).continuity packet with
  | inOrder => exact accumulate_rest _ streamType packet
  | duplicate => exact ⟨rfl, rfl, rfl, rfl⟩
  | gap missing => exact accumulate_rest _ streamType packet

theorem readPayload_streamType? (d : Demux) (streamType : Nat) (packet : Packet) (pid : Nat) :
    (d.readPayload streamType packet).2.streamType? pid = d.streamType? pid := by
  rw [streamType?, (d.readPayload_rest streamType packet).2.1, streamType?]

end Demux

end MotionImagery.Transport
