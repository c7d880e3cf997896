import MotionImagery.Proofs.Transport.Independence
import MotionImagery.Proofs.Transport.PacketLoss

/-!
What the count of lost packets counts. A gap of counters counts every packet that was sent since
the last one that got through, whether it never came or came marked as damaged. A marked packet
counts on its arrival too, so it counts twice.
-/
namespace MotionImagery.Transport

/-- How many of the packets meet this fate. -/
def tally (fate : Fate) (journey : List (Bytes × Fate)) : Nat :=
  journey.countP fun sent => sent.2 = fate

theorem tally_cons (fate : Fate) (sent : Bytes × Fate) (rest : List (Bytes × Fate)) :
    tally fate (sent :: rest) = tally fate rest + if sent.2 = fate then 1 else 0 := by
  simp [tally, List.countP_cons]

theorem tally_eq_zero {fate : Fate} {journey : List (Bytes × Fate)} :
    tally fate journey = 0 ↔ ∀ sent ∈ journey, sent.2 ≠ fate := by
  simp [tally, List.countP_eq_zero]

/-- How often a packet counts: a flagged one on its arrival, and whatever does not get through at
the next that does. -/
def Fate.weight : Fate → Nat
  | intact => 0
  | removed => 1
  | flagged => 2

def counted : List (Bytes × Fate) → Nat
  | [] => 0
  | (_, fate) :: rest => fate.weight + counted rest

theorem counted_eq (journey : List (Bytes × Fate)) :
    counted journey = tally .removed journey + 2 * tally .flagged journey := by
  induction journey with
  | nil => rfl
  | cons sent rest ih =>
    obtain ⟨raw, fate⟩ := sent
    rw [counted, ih, tally_cons, tally_cons]
    cases fate <;> simp [Fate.weight] <;> omega

instance Consecutive.decidable : (counter : Nat) → (packets : List Packet) →
    Decidable (Consecutive counter packets)
  | _, [] => .isTrue trivial
  | counter, _ :: rest =>
    have := Consecutive.decidable (counter + 1) rest
    inferInstanceAs (Decidable (_ ∧ _ ∧ _))

theorem Silence.eq_zero_of_intact {α : Type} {journey : List (α × Fate)} {count : Nat}
    (silence : Silence journey count) (last : ∀ sent ∈ journey.getLast?, sent.2 = .intact) :
    count = 0 := by
  obtain ⟨before, first, gap, rfl, -, silent, long⟩ := silence
  obtain rfl | ⟨front, final, rfl⟩ := List.eq_nil_or_concat gap
  · exact Nat.le_zero.mp long
  · refine absurd (last final ?_) (silent final (by simp))
    rw [List.concat_eq_append, ← List.cons_append, ← List.append_assoc]
    exact List.getLast?_concat

/-- A gap of at most fourteen counters is as many packets as were missed. -/
theorem Lane.missing_eq {lane : Lane} {counter missed last : Nat} {packet : Packet}
    (expects : lane.Expects counter) (known : lane.counter = some last) (few : missed ≤ 14)
    (next : packet.header.counter = (counter + missed) % 16)
    (steady : packet.isDiscontinuous = false) : lane.missing packet = missed := by
  obtain rfl | some_missed := Nat.eq_zero_or_pos missed
  · rw [missing, read_inOrder expects next steady]
  · have gap : lane.continuity packet = .gap missed := by
      obtain ⟨small, follows⟩ := expects last known
      simp only [continuity, Continuity.between, known, steady, Bool.false_eq_true, ↓reduceIte]
      rw [if_neg (by omega), if_neg (by omega)]
      exact congrArg Continuity.gap (by omega)
    rw [missing, gap]

/-- Payload packets sent in turn on a PID. The first and the last get through, and at most fourteen
in a row do not. -/
structure Journey (pid : Nat) (journey : List (Bytes × Fate)) : Prop where
  onPid : ∀ sent ∈ journey, (arriving? pid sent.1).isSome
  consecutive : ∃ counter, Consecutive counter ((journey.map Prod.fst).filterMap (arriving? pid))
  begins : ∀ sent ∈ journey.head?, sent.2 = .intact
  ends : ∀ sent ∈ journey.getLast?, sent.2 = .intact
  short : ShortGaps journey

namespace Demux

/-- A registered PID that carries no table. -/
structure Elementary (d : Demux) (pid : Nat) : Prop where
  registered : ∃ streamType, d.streamType? pid = some streamType
  notFirst : pid ≠ AssociationTable.tablePid
  notListed : pid ∉ d.mapPids

section
variable {d : Demux} {pid : Nat} {raw : Bytes} {packet : Packet}

theorem Elementary.plain (elementary : d.Elementary pid) (onPid : packet.header.pid = pid) :
    Plain d.mapPids packet :=
  fun _ => onPid ▸ ⟨elementary.notFirst, elementary.notListed⟩

/-- A packet that arrives whole moves the lane, and what the lane misses is lost. -/
theorem read_arriving (elementary : d.Elementary pid) (arrives : arriving? pid raw = some packet) :
    (d.read raw).2.Elementary pid ∧ (d.read raw).2.lane pid = ((d.lane pid).read packet).2 ∧
      (d.read raw).2.lostPackets = d.lostPackets + (d.lane pid).missing packet := by
  obtain ⟨parsed, intact, rfl, carries⟩ := arriving?_eq_some.mp arrives
  obtain ⟨streamType, known⟩ := elementary.registered
  have turn := d.read_turn parsed (elementary.plain rfl)
  have met := (d.lane packet.header.pid).meet_payload intact carries streamType
  rw [← known] at met
  refine ⟨⟨⟨streamType, ?_⟩, elementary.notFirst, ?_⟩, ?_, ?_⟩
  · rw [turn.streamType?, known]
  · rw [turn.mapPids]
    exact elementary.notListed
  · rw [turn.lane, if_pos rfl, meet, met]
  · rw [turn.lost, meet, met]

end

theorem isFlagged_flag {raw : Bytes} {pid : Nat} (onPid : (arriving? pid raw).isSome) :
    isFlagged (flag raw) = true := by
  obtain ⟨packet, arrives⟩ := Option.isSome_iff_exists.mp onPid
  obtain ⟨marked, parsed, error⟩ := parse_flag (arriving?_eq_some.mp arrives).1
  rw [isFlagged, parsed]
  exact error

/-- The walk over what is sent after `before`, of which the last `missed` did not get through. -/
theorem lost_from {d : Demux} {pid last counter missed : Nat} (elementary : d.Elementary pid)
    {before rest : List (Bytes × Fate)} (known : (d.lane pid).counter = some last)
    (expects : (d.lane pid).Expects counter) (silence : Silence before missed)
    (onPid : ∀ sent ∈ rest, (arriving? pid sent.1).isSome)
    (consecutive : Consecutive (counter + missed)
      ((rest.map Prod.fst).filterMap (arriving? pid)))
    (short : ShortGaps (before ++ rest))
    (ends : ∀ sent ∈ (before ++ rest).getLast?, sent.2 = .intact) :
    (d.readAll (received rest)).2.lostPackets = d.lostPackets + missed + counted rest := by
  induction rest generalizing d last counter missed before with
  | nil =>
    obtain rfl := silence.eq_zero_of_intact (by simpa using ends)
    rfl
  | cons sent rest ih =>
    obtain ⟨raw, fate⟩ := sent
    obtain ⟨packet, arrives⟩ := Option.isSome_iff_exists.mp (onPid _ List.mem_cons_self)
    have later : ∀ sent ∈ rest, (arriving? pid sent.1).isSome := fun sent member =>
      onPid sent (List.mem_cons_of_mem _ member)
    rw [List.map_cons, List.filterMap_cons_some arrives] at consecutive
    obtain ⟨counts, steady, consecutive⟩ := consecutive
    have short' : ShortGaps ((before ++ [(raw, fate)]) ++ rest) := by simpa using short
    have ends' : ∀ sent ∈ ((before ++ [(raw, fate)]) ++ rest).getLast?, sent.2 = .intact := by
      simpa using ends
    cases fate with
    | intact =>
      have few := silence.le_of_broken short
      obtain ⟨elementary', moved, lost⟩ := read_arriving elementary arrives
      rw [Lane.missing_eq expects known few counts steady] at lost
      have walked := ih elementary' (by rw [moved, Lane.read_counter])
        (moved ▸ (d.lane pid).read_expects counts) (.begins before raw) later consecutive short'
        ends'
      calc (d.readAll (received ((raw, .intact) :: rest))).2.lostPackets
        _ = ((d.read raw).2.readAll (received rest)).2.lostPackets := rfl
        _ = d.lostPackets + missed + counted rest := by rw [walked, lost, Nat.add_zero]
        _ = d.lostPackets + missed + counted ((raw, .intact) :: rest) := by
          rw [counted, Fate.weight, Nat.zero_add]
    | flagged =>
      have marked := isFlagged_flag (onPid _ List.mem_cons_self)
      have elementary' : { d with lostPackets := d.lostPackets + 1 }.Elementary pid :=
        ⟨elementary.registered, elementary.notFirst, elementary.notListed⟩
      have walked := ih elementary' known expects (silence.goes_on raw (by decide)) later
        consecutive short' ends'
      calc (d.readAll (received ((raw, .flagged) :: rest))).2.lostPackets
        _ = ((d.read (flag raw)).2.readAll (received rest)).2.lostPackets := rfl
        _ = d.lostPackets + 1 + (missed + 1) + counted rest := by
          rw [read_of_flagged d marked, walked]
        _ = d.lostPackets + missed + counted ((raw, .flagged) :: rest) := by
          rw [counted, Fate.weight]
          omega
    | removed =>
      have walked := ih elementary known expects (silence.goes_on raw (by decide)) later
        consecutive short' ends'
      calc (d.readAll (received ((raw, .removed) :: rest))).2.lostPackets
        _ = (d.readAll (received rest)).2.lostPackets := rfl
        _ = d.lostPackets + (missed + 1) + counted rest := walked
        _ = d.lostPackets + missed + counted ((raw, .removed) :: rest) := by
          rw [counted, Fate.weight]
          omega

/-- A PID that has no counter yet misses nothing before its first packet. -/
theorem lost_from_first {d : Demux} {pid : Nat} (elementary : d.Elementary pid)
    (unread : d.counters[pid]? = none) {journey : List (Bytes × Fate)}
    (sent : Journey pid journey) :
    (d.readAll (received journey)).2.lostPackets = d.lostPackets + counted journey := by
  obtain ⟨onPid, ⟨counter, consecutive⟩, begins, ends, short⟩ := sent
  cases journey with
  | nil => rfl
  | cons sent rest =>
    obtain ⟨raw, fate⟩ := sent
    obtain rfl : fate = .intact := begins _ rfl
    obtain ⟨packet, arrives⟩ := Option.isSome_iff_exists.mp (onPid _ List.mem_cons_self)
    have later : ∀ sent ∈ rest, (arriving? pid sent.1).isSome := fun sent member =>
      onPid sent (List.mem_cons_of_mem _ member)
    rw [List.map_cons, List.filterMap_cons_some arrives] at consecutive
    obtain ⟨counts, -, consecutive⟩ := consecutive
    obtain ⟨elementary', moved, lost⟩ := read_arriving elementary arrives
    have first : (d.lane pid).missing packet = 0 := by
      rw [Lane.missing, Lane.continuity, lane, unread, Continuity.between]
    rw [first] at lost
    have walked := lost_from elementary' (by rw [moved, Lane.read_counter])
      (moved ▸ (d.lane pid).read_expects counts) (.begins [] raw) later consecutive short ends
    calc (d.readAll (received ((raw, .intact) :: rest))).2.lostPackets
      _ = ((d.read raw).2.readAll (received rest)).2.lostPackets := rfl
      _ = d.lostPackets + counted rest := by rw [walked, lost, Nat.add_zero]
      _ = d.lostPackets + counted ((raw, .intact) :: rest) := by
        rw [counted, Fate.weight, Nat.zero_add]

/-- **Flagged packets count twice.** Between two packets that get through, the count grows by one
for each packet that never came and by two for each that came marked as damaged. It is the number
of packets that did not get through exactly when none came marked. -/
theorem lost_on_journey (d : Demux) {pid : Nat} (elementary : d.Elementary pid)
    (unread : d.counters[pid]? = none) {journey : List (Bytes × Fate)}
    (sent : Journey pid journey) :
    let lost := (d.readAll (received journey)).2.lostPackets
    lost = d.lostPackets + tally .removed journey + 2 * tally .flagged journey ∧
      (lost = d.lostPackets + tally .removed journey + tally .flagged journey ↔
        ∀ sent ∈ journey, sent.2 ≠ .flagged) := by
  intro lost
  have doubled : lost = d.lostPackets + tally .removed journey + 2 * tally .flagged journey := by
    rw [Nat.add_assoc, ← counted_eq]
    exact lost_from_first elementary unread sent
  refine ⟨doubled, ?_⟩
  rw [doubled, ← tally_eq_zero]
  omega

end Demux

namespace Sample

/-- The tables alone leave the video PID unread. -/
theorem ready_unread : ready.Elementary 0x100 ∧ ready.counters[0x100]? = none ∧
    ready.lostPackets = 0 := by
  have held : ready.streamType? 0x100 = some 0x1B ∧ 0x100 ∉ ready.mapPids ∧
      ready.counters[0x100]? = none ∧ ready.lostPackets = 0 := by decide +kernel
  obtain ⟨known, notListed, unread, lost⟩ := held
  exact ⟨⟨⟨0x1B, known⟩, by decide, notListed⟩, unread, lost⟩

/-- All four video packets; of the two in between one comes marked and the other never comes. -/
def interrupted : List (Bytes × Fate) := video.zip [.intact, .flagged, .removed, .intact]

theorem interrupted_counted :
    ready.Elementary 0x100 ∧ ready.counters[0x100]? = none ∧ Journey 0x100 interrupted ∧
      (ready.readAll (received interrupted)).2.lostPackets = 3 := by
  obtain ⟨elementary, unread, none_lost⟩ := ready_unread
  have sent : Journey 0x100 interrupted := {
    onPid := by decide +kernel
    consecutive := ⟨15, by decide +kernel⟩
    begins := by decide +kernel
    ends := by decide +kernel
    short := .of_length (by decide +kernel) }
  obtain ⟨lost, -⟩ := ready.lost_on_journey elementary unread sent
  have tallies : tally .removed interrupted = 1 ∧ tally .flagged interrupted = 1 := by
    decide +kernel
  rw [none_lost, tallies.1, tallies.2] at lost
  exact ⟨elementary, unread, sent, lost⟩

/-- One packet between two others comes marked. -/
def marked : List (Bytes × Fate) := (video.take 3).zip [.intact, .flagged, .intact]

/-- Of three packets one does not get through, and two count as lost. -/
theorem flagged_counted_twice :
    ready.Elementary 0x100 ∧ ready.counters[0x100]? = none ∧ Journey 0x100 marked ∧
      tally .removed marked + tally .flagged marked = 1 ∧ ready.lostPackets = 0 ∧
      (ready.readAll (received marked)).2.lostPackets = 2 := by
  obtain ⟨elementary, unread, none_lost⟩ := ready_unread
  have sent : Journey 0x100 marked := {
    onPid := by decide +kernel
    consecutive := ⟨15, by decide +kernel⟩
    begins := by decide +kernel
    ends := by decide +kernel
    short := .of_length (by decide +kernel) }
  refine ⟨elementary, unread, sent, ?_, none_lost, ?_⟩ <;> decide +kernel

end Sample

end MotionImagery.Transport
