import MotionImagery.Proofs.Transport.Multiplex

/-!
Packets that are damaged or lost on the way. A lane notices every gap of one to fourteen packets
and lets go of the unit in progress, so what it gives out is always a unit as it was sent.
-/
namespace MotionImagery.Transport

inductive Fate where
  | intact
  | flagged
  | removed
  deriving DecidableEq, Repr

/-- The packet with its error indicator set. -/
def flag : Bytes → Bytes
  | sync :: first :: rest => sync :: (first ||| 0x80) :: rest
  | raw => raw

def Fate.arrival (fate : Fate) (raw : Bytes) : Option Bytes :=
  match fate with
  | intact => some raw
  | flagged => some (flag raw)
  | removed => none

/-- What is received of packets that each meet their fate. -/
def received (journey : List (Bytes × Fate)) : List Bytes :=
  journey.filterMap fun (raw, fate) => fate.arrival raw

/-- What gets through unchanged. -/
def survivors {α : Type} (journey : List (α × Fate)) : List α :=
  (journey.filter fun sent => decide (sent.2 = .intact)).map Prod.fst

/-- Between two that get through at most fourteen in a row do not. -/
def ShortGaps {α : Type} (journey : List (α × Fate)) : Prop :=
  ∀ before first gap second after, journey = before ++ first :: (gap ++ second :: after) →
    first.2 = .intact → second.2 = .intact → (∀ sent ∈ gap, sent.2 ≠ .intact) → gap.length ≤ 14

theorem ShortGaps.of_length {α : Type} {journey : List (α × Fate)} (short : journey.length ≤ 16) :
    ShortGaps journey := by
  rintro before first gap second after rfl - - -
  simp only [List.length_append, List.length_cons] at short
  omega

theorem parse_flag {raw : Bytes} {packet : Packet} (parsed : Packet.parse raw = .ok packet) :
    ∃ marked, Packet.parse (flag raw) = .ok marked ∧ marked.header.transportError = true := by
  match raw with
  | [] | [_] | [_, _] | [_, _, _] | [_, _, _, _] | [_, _, _, _, _] =>
    simp [Packet.parse, packetSize] at parsed
  | sync :: first :: second :: third :: fieldLength :: flags :: rest =>
    have set : 128 ≤ (first ||| 0x80).toNat := by
      rw [UInt8.toNat_or]
      exact Nat.right_le_or
    rw [flag]
    simp only [Packet.parse, List.length_cons] at parsed ⊢
    split at parsed
    · cases parsed
    · rename_i long
      split at parsed
      · rename_i synced
        rw [if_neg long, if_pos synced]
        exact ⟨_, rfl, decide_eq_true set⟩
      · cases parsed

theorem Traffic.flagged_of_flag {association : AssociationTable} {mapPid : Nat} {map : MapTable}
    {raw : Bytes} (traffic : Traffic association mapPid map raw) : isFlagged (flag raw) = true := by
  have parsed : ∃ packet, Packet.parse raw = .ok packet := by
    cases traffic with
    | flagged marked =>
      unfold isFlagged at marked
      split at marked
      · exact ⟨_, ‹_›⟩
      · cases marked
    | association carried =>
      obtain ⟨-, s, ⟨packet, data, parsed, -⟩, -⟩ := carried
      exact ⟨packet, parsed⟩
    | map carried =>
      obtain ⟨-, s, ⟨packet, data, parsed, -⟩, -⟩ := carried
      exact ⟨packet, parsed⟩
    | other packet parsed => exact ⟨packet, parsed⟩
  obtain ⟨packet, parsed⟩ := parsed
  obtain ⟨marked, parsed', error⟩ := parse_flag parsed
  simp [isFlagged, parsed', error]

/-- What is received of `todo` after `last` was, when gaps are short. -/
inductive Arrives {α : Type} : Option α → List α → List α → Prop
  | done (last : Option α) (todo : List α) : Arrives last todo []
  | again {x : α} {todo received : List α} :
      Arrives (some x) todo received → Arrives (some x) todo (x :: received)
  | next {last : Option α} {missed : List α} {x : α} {todo received : List α}
      (few : last.isSome → missed.length ≤ 14) :
      Arrives (some x) todo received → Arrives last (missed ++ x :: todo) (x :: received)

theorem Arrives.filterMap {α β : Type} {f : α → Option β} {last : Option α} {todo received : List α}
    (arrives : Arrives last todo received) (kept : ∀ x ∈ last, (f x).isSome)
    (all : ∀ x ∈ todo, (f x).isSome) :
    Arrives (last.bind f) (todo.filterMap f) (received.filterMap f) := by
  induction arrives with
  | done last todo => exact .done _ _
  | @again x todo received _ ih =>
    obtain ⟨y, found⟩ := Option.isSome_iff_exists.mp (kept x rfl)
    have rest := ih kept all
    rw [Option.bind_some, found] at rest ⊢
    rw [List.filterMap_cons_some found]
    exact .again rest
  | @next last missed x todo received few _ ih =>
    obtain ⟨y, found⟩ := Option.isSome_iff_exists.mp (all x (by simp))
    have rest := ih (by rintro _ ⟨⟩; simp [found]) fun other member => all other (by simp [member])
    rw [Option.bind_some, found] at rest
    rw [List.filterMap_append, List.filterMap_cons_some found, List.filterMap_cons_some found]
    refine .next (fun received => ?_) rest
    have known : last.isSome := by
      cases last with
      | none => simp at received
      | some => rfl
    exact Nat.le_trans (List.length_filterMap_le f missed) (few known)

/-- At least `count` in a row have not got through since one did. -/
def Silence {α : Type} (journey : List (α × Fate)) (count : Nat) : Prop :=
  ∃ before first gap, journey = before ++ first :: gap ∧ first.2 = .intact ∧
    (∀ sent ∈ gap, sent.2 ≠ .intact) ∧ count ≤ gap.length

namespace Silence
variable {α : Type} {journey : List (α × Fate)} {count : Nat}

theorem begins (journey : List (α × Fate)) (x : α) : Silence (journey ++ [(x, .intact)]) 0 :=
  ⟨journey, (x, .intact), [], rfl, rfl, by simp, Nat.le_refl 0⟩

theorem goes_on (silence : Silence journey count) (x : α) {fate : Fate} (lost : fate ≠ .intact) :
    Silence (journey ++ [(x, fate)]) (count + 1) := by
  obtain ⟨before, first, gap, rfl, intact, silent, long⟩ := silence
  refine ⟨before, first, gap ++ [(x, fate)], by simp, intact, fun sent member => ?_, by simpa⟩
  obtain earlier | here := List.mem_append.mp member
  · exact silent sent earlier
  · rw [List.mem_singleton.mp here]
    exact lost

theorem of_le (silence : Silence journey count) {fewer : Nat} (le : fewer ≤ count) :
    Silence journey fewer := by
  obtain ⟨before, first, gap, same, intact, silent, long⟩ := silence
  exact ⟨before, first, gap, same, intact, silent, Nat.le_trans le long⟩

theorem le_of_broken (silence : Silence journey count) {x : α} {rest : List (α × Fate)}
    (short : ShortGaps (journey ++ (x, .intact) :: rest)) : count ≤ 14 := by
  obtain ⟨before, first, gap, rfl, intact, silent, long⟩ := silence
  exact Nat.le_trans long (short before first gap (x, .intact) rest (by simp) intact rfl silent)

end Silence

/-- The walk over what is sent: of `last`, the latest that got through, and `missed`, what was sent
after it, the first is as long ago as the second is long. -/
theorem arrives_from {α : Type} (last : Option α) (missed : List α) {todo : List α}
    (before : List (α × Fate)) {rest : List (α × Fate)}
    (resent : Resent (missed.getLast?.or last) todo (rest.map Prod.fst))
    (short : ShortGaps (before ++ rest)) (silence : last.isSome → Silence before missed.length) :
    Arrives last (missed ++ todo) (survivors rest) := by
  induction rest generalizing before last missed todo with
  | nil => exact .done _ _
  | cons sent rest ih =>
    obtain ⟨x, fate⟩ := sent
    have short' : ShortGaps ((before ++ [(x, fate)]) ++ rest) := by simpa using short
    by_cases through : fate = .intact
    · subst through
      have few : last.isSome → missed.length ≤ 14 := fun known => (silence known).le_of_broken short
      have resumed (todo : List α) (resent : Resent (some x) todo (rest.map Prod.fst)) :
          Arrives (some x) todo (survivors rest) :=
        ih (some x) [] _ resent short' fun _ => .begins before x
      have kept : survivors ((x, Fate.intact) :: rest) = x :: survivors rest := by simp [survivors]
      rw [kept]
      generalize latest : missed.getLast?.or last = current at resent
      cases resent with
      | next resent => exact .next few (resumed _ resent)
      | again resent =>
        obtain rfl | ⟨front, final, rfl⟩ := List.eq_nil_or_concat missed
        · obtain rfl : last = some x := by simpa using latest
          exact .again (resumed _ resent)
        · obtain rfl : final = x := by simpa using latest
          rw [List.concat_eq_append, List.append_assoc]
          refine .next (fun known => ?_) (resumed _ resent)
          have := few known
          rw [List.length_concat] at this
          omega
    · have silent (known : last.isSome) := (silence known).goes_on x through
      have lost : survivors ((x, fate) :: rest) = survivors rest := by simp [survivors, through]
      rw [lost]
      generalize latest : missed.getLast?.or last = current at resent
      cases resent with
      | @next _ _ todo _ resent =>
        have walked := ih last (missed ++ [x]) _ (by simpa using resent) short'
          fun known => by simpa using silent known
        simpa using walked
      | again resent =>
        exact ih last missed _ (latest ▸ resent) short' fun known =>
          (silent known).of_le (Nat.le_succ _)

/-- Sent in turn with short gaps, what gets through arrives. -/
theorem arrives_survivors {α : Type} {todo : List α} {journey : List (α × Fate)}
    (resent : Resent none todo (journey.map Prod.fst)) (short : ShortGaps journey) :
    Arrives none todo (survivors journey) :=
  arrives_from none [] [] resent short (by simp)

namespace Lane

/-- A packet behind missed ones gives out nothing of a unit that they belonged to. -/
theorem read_behind {lane : Lane} {counter : Nat} {last : Option Packet} {missed : List Packet}
    {packet : Packet} (some_missed : missed ≠ []) (few : last.isSome → missed.length ≤ 14)
    (expects : lane.Expects counter) (unread : last = none → lane = .empty)
    (latest : ∀ packet ∈ last, lane.counter = some packet.header.counter)
    (counted : packet.header.counter = (counter + missed.length) % 16)
    (steady : packet.isDiscontinuous = false) (todo : List Packet) :
    (lane.read packet).1.toList ++ (lane.read packet).2.due todo = (gather (packet :: todo)).2 := by
  cases last with
  | none =>
    rw [unread rfl]
    exact read_due rfl todo
  | some previous =>
    have gap := List.length_pos_iff.mpr some_missed
    obtain ⟨lost, follows⟩ :=
      read_gap expects (latest previous rfl) (by omega) (few rfl) counted steady
    exact read_behind_gap follows todo

/-- **Gaps only take units away.** Of the units that were due, a lane gives out some, whole and in
order, whichever packets stay out. -/
theorem run_arrives (lane : Lane) {counter : Nat} {last : Option Packet}
    {todo received : List Packet} (arrives : Arrives last todo received)
    (consecutive : Consecutive counter todo)
    (expects : lane.Expects counter) (unread : last = none → lane = .empty)
    (latest : ∀ packet ∈ last,
      lane.counter = some packet.header.counter ∧ packet.isDiscontinuous = false) :
    (lane.run received).1.Sublist (lane.due todo) := by
  induction arrives generalizing lane counter with
  | done => exact List.nil_sublist _
  | @again packet todo received _ ih =>
    obtain ⟨counted, steady⟩ := latest packet rfl
    have rest := ih lane consecutive expects unread latest
    simpa [run, read_again counted steady] using rest
  | @next last missed packet todo received few _ ih =>
    obtain ⟨counted, steady, later⟩ := consecutive.drop
    have rest := ih _ later (lane.read_expects counted) (by simp) (by
      rintro _ ⟨⟩
      exact ⟨lane.read_counter packet, steady⟩)
    have here := rest.append_left (lane.read packet).1.toList
    simp only [run]
    obtain rfl | some_missed := List.eq_nil_or_concat missed
    · rwa [read_due (read_inOrder expects counted steady)] at here
    · have some_missed : missed ≠ [] := by
        obtain ⟨front, final, rfl⟩ := some_missed
        simp
      rw [read_behind some_missed few expects unread (fun packet member => (latest packet member).1)
        counted steady] at here
      have left := (gather_suffix missed (packet :: todo)).sublist
      exact (here.trans left).trans (lane.gather_sublist_due _)

end Lane

/-- What arrives on a PID of what is received is what arrived there before and got through. -/
theorem received_arriving {association : AssociationTable} {mapPid : Nat} {map : MapTable}
    {journey : List (Bytes × Fate)}
    (traffic : ∀ raw ∈ journey.map Prod.fst, Traffic association mapPid map raw) (pid : Nat) :
    (received journey).filterMap (arriving? pid) =
      (survivors (journey.filter fun sent => (arriving? pid sent.1).isSome)).filterMap
        (arriving? pid) := by
  induction journey with
  | nil => rfl
  | cons sent rest ih =>
    obtain ⟨raw, fate⟩ := sent
    have later := ih fun raw member => traffic raw (List.mem_cons_of_mem _ member)
    have marked := (traffic raw List.mem_cons_self).flagged_of_flag
    cases fate <;> cases arrives : arriving? pid raw <;>
      simp_all [received, survivors, Fate.arrival, arriving_of_flagged marked pid]

theorem received_traffic {association : AssociationTable} {mapPid : Nat} {map : MapTable}
    {journey : List (Bytes × Fate)}
    (traffic : ∀ raw ∈ journey.map Prod.fst, Traffic association mapPid map raw) :
    ∀ raw ∈ received journey, Traffic association mapPid map raw := by
  intro raw member
  obtain ⟨⟨sent, fate⟩, travelled, arrival⟩ := List.mem_filterMap.mp member
  have before := traffic sent (List.mem_map_of_mem travelled)
  cases fate with
  | intact => exact Option.some.inj arrival ▸ before
  | flagged => exact Option.some.inj arrival ▸ .flagged before.flagged_of_flag
  | removed => cases arrival

/-- **Loss never corrupts a unit.** Whatever packets are marked or removed on the way, as long as
no more than fourteen in a row are on one PID, the units read there are some of the units sent
there, byte for byte, in order, and none of them twice. -/
theorem units_survive_loss (verify : Bool) {association : AssociationTable} {mapPid : Nat}
    {map : MapTable} {pat pmt : Bytes} (announced : CarriesAssociation pat association)
    (mapped : CarriesMap pmt mapPid map) (listed : mapPid ∈ association.mapPids)
    (apart : Apart association map) {units : Nat → List CutUnit} {journey : List (Bytes × Fate)}
    (sent : Multiplexed association mapPid map units (journey.map Prod.fst))
    (short : ∀ pid streamType, map.streamType? pid = some streamType →
      ShortGaps (journey.filter fun sent => (arriving? pid sent.1).isSome)) :
    let run := (Demux.new verify).readAll (pat :: pmt :: received journey)
    (∀ outcome ∈ run.1, ∃ unit, outcome = .ok unit) ∧
      (∀ unit ∈ unitsOf run.1, map.streamType? unit.pid = some unit.streamType ∧
        ∃ original ∈ units unit.pid, unit.data = original.bytes) ∧
      ∀ pid streamType, map.streamType? pid = some streamType →
        ((unitsOf run.1).filter (·.pid = pid)).Sublist
          ((units pid).map fun unit => ⟨pid, streamType, unit.bytes⟩) := by
  obtain ⟨d, force, lanes, -, read⟩ := inForce_new announced mapped listed verify
  obtain ⟨-, succeed, known, lane⟩ :=
    readAll_lane force apart listed (received_traffic sent.traffic)
  have ordered (pid streamType : Nat) (registered : map.streamType? pid = some streamType) :
      ((unitsOf (d.readAll (received journey)).1).filter (·.pid = pid)).Sublist
        ((units pid).map fun unit => ⟨pid, streamType, unit.bytes⟩) := by
    obtain ⟨counter, resent⟩ := sent.lanes pid streamType registered
    have small := pid_lt_of_streamType mapped registered
    have onPid : (journey.map Prod.fst).filter (fun raw => (arriving? pid raw).isSome) =
        (journey.filter fun sent => (arriving? pid sent.1).isSome).map Prod.fst := by
      rw [List.filter_map]
      rfl
    rw [onPid] at resent
    have arrives := (arrives_survivors resent (short pid streamType registered)).filterMap
      (f := arriving? pid) (by simp) (isSome_arriving_of_mem_encodeFrom small)
    rw [packetize, arriving?_encodeFrom small, ← received_arriving sent.traffic] at arrives
    have given := Lane.run_arrives .empty arrives (consecutive_packetsFrom pid counter _)
      (by simp [Lane.Expects, Lane.empty]) (fun _ => rfl) (by simp)
    rw [Lane.due_empty, gather_units] at given
    rw [(lane pid streamType registered).2, lanes]
    have mapped := given.map fun data => (⟨pid, streamType, data⟩ : ElementaryUnit)
    rwa [List.map_map] at mapped
  have tables_give_none (outcomes : List (Except DemuxError (Option ElementaryUnit))) :
      unitsOf (.ok none :: .ok none :: outcomes) = unitsOf outcomes := rfl
  intro run
  simp only [run, read, tables_give_none]
  refine ⟨by simpa using succeed, fun unit member => ?_, ordered⟩
  have registered := known unit member
  have among : unit ∈ (units unit.pid).map fun original =>
      (⟨unit.pid, unit.streamType, original.bytes⟩ : ElementaryUnit) :=
    (ordered unit.pid unit.streamType registered).subset (by simp [List.mem_filter, member])
  obtain ⟨original, member', same⟩ := List.mem_map.mp among
  exact ⟨registered, original, member', (congrArg ElementaryUnit.data same).symm⟩

/-- The second packet of the first video unit does not get through, nor does the telemetry. -/
def Sample.journey : List (Bytes × Fate) :=
  Sample.stream.zip
    [.intact, .intact, .intact, .removed, .flagged, .intact, .removed, .intact, .intact]

/-- A video unit with a packet missing is not given out, the next one is. -/
theorem sample_survives_loss :
    let run := (Demux.new true).readAll (Sample.pat :: Sample.pmt :: received Sample.journey)
    ((unitsOf run.1).filter (·.pid = 0x100)).Sublist
        ((Sample.units 0x100).map fun unit => ⟨0x100, 0x1B, unit.bytes⟩) ∧
      unitsOf run.1 = [⟨0x100, 0x1B, [9]⟩] := by
  have whole : Sample.journey.map Prod.fst = Sample.stream := by decide +kernel
  have short (pid streamType : Nat) (_ : Sample.map.streamType? pid = some streamType) :
      ShortGaps (Sample.journey.filter fun sent => (arriving? pid sent.1).isSome) :=
    .of_length (Nat.le_trans (List.length_filter_le _ _) (by decide +kernel))
  obtain ⟨-, -, units⟩ := units_survive_loss true Sample.pat_announces Sample.pmt_maps
    Sample.listed Sample.apart (whole ▸ Sample.multiplexed) short
  exact ⟨units 0x100 0x1B rfl, by decide +kernel⟩

end MotionImagery.Transport
