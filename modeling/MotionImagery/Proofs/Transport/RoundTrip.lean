import MotionImagery.Proofs.Transport.Multiplex

/-!
Demultiplexing undoes cutting and mixing: what is read of a multiplexed stream, together with what
a flush gives at its end, is on every PID what was sent there.
-/
namespace MotionImagery.Transport

theorem filter_key {α : Type} {pid : Nat} {entries : List (Nat × α)}
    (distinct : entries.Pairwise fun a b => ¬compare a.1 b.1 = .eq) {value? : Option α}
    (members : ∀ value, (pid, value) ∈ entries ↔ value? = some value) :
    entries.filter (·.1 = pid) = value?.toList.map fun value => (pid, value) := by
  induction entries generalizing value? with
  | nil =>
    cases value? with
    | none => rfl
    | some value => simp at members
  | cons entry rest ih =>
    obtain ⟨apart, distinctRest⟩ := List.pairwise_cons.mp distinct
    obtain ⟨key, value⟩ := entry
    by_cases same : key = pid
    · subst same
      obtain rfl := (members value).mp List.mem_cons_self
      have none_left : rest.filter (·.1 = key) = [] := by
        rw [List.filter_eq_nil_iff]
        intro other member
        have := apart other member
        simpa using fun h => this (by simp [h])
      simp [none_left]
    · have others : ∀ value, (pid, value) ∈ rest ↔ value? = some value := by
        intro other
        rw [← members other]
        simp [Ne.symm same]
      simp [same, ih distinctRest others]

namespace Demux

/-- A flush gives what every lane holds. -/
theorem flush_lane (d : Demux) {pid streamType : Nat}
    (known : d.streamType? pid = some streamType) :
    d.flush.1.filter (·.pid = pid) =
      (d.lane pid).pending.toList.map fun data => ⟨pid, streamType, data⟩ := by
  have held : d.pending.toList.filter (·.1 = pid) =
      d.pending[pid]?.toList.map fun data => (pid, data) :=
    filter_key Std.ExtTreeMap.distinct_keys_toList fun _ =>
      Std.ExtTreeMap.mem_toList_iff_getElem?_eq_some
  have swap : d.flush.1.filter (·.pid = pid) =
      (d.pending.toList.filter (·.1 = pid)).filterMap fun entry =>
        (d.streamType? entry.1).map fun streamType =>
          (⟨entry.1, streamType, entry.2⟩ : ElementaryUnit) := by
    simp only [flush, List.filter_filterMap, List.filterMap_filter]
    congr
    funext entry
    by_cases same : entry.1 = pid
    · cases d.streamType? entry.1 <;> simp [same]
    · cases d.streamType? entry.1 <;> simp [same]
  rw [swap, held]
  cases pending : d.pending[pid]? <;> simp [lane, pending, known]

end Demux

/-- **Demultiplexing undoes cutting and mixing.** Read behind its two tables, a stream of cut units
gives every PID its units back, byte for byte and in order. No read fails, and as lost count only
the packets marked as damaged that were mixed in. -/
theorem demultiplexed_units (verify : Bool) {association : AssociationTable} {mapPid : Nat}
    {map : MapTable} {pat pmt : Bytes} (announced : CarriesAssociation pat association)
    (mapped : CarriesMap pmt mapPid map) (listed : mapPid ∈ association.mapPids)
    (apart : Apart association map) {units : Nat → List CutUnit} {stream : List Bytes}
    (sent : Multiplexed association mapPid map units stream) :
    let run := (Demux.new verify).readAll (pat :: pmt :: stream)
    (∀ outcome ∈ run.1, ∃ unit, outcome = .ok unit) ∧
      run.2.lostPackets = stream.countP isFlagged ∧
      ∀ pid streamType, map.streamType? pid = some streamType →
        (unitsOf run.1 ++ run.2.flush.1).filter (·.pid = pid) =
          (units pid).map fun unit => ⟨pid, streamType, unit.bytes⟩ := by
  obtain ⟨d, force, lanes, nothing_lost, read⟩ := inForce_new announced mapped listed verify
  have whole (pid streamType : Nat) (registered : map.streamType? pid = some streamType) :
      Lane.empty.Gapless (stream.filterMap (arriving? pid)) ∧
        (Lane.empty.run (stream.filterMap (arriving? pid))).1 ++
            (Lane.empty.run (stream.filterMap (arriving? pid))).2.pending.toList =
          (units pid).map CutUnit.bytes := by
    obtain ⟨counter, resent⟩ := sent.lanes pid streamType registered
    have small := pid_lt_of_streamType mapped registered
    obtain ⟨gapless, due⟩ := Lane.run_resent .empty (resent_arriving small resent)
      (consecutive_packetsFrom pid counter _) (by simp [Lane.Expects, Lane.empty]) (by simp)
    rw [Lane.due_nil, Lane.due_empty, gather_units] at due
    exact ⟨gapless, due⟩
  obtain ⟨force', succeed, -, lane⟩ := readAll_lane force apart listed sent.traffic
  have lost := readAll_lost force apart listed sent.traffic fun pid streamType registered => by
    rw [lanes]
    exact (whole pid streamType registered).1
  intro run
  simp only [run, read]
  refine ⟨?_, by rw [lost, nothing_lost, Nat.zero_add], fun pid streamType registered => ?_⟩
  · simpa using succeed
  · obtain ⟨left, given⟩ := lane pid streamType registered
    rw [lanes] at left given
    have known : (d.readAll stream).2.streamType? pid = some streamType :=
      (force'.streamTypes pid).trans registered
    rw [List.filter_append, unitsOf_cons, unitsOf_cons, Demux.flush_lane _ known, left]
    have all := congrArg (List.map fun data => (⟨pid, streamType, data⟩ : ElementaryUnit))
      (whole pid streamType registered).2
    rw [List.map_append, ← given, List.map_map] at all
    exact all

/-- One demultiplexed stream: repeats, strangers and a repeated table leave the units as they were
sent, and the marked packet counts as lost. -/
theorem sample_demultiplexed :
    Multiplexed Sample.association 0x1000 Sample.map Sample.units Sample.stream ∧
      let run := (Demux.new true).readAll (Sample.pat :: Sample.pmt :: Sample.stream)
      run.2.lostPackets = 1 ∧
        (unitsOf run.1 ++ run.2.flush.1).filter (·.pid = 0x100) =
          [⟨0x100, 0x1B, List.replicate 184 0xA5 ++ [1, 2, 3]⟩, ⟨0x100, 0x1B, [9]⟩,
            ⟨0x100, 0x1B, [8]⟩] ∧
        (unitsOf run.1 ++ run.2.flush.1).filter (·.pid = 0x102) = [⟨0x102, 0x15, [7, 7]⟩] := by
  refine ⟨Sample.multiplexed, ?_⟩
  obtain ⟨-, lost, units⟩ := demultiplexed_units true Sample.pat_announces Sample.pmt_maps
    Sample.listed Sample.apart Sample.multiplexed
  have marked : Sample.stream.countP isFlagged = 1 := by decide +kernel
  have video := units 0x100 0x1B rfl
  have telemetry := units 0x102 0x15 rfl
  exact ⟨lost.trans marked, video, telemetry⟩

/-- An adaptation field and nothing else, in a packet that claims to start a table. -/
def Sample.emptyTable : Bytes := stuffed 0x40 0x00

/-- Not everything that is mixed in goes by unnoticed. A marked packet counts as lost even on a PID
that no table mentions, and a packet without payload fails where it claims to start a table. -/
theorem mixed_in_noticed :
    CarriesAssociation Sample.pat Sample.association ∧ CarriesMap Sample.pmt 0x1000 Sample.map ∧
      Apart Sample.association Sample.map ∧
      Multiplexed Sample.association 0x1000 Sample.map Sample.units Sample.stream ∧
      (∀ raw ∈ Sample.stream, isFlagged raw = true → raw = Sample.stranger) ∧
      Packet.parse Sample.stranger = .ok ⟨⟨true, false, 0x77, 2, 0⟩, some false, []⟩ ∧
      0x77 ≠ AssociationTable.tablePid ∧ 0x77 ∉ Sample.association.mapPids ∧
      Sample.map.streamType? 0x77 = none ∧
      Packet.parse Sample.emptyTable = .ok ⟨⟨false, true, 0, 2, 0⟩, some false, []⟩ ∧
      let run := (Demux.new true).readAll
        (Sample.pat :: Sample.pmt :: Sample.stream ++ [Sample.emptyTable])
      run.2.lostPackets ≠ 0 ∧ .error (.invalidTable 0 .missingPayload) ∈ run.1 := by
  refine ⟨Sample.pat_announces, Sample.pmt_maps, Sample.apart, Sample.multiplexed, ?_, ?_, ?_, ?_,
    rfl, ?_, ?_⟩
  all_goals decide +kernel

end MotionImagery.Transport
