import Mathlib.Data.List.Basic
import MotionImagery.Proofs.Transport.DamagedTables

/-!
A demultiplexer that is read from, flushed and reset in any order. A read that fails leaves everything
as it was, and so does a section whose check fails. Nothing is kept for a PID whose stream type is not
known, so a flush gives out every unit in progress.
-/
namespace MotionImagery.Transport

namespace Demux

/-- The states that a demultiplexer comes to. -/
inductive Reachable : Demux → Prop
  | new (verify : Bool) : Reachable (new verify)
  | read {d : Demux} (before : Reachable d) (raw : Bytes) : Reachable (d.read raw).2
  | flush {d : Demux} (before : Reachable d) : Reachable d.flush.2
  | reset {d : Demux} (before : Reachable d) : Reachable d.reset

theorem Reachable.readAll {d : Demux} (before : Reachable d) (packets : List Bytes) :
    Reachable (d.readAll packets).2 := by
  induction packets generalizing d with
  | nil => exact before
  | cons raw rest ih => exact ih (before.read raw)

/-- Neither a counter nor a unit is kept for a PID whose stream type is not known. -/
def Registered (d : Demux) : Prop := ∀ pid, d.streamType? pid = none → d.lane pid = .empty

theorem registered_new (verify : Bool) : (new verify).Registered := by
  intro pid _
  simp [lane, new, Lane.empty]

/-- A map table only adds stream types, and a payload is read on a PID that has one. -/
theorem Registered.read {d : Demux} (registered : d.Registered) (raw : Bytes) :
    (d.read raw).2.Registered := by
  have effect := d.reading raw
  generalize (d.read raw).1 = answer, (d.read raw).2 = next at effect ⊢
  cases effect with
  | refused | unverified | association => exact registered
  | map packet s table =>
    intro pid unknown
    rw [streamType?, getElem?_register, Option.or_eq_none_iff] at unknown
    exact registered pid unknown.2
  | plain packet _ _ _ _ plain =>
    cases plain with
    | flagged | passed => exact registered
    | payload streamType _ _ known =>
      intro pid unknown
      rw [readPayload_streamType?] at unknown
      have elsewhere : pid ≠ packet.header.pid := by
        rintro rfl
        rw [known] at unknown
        cases unknown
      rw [readPayload_lane, if_neg elsewhere]
      exact registered pid unknown

theorem Registered.flush {d : Demux} (registered : d.Registered) : d.flush.2.Registered := by
  intro pid unknown
  have before := congrArg Lane.counter (registered pid unknown)
  simpa [lane, Demux.flush, Lane.empty] using before

theorem registered_reset (d : Demux) : d.reset.Registered := by
  intro pid _
  simp [lane, reset, Lane.empty]

theorem Reachable.registered {d : Demux} (reachable : Reachable d) : d.Registered := by
  induction reachable with
  | new verify => exact registered_new verify
  | read _ raw ih => exact ih.read raw
  | flush _ ih => exact ih.flush
  | reset => exact registered_reset _

namespace Registered
variable {d : Demux} (registered : d.Registered)
include registered

theorem exists_streamType {pid : Nat}
    (kept : (∃ data, d.pending[pid]? = some data) ∨ ∃ counter, d.counters[pid]? = some counter) :
    ∃ streamType, d.streamType? pid = some streamType := by
  cases known : d.streamType? pid with
  | some streamType => exact ⟨streamType, rfl⟩
  | none =>
    have empty := registered pid known
    obtain ⟨data, pending⟩ | ⟨counter, counted⟩ := kept
    · simp [lane, pending, Lane.empty] at empty
    · simp [lane, counted, Lane.empty] at empty

/-- What is given out is what was in progress, in the order of the PIDs. -/
theorem flush_units :
    d.flush.1.map (fun unit => (unit.pid, unit.data)) = d.pending.toList := by
  have each : ∀ entry ∈ d.pending.toList,
      (d.streamType? entry.1).map (fun _ => entry) = some entry := by
    rintro ⟨pid, data⟩ member
    have pending := Std.ExtTreeMap.mem_toList_iff_getElem?_eq_some.mp member
    obtain ⟨streamType, known⟩ := registered.exists_streamType (.inl ⟨data, pending⟩)
    rw [known, Option.map_some]
  simp only [Demux.flush, List.map_filterMap, Option.map_map, Function.comp_def]
  rw [List.filterMap_congr each, List.filterMap_some]

theorem flush_pids : d.flush.1.map (·.pid) = d.pending.keys := by
  rw [← Std.ExtTreeMap.map_fst_toList_eq_keys, ← registered.flush_units, List.map_map]
  rfl

end Registered

/-- Each unit has the stream type of its PID. -/
theorem mem_flush {d : Demux} {unit : ElementaryUnit} :
    unit ∈ d.flush.1 ↔ d.pending[unit.pid]? = some unit.data ∧
      d.streamType? unit.pid = some unit.streamType := by
  simp only [flush, List.mem_filterMap, Prod.exists, Std.ExtTreeMap.mem_toList_iff_getElem?_eq_some,
    Option.map_eq_some_iff]
  constructor
  · rintro ⟨pid, data, pending, streamType, known, rfl⟩
    exact ⟨pending, known⟩
  · rintro ⟨pending, known⟩
    exact ⟨unit.pid, unit.data, pending, unit.streamType, known, rfl⟩

theorem ascending_keys (pending : Std.ExtTreeMap Nat Bytes) : pending.keys.Pairwise (· < ·) :=
  Std.ExtTreeMap.ordered_keys.imp Nat.compare_eq_lt.mp

/-- **A failed read changes nothing, and a flush leaves nothing.** A read fails for just the causes
listed, and then, as when the check of the table that is due does not hold, everything is as before.
Whatever has a counter or a unit in progress has a stream type, so a flush gives out one unit for each
PID with one in progress, in ascending order, and no unit is in progress after it. -/
theorem failed_reads_change_nothing {d : Demux} (reachable : Reachable d) :
    (∀ raw error, (d.read raw).1 = .error error ↔ d.Refusal raw error) ∧
    (∀ raw error, (d.read raw).1 = .error error → (d.read raw).2 = d) ∧
    (∀ raw packet, d.Due raw packet → d.FailsCheck packet → d.read raw = (.ok none, d)) ∧
    (∀ pid, (∃ data, d.pending[pid]? = some data) ∨ (∃ counter, d.counters[pid]? = some counter) →
      ∃ streamType, d.streamType? pid = some streamType) ∧
    d.flush.1.map (·.pid) = d.pending.keys ∧ d.pending.keys.Pairwise (· < ·) ∧
    (∀ unit, unit ∈ d.flush.1 ↔ d.pending[unit.pid]? = some unit.data ∧
      d.streamType? unit.pid = some unit.streamType) ∧
    d.flush.2 = { d with pending := ∅ } := by
  refine ⟨fun raw error => ⟨fun failed => (refusal_of_read failed).1, fun cause => ?_⟩,
    fun raw error failed => (refusal_of_read failed).2, fun raw packet => read_unverified,
    fun pid => reachable.registered.exists_streamType, reachable.registered.flush_pids,
    ascending_keys d.pending, fun unit => mem_flush, rfl⟩
  rw [read_of_refusal cause]

end Demux

namespace Sample

/-- An association table whose check is zero. -/
def zeroChecked : Bytes :=
  [0x00, 0xB0, 0x0D, 0x00, 0x01, 0xC1, 0x00, 0x00, 0x00, 0x01, 0xF0, 0x00, 0x00, 0x00, 0x00, 0x00]

/-- Once the stream is read two units are in progress. -/
def underway : Demux := ((Demux.new true).readAll (pat :: pmt :: stream)).2

theorem zeroChecked_fails : ∃ packet, underway.Due (wrapSection 0 zeroChecked) packet ∧
    underway.FailsCheck packet := by
  have parsed : Packet.parse (wrapSection 0 zeroChecked) =
      .ok ⟨⟨false, true, 0, 1, 0⟩, none, 0 :: (zeroChecked ++ List.replicate 167 0xFF)⟩ := by
    decide +kernel
  have unverified : ∃ s, Section.parse (zeroChecked ++ List.replicate 167 0xFF) = .ok s ∧
      s.verifies (zeroChecked ++ List.replicate 167 0xFF) = false :=
    ⟨⟨0, true, 13, 1, 0, true, [0x00, 0x01, 0xF0, 0x00], 0⟩, by decide +kernel⟩
  obtain ⟨s, sectionParsed, fails⟩ := unverified
  have verified : underway.verifyCheck = true := by
    rw [underway]
    exact Demux.verified_readAll rfl _
  exact ⟨_, ⟨parsed, rfl, rfl, .inl rfl⟩, verified, _, s, by decide +kernel, sectionParsed, fails⟩

theorem failures_undone :
    (underway.read []).1 = .error (.invalidPacket .tooShort) ∧ (underway.read []).2 = underway ∧
      underway.read (wrapSection 0 zeroChecked) = (.ok none, underway) ∧
      underway.pending.keys = [0x100, 0x102] ∧ underway.flush.1.map (·.pid) = [0x100, 0x102] := by
  have reachable : Demux.Reachable underway := (Demux.Reachable.new true).readAll _
  obtain ⟨causes, same, unverified, -, pids, -⟩ := Demux.failed_reads_change_nothing reachable
  have failed := (causes [] _).mpr (.packet .tooShort rfl)
  obtain ⟨packet, due, fails⟩ := zeroChecked_fails
  have pending : underway.pending.keys = [0x100, 0x102] := by decide +kernel
  exact ⟨failed, same [] _ failed, unverified _ packet due fails, pending, pids.trans pending⟩

end Sample

end MotionImagery.Transport
