import MotionImagery.Proofs.Transport.Multiplex

/-!
Packets that start a section where a table is due and bring none. They change nothing, and what
follows them is read as if they had not come; only an association table without programs is an error
that the stream does not survive.
-/
namespace MotionImagery.Transport

/-- An association table whose every entry is for program zero, or that has none. -/
def NamesNoProgram (raw : Bytes) : Prop :=
  ∃ s, CarriesSection raw AssociationTable.tablePid s ∧ s.tableId = AssociationTable.tableId ∧
    s.body.length % 4 = 0 ∧
    ∀ i, 4 * i + 4 ≤ s.body.length → slice s.body (4 * i) (4 * i + 2) = [0, 0]

/-- A packet that arrived whole starts a section on the PID of a table, and carries no table. -/
def BringsNoTable (d : Demux) (raw : Bytes) : Prop :=
  (∃ packet, Packet.parse raw = .ok packet ∧ packet.header.transportError = false ∧
    packet.header.unitStart = true ∧
    (packet.header.pid = AssociationTable.tablePid ∨ packet.header.pid ∈ d.mapPids)) ∧
  (∀ table, ¬CarriesAssociation raw table) ∧ ∀ pid table, ¬CarriesMap raw pid table

namespace AssociationTable

theorem slice_behind (a b c d : UInt8) (rest : Bytes) (i : Nat) :
    slice (a :: b :: c :: d :: rest) (4 * (i + 1)) (4 * (i + 1) + 2) =
      slice rest (4 * i) (4 * i + 2) := by
  rw [slice, slice, Nat.mul_add, Nat.mul_one, Nat.add_right_comm]
  rfl

theorem number_eq_zero (high low : UInt8) :
    high.toNat * 256 + low.toNat = 0 ↔ [high, low] = [0, 0] := by
  rw [List.cons.injEq, List.cons.injEq, ← UInt8.toNat_inj, ← UInt8.toNat_inj, UInt8.toNat_zero]
  simp only [and_true]
  omega

/-- No program is listed when every number is zero. -/
theorem entries_eq_nil (body : Bytes) :
    entries body = [] ↔
      ∀ i, 4 * i + 4 ≤ body.length → slice body (4 * i) (4 * i + 2) = [0, 0] := by
  fun_induction entries body with
  | case1 numberHigh numberLow pidHigh pidLow rest number zero ih =>
    rw [ih]
    constructor
    · intro every i inside
      cases i with
      | zero => exact (number_eq_zero numberHigh numberLow).mp zero
      | succ i =>
        rw [slice_behind]
        exact every i (by simp only [List.length_cons] at inside; omega)
    · intro every i inside
      rw [← slice_behind numberHigh numberLow pidHigh pidLow]
      exact every (i + 1) (by simp only [List.length_cons]; omega)
  | case2 numberHigh numberLow pidHigh pidLow rest number listed ih =>
    refine ⟨nofun, fun every => absurd ?_ listed⟩
    exact (number_eq_zero numberHigh numberLow).mpr (every 0 (by simp))
  | case3 body short =>
    refine ⟨fun _ i inside => ?_, fun _ => rfl⟩
    match body, short with
    | [], _ | [_], _ | [_, _], _ | [_, _, _], _ => simp at inside
    | a :: b :: c :: d :: rest, short => exact absurd rfl (short a b c d rest)

end AssociationTable

/-- Which tables name no program, as they are read. -/
theorem namesNoProgram_iff (raw : Bytes) :
    NamesNoProgram raw ↔ ∃ s table, CarriesSection raw AssociationTable.tablePid s ∧
      AssociationTable.ofSection s = .ok table ∧ table.programs = [] := by
  constructor
  · rintro ⟨s, carried, tableId, whole, zero⟩
    refine ⟨s, ⟨s.version, AssociationTable.entries s.body⟩, carried, ?_, ?_⟩
    · rw [AssociationTable.ofSection, if_neg (not_not_intro tableId), if_neg (not_not_intro whole)]
    · exact (AssociationTable.entries_eq_nil s.body).mpr zero
  · rintro ⟨s, table, carried, tabled, empty⟩
    unfold AssociationTable.ofSection at tabled
    split at tabled
    · cases tabled
    · rename_i tableId
      split at tabled
      · cases tabled
      · rename_i whole
        cases tabled
        exact ⟨s, carried, Decidable.not_not.mp tableId, Decidable.not_not.mp whole,
          (AssociationTable.entries_eq_nil s.body).mp empty⟩

namespace Demux

variable {d : Demux} (verified : d.verifyCheck = true) {raw : Bytes}
include verified

/-- **Only a table without programs is fatal.** -/
theorem read_fatal_iff : (d.read raw).1 = .error .emptyProgramList ↔ NamesNoProgram raw := by
  rw [namesNoProgram_iff]
  constructor
  · intro fatal
    obtain ⟨cause, -⟩ := refusal_of_read fatal
    cases cause with
    | programs packet s table due pid takes tabled empty =>
      exact ⟨s, table, pid ▸ carriesSection_of_takes verified due takes, tabled, empty⟩
  · rintro ⟨s, table, carried, tabled, empty⟩
    obtain ⟨packet, -, parsed, intact, starts, pid, -⟩ := id carried
    have due : d.Due raw packet := ⟨parsed, intact, starts, .inl pid⟩
    rw [read_of_refusal (.programs packet s table due pid (d.takes_of_carriesSection carried parsed)
      tabled empty)]

/-- **A packet that brings no table changes nothing.** -/
theorem read_brings_no_table (missing : BringsNoTable d raw) :
    (d.read raw).2 = d ∧ unitsOf [(d.read raw).1] = [] := by
  obtain ⟨⟨packet, parsed, intact, starts, place⟩, noAssociation, noMap⟩ := missing
  have due : d.Due raw packet := ⟨parsed, intact, starts, place⟩
  have effect := d.reading raw
  generalize (d.read raw).1 = answer, (d.read raw).2 = next at effect ⊢
  cases effect with
  | refused | unverified => exact ⟨rfl, rfl⟩
  | association packet' s table due' pid takes tabled inhabited =>
    exact absurd ⟨inhabited, s, pid ▸ carriesSection_of_takes verified due' takes, tabled⟩
      (noAssociation table)
  | map packet' s table due' apart takes tabled =>
    exact absurd ⟨apart, s, carriesSection_of_takes verified due' takes, tabled⟩ (noMap _ table)
  | plain packet' _ _ parsed' other =>
    obtain rfl := Except.ok.inj (parsed.symm.trans parsed')
    exact absurd due other

theorem verified_read (raw : Bytes) : (d.read raw).2.verifyCheck = true := by
  have effect := d.read_effect verified raw
  generalize (d.read raw).1 = outcome, (d.read raw).2 = next at effect ⊢
  cases effect with
  | refused | passed | flagged | association | map => exact verified
  | payload packet streamType => exact (d.readPayload_rest streamType packet).2.2.1.trans verified

theorem verified_readAll (packets : List Bytes) : (d.readAll packets).2.verifyCheck = true := by
  induction packets generalizing d with
  | nil => exact verified
  | cons packet rest ih => exact ih (verified_read verified packet)

/-- **A packet that brings no table is passed over.** The tables and the units are those that there
would be without it. -/
theorem readAll_passes_over {before : List Bytes} (after : List Bytes)
    (missing : BringsNoTable (d.readAll before).2 raw) :
    (d.readAll (before ++ raw :: after)).2 = (d.readAll (before ++ after)).2 ∧
      unitsOf (d.readAll (before ++ raw :: after)).1 = unitsOf (d.readAll (before ++ after)).1 := by
  obtain ⟨same, none_given⟩ := read_brings_no_table (verified_readAll verified before) missing
  have here : (d.readAll before).2.readAll (raw :: after) =
      (((d.readAll before).2.read raw).1 :: (((d.readAll before).2.read raw).2.readAll after).1,
        (((d.readAll before).2.read raw).2.readAll after).2) := rfl
  rw [same] at here
  rw [Demux.readAll_append, Demux.readAll_append, here]
  refine ⟨rfl, ?_⟩
  rw [unitsOf_append, unitsOf_append, unitsOf_cons, none_given, List.nil_append]

end Demux

end MotionImagery.Transport
