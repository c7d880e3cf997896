import MotionImagery.Config.Monitor

/-!
When a file is handed off. A condition is ready when one of the thresholds is reached that a walk
over it meets, so the shape of its tree does not matter. The condition of a monitor has the
thresholds of the command line, or else those of the configuration file.
-/
namespace MotionImagery

namespace Buffer

/-- Two lists, one after the other, with a mark between any two items. -/
theorem intersperse_append {α : Type} (mark : α) {items others : List α} (left : items ≠ [])
    (right : others ≠ []) :
    (items ++ others).intersperse mark =
      items.intersperse mark ++ mark :: others.intersperse mark := by
  induction items with
  | nil => exact absurd rfl left
  | cons item rest ih =>
    cases rest with
    | nil =>
      obtain ⟨first, behind, rfl⟩ := List.exists_cons_of_ne_nil right
      rfl
    | cons next rest =>
      have joined := ih (List.cons_ne_nil next rest)
      rw [List.cons_append, List.cons_append, List.intersperse_cons_cons, ← List.cons_append,
        joined, List.intersperse_cons_cons]
      rfl

namespace Visit

def isThreshold : Visit → Bool
  | either => false
  | _ => true

/-- A threshold that is reached; what stands between two thresholds never is. -/
def isReached (state : FileState) : Visit → Bool
  | byteCount threshold => decide (threshold ≤ state.byteCount)
  | elapsed threshold => decide (threshold ≤ state.age)
  | either => false

variable {visit : Visit} {state later : FileState}

theorem isThreshold_of_isReached (reached : visit.isReached state = true) :
    visit.isThreshold = true := by
  cases visit with
  | either => cases reached
  | _ => rfl

theorem isReached_mono (bytes : state.byteCount ≤ later.byteCount) (age : state.age ≤ later.age)
    (reached : visit.isReached state = true) : visit.isReached later = true := by
  cases visit with
  | byteCount threshold =>
    exact decide_eq_true (Nat.le_trans (of_decide_eq_true reached) bytes)
  | elapsed threshold => exact decide_eq_true (Nat.le_trans (of_decide_eq_true reached) age)
  | either => cases reached

end Visit

namespace RolloverCondition

@[simp]
theorem isReady_byteCount (threshold : Nat) (state : FileState) :
    (byteCount threshold).isReady state = true ↔ threshold ≤ state.byteCount :=
  decide_eq_true_iff

@[simp]
theorem isReady_elapsed (threshold : Nat) (state : FileState) :
    (elapsed threshold).isReady state = true ↔ threshold ≤ state.age :=
  decide_eq_true_iff

@[simp]
theorem isReady_either (left right : RolloverCondition) (state : FileState) :
    (either left right).isReady state = true ↔
      left.isReady state = true ∨ right.isReady state = true :=
  Bool.or_eq_true_iff

/-- The thresholds that a walk meets, in its order. -/
def thresholds (condition : RolloverCondition) : List Visit :=
  condition.visits.filter Visit.isThreshold

variable {condition other : RolloverCondition} {state later : FileState}

theorem thresholds_either (left right : RolloverCondition) :
    (either left right).thresholds = left.thresholds ++ right.thresholds := by
  rw [thresholds, visits, List.filter_append, List.filter_cons_of_neg Bool.false_ne_true]
  rfl

theorem thresholds_ne_nil (condition : RolloverCondition) : condition.thresholds ≠ [] := by
  induction condition with
  | byteCount | elapsed => exact List.cons_ne_nil _ _
  | either left right ih _ =>
    rw [thresholds_either]
    exact List.append_ne_nil_of_left_ne_nil ih _

/-- A walk meets thresholds and marks in turn, a threshold first and last. -/
theorem visits_eq_intersperse (condition : RolloverCondition) :
    condition.visits = condition.thresholds.intersperse .either := by
  induction condition with
  | byteCount | elapsed => rfl
  | either left right first second =>
    rw [thresholds_either, intersperse_append .either left.thresholds_ne_nil
      right.thresholds_ne_nil, ← first, ← second, visits]

theorem isReady_iff :
    condition.isReady state = true ↔ ∃ visit ∈ condition.visits, visit.isReached state = true := by
  induction condition with
  | byteCount | elapsed => simp [visits, Visit.isReached]
  | either left right first second =>
    simp only [isReady_either, visits, first, second, List.mem_append, List.mem_cons]
    constructor
    · rintro (⟨visit, member, reached⟩ | ⟨visit, member, reached⟩)
      · exact ⟨visit, .inl member, reached⟩
      · exact ⟨visit, .inr (.inr member), reached⟩
    · rintro ⟨visit, member | rfl | member, reached⟩
      · exact .inl ⟨visit, member, reached⟩
      · cases reached
      · exact .inr ⟨visit, member, reached⟩

/-- Only the thresholds matter, neither their order nor the tree that they stand in. -/
theorem isReady_congr
    (same : ∀ visit, visit ∈ condition.thresholds ↔ visit ∈ other.thresholds)
    (state : FileState) : condition.isReady state = other.isReady state := by
  have reached : ∀ condition : RolloverCondition, condition.isReady state = true ↔
      ∃ visit ∈ condition.thresholds, visit.isReached state = true := by
    intro condition
    rw [isReady_iff]
    refine exists_congr fun visit => and_congr_left fun reached => ?_
    exact (List.mem_filter.trans (and_iff_left (Visit.isThreshold_of_isReached reached))).symm
  rw [Bool.eq_iff_iff, reached, reached]
  simp only [same]

theorem isReady_mono (bytes : state.byteCount ≤ later.byteCount) (age : state.age ≤ later.age)
    (ready : condition.isReady state = true) : condition.isReady later = true := by
  obtain ⟨visit, member, reached⟩ := isReady_iff.mp ready
  exact isReady_iff.mpr ⟨visit, member, Visit.isReached_mono bytes age reached⟩

/-- What is said of a condition and of what a walk over it meets. -/
structure ByThresholds (condition : RolloverCondition) : Prop where
  ready : ∀ state, condition.isReady state = true ↔
    ∃ visit ∈ condition.visits, visit.isReached state = true
  /-- One threshold at least, and a mark between any two. -/
  alternates : condition.thresholds ≠ [] ∧
    condition.visits = condition.thresholds.intersperse .either
  /-- Whatever the trees and the order of the thresholds. -/
  alike : ∀ other : RolloverCondition,
    (∀ visit, visit ∈ condition.thresholds ↔ visit ∈ other.thresholds) →
      ∀ state, condition.isReady state = other.isReady state
  monotone : ∀ state later : FileState, state.byteCount ≤ later.byteCount →
    state.age ≤ later.age → condition.isReady state = true → condition.isReady later = true

end RolloverCondition

end Buffer

namespace Config
open Buffer

/-- A file, whose age counts microseconds, is due by the thresholds that are given, or by the
standard size where none is. -/
def Due (megabytes seconds : Option Nat) (state : FileState) : Prop :=
  (∃ count ∈ megabytes, count * 1000000 ≤ state.byteCount) ∨
    (∃ count ∈ seconds, count * 1000000 ≤ state.age) ∨
      megabytes = none ∧ seconds = none ∧ 10000000 ≤ state.byteCount

/-- A megabyte count of which no threshold can be made: none at all, or too large for 64 bits. -/
def Unusable (count : Nat) : Prop := count = 0 ∨ 0xFFFFFFFFFFFFFFFF / 1000000 < count

theorem bytes_of_usable {count : Nat} (usable : ¬ Unusable count) :
    count * 1000000 ≤ 0xFFFFFFFFFFFFFFFF :=
  (Nat.le_div_iff_mul_le (by decide)).mp (Nat.le_of_not_lt (not_or.mp usable).2)

namespace MonitorSettings
variable {count : Nat} {megabytes : Option Nat}

theorem megabytes_of_unusable (unusable : Unusable count) :
    RolloverCondition.megabytes count = .error ⟨count⟩ :=
  if_pos unusable

theorem megabytes_of_usable (usable : ¬ Unusable count) :
    RolloverCondition.megabytes count = .ok (.byteCount (count * 1000000)) :=
  if_neg usable

theorem rollover_of_unusable (unusable : Unusable count) (seconds : Option Nat) :
    rollover (some count) seconds = .error ⟨count⟩ := by
  cases seconds <;> rw [rollover, megabytes_of_unusable unusable]
  rfl

/-- The condition that is made of usable thresholds. -/
theorem exists_rollover (usable : ∀ count ∈ megabytes, ¬ Unusable count) (seconds : Option Nat) :
    ∃ condition, rollover megabytes seconds = .ok condition ∧
      ∀ state, condition.isReady state = true ↔ Due megabytes seconds state := by
  cases megabytes with
  | none =>
    cases seconds with
    | none =>
      have standard : ¬ Unusable standardMegabytes := not_or.mpr ⟨by decide, by decide⟩
      refine ⟨_, megabytes_of_usable standard, fun state => ?_⟩
      simp [Due, standardMegabytes]
    | some age =>
      refine ⟨_, rfl, fun state => ?_⟩
      simp [Due, microseconds]
  | some count =>
    have made := megabytes_of_usable (usable count rfl)
    cases seconds with
    | none =>
      refine ⟨_, made, fun state => ?_⟩
      simp [Due]
    | some age =>
      refine ⟨_, by rw [rollover, made]; rfl, fun state => ?_⟩
      simp [Due, microseconds]

section
variable (arguments : Arguments) (file : File)

/-- The count in effect: that of the command line, or else that of the file. -/
def megabytesInEffect : Option Nat := arguments.rolloverMegabytes.or file.rollover.megabytes

def secondsInEffect : Option Nat := arguments.rolloverSeconds.or file.rollover.seconds

/-- Nothing but an unusable count stands in the way of settings. -/
theorem merge_cases :
    (∃ count ∈ megabytesInEffect arguments file, Unusable count ∧
      merge arguments file = .error ⟨count⟩) ∨
    ∃ settings, (∀ count ∈ megabytesInEffect arguments file, ¬ Unusable count) ∧
      merge arguments file = .ok settings ∧
        ∀ state, settings.session.rollover.isReady state = true ↔
          Due (megabytesInEffect arguments file) (secondsInEffect arguments file) state := by
  by_cases usable : ∀ count ∈ megabytesInEffect arguments file, ¬ Unusable count
  · obtain ⟨condition, made, ready⟩ := exists_rollover usable (secondsInEffect arguments file)
    obtain ⟨settings, merged, rfl⟩ : ∃ settings, merge arguments file = .ok settings ∧
        settings.session.rollover = condition := by
      rw [merge, ← megabytesInEffect, ← secondsInEffect, made]
      exact ⟨_, rfl, rfl⟩
    exact .inr ⟨settings, usable, merged, ready⟩
  · obtain ⟨count, inEffect, unusable⟩ :
        ∃ count ∈ megabytesInEffect arguments file, Unusable count := by simpa using usable
    refine .inl ⟨count, inEffect, unusable, ?_⟩
    rw [merge, ← megabytesInEffect, ← secondsInEffect, inEffect, rollover_of_unusable unusable]
    rfl

end

/-- **Thresholds mean what was configured.** There are no settings exactly when the megabyte count
in effect is unusable; otherwise files are due by the thresholds in effect. Of any condition only
the thresholds matter that a walk over it meets. -/
theorem thresholds_mean_what_was_configured :
    (∀ (arguments : Arguments) (file : File),
      (∀ error, merge arguments file = .error error ↔
        ∃ count ∈ megabytesInEffect arguments file, Unusable count ∧ error = ⟨count⟩) ∧
      ∀ settings, merge arguments file = .ok settings →
        (∀ count ∈ megabytesInEffect arguments file, count * 1000000 ≤ 0xFFFFFFFFFFFFFFFF) ∧
          ∀ state, settings.session.rollover.isReady state = true ↔
            Due (megabytesInEffect arguments file) (secondsInEffect arguments file) state) ∧
    ∀ condition : RolloverCondition, condition.ByThresholds := by
  refine ⟨fun arguments file => ?_, fun condition => ?_⟩
  · obtain ⟨count, inEffect, unusable, failed⟩ | ⟨settings, usable, merged, ready⟩ :=
      merge_cases arguments file
    · refine ⟨fun error => ⟨fun given => ?_, ?_⟩, fun settings merged => ?_⟩
      · cases failed.symm.trans given
        exact ⟨count, inEffect, unusable, rfl⟩
      · rintro ⟨other, same, -, rfl⟩
        cases inEffect.symm.trans same
        exact failed
      · cases failed.symm.trans merged
    · refine ⟨fun error => ⟨fun failed => ?_, ?_⟩, fun given same => ?_⟩
      · cases merged.symm.trans failed
      · rintro ⟨count, inEffect, unusable, -⟩
        exact absurd unusable (usable count inEffect)
      · cases merged.symm.trans same
        exact ⟨fun count inEffect => bytes_of_usable (usable count inEffect), ready⟩
  · exact ⟨fun _ => RolloverCondition.isReady_iff,
      ⟨condition.thresholds_ne_nil, condition.visits_eq_intersperse⟩,
      fun _ => RolloverCondition.isReady_congr,
      fun _ _ => RolloverCondition.isReady_mono⟩

/-- The count of the command line comes before that of the file, which alone would be refused. -/
theorem sample_thresholds :
    let arguments : Arguments := { Arguments.empty with rolloverMegabytes := some 2 }
    let file : File := { File.empty with rollover := ⟨some 0, some 60⟩ }
    ∃ settings, merge arguments file = .ok settings ∧
      ∀ state, settings.session.rollover.isReady state = true ↔
        2000000 ≤ state.byteCount ∨ 60000000 ≤ state.age := by
  intro arguments file
  obtain ⟨settings, merged⟩ : ∃ settings, merge arguments file = .ok settings := ⟨_, rfl⟩
  refine ⟨settings, merged, fun state => ?_⟩
  have ready := ((thresholds_mean_what_was_configured.1 arguments file).2 settings merged).2 state
  simpa [Due, megabytesInEffect, secondsInEffect, arguments, file, Arguments.empty] using ready

end MonitorSettings

end Config

end MotionImagery
