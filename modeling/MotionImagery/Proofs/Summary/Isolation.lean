import Mathlib.Data.List.DropRight
import MotionImagery.Proofs.Summary.Gathering

/-!
Windows know nothing of each other. Taking a value in never changes what its collector is reset to,
so closing a window leaves behind what the collectors were made as. At any time a window is a new
one, with the rules that are in force, that took in the units since the last closing.
-/
namespace MotionImagery.Summary
open Telemetry

theorem Track.map_new_add (field : String) (sample : Float) (tracks : List Track) :
    (add field sample tracks).map (fun track => new track.field) =
      tracks.map fun track => new track.field := by
  induction tracks with
  | nil => rfl
  | cons track rest ih =>
    rw [add]
    split
    · rfl
    · rw [List.map_cons, List.map_cons, ih]

namespace Collected

theorem reset_accept (field : String) (value : Value) (collected : Collected) :
    (collected.accept field value).reset = collected.reset := by
  cases collected with
  | list | latest | distinct | dates => rfl
  | corners tracks =>
    cases given : value.float? with
    | none => simp [accept, given]
    | some sample => simp [accept, given, reset, Track.map_new_add]
  | positions tracks =>
    cases given : value.float? with
    | none => simp [accept, given]
    | some sample => simp [accept, given, reset, Track.map_new_add]

theorem reset_acceptSample (field : String) (sample : Float) (collected : Collected) :
    (collected.acceptSample field sample).reset = collected.reset := by
  cases collected with
  | list | latest | distinct | dates => rfl
  | corners tracks => exact congrArg corners (Track.map_new_add field sample tracks)
  | positions tracks => exact congrArg positions (Track.map_new_add field sample tracks)

end Collected

/-- Collectors as they are made, before any value was taken in. -/
inductive Collector.Fresh : Collector → Prop
  | list (name : String) : Fresh (.list name)
  | latest (name : String) : Fresh (.latest name)
  | distinct (name : String) : Fresh (.distinct name)
  | dates (name : String) : Fresh (.dates name)
  | corners (name : String) (fields : List String) : Fresh (.corners name fields)
  | positions (name latitude longitude : String) : Fresh (.positions name latitude longitude)

namespace Collector

theorem Fresh.reset {collector : Collector} (fresh : collector.Fresh) :
    collector.reset = collector := by
  cases fresh with
  | list | latest | distinct | dates => rfl
  | corners name fields =>
    simp [Collector.reset, Collected.reset, Collector.corners, Track.new]
  | positions name latitude longitude => rfl

theorem reset_accept (field : String) (value : Value) (collector : Collector) :
    (collector.accept field value).reset = collector.reset :=
  congrArg (Collector.mk collector.name) (Collected.reset_accept field value collector.collected)

theorem reset_acceptSample (field : String) (sample : Float) (collector : Collector) :
    (collector.acceptSample field sample).reset = collector.reset :=
  congrArg (Collector.mk collector.name)
    (Collected.reset_acceptSample field sample collector.collected)

end Collector

namespace CollectorSet

/-- Sets of collectors as they are put together. -/
inductive Fresh : CollectorSet → Prop
  | empty : Fresh .empty
  | add {set : CollectorSet} (fresh : Fresh set) (fields : List String) {collector : Collector}
      (unused : collector.Fresh) : Fresh (set.add fields collector)

theorem Fresh.reset {set : CollectorSet} (fresh : set.Fresh) : set.reset = set := by
  induction fresh with
  | empty => rfl
  | @add set _ fields collector unused ih =>
    have earlier : set.collectors.map Collector.reset = set.collectors :=
      congrArg CollectorSet.collectors ih
    simp [CollectorSet.reset, CollectorSet.add, earlier, unused.reset]

theorem fresh_uasDatalink : Fresh .uasDatalink := by
  unfold uasDatalink
  dsimp only [List.foldl]
  repeat refine .add ?_ _ (by constructor)
  exact .empty

theorem reset_modify {change : Collector → Collector}
    (kept : ∀ collector, (change collector).reset = collector.reset) (field : String)
    (set : CollectorSet) : (set.modify field change).reset = set.reset := by
  unfold modify
  split
  · rfl
  · exact congrArg (CollectorSet.mk · set.serving) (map_modify_of_kept kept _ set.collectors)

theorem reset_accept (field : String) (value : Value) (set : CollectorSet) :
    (set.accept field value).reset = set.reset :=
  reset_modify (Collector.reset_accept field value) field set

mutual

theorem reset_acceptValue (field : String) : ∀ (value : Value) (set : CollectorSet),
    (set.acceptValue field value).reset = set.reset
  | .set fields, set => reset_acceptFields fields set
  | .unsigned number, set => set.reset_accept field (.unsigned number)
  | .float number, set => set.reset_accept field (.float number)
  | .text content, set => set.reset_accept field (.text content)
  | .bytes content, set => set.reset_accept field (.bytes content)

/-- Whatever is taken in, a reset leads back to the same. -/
theorem reset_acceptFields : ∀ (fields : List (String × Value)) (set : CollectorSet),
    (set.acceptFields fields).reset = set.reset
  | [], _ => rfl
  | (field, value) :: rest, set => by
    rw [acceptFields, reset_acceptFields rest, reset_acceptValue field value]

end

theorem reset_deriveCorners (unit : Fields) (set : CollectorSet) :
    (set.deriveCorners unit).reset = set.reset := by
  by_cases served : FieldName.corners.all set.serves = true
  · rw [deriveCorners_eq unit set served]
    clear served
    induction derived unit generalizing set with
    | nil => rfl
    | cons entry rest ih =>
      rw [List.foldl_cons, ih]
      apply reset_modify
      intro collector
      split
      · exact collector.reset_acceptSample entry.1 entry.2
      · rfl
  · rw [deriveCorners, if_neg served]

end CollectorSet

/-- What is asked of a window. The visitor by which its rules are adjusted may remember what it has
met. -/
inductive Request where
  | accept (unit : Fields)
  | adjust {σ : Type} (visitor : Derivation.Visitor (StateM σ)) (memory : σ)
  | finish (settings : Settings)

namespace Request

def unit? : Request → Option Fields
  | accept unit => some unit
  | _ => none

def closes : Request → Bool
  | finish _ => true
  | _ => false

end Request

/-- The units taken in since the last closing. -/
def unitsSinceClosing (history : List Request) : List Fields :=
  (history.rtakeWhile fun request => !request.closes).filterMap Request.unit?

namespace Derivation

/-- The rules as one request leaves them; only adjustments change them. -/
def adjustedBy (derivation : Derivation) : Request → Derivation
  | .adjust visitor memory => (derivation.visit visitor memory).1
  | _ => derivation

/-- The rules that are in force after a history. -/
def inForce (history : List Request) (derivation : Derivation) : Derivation :=
  history.foldl adjustedBy derivation

/-- A visitor that has nothing to remember. -/
def Visitor.forgetful (visitor : Visitor Id) : Visitor (StateM Unit) where
  frameCenter rule := pure (visitor.frameCenter rule)
  location rule := pure (visitor.location rule)
  classification rule := pure (visitor.classification rule)

mutual

theorem visit_forgetful (visitor : Visitor Id) : ∀ derivation : Derivation,
    visit visitor.forgetful derivation () = (visit visitor derivation, ())
  | copyPresent | distinct _ _ | dates _ | meanAltitude | frameCenter _ | location _
  | classification _ => rfl
  | list derivations => congrArg (Prod.map list id) (visitAll_forgetful visitor derivations)

theorem visitAll_forgetful (visitor : Visitor Id) : ∀ derivations : List Derivation,
    visitAll visitor.forgetful derivations () = (visitAll visitor derivations, ())
  | [] => rfl
  | derivation :: rest => by
    have first := visit_forgetful visitor derivation
    have others := visitAll_forgetful visitor rest
    simp only [visitAll, bind, StateT.bind, first, others]
    rfl

end

end Derivation

namespace Window

/-- Answers a request; closing the window gives its attributes. -/
def answer (window : Window) : Request → Option Attributes × Window
  | .accept unit => (none, window.accept unit)
  | .adjust visitor memory =>
    (none, { window with derivation := (window.derivation.visit visitor memory).1 })
  | .finish settings =>
    let (attributes, next) := window.finish settings
    (some attributes, next)

def after (history : List Request) (window : Window) : Window :=
  history.foldl (fun window request => (window.answer request).2) window

theorem adjust_eq_answer (visitor : Derivation.Visitor Id) (window : Window) :
    window.adjust visitor = (window.answer (.adjust visitor.forgetful ())).2 := by
  rw [answer, Derivation.visit_forgetful]
  rfl

theorem after_concat (history : List Request) (request : Request) (window : Window) :
    window.after (history ++ [request]) = ((window.after history).answer request).2 :=
  List.foldl_concat ..

theorem collect_concat (units : List Fields) (unit : Fields) (window : Window) :
    window.collect (units ++ [unit]) = (window.collect units).accept unit := List.foldl_concat ..

/-- Units are taken in without regard to the rules. -/
theorem collect_adjusted (units : List Fields) (derivation : Derivation) (window : Window) :
    { window with derivation }.collect units = { window.collect units with derivation } := by
  induction units generalizing window with
  | nil => rfl
  | cons unit rest ih => exact ih (window.accept unit)

theorem reset_accept (unit : Fields) (window : Window) :
    (window.accept unit).collectors.reset = window.collectors.reset := by
  rw [accept]
  by_cases derives : window.derivesCorners = true
  · simp only [if_pos derives]
    rw [CollectorSet.reset_deriveCorners, CollectorSet.reset_acceptFields]
  · simp only [if_neg derives]
    rw [CollectorSet.reset_acceptFields]

/-- Whatever was taken in, closing a window leaves the same behind. -/
theorem finish_collect (units : List Fields) (settings : Settings) (window : Window) :
    ((window.collect units).finish settings).2 = (window.finish settings).2 := by
  induction units generalizing window with
  | nil => rfl
  | cons unit rest ih =>
    have closed : ((window.accept unit).finish settings).2 = (window.finish settings).2 := by
      simp only [finish, reset_accept]
      rfl
    exact (ih (window.accept unit)).trans closed

section
variable {collectors : CollectorSet} (fresh : collectors.Fresh) (derivation : Derivation)
  (derivesCorners : Bool)
include fresh

theorem finish_new (settings : Settings) :
    ((new collectors derivation derivesCorners).finish settings).2 =
      new collectors derivation derivesCorners := by
  simp only [finish, new, fresh.reset]

/-- At any time a window is a new one that took in the units since the last closing. -/
theorem after_eq_collect (history : List Request) :
    (new collectors derivation derivesCorners).after history =
      (new collectors (derivation.inForce history) derivesCorners).collect
        (unitsSinceClosing history) := by
  induction history using List.reverseRecOn with
  | nil => rfl
  | append_singleton earlier request ih =>
    have rules : derivation.inForce (earlier ++ [request]) =
        (derivation.inForce earlier).adjustedBy request := List.foldl_concat ..
    rw [after_concat, ih, rules]
    cases request with
    | accept unit =>
      have recent : unitsSinceClosing (earlier ++ [.accept unit]) =
          unitsSinceClosing earlier ++ [unit] := by
        simp [unitsSinceClosing, Request.closes, Request.unit?]
      rw [recent, collect_concat]
      rfl
    | adjust visitor memory =>
      have recent : unitsSinceClosing (earlier ++ [.adjust visitor memory]) =
          unitsSinceClosing earlier := by
        simp [unitsSinceClosing, Request.closes, Request.unit?]
      rw [recent, answer, collect_derivation]
      exact (collect_adjusted _ _ (new collectors (derivation.inForce earlier) _)).symm
    | finish settings =>
      have recent : unitsSinceClosing (earlier ++ [.finish settings]) = [] := by
        simp [unitsSinceClosing, Request.closes]
      rw [recent]
      exact (finish_collect _ settings _).trans (finish_new fresh _ derivesCorners settings)

/-- **Windows are isolated.** Closing a window after any history gives the attributes that a new
window with the same collectors and with the rules in force gives for the units since the last
closing alone, and leaves that new window behind. -/
theorem windows_isolated (history : List Request) (settings : Settings) :
    let closed := ((new collectors derivation derivesCorners).after history).finish settings
    let begun := new collectors (derivation.inForce history) derivesCorners
    closed.1 = ((begun.collect (unitsSinceClosing history)).finish settings).1 ∧
      closed.2 = begun := by
  intro closed begun
  have window := after_eq_collect fresh derivation derivesCorners history
  constructor
  · simp only [closed, begun, window]
  · simp only [closed, begun, window]
    exact (finish_collect _ settings _).trans (finish_new fresh _ derivesCorners settings)

end

end Window

namespace Sample

/-- Gives a tolerance to the first rule of geometry that it meets. -/
def firstTolerance : Derivation.Visitor (StateM Bool) where
  frameCenter rule := fun met =>
    (if met then rule else { rule with tolerance := some 0.5 }, true)
  location rule := fun met => (if met then rule else { rule with tolerance := some 0.5 }, true)
  classification rule := pure rule

def mission (name : String) : Fields := [(FieldName.missionId, .text name)]

def history : List Request :=
  [.accept (mission "first"), .finish .standard, .accept (mission "second"),
    .adjust firstTolerance false]

end Sample

namespace Window

/-- The mission of the first window is not in the attributes of the second. -/
theorem sample_isolated :
    CollectorSet.Fresh .uasDatalink ∧
    let closed := (uasDatalink.after Sample.history).finish .standard
    (Keyed.find? AttributeName.missionId closed.1).map (List.map AttributeValue.text?) =
        some [some "second"] ∧
      closed.2 = new .uasDatalink (Derivation.uasDatalink.inForce Sample.history) true := by
  refine ⟨CollectorSet.fresh_uasDatalink, ?_⟩
  intro closed
  obtain ⟨given, left⟩ := windows_isolated CollectorSet.fresh_uasDatalink .uasDatalink true
    Sample.history .standard
  have attributes : closed.1 = (((new .uasDatalink (Derivation.uasDatalink.inForce Sample.history)
      true).collect (unitsSinceClosing Sample.history)).finish .standard).1 := given
  refine ⟨?_, left⟩
  rw [attributes]
  decide +kernel

end Window

end MotionImagery.Summary
