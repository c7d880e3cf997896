import MotionImagery.Proofs.Summary.Isolation
import MotionImagery.Session

/-!
Derivations as trees of lists. Deriving from a tree is deriving from its leaves from left to right,
and a visitor gets to every leaf once in that order, however deep the lists go. So any sequence of
adjustments leaves the tree that is built with the last tolerance and all the names, and a window
that was adjusted is closed as one whose tree was built so.
-/
namespace MotionImagery.Summary
open Telemetry

namespace Derivation

def isLeaf : Derivation → Bool
  | list _ => false
  | _ => true

mutual

/-- All that is no list, from left to right. -/
def leaves : Derivation → List Derivation
  | list derivations => allLeaves derivations
  | leaf => [leaf]

def allLeaves : List Derivation → List Derivation
  | [] => []
  | derivation :: rest => leaves derivation ++ allLeaves rest

end

mutual

/-- The same lists with other leaves, which are put in from left to right. -/
def refill : Derivation → List Derivation → Derivation
  | list derivations, others => list (refillAll derivations others)
  | leaf, others => others.headD leaf

def refillAll : List Derivation → List Derivation → List Derivation
  | [], _ => []
  | derivation :: rest, others =>
    let count := (leaves derivation).length
    refill derivation (others.take count) :: refillAll rest (others.drop count)

end

mutual

theorem isLeaf_of_mem_leaves : ∀ derivation : Derivation,
    ∀ leaf ∈ derivation.leaves, leaf.isLeaf = true
  | list derivations => isLeaf_of_mem_allLeaves derivations
  | copyPresent | distinct _ _ | dates _ | meanAltitude | frameCenter _ | location _
  | classification _ => List.forall_mem_singleton.mpr rfl

theorem isLeaf_of_mem_allLeaves : ∀ derivations : List Derivation,
    ∀ leaf ∈ allLeaves derivations, leaf.isLeaf = true
  | [] => List.forall_mem_nil _
  | derivation :: rest =>
    List.forall_mem_append.mpr ⟨isLeaf_of_mem_leaves derivation, isLeaf_of_mem_allLeaves rest⟩

end

theorem leaves_of_isLeaf {derivation : Derivation} (leaf : derivation.isLeaf = true) :
    derivation.leaves = [derivation] := by
  cases derivation with
  | list => cases leaf
  | _ => rfl

theorem refill_of_isLeaf {derivation : Derivation} (leaf : derivation.isLeaf = true)
    (other : Derivation) : derivation.refill [other] = other := by
  cases derivation with
  | list => cases leaf
  | _ => rfl

/-- As many for the first tree as it takes, and the others for the rest. -/
theorem length_take_drop {others : List Derivation} {count more : Nat}
    (fits : others.length = count + more) :
    (others.take count).length = count ∧ (others.drop count).length = more := by
  rw [List.length_take, List.length_drop]
  omega

mutual

theorem leaves_refill : ∀ (derivation : Derivation) {others : List Derivation},
    others.length = derivation.leaves.length → (∀ other ∈ others, other.isLeaf = true) →
      (derivation.refill others).leaves = others
  | list derivations, _, fits, plain => allLeaves_refillAll derivations fits plain
  | copyPresent, _, fits, plain | distinct _ _, _, fits, plain | dates _, _, fits, plain
  | meanAltitude, _, fits, plain | frameCenter _, _, fits, plain | location _, _, fits, plain
  | classification _, _, fits, plain => by
    obtain ⟨other, rfl⟩ := List.length_eq_one_iff.mp fits
    exact leaves_of_isLeaf (plain other List.mem_cons_self)

/-- What was put in are the leaves. -/
theorem allLeaves_refillAll : ∀ (derivations : List Derivation) {others : List Derivation},
    others.length = (allLeaves derivations).length → (∀ other ∈ others, other.isLeaf = true) →
      allLeaves (refillAll derivations others) = others
  | [], _, fits, _ => (List.eq_nil_of_length_eq_zero fits).symm
  | derivation :: rest, others, fits, plain => by
    rw [allLeaves, List.length_append] at fits
    obtain ⟨taken, dropped⟩ := length_take_drop fits
    have first := leaves_refill derivation taken
      fun other member => plain other (List.mem_of_mem_take member)
    have later := allLeaves_refillAll rest dropped
      fun other member => plain other (List.mem_of_mem_drop member)
    rw [refillAll, allLeaves, first, later, List.take_append_drop]

end

mutual

theorem refill_leaves : ∀ derivation : Derivation, derivation.refill derivation.leaves = derivation
  | list derivations => congrArg list (refillAll_allLeaves derivations)
  | copyPresent | distinct _ _ | dates _ | meanAltitude | frameCenter _ | location _
  | classification _ => rfl

/-- With its own leaves a tree is what it was. -/
theorem refillAll_allLeaves : ∀ derivations : List Derivation,
    refillAll derivations (allLeaves derivations) = derivations
  | [] => rfl
  | derivation :: rest => by
    rw [allLeaves, refillAll, List.take_left, List.drop_left, refill_leaves derivation,
      refillAll_allLeaves rest]

end

mutual

theorem refill_refill : ∀ (derivation : Derivation) {others more : List Derivation},
    others.length = derivation.leaves.length → (∀ other ∈ others, other.isLeaf = true) →
      more.length = derivation.leaves.length →
        (derivation.refill others).refill more = derivation.refill more
  | list derivations, _, _, fits, plain, again =>
    congrArg list (refillAll_refillAll derivations fits plain again)
  | copyPresent, _, _, fits, plain, again | distinct _ _, _, _, fits, plain, again
  | dates _, _, _, fits, plain, again | meanAltitude, _, _, fits, plain, again
  | frameCenter _, _, _, fits, plain, again | location _, _, _, fits, plain, again
  | classification _, _, _, fits, plain, again => by
    obtain ⟨other, rfl⟩ := List.length_eq_one_iff.mp fits
    obtain ⟨last, rfl⟩ := List.length_eq_one_iff.mp again
    exact refill_of_isLeaf (plain other List.mem_cons_self) last

/-- What was put in first does not matter. -/
theorem refillAll_refillAll : ∀ (derivations : List Derivation) {others more : List Derivation},
    others.length = (allLeaves derivations).length → (∀ other ∈ others, other.isLeaf = true) →
      more.length = (allLeaves derivations).length →
        refillAll (refillAll derivations others) more = refillAll derivations more
  | [], _, _, _, _, _ => rfl
  | derivation :: rest, others, more, fits, plain, again => by
    rw [allLeaves, List.length_append] at fits again
    obtain ⟨taken, dropped⟩ := length_take_drop fits
    obtain ⟨takenAgain, droppedAgain⟩ := length_take_drop again
    have plainTaken : ∀ other ∈ others.take derivation.leaves.length, other.isLeaf = true :=
      fun other member => plain other (List.mem_of_mem_take member)
    have first := refill_refill derivation taken plainTaken takenAgain
    have later := refillAll_refillAll rest dropped
      (fun other member => plain other (List.mem_of_mem_drop member)) droppedAgain
    dsimp only [refillAll]
    rw [leaves_refill derivation taken plainTaken, taken, first, later]

end

section
variable (collectors : CollectorSet) (settings : Settings)

mutual

theorem derive_eq_foldl : ∀ (derivation : Derivation) (attributes : Attributes),
    derive collectors settings derivation attributes =
      derivation.leaves.foldl (fun attributes leaf => derive collectors settings leaf attributes)
        attributes
  | list derivations, attributes => deriveAll_eq_foldl derivations attributes
  | copyPresent, _ | distinct _ _, _ | dates _, _ | meanAltitude, _ | frameCenter _, _
  | location _, _ | classification _, _ => rfl

/-- Lists only put their leaves in order. -/
theorem deriveAll_eq_foldl : ∀ (derivations : List Derivation) (attributes : Attributes),
    deriveAll collectors settings derivations attributes =
      (allLeaves derivations).foldl
        (fun attributes leaf => derive collectors settings leaf attributes) attributes
  | [], _ => rfl
  | derivation :: rest, attributes => by
    rw [deriveAll, allLeaves, List.foldl_append, derive_eq_foldl derivation,
      deriveAll_eq_foldl rest]

end

end

section
variable {m : Type → Type} [Monad m] [LawfulMonad m]

/-- As many are made as there are items. -/
theorem exists_mapM_of_length {α β : Type} (make : α → m β) (items : List α) :
    ∃ made : m { others : List β // others.length = items.length },
      items.mapM make = Subtype.val <$> made := by
  induction items with
  | nil => exact ⟨pure ⟨[], rfl⟩, by simp⟩
  | cons item rest ih =>
    obtain ⟨made, same⟩ := ih
    refine ⟨do
      let first ← make item
      let others ← made
      pure ⟨first :: others.1, by simp [others.2]⟩, ?_⟩
    simp [List.mapM_cons, same]

/-- Only lists of as many items matter to what is done with those that are made. -/
theorem map_mapM_congr {α β γ : Type} {make : α → m β} {items : List α} {use other : List β → m γ}
    (same : ∀ made : List β, made.length = items.length → use made = other made) :
    items.mapM make >>= use = items.mapM make >>= other := by
  obtain ⟨made, given⟩ := exists_mapM_of_length make items
  rw [given, bind_map_left, bind_map_left]
  exact bind_congr fun others => same others.1 others.2

variable (visitor : Visitor m)

mutual

theorem visit_eq_mapM : ∀ derivation : Derivation,
    visit visitor derivation = derivation.refill <$> derivation.leaves.mapM (visit visitor)
  | list derivations => by
    rw [visit, visitAll_eq_mapM derivations, Functor.map_map]
    rfl
  | copyPresent | distinct _ _ | dates _ | meanAltitude | frameCenter _ | location _
  | classification _ => by simp [visit, leaves, refill]

/-- A visitor gets to every leaf once, from left to right. -/
theorem visitAll_eq_mapM : ∀ derivations : List Derivation,
    visitAll visitor derivations =
      refillAll derivations <$> (allLeaves derivations).mapM (visit visitor)
  | [] => by simp [visitAll, allLeaves, refillAll]
  | derivation :: rest => by
    rw [visitAll, visit_eq_mapM derivation, visitAll_eq_mapM rest, allLeaves, List.mapM_append]
    simp only [bind_map_left, map_bind, map_pure]
    refine map_mapM_congr fun made fits => bind_congr fun others => ?_
    rw [refillAll, List.take_left' fits, List.drop_left' fits]

end

end

/-- A visitor without effects changes the leaves one by one. -/
theorem visit_eq_map (visitor : Visitor Id) (derivation : Derivation) :
    visit visitor derivation = derivation.refill (derivation.leaves.map (visit visitor)) :=
  (visit_eq_mapM visitor derivation).trans (congrArg derivation.refill List.idRun_mapM)

end Derivation

/-- What may be set of the rules. -/
inductive Adjustment where
  | tolerance (limit : Float)
  /-- The name of a classification code. -/
  | name (code : Nat) (given : String)

namespace Adjustment

def visitor : Adjustment → Derivation.Visitor Id
  | tolerance limit => .settingTolerance limit
  | name code given => .namingClassification code given

def tolerance? : Adjustment → Option Float
  | tolerance limit => some limit
  | name _ _ => none

def name? : Adjustment → Option (Nat × String)
  | tolerance _ => none
  | name code given => some (code, given)

end Adjustment

/-- Makes adjustments, one after the other. -/
def Derivation.adjust (adjustments : List Adjustment) (tree : Derivation) : Derivation :=
  adjustments.foldl (fun tree adjustment => tree.visit adjustment.visitor) tree

/-- What the rules of a tree are built with. Without a tolerance each keeps its own. -/
structure Setup where
  tolerance : Option Float
  /-- Names of classification codes, in the order in which they are given. -/
  names : List (Nat × String)

namespace Setup

/-- Of several tolerances the last one, and all names. -/
def ofAdjustments (adjustments : List Adjustment) : Setup :=
  ⟨(adjustments.filterMap Adjustment.tolerance?).getLast?,
    adjustments.filterMap Adjustment.name?⟩

def frameCenter (setup : Setup) (rule : FrameCenter) : FrameCenter :=
  { rule with tolerance := setup.tolerance.or rule.tolerance }

def location (setup : Setup) (rule : Location) : Location :=
  { rule with tolerance := setup.tolerance.or rule.tolerance }

def classification (setup : Setup) (rule : Classification) : Classification :=
  setup.names.foldl (fun rule entry => rule.setName entry.1 entry.2) rule

/-- A leaf with the settings that concern it. -/
def leaf (setup : Setup) : Derivation → Derivation
  | .frameCenter rule => .frameCenter (setup.frameCenter rule)
  | .location rule => .location (setup.location rule)
  | .classification rule => .classification (setup.classification rule)
  | other => other

/-- A tree whose leaves are built with the settings. -/
def build (setup : Setup) (tree : Derivation) : Derivation :=
  tree.refill (tree.leaves.map setup.leaf)

/-- The settings with one more. -/
def adjust (setup : Setup) : Adjustment → Setup
  | .tolerance limit => { setup with tolerance := some limit }
  | .name code given => { setup with names := setup.names ++ [(code, given)] }

theorem ofAdjustments_concat (adjustments : List Adjustment) (adjustment : Adjustment) :
    ofAdjustments (adjustments ++ [adjustment]) =
      (ofAdjustments adjustments).adjust adjustment := by
  cases adjustment with
  | tolerance limit =>
    simp only [ofAdjustments, adjust, List.filterMap_append]
    exact congrArg₂ Setup.mk List.getLast?_concat (List.append_nil _)
  | name code given =>
    simp only [ofAdjustments, adjust, List.filterMap_append]
    exact congrArg₂ Setup.mk (congrArg List.getLast? (List.append_nil _)) rfl

theorem build_nothing (tree : Derivation) : (ofAdjustments []).build tree = tree := by
  have same : ∀ derivation : Derivation, (ofAdjustments []).leaf derivation = derivation := by
    intro derivation
    cases derivation <;> rfl
  rw [build, List.map_congr_left fun derivation _ => same derivation, List.map_id',
    Derivation.refill_leaves]

variable (setup : Setup)

theorem isLeaf_leaf (derivation : Derivation) :
    (setup.leaf derivation).isLeaf = derivation.isLeaf := by
  cases derivation <;> rfl

/-- The leaves of what is built. -/
theorem leaves_build (tree : Derivation) :
    (setup.build tree).leaves = tree.leaves.map setup.leaf := by
  refine tree.leaves_refill (List.length_map _)
    (List.forall_mem_map.mpr fun derivation member => ?_)
  rw [isLeaf_leaf]
  exact tree.isLeaf_of_mem_leaves derivation member

theorem visit_leaf (adjustment : Adjustment) {derivation : Derivation}
    (plain : derivation.isLeaf = true) :
    (setup.leaf derivation).visit adjustment.visitor =
      (setup.adjust adjustment).leaf derivation := by
  cases derivation with
  | list => cases plain
  | classification rule =>
    cases adjustment with
    | tolerance => rfl
    | name code given =>
      refine congrArg Derivation.classification (Eq.symm ?_)
      exact List.foldl_concat (fun rule entry => Classification.setName entry.1 entry.2 rule) rule
        (code, given) setup.names
  | _ => cases adjustment <;> rfl

/-- An adjustment of what was built is one more setting to build with. -/
theorem visit_build (adjustment : Adjustment) (tree : Derivation) :
    (setup.build tree).visit adjustment.visitor = (setup.adjust adjustment).build tree := by
  have built : (tree.leaves.map setup.leaf).map (Derivation.visit adjustment.visitor) =
      tree.leaves.map (setup.adjust adjustment).leaf := by
    rw [List.map_map]
    exact List.map_congr_left fun derivation member =>
      setup.visit_leaf adjustment (tree.isLeaf_of_mem_leaves derivation member)
  rw [Derivation.visit_eq_map, leaves_build, built]
  refine tree.refill_refill (List.length_map _) ?_ (List.length_map _)
  intro other member
  rw [← leaves_build] at member
  exact Derivation.isLeaf_of_mem_leaves _ other member

end Setup

/-- Adjusting a tree is building it with the settings. -/
theorem Derivation.adjust_eq_build (adjustments : List Adjustment) (tree : Derivation) :
    tree.adjust adjustments = (Setup.ofAdjustments adjustments).build tree := by
  induction adjustments using List.reverseRecOn with
  | nil => exact (Setup.build_nothing tree).symm
  | append_singleton earlier adjustment ih =>
    rw [Setup.ofAdjustments_concat, ← Setup.visit_build, ← ih]
    exact List.foldl_concat ..

/-- The tolerance of a session, if there is one, and its names in their order. -/
def adjustmentsOf (settings : SessionSettings) : List Adjustment :=
  settings.tolerance.toList.map .tolerance ++
    settings.classifications.map fun entry => .name entry.1 entry.2

theorem Setup.ofAdjustments_session (settings : SessionSettings) :
    ofAdjustments (adjustmentsOf settings) =
      ⟨settings.tolerance, settings.classifications⟩ := by
  have names : (settings.classifications.map fun entry =>
      Adjustment.name entry.1 entry.2).filterMap Adjustment.name? = settings.classifications := by
    rw [List.filterMap_map]
    exact List.filterMap_some
  have unlimited : (settings.classifications.map fun entry =>
      Adjustment.name entry.1 entry.2).filterMap Adjustment.tolerance? = [] := by
    rw [List.filterMap_map]
    exact List.filterMap_eq_nil_iff.mpr fun _ _ => rfl
  rw [ofAdjustments, adjustmentsOf, List.filterMap_append, List.filterMap_append,
    names, unlimited]
  cases settings.tolerance <;> rfl

/-- A session begins with the rules of telemetry, each built with the settings. -/
theorem windowFor_eq (settings : SessionSettings) :
    let setup : Setup := ⟨settings.tolerance, settings.classifications⟩
    Session.windowFor settings =
      { Window.uasDatalink with
        derivation := .telemetry (setup.frameCenter .standard) (setup.location .standard)
          (setup.classification .standard) } := by
  intro setup
  have named : ∀ (names : List (Nat × String)) (window : Window),
      names.foldl (fun window entry =>
        window.adjust (.namingClassification entry.1 entry.2)) window =
          { window with
            derivation := window.derivation.adjust
              (names.map fun entry => .name entry.1 entry.2) } := by
    intro names
    induction names with
    | nil => exact fun _ => rfl
    | cons entry rest ih => exact fun _ => ih _
  have adjusted : Session.windowFor settings =
      { Window.uasDatalink with
        derivation := Derivation.uasDatalink.adjust (adjustmentsOf settings) } := by
    refine (named settings.classifications _).trans ?_
    rw [adjustmentsOf]
    cases settings.tolerance <;> rfl
  rw [adjusted, Derivation.adjust_eq_build, Setup.ofAdjustments_session]
  rfl

def Request.adjusts : Request → Bool
  | adjust _ _ => true
  | _ => false

/-- A window can be adjusted before all else that is asked of it. -/
theorem Window.after_eq_after_inForce (history : List Request) (window : Window) :
    window.after history =
      { window with derivation := window.derivation.inForce history }.after
        (history.filter fun request => !request.adjusts) := by
  induction history generalizing window with
  | nil => rfl
  | cons request rest ih =>
    cases request with
    | accept unit => exact ih _
    | adjust visitor memory => exact ih _
    | finish settings => exact ih _

/-- What is asked of a window whose rules are only adjusted by settings. -/
inductive Turn where
  | accept (unit : Fields)
  | adjust (adjustment : Adjustment)
  | finish (settings : Settings)

namespace Turn

def request : Turn → Request
  | accept unit => .accept unit
  | adjust adjustment => .adjust adjustment.visitor.forgetful ()
  | finish settings => .finish settings

def adjustment? : Turn → Option Adjustment
  | adjust adjustment => some adjustment
  | _ => none

theorem inForce_requests (turns : List Turn) (tree : Derivation) :
    tree.inForce (turns.map request) = tree.adjust (turns.filterMap adjustment?) := by
  induction turns generalizing tree with
  | nil => rfl
  | cons turn rest ih =>
    cases turn with
    | accept | finish => exact ih tree
    | adjust adjustment =>
      have adjusted : tree.adjustedBy (request (.adjust adjustment)) =
          tree.visit adjustment.visitor := by
        rw [request, Derivation.adjustedBy, Derivation.visit_forgetful]
      rw [List.map_cons, Derivation.inForce, List.foldl_cons, adjusted]
      exact ih _

end Turn

/-- What is said of a tree of derivations, however deep its lists go. -/
structure Derivation.LeafByLeaf (tree : Derivation) : Prop where
  /-- Deriving is deriving from the leaves, from left to right. -/
  derives : ∀ collectors settings attributes,
    derive collectors settings tree attributes = tree.leaves.foldl
      (fun attributes leaf => derive collectors settings leaf attributes) attributes
  /-- Whatever a visitor does and remembers, it gets to each leaf once, from left to right. -/
  visited : ∀ (m : Type → Type) [Monad m] [LawfulMonad m] (visitor : Visitor m),
    visit visitor tree = tree.refill <$> tree.leaves.mapM (visit visitor)
  /-- Every rule of geometry gets the tolerance, and nothing else is changed. -/
  tolerance : ∀ limit, visit (.settingTolerance limit) tree = Setup.build ⟨some limit, []⟩ tree
  /-- Of two tolerances the last one counts. -/
  replaces : ∀ limit last,
    visit (.settingTolerance last) (visit (.settingTolerance limit) tree) =
      visit (.settingTolerance last) tree
  commutes : ∀ limit code given,
    visit (.namingClassification code given) (visit (.settingTolerance limit) tree) =
      visit (.settingTolerance limit) (visit (.namingClassification code given) tree)
  adjusted : ∀ adjustments, tree.adjust adjustments = (Setup.ofAdjustments adjustments).build tree
  /-- A window is closed as if its tree had been built with all the settings before. -/
  closed : ∀ (window : Window) (turns : List Turn) settings,
    let setup := Setup.ofAdjustments (turns.filterMap Turn.adjustment?)
    let requests := turns.map Turn.request
    ({ window with derivation := tree }.after requests).finish settings =
      ({ window with derivation := setup.build tree }.after
        (requests.filter fun request => !request.adjusts)).finish settings

/-- **Visitors reach every leaf.** A tree of derivations does what its leaves do from left to right,
a visitor gets to each of them once in that order, and a window that was adjusted is closed as one
whose tree was built with the settings. A session begins with the tree that is built with its
own. -/
theorem visitors_reach_every_leaf :
    (∀ tree : Derivation, tree.LeafByLeaf) ∧
    ∀ settings : SessionSettings,
      let setup : Setup := ⟨settings.tolerance, settings.classifications⟩
      Session.windowFor settings =
        { Window.uasDatalink with
          derivation := .telemetry (setup.frameCenter .standard) (setup.location .standard)
            (setup.classification .standard) } := by
  refine ⟨fun tree => ?_, windowFor_eq⟩
  constructor
  case derives => exact fun collectors settings => tree.derive_eq_foldl collectors settings
  case visited => exact fun m _ _ visitor => Derivation.visit_eq_mapM visitor tree
  case tolerance => exact fun limit => tree.adjust_eq_build [.tolerance limit]
  case replaces =>
    intro limit last
    exact (tree.adjust_eq_build [.tolerance limit, .tolerance last]).trans
      (tree.adjust_eq_build [.tolerance last]).symm
  case commutes =>
    intro limit code given
    exact (tree.adjust_eq_build [.tolerance limit, .name code given]).trans
      (tree.adjust_eq_build [.name code given, .tolerance limit]).symm
  case adjusted => exact fun adjustments => tree.adjust_eq_build adjustments
  case closed =>
    intro window turns settings
    dsimp only
    rw [Window.after_eq_after_inForce, Turn.inForce_requests, Derivation.adjust_eq_build]

/-- The rule that is three lists deep is reached, and the first tolerance is gone. -/
theorem sample_adjusted :
    let tree : Derivation := .list [.copyPresent, .list [.list [.location .standard]],
      .classification .standard]
    let limited : Location := { Location.standard with tolerance := some 0.5 }
    tree.adjust [.tolerance 2.0, .name 6 "COSMIC", .tolerance 0.5] =
      .list [.copyPresent, .list [.list [.location limited]],
        .classification (Classification.standard.setName 6 "COSMIC")] := by
  intro tree limited
  exact (visitors_reach_every_leaf.1 tree).adjusted _

end MotionImagery.Summary
