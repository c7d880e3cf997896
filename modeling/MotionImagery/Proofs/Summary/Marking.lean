import MotionImagery.Proofs.Summary.Identifiers
import MotionImagery.Session

/-!
The classification of a window. It is the name at the highest place that a code of the units has in
the table of the rule, so neither the order of the units nor codes without a place matter, and more
units never lower it. A rule changes by names: a code that has a place keeps it, and a new one comes
behind all others.
-/
namespace MotionImagery.Summary
open Telemetry

/-- The codes that a unit tells, read as numbers of 64 bits with a sign. -/
def codes (unit : Fields) : List Int :=
  (Value.underFields FieldName.securityClassification unit).filterMap fun value =>
    value.unsigned?.map AttributeValue.wrap

namespace Classification

/-- The highest place that one of the codes has in the table. -/
structure Highest (codes : List Int) (place : Nat) (rule : Classification) : Prop where
  observed : ∃ code ∈ codes, rule.position? code = some place
  greatest : ∀ code ∈ codes, ∀ other, rule.position? code = some other → other ≤ place

variable {rule : Classification} {observed others : List Int} {place : Nat}

theorem max?_eq_some_iff :
    (observed.filterMap rule.position?).max? = some place ↔ rule.Highest observed place := by
  rw [List.max?_eq_some_iff, List.mem_filterMap]
  constructor
  · rintro ⟨there, greatest⟩
    exact ⟨there, fun code member other found =>
      greatest other (List.mem_filterMap.mpr ⟨code, member, found⟩)⟩
  · rintro ⟨there, greatest⟩
    refine ⟨there, fun other member => ?_⟩
    obtain ⟨code, inside, found⟩ := List.mem_filterMap.mp member
    exact greatest code inside other found

/-- A place that is the highest one is in the table. -/
theorem Highest.exists_entry (highest : rule.Highest observed place) :
    ∃ entry, rule.table[place]? = some entry := by
  obtain ⟨code, -, found⟩ := highest.observed
  obtain ⟨inside, -⟩ := List.findIdx?_eq_some_iff_getElem.mp found
  exact ⟨_, List.getElem?_eq_getElem inside⟩

theorem mostRestrictive?_eq_some_iff {name : String} :
    rule.mostRestrictive? observed = some name ↔
      ∃ place, rule.Highest observed place ∧ (rule.table[place]?).map Prod.snd = some name := by
  rw [mostRestrictive?, Option.bind_eq_some_iff]
  simp only [max?_eq_some_iff]

theorem mostRestrictive?_eq_none_iff :
    rule.mostRestrictive? observed = none ↔ ∀ code ∈ observed, rule.position? code = none := by
  rw [← List.filterMap_eq_nil_iff, ← List.max?_eq_none_iff, mostRestrictive?]
  cases highest : (observed.filterMap rule.position?).max? with
  | none => simp
  | some place =>
    obtain ⟨entry, there⟩ := (max?_eq_some_iff.mp highest).exists_entry
    simp [there]

/-- Codes without a place in the table do not matter, nor does the order of those with one. -/
theorem mostRestrictive?_congr
    (same : ∀ code, rule.position? code ≠ none → (code ∈ observed ↔ code ∈ others)) :
    rule.mostRestrictive? observed = rule.mostRestrictive? others := by
  have highest : ∀ place, rule.Highest observed place ↔ rule.Highest others place := by
    intro place
    have known : ∀ code found, rule.position? code = some found → rule.position? code ≠ none :=
      fun code found given => by simp [given]
    constructor
    · rintro ⟨⟨code, member, found⟩, greatest⟩
      refine ⟨⟨code, (same code (known _ _ found)).mp member, found⟩, ?_⟩
      intro other inside height given
      exact greatest other ((same other (known _ _ given)).mpr inside) height given
    · rintro ⟨⟨code, member, found⟩, greatest⟩
      refine ⟨⟨code, (same code (known _ _ found)).mpr member, found⟩, ?_⟩
      intro other inside height given
      exact greatest other ((same other (known _ _ given)).mp inside) height given
  refine Option.ext fun name => ?_
  rw [mostRestrictive?_eq_some_iff, mostRestrictive?_eq_some_iff]
  simp only [highest]

/-- Among more codes the highest place is no lower. -/
theorem Highest.of_subset (highest : rule.Highest observed place) (more : observed ⊆ others) :
    ∃ later, place ≤ later ∧ rule.Highest others later := by
  obtain ⟨code, member, found⟩ := highest.observed
  cases greatest : (others.filterMap rule.position?).max? with
  | none =>
    rw [List.max?_eq_none_iff, List.filterMap_eq_nil_iff] at greatest
    rw [greatest code (more member)] at found
    cases found
  | some later =>
    have top := max?_eq_some_iff.mp greatest
    exact ⟨later, top.greatest code (more member) place found, top⟩

/-! A rule under a new name. -/

theorem position?_eq (code : Int) (rule : Classification) :
    rule.position? code = (rule.table.map Prod.fst).findIdx? fun other : Nat =>
      decide ((other : Int) = code) := by
  rw [List.findIdx?_map]
  rfl

theorem setName_of_new {code : Nat} (new : rule.position? code = none) (name : String) :
    (rule.setName code name).table = rule.table ++ [(code, name)] := by
  obtain ⟨table⟩ := rule
  have unlisted : ∀ entry ∈ table, entry.1 ≠ code := by
    intro entry member same
    have missed := List.findIdx?_eq_none_iff.mp new entry member
    simp [same] at missed
  clear new
  dsimp only [setName]
  induction table with
  | nil => rfl
  | cons entry rest ih =>
    obtain ⟨differs, unlisted⟩ := List.forall_mem_cons.mp unlisted
    rw [setName.go, if_neg differs, ih unlisted]
    rfl

theorem setName_of_listed {code : Nat} (listed : rule.position? code = some place)
    (name : String) : (rule.setName code name).table = rule.table.set place (code, name) := by
  obtain ⟨table⟩ := rule
  dsimp only [setName, position?] at listed ⊢
  induction table generalizing place with
  | nil => cases listed
  | cons entry rest ih =>
    rw [List.findIdx?_cons] at listed
    by_cases same : entry.1 = code
    · have first : 0 = place := by simpa [same] using listed
      rw [setName.go, if_pos same, ← first]
      rfl
    · have differs : ¬ ((entry.1 : Int) = code) := by exact_mod_cast same
      rw [decide_eq_false differs, if_neg Bool.false_ne_true, Option.map_eq_some_iff] at listed
      obtain ⟨later, found, rfl⟩ := listed
      rw [setName.go, if_neg same, ih found]
      rfl

/-- The entry at the place of a code is one of the code. -/
theorem exists_of_position? {code : Int} (found : rule.position? code = some place) :
    ∃ name entry, rule.table[place]? = some (entry, name) ∧ (entry : Int) = code := by
  obtain ⟨inside, same, -⟩ := List.findIdx?_eq_some_iff_getElem.mp found
  exact ⟨_, _, List.getElem?_eq_getElem inside, of_decide_eq_true same⟩

/-- A name that a code has already can be given again. -/
theorem setName_of_named {code : Nat} {name : String} (listed : rule.position? code = some place)
    (named : rule.table[place]? = some (code, name)) : rule.setName code name = rule := by
  have same := setName_of_listed listed name
  obtain ⟨inside, there⟩ := List.getElem?_eq_some_iff.mp named
  rw [← there, List.set_getElem_self] at same
  exact congrArg Classification.mk same

/-- What naming a code does to a rule. -/
structure Named (code : Nat) (name : String) (rule named : Classification) : Prop where
  /-- A code that has a place only gets another name, and all places stay. -/
  listed : ∀ place, rule.position? code = some place →
    named.table = rule.table.set place (code, name) ∧
      ∀ other, named.position? other = rule.position? other
  /-- A new code comes behind all others, which stay where they are. -/
  new : rule.position? code = none → named.table = rule.table ++ [(code, name)] ∧
    named.position? code = some rule.table.length ∧
    ∀ other place, rule.position? other = some place →
      place < rule.table.length ∧ named.position? other = some place
  again : named.setName code name = named

theorem named_setName (code : Nat) (name : String) (rule : Classification) :
    Named code name rule (rule.setName code name) := by
  cases found : rule.position? code with
  | some place =>
    have table := setName_of_listed found name
    have places : ∀ other, (rule.setName code name).position? other = rule.position? other := by
      obtain ⟨_, entry, there, same⟩ := exists_of_position? found
      have keys : (rule.setName code name).table.map Prod.fst = rule.table.map Prod.fst := by
        obtain ⟨inside, entry⟩ := List.getElem?_eq_some_iff.mp there
        rw [table, List.map_set]
        have listed : place < (rule.table.map Prod.fst).length := by simpa using inside
        have kept : (rule.table.map Prod.fst)[place] = code := by
          rw [List.getElem_map, entry]
          exact_mod_cast same
        rw [← kept, List.set_getElem_self]
      intro other
      rw [position?_eq, position?_eq, keys]
    have entry : (rule.setName code name).table[place]? = some (code, name) := by
      obtain ⟨inside, -⟩ := List.findIdx?_eq_some_iff_getElem.mp found
      rw [table, List.getElem?_set_self inside]
    refine ⟨fun other given => ?_, fun new => ?_,
      setName_of_named ((places code).trans found) entry⟩
    · cases found.symm.trans given
      exact ⟨table, places⟩
    · cases found.symm.trans new
  | none =>
    have table := setName_of_new found name
    have own : (rule.setName code name).position? code = some rule.table.length := by
      rw [position?, table, List.findIdx?_append]
      rw [position?] at found
      rw [found]
      simp
    have entry : (rule.setName code name).table[rule.table.length]? = some (code, name) := by
      rw [table, List.getElem?_concat_length]
    refine ⟨fun place given => ?_, fun _ => ⟨table, own, fun other place given => ⟨?_, ?_⟩⟩,
      setName_of_named own entry⟩
    · cases found.symm.trans given
    · obtain ⟨inside, -⟩ := List.findIdx?_eq_some_iff_getElem.mp given
      exact inside
    · rw [position?, table, List.findIdx?_append]
      rw [position?] at given
      rw [given]
      rfl

end Classification

namespace Derivation

mutual

/-- The rules for the classification, from left to right. -/
def classifications : Derivation → List Classification
  | classification rule => [rule]
  | list derivations => allClassifications derivations
  | _ => []

def allClassifications : List Derivation → List Classification
  | [] => []
  | derivation :: rest => classifications derivation ++ allClassifications rest

end

mutual

/-- A visitor gets to each of them once. -/
theorem classifications_visit (visitor : Visitor Id) : ∀ derivation : Derivation,
    classifications (visit visitor derivation) =
      (classifications derivation).map visitor.classification
  | copyPresent | distinct _ _ | dates _ | meanAltitude | frameCenter _ | location _
  | classification _ => rfl
  | list derivations => allClassifications_visitAll visitor derivations

theorem allClassifications_visitAll (visitor : Visitor Id) : ∀ derivations : List Derivation,
    allClassifications (visitAll visitor derivations) =
      (allClassifications derivations).map visitor.classification
  | [] => rfl
  | derivation :: rest => by
    have first := classifications_visit visitor derivation
    have others := allClassifications_visitAll visitor rest
    rw [allClassifications, List.map_append, ← first, ← others]
    rfl

end

variable {collectors : CollectorSet} {settings : Settings}

/-- Whatever was collected, the rule looks at the codes alone. -/
theorem find?_classification (rule : Classification) (attributes : Attributes) :
    Keyed.find? AttributeName.securityClassification
        (derive collectors settings (.classification rule) attributes) =
      ((rule.mostRestrictive? ((collectors.values FieldName.securityClassification).filterMap
        AttributeValue.integer?)).map fun name => [.text name]).or
          (Keyed.find? AttributeName.securityClassification attributes) := by
  rw [derive]
  generalize rule.mostRestrictive? _ = named
  cases named with
  | none => rfl
  | some name => exact (Keyed.find?_put ..).trans (if_pos rfl)

end Derivation

namespace CollectorSet

theorem own_code :
    Own FieldName.securityClassification (.list AttributeName.securityClassificationCode) :=
  own_of_mem (by simp [ownFields])

end CollectorSet

namespace Window
variable {window : Window} {rule : Classification}

/-- The rule in force is the last one of the window, and it is the only one that writes the
classification. -/
theorem Began.classifying (began : Began window)
    (inForce : window.derivation.classifications = [rule]) :
    ∃ before, window.derivation = .list (.copyPresent :: (before ++ [.classification rule])) ∧
      Derivation.anyWrites AttributeName.securityClassification before = false := by
  obtain ⟨center, location, own, same⟩ := began.exists_rules
  have only : [own] = [rule] := by
    rw [← inForce, same]
    rfl
  cases only
  refine ⟨identifiers.map (·.derivation) ++ [.dates FieldName.timestamp, .meanAltitude,
    .frameCenter center, .location location], ?_, rfl⟩
  rw [same]
  rfl

/-- The classification that a window is given for units. -/
def classification? (settings : Settings) (units : List Fields) (window : Window) :
    Option (List AttributeValue) :=
  Keyed.find? AttributeName.securityClassification ((window.collect units).finish settings).1

/-- The codes that were collected are those of the units. -/
theorem values_codes (unused : Unused window) (units : List Fields) :
    ((window.collect units).collectors.values FieldName.securityClassification).filterMap
      AttributeValue.integer? = units.flatMap codes := by
  have told : (fun value => (AttributeValue.ofTelemetry? value).bind AttributeValue.integer?) =
      fun value => value.unsigned?.map AttributeValue.wrap := by
    funext value
    cases value <;> rfl
  rw [CollectorSet.own_code.values_collect unused.collectors, Collector.list,
    Collector.acceptAll_list, List.nil_append]
  dsimp only [Collector.values, Collector.thinned, Collected.values]
  rw [List.filterMap_filterMap, told, List.filterMap_flatMap]
  rfl

/-- The name of the most restrictive of the codes. -/
theorem classification?_eq (began : Began window)
    (inForce : window.derivation.classifications = [rule]) (settings : Settings)
    (units : List Fields) :
    window.classification? settings units =
      (rule.mostRestrictive? (units.flatMap codes)).map fun name => [.text name] := by
  obtain ⟨before, same, silent⟩ := began.classifying inForce
  have unused := began.unused
  have names := (CollectorSet.own_code.takenIn unused.collectors units).names
  have unnamed : ∀ collector ∈ (window.collect units).collectors.collectors,
      collector.name ≠ AttributeName.securityClassification := by
    have all : AttributeName.securityClassification ∉
        CollectorSet.uasDatalink.collectors.map Collector.name := by decide +kernel
    intro collector member named
    exact all (names ▸ named ▸ List.mem_map_of_mem member)
  have copied : Keyed.find? AttributeName.securityClassification (Derivation.derive
      (window.collect units).collectors settings .copyPresent []) = none :=
    Derivation.find?_copied unnamed []
  rw [classification?, finish, collect_derivation, same, Derivation.derive, Derivation.deriveAll,
    Derivation.deriveAll_append, Derivation.deriveAll, Derivation.deriveAll,
    Derivation.find?_classification, Derivation.find?_deriveAll silent, copied,
    values_codes unused, Option.or_none]

end Window

/-- What is said of windows in which a rule for the classification is in force. -/
structure Classification.Marks (rule : Classification)
    (given : List Fields → Option (List AttributeValue)) : Prop where
  /-- The name at the highest place of the codes. -/
  highest : ∀ units values, given units = some values ↔ ∃ place entry,
    rule.Highest (units.flatMap codes) place ∧ rule.table[place]? = some entry ∧
      values = [.text entry.2]
  absent : ∀ units, given units = none ↔
    ∀ code ∈ units.flatMap codes, rule.position? code = none
  /-- The order of the units does not matter. -/
  unordered : ∀ units others, units.Perm others → given units = given others
  /-- Nor do codes that have no place. -/
  unmapped : ∀ units others, (∀ code, rule.position? code ≠ none →
    (code ∈ units.flatMap codes ↔ code ∈ others.flatMap codes)) → given units = given others
  /-- More units never lower it. -/
  never_lower : ∀ (units more : List Fields) (place : Nat), units ⊆ more →
    rule.Highest (units.flatMap codes) place →
      ∃ later, place ≤ later ∧ rule.Highest (more.flatMap codes) later

namespace Window
variable {window : Window} {rule : Classification}

theorem Began.marks (began : Began window)
    (inForce : window.derivation.classifications = [rule]) (settings : Settings) :
    rule.Marks (window.classification? settings) := by
  have given : ∀ units, window.classification? settings units =
      (rule.mostRestrictive? (units.flatMap codes)).map fun name => [.text name] :=
    classification?_eq began inForce settings
  refine ⟨fun units values => ?_, fun units => ?_, fun units others same => ?_,
    fun units others same => ?_, fun units more place among highest => ?_⟩
  · rw [given, Option.map_eq_some_iff]
    constructor
    · rintro ⟨name, most, rfl⟩
      obtain ⟨place, highest, named⟩ := Classification.mostRestrictive?_eq_some_iff.mp most
      obtain ⟨entry, there, rfl⟩ := Option.map_eq_some_iff.mp named
      exact ⟨place, entry, highest, there, rfl⟩
    · rintro ⟨place, entry, highest, there, rfl⟩
      exact ⟨entry.2, Classification.mostRestrictive?_eq_some_iff.mpr
        ⟨place, highest, by rw [there, Option.map_some]⟩, rfl⟩
  · rw [given, Option.map_eq_none_iff, Classification.mostRestrictive?_eq_none_iff]
  · rw [given, given, Classification.mostRestrictive?_congr fun code _ =>
      (same.flatMap_right codes).mem_iff]
  · rw [given, given, Classification.mostRestrictive?_congr same]
  · refine highest.of_subset fun code member => ?_
    obtain ⟨unit, inside, told⟩ := List.mem_flatMap.mp member
    exact List.mem_flatMap.mpr ⟨unit, among inside, told⟩

theorem classifications_adjust (inForce : window.derivation.classifications = [rule])
    (visitor : Derivation.Visitor Id) :
    (window.adjust visitor).derivation.classifications = [visitor.classification rule] := by
  rw [adjust, Derivation.classifications_visit, inForce, List.map_singleton]

/-- Names that are given one after the other. -/
theorem began_named (began : Began window)
    (inForce : window.derivation.classifications = [rule]) (names : List (Nat × String)) :
    let named := names.foldl (fun window entry =>
      window.adjust (.namingClassification entry.1 entry.2)) window
    Began named ∧ named.derivation.classifications =
      [names.foldl (fun rule entry => rule.setName entry.1 entry.2) rule] := by
  induction names generalizing window rule with
  | nil => exact ⟨began, inForce⟩
  | cons entry rest ih =>
    exact ih (Began.adjust began _) (classifications_adjust inForce _)

end Window

/-- The names that a session is begun with are given to the standard rule in their order. -/
theorem began_windowFor (settings : SessionSettings) :
    (Session.windowFor settings).Began ∧ (Session.windowFor settings).derivation.classifications =
      [settings.classifications.foldl (fun rule entry => rule.setName entry.1 entry.2) .standard] := by
  have standard : Window.uasDatalink.derivation.classifications = [.standard] := rfl
  rw [Session.windowFor]
  cases settings.tolerance with
  | none => exact Window.began_named .first standard settings.classifications
  | some tolerance =>
    exact Window.began_named (.adjust .first _) (Window.classifications_adjust standard _)
      settings.classifications

/-- **The classification never understates.** It is the name at the highest place that a code of
the units has in the table in force, which neither the order of the units nor codes without a place
change, and which more units never lower. Naming a code keeps all places and puts a new code behind
all others. -/
theorem classification_never_understates {window : Window} (began : window.Began)
    {rule : Classification} (inForce : window.derivation.classifications = [rule]) :
    (∀ settings, rule.Marks (window.classification? settings)) ∧
    (∀ code name,
      (window.adjust (.namingClassification code name)).derivation.classifications =
        [rule.setName code name] ∧ Classification.Named code name rule (rule.setName code name)) ∧
    ∀ settings : SessionSettings, (Session.windowFor settings).Began ∧
      (Session.windowFor settings).derivation.classifications =
        [settings.classifications.foldl (fun rule entry => rule.setName entry.1 entry.2)
          .standard] := by
  refine ⟨began.marks inForce, fun code name => ⟨?_, rule.named_setName code name⟩,
    began_windowFor⟩
  exact Window.classifications_adjust inForce _

namespace Sample

/-- A unit with a classification code in its security set. -/
def coded (code : Nat) : Fields :=
  [(FieldName.securityLocalSet, .set [(FieldName.securityClassification, .unsigned code)])]

/-- Settings of a session that rename one code and add another. -/
def namingCodes : SessionSettings :=
  { SessionSettings.standard with classifications := [(6, "COSMIC"), (3, "NATO CONFIDENTIAL")] }

def renamed : Classification :=
  ⟨[(1, "UNCLASSIFIED"), (2, "RESTRICTED"), (3, "NATO CONFIDENTIAL"), (4, "SECRET"),
    (5, "TOP SECRET"), (6, "COSMIC")]⟩

end Sample

/-- The added code is above all others, and an unknown one does not matter. -/
theorem sample_classification :
    (Session.windowFor Sample.namingCodes).Began ∧
    (Session.windowFor Sample.namingCodes).derivation.classifications = [Sample.renamed] ∧
    (Session.windowFor Sample.namingCodes).classification? .standard
      [Sample.coded 6, Sample.coded 9, Sample.coded 3] = some [.text "COSMIC"] := by
  obtain ⟨began, inForce⟩ := began_windowFor Sample.namingCodes
  have inForce : (Session.windowFor Sample.namingCodes).derivation.classifications =
      [Sample.renamed] := inForce.trans (by decide)
  refine ⟨began, inForce, ?_⟩
  obtain ⟨marks, -⟩ := classification_never_understates began inForce
  refine ((marks .standard).highest _ _).mpr ⟨5, (6, "COSMIC"), ?_, rfl, rfl⟩
  exact Classification.max?_eq_some_iff.mp (by decide +kernel)

end MotionImagery.Summary
