import Mathlib.Data.List.Perm.Subperm
import Mathlib.Data.Nat.Find
import MotionImagery.Output.Store
import MotionImagery.Proofs.Output.Record
import MotionImagery.Session

/-!
Chunks that are handed to a store one after the other. A chunk goes under the first of its names
that no chunk has, and there is one within as many names as there are files. The attributes go
beside it without a look at what is there; since the names of chunks are distinct, so are those of
their attributes, and nothing that was kept is written over.
-/
namespace MotionImagery.Output

theorem Directory.write_cases (name : String) (content : Bytes) (directory : Directory) :
    directory.write name content = .ok (Keyed.put name content directory) ∨
      directory.write name content = .error ⟨name⟩ := by
  by_cases named : isName name = true
  · exact .inl (if_pos named)
  · exact .inr (if_neg named)

namespace Store

/-- The stems that a base may be given: the base, then the base with each number from one on. -/
def candidate (base : String) : Nat → String
  | 0 => base
  | number + 1 => numbered base (number + 1)

theorem candidate_injective (base : String) : Function.Injective (candidate base) := by
  have longer (number : Nat) : base ≠ numbered base number := by
    intro same
    have lengths := congrArg String.length same
    rw [numbered, String.length_append, String.length_append] at lengths
    have dash : "-".length = 1 := rfl
    omega
  intro number other same
  cases number with
  | zero =>
    cases other with
    | zero => rfl
    | succ other => exact absurd same (longer _)
  | succ number =>
    cases other with
    | zero => exact absurd same.symm (longer _)
    | succ other => exact Text.decimal_injective ((String.append_right_inj _).mp same)

theorem candidate_ne_empty {base : String} (named : base ≠ "") (number : Nat) :
    candidate base number ≠ "" := by
  cases number with
  | zero => exact named
  | succ number => simp [candidate, numbered]

theorem chunkName_injective : Function.Injective chunkName :=
  fun _ _ same => (String.append_left_inj _).mp same

theorem sidecarName_of_ne_empty {stem : String} (named : stem ≠ "") :
    sidecarName stem = stem ++ ".json" := by
  rw [sidecarName, if_neg (by simpa using named)]

/-- Without a stem, the ending counts as the stem: of `""` and `".ts"` the name is the same. -/
theorem sidecarName_injOn {stem other : String} (named : stem ≠ "") (otherNamed : other ≠ "")
    (same : sidecarName stem = sidecarName other) : stem = other := by
  rw [sidecarName_of_ne_empty named, sidecarName_of_ne_empty otherNamed] at same
  exact (String.append_left_inj _).mp same

/-- The names of chunks and of their attributes end differently. -/
theorem chunkName_ne_sidecarName {stem other : String} (named : other ≠ "") :
    chunkName stem ≠ sidecarName other := by
  rw [sidecarName_of_ne_empty named]
  intro same
  have last := congrArg (fun name : String => name.toList.getLast?) same
  simp [chunkName] at last

/-- There is a chunk of this stem. -/
def Taken (directory : Directory) (stem : String) : Prop :=
  Keyed.contains (chunkName stem) directory = true

variable {base stem : String} {directory : Directory}

/-- Distinct candidates are distinct files, so that there are no more of them than files. -/
theorem exists_untaken (base : String) (directory : Directory) :
    ∃ number ≤ directory.length, ¬ Taken directory (candidate base number) := by
  by_contra allTaken
  push Not at allTaken
  let names := (List.range (directory.length + 1)).map fun number =>
    chunkName (candidate base number)
  have distinct : names.Nodup :=
    List.nodup_range.map (chunkName_injective.comp (candidate_injective base))
  have files : names ⊆ directory.map Prod.fst := by
    intro name member
    obtain ⟨number, inRange, rfl⟩ := List.mem_map.mp member
    have taken := allTaken number (Nat.lt_succ_iff.mp (List.mem_range.mp inRange))
    obtain ⟨content, found⟩ := Option.isSome_iff_exists.mp taken
    exact List.mem_map.mpr ⟨_, Keyed.mem_of_find? found, rfl⟩
  have fits := (List.subperm_of_subset distinct files).length_le
  rw [List.length_map, List.length_map, List.length_range] at fits
  omega

/-- The first candidate that is free. -/
structure FirstFree (base : String) (directory : Directory) (number : Nat) : Prop where
  free : ¬ Taken directory (candidate base number)
  least : ∀ smaller < number, Taken directory (candidate base smaller)

theorem FirstFree.freeStem_eq {number : Nat} (first : FirstFree base directory number)
    (few : number ≤ directory.length) : freeStem base directory = candidate base number := by
  have isFree_iff : ∀ stem, (!Keyed.contains (chunkName stem) directory) = true ↔
      ¬ Taken directory stem := fun stem => by simp [Taken]
  cases number with
  | zero => exact if_pos ((isFree_iff base).mpr first.free)
  | succ number =>
    have numberedFirst : (List.range (directory.length + 1)).find?
        ((fun stem => !Keyed.contains (chunkName stem) directory) ∘
          fun n => numbered base (n + 1)) = some number := by
      refine List.find?_range_eq_some.mpr ⟨?_, List.mem_range.mpr (by omega), ?_⟩
      · exact (isFree_iff _).mpr first.free
      · intro smaller before
        have taken := first.least (smaller + 1) (Nat.succ_lt_succ before)
        simpa [Taken, candidate] using taken
    refine (if_neg fun free => ?_).trans ?_
    · exact (isFree_iff base).mp free (first.least 0 number.succ_pos)
    · rw [List.find?_map, numberedFirst]
      rfl

theorem exists_firstFree (base : String) (directory : Directory) :
    ∃ number ≤ directory.length, FirstFree base directory number ∧
      freeStem base directory = candidate base number := by
  obtain ⟨bound, bounded, untaken⟩ := exists_untaken base directory
  have exists_free : ∃ number, ¬ Taken directory (candidate base number) := ⟨bound, untaken⟩
  classical
  have first : FirstFree base directory (Nat.find exists_free) :=
    ⟨Nat.find_spec exists_free, fun _ before => not_not.mp (Nat.find_min exists_free before)⟩
  have few := Nat.le_trans (Nat.find_min' exists_free untaken) bounded
  exact ⟨_, few, first, first.freeStem_eq few⟩

section
variable (unite : List Polygon → List Polygon → List Polygon) (write : String → Option String)
  (content : Bytes) (attributes : Attributes) (store : Store)

/-- The stem that a call tries. -/
def nextStem : String := freeStem (store.template.expand write) store.directory

theorem free_nextStem : ¬ Taken store.directory (store.nextStem write) := by
  obtain ⟨number, -, first, stem_eq⟩ :=
    exists_firstFree (store.template.expand write) store.directory
  rw [nextStem, stem_eq]
  exact first.free

theorem nextStem_ne_empty (named : store.template.expand write ≠ "") :
    store.nextStem write ≠ "" := by
  obtain ⟨number, -, -, stem_eq⟩ :=
    exists_firstFree (store.template.expand write) store.directory
  rw [nextStem, stem_eq]
  exact candidate_ne_empty named number

/-- A call is refused, or fails behind the chunk, or writes both files and records the chunk. -/
theorem persistWith_cases :
    let stem := store.nextStem write
    let begun := { store with directory := Keyed.put (chunkName stem) content store.directory }
    (∃ error, store.persistWith unite write content attributes = (.error error, store)) ∨
    (∃ error, store.persistWith unite write content attributes = (.error error, begun)) ∨
    store.persistWith unite write content attributes =
      (.ok stem,
        { begun with
          directory := Keyed.put (sidecarName stem) (jsonFile attributes) begun.directory
          record := store.record.updateWith unite (chunkName stem) attributes }) := by
  intro stem begun
  obtain chunkWritten | refused := Directory.write_cases (chunkName stem) content store.directory
  · obtain sidecarWritten | refused :=
      Directory.write_cases (sidecarName stem) (jsonFile attributes) begun.directory
    · right
      right
      rw [persistWith, ← nextStem, chunkWritten]
      dsimp only
      rw [sidecarWritten]
    · refine .inr (.inl ⟨⟨sidecarName stem⟩, ?_⟩)
      rw [persistWith, ← nextStem, chunkWritten]
      dsimp only
      rw [refused]
  · refine .inl ⟨⟨chunkName stem⟩, ?_⟩
    rw [persistWith, ← nextStem, refused]

/-- A call touches no file but the two of its stem. -/
theorem find?_persistWith (name : String) (notChunk : name ≠ chunkName (store.nextStem write))
    (notSidecar : name ≠ sidecarName (store.nextStem write)) :
    Keyed.find? name (store.persistWith unite write content attributes).2.directory =
      Keyed.find? name store.directory := by
  have others : ∀ content, Keyed.find? name
      (Keyed.put (chunkName (store.nextStem write)) content store.directory) =
        Keyed.find? name store.directory :=
    fun _ => (Keyed.find?_put ..).trans (if_neg notChunk)
  obtain ⟨error, outcome⟩ | ⟨error, outcome⟩ | outcome :=
    store.persistWith_cases unite write content attributes
  · rw [outcome]
  · rw [outcome]
    exact others content
  · rw [outcome]
    exact ((Keyed.find?_put ..).trans (if_neg notSidecar)).trans (others content)

theorem template_persistWith :
    (store.persistWith unite write content attributes).2.template = store.template := by
  obtain ⟨error, outcome⟩ | ⟨error, outcome⟩ | outcome :=
    store.persistWith_cases unite write content attributes <;> rw [outcome]

variable {unite write content attributes store} {later : Store}

theorem persistWith_ok (outcome : store.persistWith unite write content attributes = (.ok stem, later)) :
    stem = store.nextStem write ∧
      later.directory = Keyed.put (sidecarName stem) (jsonFile attributes)
        (Keyed.put (chunkName stem) content store.directory) ∧
      later.record = store.record.updateWith unite (chunkName stem) attributes := by
  obtain ⟨error, failed⟩ | ⟨error, failed⟩ | kept := store.persistWith_cases unite write content attributes
  · cases failed.symm.trans outcome
  · cases failed.symm.trans outcome
  · cases kept.symm.trans outcome
    exact ⟨rfl, rfl, rfl⟩

/-- A chunk whose call fails is not recorded. -/
theorem persistWith_error {error : WriteError}
    (outcome : store.persistWith unite write content attributes = (.error error, later)) :
    later.record = store.record := by
  obtain ⟨_, failed⟩ | ⟨_, failed⟩ | kept := store.persistWith_cases unite write content attributes
  · cases failed.symm.trans outcome
    rfl
  · cases failed.symm.trans outcome
    rfl
  · cases kept.symm.trans outcome

end

/-- A chunk that is handed over, and how patterns are written at that time. -/
structure Handover where
  write : String → Option String
  chunk : Chunk

/-- A chunk that was kept, and the stem of its names. -/
structure Kept where
  stem : String
  chunk : Chunk

namespace Kept

def file (kept : Kept) : String := chunkName kept.stem

def sidecar (kept : Kept) : String := sidecarName kept.stem

def files (kept : Kept) : List String := [kept.file, kept.sidecar]

@[simp]
theorem mem_files {name : String} {kept : Kept} :
    name ∈ kept.files ↔ name = kept.file ∨ name = kept.sidecar := by
  simp [files]

/-- Chunks of different stems share no file. -/
theorem disjoint_files {kept other : Kept} (named : kept.stem ≠ "") (otherNamed : other.stem ≠ "")
    (different : kept.stem ≠ other.stem) : ∀ name ∈ kept.files, name ∉ other.files := by
  intro name inFiles inOther
  obtain rfl | rfl := mem_files.mp inFiles
  · obtain same | same := mem_files.mp inOther
    · exact different (chunkName_injective same)
    · exact chunkName_ne_sidecarName otherNamed same
  · obtain same | same := mem_files.mp inOther
    · exact chunkName_ne_sidecarName named same.symm
    · exact different (sidecarName_injOn named otherNamed same)

end Kept

section
variable (unite : List Polygon → List Polygon → List Polygon)

/-- A call after those that kept some chunks. What it could not write is not kept. -/
def keep (state : List Kept × Store) (handover : Handover) : List Kept × Store :=
  match state.2.persistWith unite handover.write handover.chunk.content
    handover.chunk.attributes with
  | (.ok stem, store) => (state.1 ++ [⟨stem, handover.chunk⟩], store)
  | (.error _, store) => (state.1, store)

/-- Hands chunks over one after the other: those that are kept, and the store then. -/
def keepAll (handovers : List Handover) (store : Store) : List Kept × Store :=
  handovers.foldl (keep unite) ([], store)

theorem template_keep (state : List Kept × Store) (handover : Handover) :
    (keep unite state handover).2.template = state.2.template := by
  have same := state.2.template_persistWith unite handover.write handover.chunk.content
    handover.chunk.attributes
  rw [keep]
  split
  all_goals
    rename_i outcome
    rw [outcome] at same
    exact same

end

/-- Both files of a chunk are there as they were written. -/
structure Stored (directory : Directory) (entry : Kept) : Prop where
  content : Keyed.find? entry.file directory = some entry.chunk.content
  sidecar : Keyed.find? entry.sidecar directory = some (jsonFile entry.chunk.attributes)

theorem Stored.of_unchanged {entry : Kept} {later : Directory} (stored : Stored directory entry)
    (unchanged : ∀ name ∈ entry.files, Keyed.find? name later = Keyed.find? name directory) :
    Stored later entry :=
  ⟨(unchanged _ (Kept.mem_files.mpr (.inl rfl))).trans stored.content,
    (unchanged _ (Kept.mem_files.mpr (.inr rfl))).trans stored.sidecar⟩

theorem stored_persistWith {unite : List Polygon → List Polygon → List Polygon}
    {handover : Handover} {store later : Store} (named : stem ≠ "")
    (outcome : store.persistWith unite handover.write handover.chunk.content
      handover.chunk.attributes = (.ok stem, later)) :
    Stored later.directory ⟨stem, handover.chunk⟩ := by
  obtain ⟨-, directory, -⟩ := persistWith_ok outcome
  have apart : chunkName stem ≠ sidecarName stem := chunkName_ne_sidecarName named
  constructor
  · rw [directory, Keyed.find?_put, Keyed.find?_put, Kept.file, if_neg apart, if_pos rfl]
  · rw [directory, Keyed.find?_put, Kept.sidecar, if_pos rfl]

/-- All that was kept is there, under stems of its own, and the record lists it in its order. -/
structure Intact (kept : List Kept) (store : Store) : Prop where
  named : ∀ entry ∈ kept, entry.stem ≠ ""
  distinct : (kept.map Kept.stem).Nodup
  stored : ∀ entry ∈ kept, Stored store.directory entry
  children : (Keyed.find? childrenName store.record.attributes).getD [] =
    kept.map fun entry => .text entry.file

namespace Intact
variable {unite : List Polygon → List Polygon → List Polygon} {kept : List Kept} {store : Store}

theorem stem_ne (intact : Intact kept store) (free : ¬ Taken store.directory stem) :
    ∀ entry ∈ kept, entry.stem ≠ stem := by
  rintro entry member rfl
  exact free (Option.isSome_of_eq_some (intact.stored entry member).content)

/-- A call leaves the files of all chunks that were kept. -/
theorem find?_persistWith (intact : Intact kept store)
    (unite : List Polygon → List Polygon → List Polygon) (handover : Handover)
    (named : store.template.expand handover.write ≠ "") :
    ∀ entry ∈ kept, ∀ name ∈ entry.files,
      Keyed.find? name (store.persistWith unite handover.write handover.chunk.content
        handover.chunk.attributes).2.directory = Keyed.find? name store.directory := by
  intro entry member name inFiles
  have notNext : name ∉ (Kept.mk (store.nextStem handover.write) handover.chunk).files :=
    Kept.disjoint_files (intact.named entry member) (store.nextStem_ne_empty _ named)
      (intact.stem_ne (store.free_nextStem _) entry member) name inFiles
  obtain ⟨notChunk, notSidecar⟩ := not_or.mp (mt Kept.mem_files.mpr notNext)
  exact store.find?_persistWith _ _ _ _ name notChunk notSidecar

/-- A call keeps what was kept, and adds its chunk if it succeeds. -/
theorem keep (intact : Intact kept store) (handover : Handover)
    (named : store.template.expand handover.write ≠ "") :
    Intact (keep unite (kept, store) handover).1 (keep unite (kept, store) handover).2 := by
  have unchanged := intact.find?_persistWith unite handover named
  have stored := fun entry member => (intact.stored entry member).of_unchanged
    (unchanged entry member)
  rw [Store.keep]
  split
  case h_1 stem later outcome =>
    rw [outcome] at stored
    obtain ⟨rfl, -, record⟩ := persistWith_ok outcome
    have added := store.nextStem_ne_empty handover.write named
    constructor
    case named => exact List.forall_mem_append.mpr ⟨intact.named, by simpa using added⟩
    case distinct =>
      rw [List.map_append]
      refine List.concat_eq_append ▸ List.Nodup.concat (fun member => ?_) intact.distinct
      obtain ⟨entry, inKept, same⟩ := List.mem_map.mp member
      exact intact.stem_ne (store.free_nextStem handover.write) entry inKept same
    case stored =>
      exact List.forall_mem_append.mpr
        ⟨stored, List.forall_mem_singleton.mpr (stored_persistWith added outcome)⟩
    case children =>
      rw [record, StreamRecord.children_updateWith, intact.children, List.map_append]
      rfl
  case h_2 error later outcome =>
    rw [outcome] at stored
    exact ⟨intact.named, intact.distinct, stored, persistWith_error outcome ▸ intact.children⟩

/-- No two of all the files have one name. -/
theorem nodup_files (intact : Intact kept store) : (kept.flatMap Kept.files).Nodup := by
  refine List.nodup_flatMap.mpr ⟨fun entry member => ?_, ?_⟩
  · have differ : entry.file ≠ entry.sidecar := chunkName_ne_sidecarName (intact.named entry member)
    simpa [Kept.files] using differ
  · refine (List.pairwise_map.mp intact.distinct).imp_of_mem fun member inKept different => ?_
    exact List.disjoint_left.mpr
      (Kept.disjoint_files (intact.named _ member) (intact.named _ inKept) different)

theorem nodup_children (intact : Intact kept store) :
    ((Keyed.find? childrenName store.record.attributes).getD []).Nodup := by
  have injective : Function.Injective fun stem : String => AttributeValue.text (chunkName stem) :=
    fun _ _ same => chunkName_injective (AttributeValue.text.inj same)
  have distinct := intact.distinct.map injective
  rw [List.map_map] at distinct
  rw [intact.children]
  exact distinct

theorem foldl_keep {handovers : List Handover} (intact : Intact kept store)
    (named : ∀ handover ∈ handovers, store.template.expand handover.write ≠ "") :
    let state := handovers.foldl (Store.keep unite) (kept, store)
    Intact state.1 state.2 ∧ state.2.template = store.template := by
  induction handovers generalizing kept store with
  | nil => exact ⟨intact, rfl⟩
  | cons handover rest ih =>
    obtain ⟨here, there⟩ := List.forall_mem_cons.mp named
    have same : (Store.keep unite (kept, store) handover).2.template = store.template :=
      template_keep unite (kept, store) handover
    obtain ⟨after, template⟩ := ih (intact.keep handover here) (same ▸ there)
    exact ⟨after, template.trans same⟩

end Intact

/-- Where a call puts its chunk, and what it leaves. -/
structure Placed (base stem : String) (kept : List Kept) (before after : Directory) : Prop where
  /-- There are at least as many files as names that were passed over. -/
  first : ∃ number ≤ before.length, FirstFree base before number ∧ stem = candidate base number
  others : ∀ name, name ≠ chunkName stem → name ≠ sidecarName stem →
    Keyed.find? name after = Keyed.find? name before
  earlier : base ≠ "" → ∀ entry ∈ kept, ∀ name ∈ entry.files,
    Keyed.find? name after = Keyed.find? name before

/-- **Persisting never overwrites.** Whatever was in the directory, however names repeat and however
areas are united, all chunks that were kept are there with their own attributes, no two of their
files share a name, and the record lists the chunks in order. The next call takes the first free
name and leaves all files but its own two. -/
theorem persisting_never_overwrites (unite : List Polygon → List Polygon → List Polygon)
    (write : String → Option String) (directory : Directory)
    (template : NameTemplate) (handovers : List Handover)
    (named : ∀ handover ∈ handovers, template.expand handover.write ≠ "") :
    let state := (new write directory template).keepAll unite handovers
    let kept := state.1
    let store := state.2
    Intact kept store ∧ (kept.flatMap Kept.files).Nodup ∧
      ((Keyed.find? childrenName store.record.attributes).getD []).Nodup ∧
      ∀ (next : Handover) (stem : String) (later : Store),
        store.persistWith unite next.write next.chunk.content next.chunk.attributes =
            (.ok stem, later) →
          Placed (template.expand next.write) stem kept store.directory later.directory := by
  intro state kept store
  have started : Intact [] (new write directory template) :=
    ⟨List.forall_mem_nil _, List.nodup_nil, List.forall_mem_nil _, rfl⟩
  obtain ⟨intact, same⟩ : Intact kept store ∧ store.template = template := started.foldl_keep named
  refine ⟨intact, intact.nodup_files, intact.nodup_children, fun next stem later outcome => ?_⟩
  have found := exists_firstFree (store.template.expand next.write) store.directory
  have others := store.find?_persistWith unite next.write next.chunk.content next.chunk.attributes
  have earlier := intact.find?_persistWith unite next
  obtain ⟨rfl, -, -⟩ := persistWith_ok outcome
  rw [outcome] at others earlier
  rw [← same]
  exact ⟨found, others, earlier⟩

/-- The second base is the name that the first one was numbered to. -/
theorem sample_persisting :
    let template : NameTemplate := ⟨"%\x7bdate=x\x7d"⟩
    let handovers := ["a", "a-1", "a"].map fun base => Handover.mk (fun _ => some base) ⟨[71], []⟩
    let state := (new (fun _ => none) [("a.ts", [])] template).keepAll unionAreas handovers
    (∀ handover ∈ handovers, template.expand handover.write ≠ "") ∧
      state.1.map Kept.stem = ["a-1", "a-1-1", "a-2"] ∧ Intact state.1 state.2 := by
  intro template handovers state
  have named : ∀ handover ∈ handovers, template.expand handover.write ≠ "" := by decide +kernel
  exact ⟨named, by decide +kernel, (persisting_never_overwrites _ _ _ template handovers named).1⟩

end Store

end MotionImagery.Output
