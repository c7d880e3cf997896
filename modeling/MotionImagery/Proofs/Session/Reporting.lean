import Mathlib.Data.List.DropRight
import MotionImagery.Proofs.Session.Conservation
import MotionImagery.Proofs.Summary.Listing

/-!
Reports of telemetry. Every unit that is decoded is in the attributes of one chunk, and that is the
first to be handed over after it: chunks end windows, and nothing else ends them as long as no
flush comes away without a file.
-/
namespace MotionImagery
open Buffer Telemetry Transport

/-- The telemetry that units decode to. -/
def decodedUnits (context : Context) (units : List ElementaryUnit) : List TelemetryUnit :=
  units.filterMap fun unit =>
    match unit.kind with
    | .telemetry =>
      match TelemetryUnit.decode context unit.data with
      | .ok decoded => decoded
      | .error _ => none
    | _ => none

namespace Telemetry.TelemetryUnit

def checksum? (unit : TelemetryUnit) : Option Nat :=
  (Keyed.find? FieldName.checksum unit.fields).bind Value.unsigned?

/-- The checksum as it is reported. -/
def report? (unit : TelemetryUnit) : Option AttributeValue :=
  unit.checksum?.map fun number : Nat => .integer number

/-- What a unit adds to the list of checksums. -/
def listed (unit : TelemetryUnit) : List AttributeValue :=
  (Value.underFields FieldName.checksum unit.fields).filterMap AttributeValue.ofTelemetry?

end Telemetry.TelemetryUnit

/-- The checksums in the attributes of a chunk. -/
def Chunk.checksums (chunk : Chunk) : List AttributeValue :=
  (Keyed.find? AttributeName.checksum chunk.attributes).getD []

/-- What came of a call: the units that it dispatched, and the chunk that it gave. -/
structure Answer where
  call : Call
  units : List ElementaryUnit
  chunk? : Option Chunk

namespace Answer

/-- The checksums of all chunks, in order. -/
def reported (answers : List Answer) : List AttributeValue :=
  (answers.filterMap Answer.chunk?).flatMap Chunk.checksums

/-- The telemetry that was dispatched, in order. -/
def telemetry (answers : List Answer) : List TelemetryUnit :=
  decodedUnits .uasDatalink (answers.flatMap Answer.units)

end Answer

namespace Session

/-- The units that a call dispatches when it succeeds. -/
def dispatched (s : Session) : Call → List ElementaryUnit
  | .push datagram => unitsOf (s.demux.readAll (s.reassembler.push datagram).1).1
  | .flush => s.demux.flush.1

/-- What comes of each call. -/
def answers (s : Session) : List (Surroundings × Call) → List Answer
  | [] => []
  | (world, call) :: rest =>
    ⟨call, s.dispatched call, (s.call world call).1.toOption.join⟩ ::
      (s.call world call).2.answers rest

end Session

theorem decodedUnits_append (context : Context) (first second : List ElementaryUnit) :
    decodedUnits context (first ++ second) =
      decodedUnits context first ++ decodedUnits context second :=
  List.filterMap_append

namespace Answer

theorem reported_append (first second : List Answer) :
    reported (first ++ second) = reported first ++ reported second := by
  rw [reported, List.filterMap_append, List.flatMap_append, reported, reported]

theorem telemetry_append (first second : List Answer) :
    telemetry (first ++ second) = telemetry first ++ telemetry second := by
  rw [telemetry, List.flatMap_append, decodedUnits_append, telemetry, telemetry]

theorem reported_singleton (answer : Answer) :
    reported [answer] = answer.chunk?.elim [] Chunk.checksums := by
  rw [reported, List.filterMap_cons]
  cases answer.chunk? with
  | none => rfl
  | some chunk => exact List.append_nil _

theorem telemetry_singleton (answer : Answer) :
    telemetry [answer] = decodedUnits .uasDatalink answer.units := by
  rw [telemetry, List.flatMap_singleton]

/-- Calls that give no chunk report nothing. -/
theorem reported_of_quiet {answers : List Answer}
    (quiet : ∀ answer ∈ answers, answer.chunk? = none) : reported answers = [] := by
  rw [reported, List.filterMap_eq_nil_iff.mpr quiet, List.flatMap_nil]

end Answer

theorem mem_decodedUnits {context : Context} {units : List ElementaryUnit}
    {decoded : TelemetryUnit} (member : decoded ∈ decodedUnits context units) :
    ∃ unit ∈ units, TelemetryUnit.decode context unit.data = .ok (some decoded) := by
  obtain ⟨unit, inside, given⟩ := List.mem_filterMap.mp member
  refine ⟨unit, inside, ?_⟩
  split at given
  · split at given
    · rename_i accepted
      rw [accepted, given]
    · cases given
  · cases given

/-- Each decoded unit is listed once, by its checksum. -/
theorem map_listed (units : List ElementaryUnit) :
    ((decodedUnits .uasDatalink units).flatMap TelemetryUnit.listed).map some =
      (decodedUnits .uasDatalink units).map TelemetryUnit.report? := by
  have each : ∀ unit ∈ decodedUnits .uasDatalink units,
      unit.listed.map some = [unit.report?] := by
    intro unit member
    obtain ⟨_, -, decoded⟩ := mem_decodedUnits member
    obtain ⟨number, small, found, only⟩ := TelemetryUnit.checksum_of_decode decoded
    have exact_number : AttributeValue.wrap number = number :=
      Int.bmod_eq_of_le (by omega) (by omega)
    rw [TelemetryUnit.listed, only, TelemetryUnit.report?, TelemetryUnit.checksum?, found]
    simp [AttributeValue.ofTelemetry?, Value.unsigned?, exact_number]
  rw [List.map_flatMap]
  generalize decodedUnits .uasDatalink units = decoded at each ⊢
  induction decoded with
  | nil => rfl
  | cons unit rest ih =>
    obtain ⟨first, others⟩ := List.forall_mem_cons.mp each
    rw [List.flatMap_cons, List.map_cons, first, ih others]
    rfl

namespace Session
variable {s next : Session} {world : Surroundings} {values : List AttributeValue}

theorem lists_collect {window : Summary.Window} (lists : window.Lists values)
    (units : List ElementaryUnit) :
    (units.foldl (collect .uasDatalink) window).Lists
      (values ++ (decodedUnits .uasDatalink units).flatMap TelemetryUnit.listed) := by
  induction units generalizing window values with
  | nil =>
    rw [decodedUnits, List.filterMap_nil, List.flatMap_nil, List.append_nil]
    exact lists
  | cons unit rest ih =>
    rw [← List.singleton_append, decodedUnits_append, List.flatMap_append, ← List.append_assoc,
      List.singleton_append, List.foldl_cons]
    refine ih ?_
    rw [decodedUnits, List.filterMap_cons, List.filterMap_nil]
    unfold collect
    cases unit.kind with
    | video | other =>
      rw [List.flatMap_nil, List.append_nil]
      exact lists
    | telemetry =>
      dsimp only
      cases TelemetryUnit.decode .uasDatalink unit.data with
      | error error =>
        rw [List.flatMap_nil, List.append_nil]
        exact lists
      | ok decoded =>
        cases decoded with
        | none =>
          rw [List.flatMap_nil, List.append_nil]
          exact lists
        | some decoded =>
          rw [List.flatMap_singleton]
          exact lists.accept decoded.fields

theorem lists_windowFor (settings : SessionSettings) : (windowFor settings).Lists [] := by
  have named : ∀ (classifications : List (Nat × String)) (window : Summary.Window),
      window.Lists [] → (classifications.foldl (fun window entry =>
        window.adjust (.namingClassification entry.1 entry.2)) window).Lists [] := by
    intro classifications
    induction classifications with
    | nil =>
      intro window lists
      exact lists
    | cons entry rest ih =>
      intro window lists
      exact ih _ (lists.adjust _)
  refine named _ _ ?_
  cases settings.tolerance with
  | none => exact .initial
  | some tolerance => exact Summary.Window.Lists.initial.adjust _

/-- The window of a session lists the values that were not handed over. -/
structure Pending (values : List AttributeValue) (s : Session) : Prop where
  context : s.context = .uasDatalink
  lists : s.window.Lists values

theorem pending_new (id now : Nat) (settings : SessionSettings) :
    Pending [] (new id now settings) := ⟨rfl, lists_windowFor settings⟩

/-- A call that gives no chunk keeps what it dispatches for later; one that gives a chunk reports
all that is pending, and nothing is left. -/
theorem call_reports {call : Call} {chunk? : Option Chunk} (pending : Pending values s)
    (ok : s.call world call = (.ok chunk?, next)) (filed : call = .flush → chunk?.isSome = true) :
    let listed := values ++
      (decodedUnits .uasDatalink (s.dispatched call)).flatMap TelemetryUnit.listed
    (chunk? = none → Pending listed next) ∧
      ∀ chunk, chunk? = some chunk → chunk.checksums = listed ∧ Pending [] next := by
  intro listed
  cases call with
  | push datagram =>
    obtain ⟨read, file, pushed⟩ := push_ok ok
    have through := readPackets_ok pushed.packets
    have lists : read.window.Lists listed := by
      rw [through.window]
      simp only [pending.context]
      exact lists_collect pending.lists _
    have context : next.context = .uasDatalink :=
      pushed.context.trans (through.context.trans pending.context)
    cases file with
    | none =>
      obtain rfl := pushed.chunk
      refine ⟨fun _ => ⟨context, ?_⟩, nofun⟩
      rw [pushed.window rfl]
      exact lists
    | some content =>
      obtain rfl := pushed.chunk
      refine ⟨nofun, ?_⟩
      rintro chunk ⟨⟩
      obtain ⟨given, empty⟩ := lists.finish read.settings.summary
      refine ⟨given, context, ?_⟩
      rw [pushed.handed content rfl]
      exact empty
  | flush =>
    obtain ⟨completed, file, flushed⟩ := flush_ok ok
    have lists := lists_collect pending.lists s.demux.flush.1
    have context : next.context = .uasDatalink := flushed.context.trans pending.context
    have window := flushed.window
    have chunk := flushed.chunk
    rw [pending.context] at window chunk
    cases file with
    | none =>
      cases chunk
      cases filed rfl
    | some content =>
      cases chunk
      refine ⟨nofun, ?_⟩
      rintro chunk ⟨⟩
      obtain ⟨given, empty⟩ := lists.finish s.settings.summary
      refine ⟨given, context, ?_⟩
      rw [window]
      exact empty

/-- When a chunk is given, all that was dispatched up to it has been reported. -/
theorem run_reports {calls : List (Surroundings × Call)} {chunks : List Chunk}
    (pending : Pending values s) (ok : s.run calls = (.ok chunks, next))
    (filed : ∀ answer ∈ s.answers calls, answer.call = .flush → answer.chunk?.isSome = true) :
    chunks = (s.answers calls).filterMap Answer.chunk? ∧
      ∀ before answer after, s.answers calls = before ++ answer :: after →
        answer.chunk?.isSome = true → Answer.reported (before ++ [answer]) =
          values ++ (Answer.telemetry (before ++ [answer])).flatMap TelemetryUnit.listed := by
  induction calls generalizing s values chunks with
  | nil =>
    cases ok
    exact ⟨rfl, fun before answer after split => by simp [answers] at split⟩
  | cons first rest ih =>
    obtain ⟨world, call⟩ := first
    unfold run at ok
    split at ok
    · cases ok
    · rename_i chunk? middle here
      have each : s.answers ((world, call) :: rest) =
          ⟨call, s.dispatched call, chunk?⟩ :: middle.answers rest := by
        rw [answers, here]
        rfl
      rw [each] at filed ⊢
      obtain ⟨filed, filed'⟩ := List.forall_mem_cons.mp filed
      obtain ⟨kept, given⟩ := call_reports pending here filed
      split at ok
      · cases ok
      · rename_i later last there
        cases ok
        cases chunk? with
        | none =>
          obtain ⟨same, reports⟩ := ih (kept rfl) there filed'
          refine ⟨by rw [same]; rfl, ?_⟩
          intro before answer after split ended
          cases before with
          | nil =>
            obtain ⟨rfl, -⟩ := List.cons.inj split
            cases ended
          | cons earlier before =>
            obtain ⟨rfl, split'⟩ := List.cons.inj split
            rw [List.cons_append, ← List.singleton_append, Answer.reported_append,
              Answer.telemetry_append, Answer.reported_singleton, Answer.telemetry_singleton,
              reports before answer after split' ended, List.flatMap_append, List.append_assoc]
            rfl
        | some chunk =>
          obtain ⟨checksums, emptied⟩ := given chunk rfl
          obtain ⟨same, reports⟩ := ih emptied there filed'
          refine ⟨by rw [same]; rfl, ?_⟩
          intro before answer after split ended
          cases before with
          | nil =>
            obtain ⟨rfl, -⟩ := List.cons.inj split
            rw [List.nil_append, Answer.reported_singleton, Answer.telemetry_singleton]
            exact checksums
          | cons earlier before =>
            obtain ⟨rfl, split'⟩ := List.cons.inj split
            rw [List.cons_append, ← List.singleton_append, Answer.reported_append,
              Answer.telemetry_append, Answer.reported_singleton, Answer.telemetry_singleton,
              reports before answer after split' ended, List.flatMap_append, Option.elim_some,
              checksums, List.nil_append, List.append_assoc]

section
variable {answers : List Answer}

/-- Behind the last chunk nothing is reported. -/
theorem reported_through_last (reports : ∀ before answer after,
      answers = before ++ answer :: after → answer.chunk?.isSome = true →
        Answer.reported (before ++ [answer]) =
          (Answer.telemetry (before ++ [answer])).flatMap TelemetryUnit.listed) :
    Answer.reported answers =
      (Answer.telemetry (answers.rdropWhile fun answer => answer.chunk?.isNone)).flatMap
        TelemetryUnit.listed := by
  induction answers using List.reverseRecOn with
  | nil => rfl
  | append_singleton earlier answer ih =>
    cases given : answer.chunk? with
    | none =>
      have quiet : Answer.reported [answer] = [] := by
        rw [Answer.reported_singleton, given]
        rfl
      rw [List.rdropWhile_concat_pos _ _ _ (by rw [given]; rfl), Answer.reported_append, quiet,
        List.append_nil]
      refine ih fun before answer' after split => ?_
      exact reports before answer' (after ++ [answer]) (by rw [split]; simp)
    | some chunk =>
      rw [List.rdropWhile_concat_neg _ _ _ (by rw [given]; exact nofun)]
      exact reports earlier answer [] rfl (by rw [given]; rfl)

/-- A chunk reports what was dispatched since the one before it. -/
theorem reported_between {before window after : List Answer} {answer : Answer} {chunk : Chunk}
    (reports : ∀ before answer after,
      answers = before ++ answer :: after → answer.chunk?.isSome = true →
        Answer.reported (before ++ [answer]) =
          (Answer.telemetry (before ++ [answer])).flatMap TelemetryUnit.listed)
    (split : answers = before ++ (window ++ answer :: after)) (given : answer.chunk? = some chunk)
    (quiet : ∀ answer ∈ window, answer.chunk? = none)
    (begins : before.getLast?.all fun last => last.chunk?.isSome) :
    chunk.checksums =
      (Answer.telemetry (window ++ [answer])).flatMap TelemetryUnit.listed := by
  have earlier : Answer.reported before =
      (Answer.telemetry before).flatMap TelemetryUnit.listed := by
    obtain rfl | ⟨front, last, rfl⟩ := List.eq_nil_or_concat before
    · rfl
    · rw [List.concat_eq_append] at begins split ⊢
      refine reports front last (window ++ answer :: after) (by rw [split]; simp) ?_
      simpa using begins
  have through := reports (before ++ window) answer after (by rw [split, List.append_assoc])
    (by rw [given]; rfl)
  rw [List.append_assoc, Answer.reported_append, Answer.telemetry_append, List.flatMap_append,
    ← earlier, Answer.reported_append, Answer.reported_of_quiet quiet, List.nil_append,
    Answer.reported_singleton, given] at through
  exact List.append_cancel_left through

end

/-- **Each decoded unit is reported once.** When a run succeeds and every flush in it gives a chunk,
the checksums in the attributes of the chunks are those of the units decoded up to the last chunk,
one for each and in the order in which they were dispatched. Each chunk has those of the units
dispatched since the chunk before it, its own call included. -/
theorem checksums_reported_once (id now : Nat) (settings : SessionSettings)
    {calls : List (Surroundings × Call)} {chunks : List Chunk}
    (ok : ((new id now settings).run calls).1 = .ok chunks)
    (filed : ∀ answer ∈ (new id now settings).answers calls,
      answer.call = .flush → answer.chunk?.isSome = true) :
    let answers := (new id now settings).answers calls
    chunks = answers.filterMap Answer.chunk? ∧
      (chunks.flatMap Chunk.checksums).map some =
        (Answer.telemetry (answers.rdropWhile fun answer => answer.chunk?.isNone)).map
          TelemetryUnit.report? ∧
      ∀ before window answer after chunk, answers = before ++ (window ++ answer :: after) →
        answer.chunk? = some chunk → (∀ answer ∈ window, answer.chunk? = none) →
        (before.getLast?.all fun last => last.chunk?.isSome) = true →
        chunk.checksums.map some =
          (Answer.telemetry (window ++ [answer])).map TelemetryUnit.report? := by
  obtain ⟨same, reports⟩ := run_reports (pending_new id now settings) (Prod.ext ok rfl) filed
  refine ⟨same, ?all, ?each⟩
  case all =>
    have reported := reported_through_last reports
    rw [Answer.reported, ← same] at reported
    rw [reported, Answer.telemetry, map_listed]
  case each =>
    intro before window answer after chunk split given quiet begins
    rw [reported_between reports split given quiet begins, Answer.telemetry, map_listed]

end Session

namespace Telemetry.Sample

/-- A unit of private data that holds a packet. -/
def unitOf (lengthField body : Bytes) : Bytes :=
  [0, 0, 1, 0xBD, 0, 0, 0x80, 0, 0] ++ packetOf lengthField body

/-- Three units, the second with a checksum that does not agree. -/
def datagram : Bytes :=
  (Transport.Sample.pat :: Transport.Sample.pmt :: packetize 0x102 3
    [⟨.ofPayload (unitOf [4] [1, 2, 0x4C, 0x51]) (by decide) (by decide), []⟩,
      ⟨.ofPayload (unitOf [4] [1, 2, 0x4C, 0x52]) (by decide) (by decide), []⟩,
      ⟨.ofPayload (unitOf [13] body) (by decide) (by decide), []⟩]).flatten

def calls : List (Surroundings × Call) :=
  [(⟨0, true⟩, .push (datagram.take 500)), (⟨1, true⟩, .push (datagram.drop 500)),
    (⟨2, true⟩, .flush), (⟨3, true⟩, .push datagram), (⟨4, true⟩, .flush)]

end Telemetry.Sample

namespace Session

/-- The last unit of each window is only read when the session is flushed. -/
theorem sample_checksums :
    let s := new 1 0 .standard
    (∀ answer ∈ s.answers Telemetry.Sample.calls,
      answer.call = .flush → answer.chunk?.isSome = true) ∧
    ∃ first second, (s.run Telemetry.Sample.calls).1 = .ok [first, second] ∧
      ([first, second].flatMap Chunk.checksums).map some =
        [some (.integer 0x4C51), some (.integer 0x1635), some (.integer 0x4C51),
          some (.integer 0x1635)] := by
  intro s
  obtain ⟨filed, evaluated, decoded⟩ :
      (∀ answer ∈ s.answers Telemetry.Sample.calls,
        answer.call = .flush → answer.chunk?.isSome = true) ∧
      (s.run Telemetry.Sample.calls).1.map List.length = .ok 2 ∧
      (Answer.telemetry ((s.answers Telemetry.Sample.calls).rdropWhile
        fun answer => answer.chunk?.isNone)).map TelemetryUnit.checksum? =
          [some 0x4C51, some 0x1635, some 0x4C51, some 0x1635] := by
    decide +kernel
  obtain ⟨chunks, ok, two⟩ := succeeds_of_map evaluated
  obtain ⟨first, second, rfl⟩ := List.length_eq_two.mp two
  obtain ⟨-, reported, -⟩ := checksums_reported_once 1 0 .standard ok filed
  refine ⟨filed, first, second, ok, reported.trans ?_⟩
  have each : TelemetryUnit.report? = Option.map (fun number : Nat => .integer number) ∘
      TelemetryUnit.checksum? := rfl
  rw [each, ← List.map_map, decoded]
  rfl

end Session

end MotionImagery
