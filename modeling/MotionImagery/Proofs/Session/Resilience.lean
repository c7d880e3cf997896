import MotionImagery.Proofs.Access.Telemetry
import MotionImagery.Proofs.Buffer.Ledger
import MotionImagery.Proofs.Session.Conservation
import MotionImagery.Proofs.Transport.DamagedTables
import MotionImagery.Proofs.Transport.Reassembly

/-!
Sessions and arbitrary input. As long as files can be created, what comes in stops a session in one
way only, and whatever else is wrong with it is passed over.
-/
namespace MotionImagery
open Buffer Telemetry Transport Video

namespace Buffer.FrameBuffer
variable {world : Surroundings} (creates : world.creates = true) (b : FrameBuffer)

section
include creates

theorem writeFrames_succeeds (count : Nat) : (b.writeFrames world count).1 = .ok () := by
  have written := b.writing world count
  generalize b.writeFrames world count = result at written
  cases written with
  | nothing | wrote => rfl
  | failed absent refuses =>
    rw [creates] at refuses
    cases refuses

theorem push_succeeds (packet : Bytes) : (b.push world packet).1 = .ok () := by
  unfold push
  dsimp only
  split
  · rfl
  · split
    · exact writeFrames_succeeds creates _ _
    · rfl

theorem frameComplete_succeeds (type : FrameType) : (b.frameComplete world type).1 = .ok () :=
  writeFrames_succeeds creates _ _

theorem rotate_succeeds (condition : RolloverCondition) :
    ∃ file, (b.rotate world condition).1 = .ok file := by
  have written := writeFrames_succeeds creates b (readyCount b.limits.maxFrames b.frames)
  unfold rotate writeReady
  generalize b.writeFrames world _ = result at written
  obtain ⟨outcome, next⟩ := result
  obtain rfl : outcome = .ok () := written
  dsimp only
  split
  · exact ⟨_, rfl⟩
  · exact ⟨none, rfl⟩

end

/-- One request after the other. -/
def answerAll (b : FrameBuffer) (world : Surroundings) (requests : List Request) : FrameBuffer :=
  requests.foldl (fun b request => (b.answer world request).2) b

theorem answerAll_append (b : FrameBuffer) (world : Surroundings) (requests later : List Request) :
    b.answerAll world (requests ++ later) = (b.answerAll world requests).answerAll world later :=
  List.foldl_append

theorem answerAll_completeAll {b next : FrameBuffer} {world : Surroundings}
    {types : List FrameType} (completed : b.completeAll world types = (.ok (), next)) :
    b.answerAll world (types.map .frameComplete) = next := by
  induction types generalizing b with
  | nil =>
    cases completed
    rfl
  | cons type rest ih =>
    unfold completeAll at completed
    split at completed
    · cases completed
    · rename_i first here
      have answered : (b.answer world (.frameComplete type)).2 = first := congrArg Prod.snd here
      rw [List.map_cons, answerAll, List.foldl_cons, answered]
      exact ih completed

end Buffer.FrameBuffer

/-- Each packet, and behind it the frames of the units that it completes. -/
def requestsOf (d : Demux) : List Bytes → List Request
  | [] => []
  | packet :: rest =>
    .push packet :: ((unitsOf [(d.read packet).1]).filterMap frameType?).map .frameComplete ++
      requestsOf (d.read packet).2 rest

/-- A unit that cannot be used completes no frame and says nothing. -/
theorem unusable_passed_over {context : Context} {unit : ElementaryUnit}
    (unusable : isUnusable context unit = true) (window : Summary.Window) :
    frameType? unit = none ∧ collect context window unit = window := by
  unfold isUnusable at unusable
  unfold frameType? collect
  cases kind : unit.kind with
  | video codec =>
    simp only [kind] at unusable
    cases classified : Video.classify unit with
    | error error => exact ⟨rfl, rfl⟩
    | ok type => simp [classified, Except.isOk, Except.toBool] at unusable
  | telemetry =>
    simp only [kind] at unusable
    cases decoded : TelemetryUnit.decode context unit.data with
    | error error => exact ⟨rfl, rfl⟩
    | ok unit? => simp [decoded, Except.isOk, Except.toBool] at unusable
  | other => exact ⟨rfl, rfl⟩

namespace Session
variable {s next : Session} {world : Surroundings}

section
variable (creates : world.creates = true)
include creates

theorem dispatch_succeeds (s : Session) (unit : ElementaryUnit) :
    (s.dispatch world unit).1 = .ok () := by
  unfold dispatch
  split
  · split
    · rfl
    · rename_i type classified
      dsimp only
      rw [FrameBuffer.frameComplete_succeeds creates]
      rfl
  · split <;> rfl
  · rfl

theorem dispatchAll_succeeds (s : Session) (units : List ElementaryUnit) :
    (s.dispatchAll world units).1 = .ok () := by
  induction units generalizing s with
  | nil => rfl
  | cons unit rest ih =>
    have first := dispatch_succeeds creates s unit
    unfold dispatchAll
    split
    · rename_i here
      rw [here] at first
      cases first
    · exact ih _

end

/-- A stream is stopped, by the one error that a session makes of it, or it goes on. -/
inductive Verdict {α : Type} (stopped : Prop) : Except SessionError α → Prop
  | stop (holds : stopped) : Verdict stopped (.error (.unreadable .emptyProgramList))
  | goOn (fails : ¬stopped) (result : α) : Verdict stopped (.ok result)

section
variable (creates : world.creates = true)
include creates

theorem readPacket_verdict (verified : s.demux.verifyCheck = true) (packet : Bytes) :
    Verdict (NamesNoProgram packet) (s.readPacket world packet).1 := by
  have fatal : (s.demux.read packet).1 = .error .emptyProgramList ↔ NamesNoProgram packet :=
    Demux.read_fatal_iff verified
  have buffered := FrameBuffer.push_succeeds creates s.buffer packet
  unfold readPacket
  generalize s.buffer.push world packet = result at buffered
  obtain ⟨outcome, buffer⟩ := result
  obtain rfl : outcome = .ok () := buffered
  dsimp only
  cases read : (s.demux.read packet).1 with
  | ok unit =>
    rw [dispatchAll_succeeds creates]
    refine .goOn (fun named => ?_) ()
    have failed := fatal.mpr named
    rw [read] at failed
    cases failed
  | error error =>
    dsimp only
    rw [read, Except.error.injEq] at fatal
    by_cases stops : error = .emptyProgramList
    · subst stops
      exact .stop (fatal.mp rfl)
    · rw [if_neg (by simpa [DemuxError.isFatal] using stops)]
      exact .goOn (fun named => stops (fatal.mpr named)) ()

theorem readPackets_verdict (verified : s.demux.verifyCheck = true) (packets : List Bytes) :
    Verdict (∃ packet ∈ packets, NamesNoProgram packet) (s.readPackets world packets).1 := by
  induction packets generalizing s with
  | nil => exact .goOn (by simp) ()
  | cons packet rest ih =>
    have first := readPacket_verdict creates verified packet
    unfold readPackets
    split
    · rename_i error failed here
      rw [here] at first
      cases first with
      | stop named => exact .stop ⟨packet, List.mem_cons_self, named⟩
    · rename_i read here
      rw [here] at first
      cases first with
      | goOn unnamed =>
        have verified' : read.demux.verifyCheck = true := by
          rw [(readPacket_ok here).demux]
          exact Demux.verified_read verified packet
        have later := ih verified'
        have same : (∃ packet' ∈ packet :: rest, NamesNoProgram packet') ↔
            ∃ packet' ∈ rest, NamesNoProgram packet' := by
          simp [unnamed]
        rwa [same]

/-- **Only a table without programs stops a session.** -/
theorem push_verdict (verified : s.demux.verifyCheck = true) (datagram : Bytes) :
    Verdict (∃ packet ∈ (s.reassembler.push datagram).1, NamesNoProgram packet)
      (s.push world datagram).1 := by
  have read := readPackets_verdict creates
    (s := { s with reassembler := (s.reassembler.push datagram).2 }) verified
    (s.reassembler.push datagram).1
  unfold push
  dsimp only
  split
  · rename_i error failed here
    rw [here] at read
    cases read with
    | stop named => exact .stop named
  · rename_i next here
    rw [here] at read
    cases read with
    | goOn unnamed =>
      obtain ⟨file, rotated⟩ := FrameBuffer.rotate_succeeds creates
        (next.report world.now).buffer (next.report world.now).settings.rollover
      split
      · rename_i error refused
        rw [refused] at rotated
        cases rotated
      · exact .goOn unnamed none
      · exact .goOn unnamed (some _)

end

/-- What a session is when all packets of a datagram have been read. -/
structure TakenIn (world : Surroundings) (packets : List Bytes) (s next : Session)
    (chunk? : Option Chunk) : Prop where
  demux : next.demux = (s.demux.readAll packets).2
  buffer : next.buffer = s.buffer.answerAll world
    (requestsOf s.demux packets ++ [.rotate s.settings.rollover])
  content : ((s.buffer.answerAll world (requestsOf s.demux packets)).rotate world
    s.settings.rollover).1 = .ok (chunk?.map Chunk.content)
  kept : chunk? = none →
    next.window = (unitsOf (s.demux.readAll packets).1).foldl (collect s.context) s.window
  handed : ∀ chunk, chunk? = some chunk → (chunk.attributes, next.window) =
    ((unitsOf (s.demux.readAll packets).1).foldl (collect s.context) s.window).finish
      s.settings.summary
  dropped : next.dropped =
    s.dropped + (unitsOf (s.demux.readAll packets).1).countP (isUnusable s.context)

theorem buffer_of_readPackets {packets : List Bytes}
    (ok : s.readPackets world packets = (.ok (), next)) :
    next.buffer = s.buffer.answerAll world (requestsOf s.demux packets) := by
  induction packets generalizing s with
  | nil =>
    cases ok
    rfl
  | cons packet rest ih =>
    unfold readPackets at ok
    split at ok
    · cases ok
    · rename_i read here
      have one := readPacket_ok here
      obtain ⟨pushed, buffered, completed⟩ := one.buffer
      have answered : (s.buffer.answer world (.push packet)).2 = pushed :=
        congrArg Prod.snd buffered
      rw [ih ok, requestsOf, one.demux, FrameBuffer.answerAll_append,
        ← FrameBuffer.answerAll_completeAll completed, ← answered]
      rfl

theorem push_takes_in {datagram : Bytes} {chunk? : Option Chunk}
    (ok : s.push world datagram = (.ok chunk?, next)) :
    TakenIn world (s.reassembler.push datagram).1 s next chunk? := by
  obtain ⟨read, file, pushed⟩ := push_ok ok
  have through := readPackets_ok pushed.packets
  have buffer := buffer_of_readPackets pushed.packets
  have rotated := pushed.buffer
  rw [buffer, through.settings] at rotated
  have content : file = chunk?.map Chunk.content := by
    rw [pushed.chunk, Option.map_map]
    cases file <;> rfl
  refine ⟨pushed.demux.trans through.demux, ?_, ?_, ?_, ?_, pushed.dropped.trans through.dropped⟩
  · rw [FrameBuffer.answerAll_append]
    exact (congrArg Prod.snd rotated).symm
  · rw [← content]
    exact congrArg Prod.fst rotated
  · rintro rfl
    exact (pushed.window content).trans through.window
  · rintro chunk rfl
    have attributes := pushed.chunk
    rw [content, Option.map_some, Option.map_some, Option.some.injEq] at attributes
    rw [pushed.handed _ content, attributes, through.window, through.settings]

/-- Checks are verified, and telemetry is read by the data link's table. -/
structure Regular (s : Session) : Prop where
  verified : s.demux.verifyCheck = true
  context : s.context = .uasDatalink

namespace Regular

theorem new (id now : Nat) (settings : SessionSettings) : (new id now settings).Regular :=
  ⟨rfl, rfl⟩

theorem dispatch (regular : s.Regular) (world : Surroundings) (unit : ElementaryUnit) :
    (s.dispatch world unit).2.Regular := by
  obtain ⟨verified, context⟩ := regular
  unfold Session.dispatch
  split
  · split <;> exact ⟨verified, context⟩
  · split <;> exact ⟨verified, context⟩
  · exact ⟨verified, context⟩

theorem dispatchAll (regular : s.Regular) (world : Surroundings) (units : List ElementaryUnit) :
    (s.dispatchAll world units).2.Regular := by
  induction units generalizing s with
  | nil => exact regular
  | cons unit rest ih =>
    have first := regular.dispatch world unit
    unfold Session.dispatchAll
    split
    · rename_i here
      rwa [here] at first
    · rename_i here
      rw [here] at first
      exact ih first

theorem readPacket (regular : s.Regular) (world : Surroundings) (packet : Bytes) :
    (s.readPacket world packet).2.Regular := by
  have verified := Demux.verified_read regular.verified packet
  have context := regular.context
  unfold Session.readPacket
  split
  · exact ⟨regular.verified, context⟩
  · dsimp only
    split
    · refine dispatchAll ?_ world _
      exact ⟨verified, context⟩
    · split <;> exact ⟨verified, context⟩

theorem readPackets (regular : s.Regular) (world : Surroundings) (packets : List Bytes) :
    (s.readPackets world packets).2.Regular := by
  induction packets generalizing s with
  | nil => exact regular
  | cons packet rest ih =>
    have first := regular.readPacket world packet
    unfold Session.readPackets
    split
    · rename_i here
      rwa [here] at first
    · rename_i here
      rw [here] at first
      exact ih first

theorem push (regular : s.Regular) (world : Surroundings) (datagram : Bytes) :
    (s.push world datagram).2.Regular := by
  have taken : Regular { s with reassembler := (s.reassembler.push datagram).2 } :=
    ⟨regular.verified, regular.context⟩
  have read := taken.readPackets world (s.reassembler.push datagram).1
  unfold Session.push
  dsimp only
  split
  · rename_i here
    rwa [here] at read
  · rename_i next here
    rw [here] at read
    obtain ⟨reported, log, report⟩ := next.report_eq world.now
    simp only [report]
    split <;> exact ⟨read.verified, read.context⟩

theorem flush (regular : s.Regular) (world : Surroundings) : (s.flush world).2.Regular := by
  have taken : Regular { s with reassembler := s.reassembler.flush, demux := s.demux.flush.2 } :=
    ⟨regular.verified, regular.context⟩
  have dispatched := taken.dispatchAll world s.demux.flush.1
  unfold Session.flush
  dsimp only
  split
  · rename_i here
    rwa [here] at dispatched
  · rename_i next here
    rw [here] at dispatched
    split <;> exact ⟨dispatched.verified, dispatched.context⟩

end Regular

/-- One call after the other; one that fails does not keep the next from being made. -/
def after (s : Session) (calls : List (Surroundings × Call)) : Session :=
  calls.foldl (fun s (world, call) => (s.call world call).2) s

theorem regular_after (regular : s.Regular) (calls : List (Surroundings × Call)) :
    (s.after calls).Regular := by
  induction calls generalizing s with
  | nil => exact regular
  | cons first rest ih =>
    obtain ⟨world, call⟩ := first
    refine ih (s := (s.call world call).2) ?_
    cases call with
    | push datagram => exact regular.push world datagram
    | flush => exact regular.flush world

/-- **No input breaks a session.** What was called before may be anything, failed calls among it,
and the datagram may hold any bytes; files can be created. What the reassembler lets through are
packets. Reading them, and the units that they complete, asks for no byte that is not there and
computes no length or offset that does not fit a word, given that the bits of pictures can be
counted in one. The session stops at an association table without programs, and at nothing else. Otherwise
every packet is buffered and read and every unit is dispatched; packets that bring no table where
one is due, and units that cannot be used, are passed over. -/
theorem no_input_breaks_session (id start : Nat) (settings : SessionSettings)
    (calls : List (Surroundings × Call)) (now : Nat) (datagram : Bytes) :
    let s := (new id start settings).after calls
    let packets := (s.reassembler.push datagram).1
    let outcome := (s.push ⟨now, true⟩ datagram).1
    (∀ raw ∈ packets, ∃ packet, Packet.parse raw = .ok packet) ∧
    (∀ d raw, Access.read d raw = pure (d.read raw)) ∧
    (∀ unit, Access.Addressable unit.data →
      ((unit.kind = .video .mpeg2 → Access.Countable unit.data) →
        Access.classify unit = pure (Video.classify unit)) ∧
      Access.decode s.context unit.data = pure (TelemetryUnit.decode s.context unit.data)) ∧
    ((∃ error, outcome = .error error) ↔ ∃ raw ∈ packets, NamesNoProgram raw) ∧
    (∀ chunk?, outcome = .ok chunk? →
      TakenIn ⟨now, true⟩ packets s (s.push ⟨now, true⟩ datagram).2 chunk?) ∧
    (∀ before raw after, packets = before ++ raw :: after →
      BringsNoTable (s.demux.readAll before).2 raw →
      (s.demux.readAll packets).2 = (s.demux.readAll (before ++ after)).2 ∧
      unitsOf (s.demux.readAll packets).1 = unitsOf (s.demux.readAll (before ++ after)).1) ∧
    ∀ unit window, isUnusable s.context unit = true →
      frameType? unit = none ∧ collect s.context window unit = window := by
  intro s packets outcome
  have regular : s.Regular := regular_after (.new id start settings) calls
  have verdict : Verdict (∃ raw ∈ packets, NamesNoProgram raw) outcome :=
    push_verdict rfl regular.verified datagram
  have isNarrow : Access.narrowTable s.context.table = true := by
    rw [regular.context]
    exact Access.narrow_uasDatalink
  refine ⟨fun raw member => parse_of_framed (Split.framed_of_mem member), Access.read_eq,
    fun unit addressable =>
      ⟨Access.classify_eq addressable, Access.decode_eq isNarrow addressable⟩, ?_,
    fun chunk? ok => push_takes_in (Prod.ext ok rfl), ?_,
    fun unit window unusable => unusable_passed_over unusable window⟩
  · clear_value outcome
    cases verdict with
    | stop named => exact ⟨fun _ => named, fun _ => ⟨_, rfl⟩⟩
    | goOn unnamed => exact ⟨nofun, fun named => absurd named unnamed⟩
  · intro before raw after same missing
    rw [same]
    exact Demux.readAll_passes_over regular.verified after missing

end Session

namespace Transport.Sample

/-- The association table with a byte changed under its check. -/
def changedPat : Bytes := pat.set 14 0x02

/-- A map table whose length says more than there is. -/
def cutPmt : Bytes := wrapSection 0x1000 [0x02, 0xB1, 0xFF]

/-- Units of one and two bytes, which are nothing. -/
def stubs : List CutUnit :=
  units 0x102 ++ [⟨.ofPayload [6] (by decide) (by decide), []⟩]

/-- Both tables, both damaged tables, and video and telemetry that are nothing. -/
def damaged : List Bytes :=
  pat :: pmt :: changedPat :: cutPmt :: packetize 0x100 0 stubs ++ packetize 0x102 0 stubs

/-- An association table that only names the network table. -/
def emptyPat : Bytes := wrapSection 0 (Section.encode 0 1 0 [0x00, 0x00, 0xE0, 0x10])

/-- The damaged table parses and changes nothing, and the empty one is fatal. -/
theorem damage_read :
    (Packet.parse changedPat).map Packet.header = .ok ⟨false, true, 0, 1, 0⟩ ∧
    ((Demux.new true).read changedPat).2.mapPids = [] ∧
    ((Demux.new true).read emptyPat).1 = .error .emptyProgramList := by decide +kernel

theorem changedPat_brings_no_table (d : Demux) : BringsNoTable d changedPat := by
  obtain ⟨headed, kept, -⟩ := damage_read
  obtain ⟨packet, parsed, header⟩ := succeeds_of_map headed
  refine ⟨⟨packet, parsed, by rw [header], by rw [header], by rw [header]; exact .inl rfl⟩, ?_, ?_⟩
  · intro table carried
    rw [(Demux.new true).read_association carried] at kept
    exact carried.1 (List.map_eq_nil_iff.mp kept)
  · rintro pid table ⟨apart, s, carried, -⟩
    refine apart ?_
    rw [← carriesSection_pid carried parsed, header]
    rfl

theorem emptyPat_names_no_program : NamesNoProgram emptyPat :=
  (Demux.read_fatal_iff (d := .new true) rfl).mp damage_read.2.2

end Transport.Sample

namespace Session

/-- Two units are dropped, and a damaged table counts for nothing; the next datagram stops the
session. -/
theorem sample_input_survived :
    let s := new 1 0 .standard
    let next := (s.push ⟨1, true⟩ Sample.damaged.flatten).2
    (∃ chunk?, (s.push ⟨1, true⟩ Sample.damaged.flatten).1 = .ok chunk?) ∧ next.dropped = 2 ∧
    (s.demux.readAll Sample.damaged).2 = (s.demux.readAll (Sample.damaged.eraseIdx 2)).2 ∧
    Access.classify ⟨0x100, 0x02, [1, 2, 3]⟩ = pure (.error (.invalidPes .tooShort)) ∧
    ∃ error, (next.push ⟨2, true⟩ Sample.emptyPat).1 = .error error := by
  intro s next
  obtain ⟨through, evaluated, unusable, last⟩ :
      (s.reassembler.push Sample.damaged.flatten).1 = Sample.damaged ∧
      (s.push ⟨1, true⟩ Sample.damaged.flatten).1.map Option.isSome = .ok false ∧
      (unitsOf (s.demux.readAll Sample.damaged).1).countP (isUnusable s.context) = 2 ∧
      Sample.emptyPat ∈ (next.reassembler.push Sample.emptyPat).1 := by
    decide +kernel
  obtain ⟨chunk?, ok, -⟩ := succeeds_of_map evaluated
  obtain ⟨-, -, reads, -, taken, skips, -⟩ :=
    no_input_breaks_session 1 0 .standard [] 1 Sample.damaged.flatten
  obtain ⟨-, -, -, stops, -⟩ :=
    no_input_breaks_session 1 0 .standard [(⟨1, true⟩, .push Sample.damaged.flatten)] 2
      Sample.emptyPat
  refine ⟨⟨chunk?, ok⟩, ?_, ?_, ?_, ?_⟩
  · refine (taken chunk? ok).dropped.trans ?_
    change 0 + (unitsOf (s.demux.readAll (s.reassembler.push _).1).1).countP
      (isUnusable s.context) = 2
    rw [through, unusable]
  · have due := (skips [Sample.pat, Sample.pmt] Sample.changedPat (Sample.damaged.drop 3) through
      (Sample.changedPat_brings_no_table _)).1
    change (s.demux.readAll (s.reassembler.push _).1).2 = _ at due
    rw [through] at due
    exact due
  · have addressable : Access.Addressable [1, 2, 3] := show 3 < 0x8000000000000000 by decide
    exact (reads ⟨0x100, 0x02, [1, 2, 3]⟩ addressable).1
      fun _ => show 3 * 8 < Access.wordSize by decide
  · exact stops.mpr ⟨Sample.emptyPat, last, Sample.emptyPat_names_no_program⟩

end Session

end MotionImagery
