import MotionImagery.Proofs.Buffer.Conservation
import MotionImagery.Proofs.Transport.Multiplex
import MotionImagery.Session

/-!
What the steps of a session do when they succeed. The demultiplexer and the window only see the
packets, and the buffer only sees the packets and the types of the frames that they complete.
-/
namespace MotionImagery
open Buffer Telemetry Transport Video

/-- The type of the frame that a unit completes, if it completes one. -/
def frameType? (unit : ElementaryUnit) : Option FrameType :=
  match unit.kind with
  | .video _ => (Video.classify unit).toOption
  | _ => none

/-- The window with what a unit has to say. -/
def collect (context : Context) (window : Summary.Window) (unit : ElementaryUnit) :
    Summary.Window :=
  match unit.kind with
  | .telemetry =>
    match TelemetryUnit.decode context unit.data with
    | .ok (some decoded) => window.accept decoded.fields
    | _ => window
  | _ => window

/-- Video of which no frame can be made, and telemetry that cannot be decoded. -/
def isUnusable (context : Context) (unit : ElementaryUnit) : Bool :=
  match unit.kind with
  | .video _ => !(Video.classify unit).isOk
  | .telemetry => !(TelemetryUnit.decode context unit.data).isOk
  | .other => false

namespace Session

/-- Units were dispatched, and nothing failed. -/
structure Dispatched (world : Surroundings) (units : List ElementaryUnit) (s next : Session) :
    Prop where
  reassembler : next.reassembler = s.reassembler
  demux : next.demux = s.demux
  context : next.context = s.context
  settings : next.settings = s.settings
  window : next.window = units.foldl (collect s.context) s.window
  buffer : s.buffer.completeAll world (units.filterMap frameType?) = (.ok (), next.buffer)
  dropped : next.dropped = s.dropped + units.countP (isUnusable s.context)

variable {s next : Session} {world : Surroundings}

theorem dispatch_ok {unit : ElementaryUnit} (ok : s.dispatch world unit = (.ok (), next)) :
    Dispatched world [unit] s next := by
  unfold dispatch at ok
  split at ok
  · rename_i codec kind
    split at ok
    · rename_i error unclassified
      cases ok
      have frames : [unit].filterMap frameType? = [] := by
        simp [frameType?, kind, unclassified, Except.toOption]
      have unusable : isUnusable s.context unit = true := by
        simp [isUnusable, kind, unclassified, Except.isOk, Except.toBool]
      exact ⟨rfl, rfl, rfl, rfl, by simp [collect, kind, drop, say], by rw [frames]; rfl,
        by simp [unusable, drop]⟩
    · rename_i type classified
      have frames : [unit].filterMap frameType? = [type] := by
        simp [frameType?, kind, classified, Except.toOption]
      have usable : isUnusable s.context unit = false := by
        simp [isUnusable, kind, classified, Except.isOk, Except.toBool]
      generalize same : s.buffer.frameComplete world type = outcome at ok
      obtain ⟨failed | completed, buffer⟩ := outcome
      · cases ok
      · cases ok
        refine ⟨rfl, rfl, rfl, rfl, by simp [collect, kind], ?_, by simp [usable]⟩
        rw [frames, FrameBuffer.completeAll, same]
        rfl
  · rename_i kind
    have frames : [unit].filterMap frameType? = [] := by simp [frameType?, kind]
    split at ok
    · rename_i error undecoded
      cases ok
      have unusable : isUnusable s.context unit = true := by
        simp [isUnusable, kind, undecoded, Except.isOk, Except.toBool]
      exact ⟨rfl, rfl, rfl, rfl, by simp [collect, kind, undecoded, drop, say], by rw [frames]; rfl,
        by simp [unusable, drop]⟩
    · rename_i nothing
      cases ok
      have usable : isUnusable s.context unit = false := by
        simp [isUnusable, kind, nothing, Except.isOk, Except.toBool]
      exact ⟨rfl, rfl, rfl, rfl, by simp [collect, kind, nothing], by rw [frames]; rfl,
        by simp [usable]⟩
    · rename_i decoded found
      cases ok
      have usable : isUnusable s.context unit = false := by
        simp [isUnusable, kind, found, Except.isOk, Except.toBool]
      exact ⟨rfl, rfl, rfl, rfl, by simp [collect, kind, found], by rw [frames]; rfl,
        by simp [usable]⟩
  · rename_i kind
    cases ok
    exact ⟨rfl, rfl, rfl, rfl, by simp [collect, kind],
      by simp [frameType?, kind, FrameBuffer.completeAll], by simp [isUnusable, kind]⟩

theorem dispatchAll_ok {units : List ElementaryUnit}
    (ok : s.dispatchAll world units = (.ok (), next)) : Dispatched world units s next := by
  induction units generalizing s with
  | nil =>
    cases ok
    exact ⟨rfl, rfl, rfl, rfl, rfl, rfl, rfl⟩
  | cons unit rest ih =>
    unfold dispatchAll at ok
    split at ok
    · cases ok
    · rename_i first here
      have one := dispatch_ok here
      have later := ih ok
      refine ⟨later.reassembler.trans one.reassembler, later.demux.trans one.demux,
        later.context.trans one.context, later.settings.trans one.settings, ?_, ?_, ?_⟩
      · rw [later.window, one.context, one.window]
        rfl
      · rw [← List.singleton_append, List.filterMap_append]
        exact FrameBuffer.completeAll_append one.buffer later.buffer
      · rw [later.dropped, one.context, one.dropped, Nat.add_assoc, ← List.countP_append]
        rfl

/-- A packet was buffered and read, and nothing failed. -/
structure PacketRead (world : Surroundings) (packet : Bytes) (s next : Session) : Prop where
  reassembler : next.reassembler = s.reassembler
  demux : next.demux = (s.demux.read packet).2
  context : next.context = s.context
  settings : next.settings = s.settings
  window : next.window = (unitsOf [(s.demux.read packet).1]).foldl (collect s.context) s.window
  buffer : ∃ pushed, s.buffer.push world packet = (.ok (), pushed) ∧
    pushed.completeAll world ((unitsOf [(s.demux.read packet).1]).filterMap frameType?) =
      (.ok (), next.buffer)
  dropped : next.dropped =
    s.dropped + (unitsOf [(s.demux.read packet).1]).countP (isUnusable s.context)

theorem readPacket_ok {packet : Bytes} (ok : s.readPacket world packet = (.ok (), next)) :
    PacketRead world packet s next := by
  unfold readPacket at ok
  split at ok
  · cases ok
  · rename_i pushed buffered
    dsimp only at ok
    split at ok
    · rename_i unit outcome
      have units : unitsOf [(s.demux.read packet).1] = unit.toList := by
        rw [outcome]
        exact List.append_nil _
      have dispatched := dispatchAll_ok ok
      rw [← units] at dispatched
      exact ⟨dispatched.reassembler, dispatched.demux, dispatched.context, dispatched.settings,
        dispatched.window, ⟨pushed, buffered, dispatched.buffer⟩, dispatched.dropped⟩
    · rename_i error outcome
      have units : unitsOf [(s.demux.read packet).1] = [] := by rw [outcome]; rfl
      split at ok
      · cases ok
      · cases ok
        exact ⟨rfl, rfl, rfl, rfl, by rw [units]; rfl, ⟨pushed, buffered, by rw [units]; rfl⟩,
          by rw [units]; rfl⟩

/-- A datagram was taken in: its packets were read, and then the file was rotated. -/
structure Pushed (world : Surroundings) (datagram : Bytes) (s next : Session)
    (chunk? : Option Chunk) (read : Session) (file : Option Bytes) : Prop where
  packets : ({ s with reassembler := (s.reassembler.push datagram).2 }).readPackets world
    (s.reassembler.push datagram).1 = (.ok (), read)
  reassembler : next.reassembler = read.reassembler
  demux : next.demux = read.demux
  context : next.context = read.context
  settings : next.settings = read.settings
  buffer : read.buffer.rotate world read.settings.rollover = (.ok file, next.buffer)
  chunk : chunk? = file.map fun content => ⟨content, (read.window.finish read.settings.summary).1⟩
  window : file = none → next.window = read.window
  handed : ∀ content, file = some content →
    next.window = (read.window.finish read.settings.summary).2
  dropped : next.dropped = read.dropped

theorem report_eq (s : Session) (now : Nat) :
    ∃ reported log, s.report now = { s with reported, log } := by
  unfold report
  split
  · exact ⟨s.reported, s.log, rfl⟩
  · exact ⟨now, _, rfl⟩

theorem push_ok {datagram : Bytes} {chunk? : Option Chunk}
    (ok : s.push world datagram = (.ok chunk?, next)) :
    ∃ read file, Pushed world datagram s next chunk? read file := by
  unfold push at ok
  dsimp only at ok
  split at ok
  · cases ok
  · rename_i read packets
    obtain ⟨reported, log, report⟩ := read.report_eq world.now
    simp only [report] at ok
    split at ok
    · cases ok
    · rename_i unready
      cases ok
      exact ⟨read, none, packets, rfl, rfl, rfl, rfl, Prod.ext unready rfl, rfl, fun _ => rfl,
        nofun, rfl⟩
    · rename_i content ready
      cases ok
      exact ⟨read, some content, packets, rfl, rfl, rfl, rfl, Prod.ext ready rfl, rfl, nofun,
        fun _ _ => rfl, rfl⟩

/-- What was pending was completed, and everything handed over. -/
structure Flushed (world : Surroundings) (s next : Session) (chunk? : Option Chunk)
    (completed : FrameBuffer) (file : Option Bytes) : Prop where
  reassembler : next.reassembler = s.reassembler.flush
  context : next.context = s.context
  settings : next.settings = s.settings
  completes : s.buffer.completeAll world (s.demux.flush.1.filterMap frameType?) =
    (.ok (), completed)
  buffer : completed.flush world = (.ok file, next.buffer)
  chunk : chunk? = file.map fun content =>
    ⟨content, ((s.demux.flush.1.foldl (collect s.context) s.window).finish s.settings.summary).1⟩
  window : next.window =
    ((s.demux.flush.1.foldl (collect s.context) s.window).finish s.settings.summary).2

theorem flush_ok {chunk? : Option Chunk} (ok : s.flush world = (.ok chunk?, next)) :
    ∃ completed file, Flushed world s next chunk? completed file := by
  unfold flush at ok
  dsimp only at ok
  split at ok
  · cases ok
  · rename_i dispatched units
    have all := dispatchAll_ok units
    split at ok
    · cases ok
    · rename_i empty
      cases ok
      refine ⟨dispatched.buffer, none, all.reassembler, all.context, all.settings, all.buffer,
        Prod.ext empty rfl, rfl, ?_⟩
      simp only [all.window]
    · rename_i content full
      cases ok
      refine ⟨dispatched.buffer, some content, all.reassembler, all.context, all.settings,
        all.buffer, Prod.ext full rfl, ?_, ?_⟩
      · simp only [handOff, all.settings, all.window, Option.map_some]
      · simp only [handOff, all.settings, all.window]

end Session

end MotionImagery
