import MotionImagery.Proofs.Buffer.Conservation

/-!
The books of a buffer over all that it is asked to do, failures included. What leaves a buffer are
files that it hands over and frames that it could not write; with what it still holds they are the
packets that came in, in order. A file can only fail to be created when there is none, so whatever
is lost comes behind everything that was handed over before it.
-/
namespace MotionImagery.Buffer
open Video

/-- What a buffer is asked to do. -/
inductive Request where
  | push (packet : Bytes)
  | frameComplete (type : FrameType)
  | rotate (condition : RolloverCondition)
  | flush
  deriving DecidableEq, Repr

/-- The packet that comes in with a request; an empty one is none. -/
def Request.packets : Request → List Bytes
  | push packet => if packet.isEmpty then [] else [packet]
  | frameComplete _ | rotate _ | flush => []

/-- What leaves a buffer. -/
inductive Departure where
  /-- A file was handed over. -/
  | file (content : Bytes)
  /-- Frames were taken off the list, and there was no file to write them to. -/
  | lost (frames : List Frame)
  deriving DecidableEq, Repr

namespace Departure

def bytes : Departure → Bytes
  | file content => content
  | lost frames => frames.flatMap Frame.bytes

def file? : Departure → Option Bytes
  | file content => some content
  | lost _ => none

/-- The files among them. -/
def files (departures : List Departure) : List Bytes := departures.filterMap file?

@[simp]
theorem files_append (departures later : List Departure) :
    files (departures ++ later) = files departures ++ files later := List.filterMap_append

@[simp]
theorem files_file (content : Bytes) : files [file content] = [content] := rfl

@[simp]
theorem files_lost (frames : List Frame) : files [lost frames] = [] := rfl

/-- What leaves with an outcome, when the frames were to be written. -/
def ofOutcome (frames : List Frame) : Except FileError (Option Bytes) → List Departure
  | .ok content => content.toList.map file
  | .error _ => [lost frames]

end Departure

namespace FrameBuffer

/-- The buffer with a packet more in its incomplete frame. -/
def received (b : FrameBuffer) (packet : Bytes) : FrameBuffer :=
  { b with
    incomplete := b.incomplete ++ [packet]
    incompleteBytes := b.incompleteBytes + packet.length
    stats := { b.stats with
      bytesReceived := b.stats.bytesReceived + packet.length
      packetsReceived := b.stats.packetsReceived + 1 } }

/-- The frames at the front of the list that may be written. -/
def ready (b : FrameBuffer) : List Frame :=
  b.frames.take (readyCount b.limits.maxFrames b.frames)

/-- The buffer without an incomplete frame. -/
def closed (b : FrameBuffer) : FrameBuffer :=
  if b.incomplete.isEmpty then b else b.completeFrame .unknown

/-- The frames that are taken off the list to be written. -/
def selected (b : FrameBuffer) : Request → List Frame
  | .push packet =>
    if packet.isEmpty then []
    else if b.limits.maxIncompleteBytes < (b.received packet).incompleteBytes then
      ((b.received packet).completeFrame .unknown).ready
    else []
  | .frameComplete type => (b.completeFrame type).ready
  | .rotate _ => b.ready
  | .flush => b.closed.frames

/-- The outcome of a request; nothing is handed over while packets and frames come in. -/
def answer (b : FrameBuffer) (world : Surroundings) :
    Request → Except FileError (Option Bytes) × FrameBuffer
  | .push packet => ((b.push world packet).1.map fun _ => none, (b.push world packet).2)
  | .frameComplete type =>
    ((b.frameComplete world type).1.map fun _ => none, (b.frameComplete world type).2)
  | .rotate condition => b.rotate world condition
  | .flush => b.flush world

theorem push_eq (b : FrameBuffer) (world : Surroundings) {packet : Bytes}
    (some_bytes : packet.isEmpty = false) :
    b.push world packet =
      if b.limits.maxIncompleteBytes < (b.received packet).incompleteBytes then
        ((b.received packet).completeFrame .unknown).writeReady world
      else (.ok (), b.received packet) := by
  unfold push
  rw [some_bytes]
  rfl

theorem flush_eq (b : FrameBuffer) (world : Surroundings) :
    b.flush world = match b.closed.writeFrames world b.closed.frames.length with
      | (.error error, next) => (.error error, next)
      | (.ok (), next) => (.ok next.detach.1, next.detach.2) := rfl

theorem flatten_packets (frames : List Frame) :
    (frames.flatMap Frame.packets).flatten = frames.flatMap Frame.bytes := by
  induction frames with
  | nil => rfl
  | cons frame rest ih =>
    rw [List.flatMap_cons, List.flatten_append, ih, List.flatMap_cons]
    rfl

end FrameBuffer

/-- The time of the request in which the current file was begun, as the byte counts before and
after a request tell it. -/
def begun (before after now : Nat) (earlier : Option Nat) : Option Nat :=
  if after = 0 then none else if before = 0 then some now else earlier

/-- The packets that came in, all that left, the time the current file was begun, and the buffer
agree. -/
structure Balanced (packets : List Bytes) (departures : List Departure) (started : Option Nat)
    (b : FrameBuffer) : Prop where
  conserved : ∃ earlier, packets = earlier ++ b.frames.flatMap Frame.packets ++ b.incomplete ∧
    earlier.flatten = departures.flatMap Departure.bytes ++ b.written
  bytesReceived : b.stats.bytesReceived = packets.flatten.length
  packetsReceived : b.stats.packetsReceived = packets.length
  bytesWritten : b.stats.bytesWritten = (Departure.files departures).flatten.length + b.byteCount
  filesWritten : b.stats.filesWritten = (Departure.files departures).length
  counted : b.Counted
  present : b.file.isSome ↔ 0 < b.byteCount
  /-- A file and its time come and go together. -/
  timed : b.createdAt.isSome ↔ b.file.isSome
  created : b.createdAt = started
  noneEmpty : ∀ content ∈ Departure.files departures, content ≠ []

namespace Balanced
variable {packets : List Bytes} {departures : List Departure} {started : Option Nat}
  {b : FrameBuffer}

theorem new (limits : Limits) : Balanced [] [] none (.new limits) where
  conserved := ⟨[], rfl, rfl⟩
  bytesReceived := rfl
  packetsReceived := rfl
  bytesWritten := rfl
  filesWritten := rfl
  counted := rfl
  present := by simp [FrameBuffer.new]
  timed := .rfl
  created := rfl
  noneEmpty := by simp [Departure.files]

theorem isSome_createdAt (balanced : Balanced packets departures started b) :
    b.createdAt.isSome ↔ 0 < b.byteCount := balanced.timed.trans balanced.present

theorem started_of_empty (balanced : Balanced packets departures started b)
    (empty : b.byteCount = 0) : started = none := by
  have timed := balanced.isSome_createdAt
  rw [balanced.created, empty] at timed
  simpa using timed

/-- A request that leaves the current file alone leaves its time alone. -/
theorem begun_same (balanced : Balanced packets departures started b) (now : Nat) :
    begun b.byteCount b.byteCount now started = started := by
  unfold begun
  split
  · exact (balanced.started_of_empty ‹_›).symm
  · rfl

theorem received (balanced : Balanced packets departures started b) (packet : Bytes) :
    Balanced (packets ++ [packet]) departures started (b.received packet) := by
  obtain ⟨earlier, same, gone⟩ := balanced.conserved
  refine { balanced with conserved := ?_, bytesReceived := ?_, packetsReceived := ?_ }
  · exact ⟨earlier, by simp [same, FrameBuffer.received], gone⟩
  · rw [List.flatten_append, List.length_append, ← balanced.bytesReceived, List.flatten_singleton]
    rfl
  · rw [List.length_append, ← balanced.packetsReceived]
    rfl

theorem completeFrame (balanced : Balanced packets departures started b) (type : FrameType) :
    Balanced packets departures started (b.completeFrame type) := by
  obtain ⟨earlier, same, gone⟩ := balanced.conserved
  refine { balanced with conserved := ?_ }
  exact ⟨earlier, by simp [same, FrameBuffer.completeFrame], gone⟩

theorem closed (balanced : Balanced packets departures started b) :
    Balanced packets departures started b.closed := by
  unfold FrameBuffer.closed
  split
  · exact balanced
  · exact balanced.completeFrame .unknown

/-- The packets of frames that are taken off the list join those that came before. -/
theorem taken (balanced : Balanced packets departures started b) (count : Nat) :
    ∃ earlier, packets = earlier ++ (b.frames.drop count).flatMap Frame.packets ++ b.incomplete ∧
      earlier.flatten = departures.flatMap Departure.bytes ++ b.written ++
        (b.frames.take count).flatMap Frame.bytes := by
  obtain ⟨earlier, same, gone⟩ := balanced.conserved
  refine ⟨earlier ++ (b.frames.take count).flatMap Frame.packets, ?_, ?_⟩
  · rw [same, List.append_assoc earlier ((b.frames.take count).flatMap _), ← List.flatMap_append,
      List.take_append_drop]
  · rw [List.flatten_append, gone, FrameBuffer.flatten_packets]

/-- A file that gets bytes was created when it got its first ones. -/
theorem begun_wrote (balanced : Balanced packets departures started b) {earlier : Bytes}
    {time : Option Nat} {now after : Nat} (opened : b.Opened now earlier time)
    (positive : 0 < after) : time = begun b.byteCount after now started := by
  have present := balanced.present
  unfold begun
  rw [if_neg (by omega)]
  cases opened with
  | current here =>
    rw [here] at present
    rw [if_neg (by simpa [Nat.pos_iff_ne_zero] using present)]
    exact balanced.created
  | created absent =>
    rw [absent] at present
    rw [if_pos (by simpa using present)]

/-- A file that is written to has a time. -/
theorem timed_wrote (balanced : Balanced packets departures started b) {earlier : Bytes}
    {time : Option Nat} {now : Nat} (opened : b.Opened now earlier time) : time.isSome := by
  cases opened with
  | current here =>
    rw [balanced.timed, here]
    rfl
  | created absent => rfl

theorem writeFrames (balanced : Balanced packets departures started b) (world : Surroundings)
    (count : Nat) :
    Balanced packets
      (departures ++ Departure.ofOutcome (b.frames.take count)
        ((b.writeFrames world count).1.map fun _ => none))
      (begun b.byteCount (b.writeFrames world count).2.byteCount world.now started)
      (b.writeFrames world count).2 := by
  obtain ⟨earlier, moved, bytes⟩ := balanced.taken count
  have written := b.writing world count
  generalize b.writeFrames world count = result at written
  cases written with
  | nothing empty =>
    rw [empty, List.append_nil] at bytes
    rw [balanced.begun_same]
    show Balanced packets (departures ++ []) _ _
    rw [List.append_nil]
    exact { balanced with conserved := ⟨_, moved, bytes⟩ }
  | failed absent =>
    have nothing : b.written = [] := by simp [FrameBuffer.written, absent]
    rw [nothing, List.append_nil] at bytes
    rw [balanced.begun_same]
    show Balanced packets (departures ++ [.lost _]) _ _
    refine { balanced with
      conserved := ⟨_, moved, ?_⟩, bytesWritten := ?_, filesWritten := ?_, noneEmpty := ?_ }
    · rw [bytes]
      simp [Departure.bytes, FrameBuffer.written, absent]
    · simpa using balanced.bytesWritten
    · simpa using balanced.filesWritten
    · simpa using balanced.noneEmpty
  | wrote some_bytes opened =>
    have before := opened.written_eq
    have counted : b.byteCount = b.written.length := balanced.counted
    have positive := List.length_pos_iff.mpr some_bytes
    have more := Nat.lt_of_lt_of_le positive (Nat.le_add_left _ b.byteCount)
    show Balanced packets (departures ++ []) _ _
    rw [List.append_nil]
    refine { balanced with
      conserved := ⟨_, moved, ?_⟩, bytesWritten := ?_, counted := ?_, present := ?_, timed := ?_
      created := balanced.begun_wrote opened more }
    · rw [bytes, before, List.append_assoc]
      rfl
    · simp only [balanced.bytesWritten, Nat.add_assoc]
    · simp [FrameBuffer.Counted, FrameBuffer.written, ← before, counted]
    · simpa using more
    · simpa using balanced.timed_wrote opened

/-- Nothing is left of a file that is handed over. -/
theorem detach (balanced : Balanced packets departures started b) (before now : Nat)
    (earlier : Option Nat) :
    Balanced packets (departures ++ b.detach.1.toList.map Departure.file)
      (begun before b.detach.2.byteCount now earlier) b.detach.2 := by
  obtain ⟨before_file, same, gone⟩ := balanced.conserved
  have counted : b.byteCount = b.written.length := balanced.counted
  unfold FrameBuffer.detach
  split
  · rename_i zero
    rw [zero, begun, if_pos rfl, ← balanced.started_of_empty zero]
    simpa using balanced
  · rename_i some_bytes
    split
    · rename_i absent
      have present := balanced.present
      simp only [absent, Option.isSome_none, Bool.false_eq_true, false_iff] at present
      omega
    · rename_i content current
      have whole : b.written = content := by simp [FrameBuffer.written, current]
      show Balanced packets (departures ++ [.file content]) _ _
      refine { balanced with
        conserved := ⟨before_file, same, ?_⟩, bytesWritten := ?_, filesWritten := ?_
        counted := rfl, present := by simp, timed := .rfl, created := rfl, noneEmpty := ?_ }
      · rw [gone, whole]
        simp [Departure.bytes, FrameBuffer.written]
      · simp [balanced.bytesWritten, counted, whole]
      · simp [balanced.filesWritten]
      · intro handed member
        rw [Departure.files_append, Departure.files_file] at member
        obtain earlier | now := List.mem_append.mp member
        · exact balanced.noneEmpty handed earlier
        · obtain rfl := List.mem_singleton.mp now
          rintro nothing
          rw [counted, whole, nothing] at some_bytes
          exact some_bytes rfl

theorem rotate (balanced : Balanced packets departures started b) (world : Surroundings)
    (condition : RolloverCondition) :
    Balanced packets
      (departures ++ Departure.ofOutcome b.ready (b.rotate world condition).1)
      (begun b.byteCount (b.rotate world condition).2.byteCount world.now started)
      (b.rotate world condition).2 := by
  have written : Balanced packets
      (departures ++ Departure.ofOutcome b.ready ((b.writeReady world).1.map fun _ => none))
      (begun b.byteCount (b.writeReady world).2.byteCount world.now started)
      (b.writeReady world).2 := balanced.writeFrames world _
  unfold FrameBuffer.rotate
  generalize b.writeReady world = result at written ⊢
  obtain ⟨error | ⟨⟨⟩⟩, next⟩ := result
  · exact written
  · rw [show Departure.ofOutcome b.ready _ = [] from rfl, List.append_nil] at written
    dsimp only
    split
    · exact written.detach _ _ _
    · simpa [Departure.ofOutcome] using written

theorem flush (balanced : Balanced packets departures started b) (world : Surroundings) :
    Balanced packets (departures ++ Departure.ofOutcome b.closed.frames (b.flush world).1)
      (begun b.byteCount (b.flush world).2.byteCount world.now started) (b.flush world).2 := by
  have written := balanced.closed.writeFrames world b.closed.frames.length
  rw [List.take_length] at written
  have count : b.closed.byteCount = b.byteCount := by
    unfold FrameBuffer.closed
    split <;> rfl
  rw [FrameBuffer.flush_eq]
  rw [count] at written
  generalize b.closed.writeFrames world b.closed.frames.length = result at written ⊢
  obtain ⟨error | ⟨⟨⟩⟩, next⟩ := result
  · exact written
  · rw [show Departure.ofOutcome b.closed.frames _ = [] from rfl, List.append_nil] at written
    exact written.detach _ _ _

/-- Every request keeps the books, whether it succeeds or fails. -/
theorem answer (balanced : Balanced packets departures started b) (world : Surroundings)
    (request : Request) :
    Balanced (packets ++ request.packets)
      (departures ++ Departure.ofOutcome (b.selected request) (b.answer world request).1)
      (begun b.byteCount (b.answer world request).2.byteCount world.now started)
      (b.answer world request).2 := by
  cases request with
  | push packet =>
    simp only [FrameBuffer.answer, FrameBuffer.selected, Request.packets]
    cases empty : packet.isEmpty with
    | true =>
      simp only [FrameBuffer.push, empty, if_true, balanced.begun_same]
      simpa [Departure.ofOutcome, Except.map] using balanced
    | false =>
      simp only [FrameBuffer.push_eq b world empty, Bool.false_eq_true, if_false]
      split
      · exact ((balanced.received packet).completeFrame .unknown).writeFrames world _
      · rw [show begun b.byteCount (b.received packet).byteCount world.now started = started from
          balanced.begun_same world.now]
        simpa [Departure.ofOutcome, Except.map] using balanced.received packet
  | frameComplete type =>
    rw [Request.packets, List.append_nil]
    exact (balanced.completeFrame type).writeFrames world _
  | rotate condition =>
    rw [Request.packets, List.append_nil]
    exact balanced.rotate world condition
  | flush =>
    rw [Request.packets, List.append_nil]
    exact balanced.flush world

end Balanced

/-- What is known of a buffer from outside: what left it, and when its current file was begun. -/
structure Ledger where
  departures : List Departure
  started : Option Nat
  buffer : FrameBuffer

namespace Ledger

def opened (limits : Limits) : Ledger := ⟨[], none, .new limits⟩

def enter (l : Ledger) (call : Surroundings × Request) : Ledger :=
  let (outcome, next) := l.buffer.answer call.1 call.2
  ⟨l.departures ++ Departure.ofOutcome (l.buffer.selected call.2) outcome,
    begun l.buffer.byteCount next.byteCount call.1.now l.started, next⟩

/-- One call after the other; one that fails does not keep the next from being made. -/
def after (limits : Limits) (calls : List (Surroundings × Request)) : Ledger :=
  calls.foldl enter (opened limits)

/-- The packets that come in with calls. -/
def packets (calls : List (Surroundings × Request)) : List Bytes :=
  calls.flatMap fun call => call.2.packets

theorem balanced_foldl {l : Ledger} {packets : List Bytes}
    (balanced : Balanced packets l.departures l.started l.buffer)
    (calls : List (Surroundings × Request)) :
    Balanced (packets ++ Ledger.packets calls) (calls.foldl enter l).departures
      (calls.foldl enter l).started (calls.foldl enter l).buffer := by
  induction calls generalizing l packets with
  | nil => simpa [Ledger.packets] using balanced
  | cons call rest ih =>
    have entered : Balanced (packets ++ call.2.packets) (l.enter call).departures
        (l.enter call).started (l.enter call).buffer := balanced.answer call.1 call.2
    have later := ih entered
    rwa [List.append_assoc] at later

/-- **A buffer keeps every byte, and keeps count.** After any calls, failed ones among them, the
packets that came in are, in order: what left the buffer as files or with frames that a failed call
had taken to write, the current file, the frames that wait, the incomplete frame. Its counters are
those of the packets and files. There is a current file exactly when it has bytes, and exactly when
there is a time at which it was created, which is that of the call that wrote the first of them. No
file is handed over empty. -/
theorem buffer_keeps_books (limits : Limits) (calls : List (Surroundings × Request)) :
    let l := after limits calls
    let b := l.buffer
    let files := Departure.files l.departures
    (∃ earlier, packets calls = earlier ++ b.frames.flatMap Frame.packets ++ b.incomplete ∧
      earlier.flatten = l.departures.flatMap Departure.bytes ++ b.written) ∧
    b.stats.bytesReceived = (packets calls).flatten.length ∧
    b.stats.packetsReceived = (packets calls).length ∧
    b.stats.bytesWritten = files.flatten.length + b.byteCount ∧
    b.stats.filesWritten = files.length ∧
    b.byteCount = b.written.length ∧
    (b.file.isSome ↔ 0 < b.byteCount) ∧
    (b.createdAt.isSome ↔ b.file.isSome) ∧ (b.createdAt.isSome ↔ 0 < b.byteCount) ∧
    b.createdAt = l.started ∧
    ∀ content ∈ files, content ≠ [] := by
  have balanced := balanced_foldl (l := opened limits) (Balanced.new limits) calls
  rw [List.nil_append] at balanced
  exact ⟨balanced.conserved, balanced.bytesReceived, balanced.packetsReceived,
    balanced.bytesWritten, balanced.filesWritten, balanced.counted, balanced.present,
    balanced.timed, balanced.isSome_createdAt, balanced.created, balanced.noneEmpty⟩

end Ledger

end MotionImagery.Buffer
