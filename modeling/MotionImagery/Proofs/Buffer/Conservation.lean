import MotionImagery.Buffer.FrameBuffer

/-!
Bytes in a buffer. What was pushed and has not been handed over is in the file, in the frames that
wait, or in the incomplete frame, in this order; operations that succeed move bytes only towards
the file, and out of it.
-/
namespace MotionImagery.Buffer
open Video

namespace FrameBuffer

/-- What the current file holds. -/
def written (b : FrameBuffer) : Bytes := b.file.getD []

/-- What was pushed and has not been handed over. -/
def held (b : FrameBuffer) : Bytes :=
  b.written ++ b.frames.flatMap Frame.bytes ++ b.incomplete.flatten

/-- The count is that of the file. -/
def Counted (b : FrameBuffer) : Prop := b.byteCount = b.written.length

theorem counted_new (limits : Limits) : (new limits).Counted := rfl

/-- What the current file holds and its time, once it is open: it was there already, or is created
empty now. -/
inductive Opened (b : FrameBuffer) (now : Nat) : Bytes → Option Nat → Prop
  | current {content : Bytes} (present : b.file = some content) : Opened b now content b.createdAt
  | created (absent : b.file = none) : Opened b now [] (some now)

theorem Opened.written_eq {b : FrameBuffer} {now : Nat} {content : Bytes} {time : Option Nat}
    (opened : b.Opened now content time) : b.written = content := by
  cases opened with
  | current present => rw [written, present, Option.getD_some]
  | created absent => rw [written, absent, Option.getD_none]

/-- What can come of opening the current file. -/
inductive Opening (b : FrameBuffer) (world : Surroundings) :
    Except FileError FrameBuffer → Prop
  | opened {content : Bytes} {time : Option Nat} (opened : b.Opened world.now content time) :
    Opening b world (.ok { b with file := some content, createdAt := time })
  | refused (absent : b.file = none) (refuses : world.creates = false) :
    Opening b world (.error .notCreated)

theorem opening (b : FrameBuffer) (world : Surroundings) :
    Opening b world (b.openFile world) := by
  unfold openFile
  split
  · rename_i content present
    have found : Opening b world (.ok { b with file := some content }) :=
      .opened (.current present)
    rwa [← present] at found
  · rename_i absent
    split
    · exact .opened (.created absent)
    · rename_i refuses
      exact .refused absent (Bool.eq_false_iff.mpr refuses)

/-- What can come of writing frames. -/
inductive Writing (b : FrameBuffer) (world : Surroundings) (count : Nat) :
    Except FileError Unit × FrameBuffer → Prop
  /-- The frames have no bytes. -/
  | nothing (empty : (b.frames.take count).flatMap Frame.bytes = []) :
    Writing b world count (.ok (), { b with frames := b.frames.drop count })
  | failed (absent : b.file = none) (refuses : world.creates = false) :
    Writing b world count (.error .notCreated, { b with frames := b.frames.drop count })
  | wrote {earlier : Bytes} {time : Option Nat}
    (some_bytes : (b.frames.take count).flatMap Frame.bytes ≠ [])
    (opened : b.Opened world.now earlier time) :
    Writing b world count (.ok (), { b with
      frames := b.frames.drop count
      file := some (earlier ++ (b.frames.take count).flatMap Frame.bytes)
      createdAt := time
      byteCount := b.byteCount + ((b.frames.take count).flatMap Frame.bytes).length
      stats := { b.stats with
        bytesWritten := b.stats.bytesWritten +
          ((b.frames.take count).flatMap Frame.bytes).length } })

theorem writing (b : FrameBuffer) (world : Surroundings) (count : Nat) :
    Writing b world count (b.writeFrames world count) := by
  unfold writeFrames
  dsimp only
  split
  · rename_i nothing
    exact .nothing (List.isEmpty_iff.mp nothing)
  · rename_i something
    have some_bytes : (b.frames.take count).flatMap Frame.bytes ≠ [] := by simpa using something
    have outcome := opening { b with frames := b.frames.drop count } world
    generalize openFile _ world = result at outcome
    cases outcome with
    | opened opened =>
      cases opened with
      | current present => exact .wrote some_bytes (.current present)
      | created absent => exact .wrote some_bytes (.created absent)
    | refused absent refuses => exact .failed absent refuses

/-- Frames at the front of the list have been written. -/
structure Wrote (count : Nat) (b next : FrameBuffer) : Prop where
  limits : next.limits = b.limits
  frames : next.frames = b.frames.drop count
  incomplete : next.incomplete = b.incomplete
  incompleteBytes : next.incompleteBytes = b.incompleteBytes
  written : next.written = b.written ++ (b.frames.take count).flatMap Frame.bytes
  counted : b.Counted → next.Counted

theorem writeFrames_ok {b next : FrameBuffer} {world : Surroundings} {count : Nat}
    (wrote : b.writeFrames world count = (.ok (), next)) : Wrote count b next := by
  have outcome := b.writing world count
  rw [wrote] at outcome
  cases outcome with
  | nothing empty => exact ⟨rfl, rfl, rfl, rfl, by rw [empty, List.append_nil]; rfl, id⟩
  | wrote some_bytes opened =>
    refine ⟨rfl, rfl, rfl, rfl, by rw [opened.written_eq]; rfl, ?_⟩
    intro counted
    have counted : b.byteCount = b.written.length := counted
    show b.byteCount + _ = List.length (_ ++ _)
    rw [counted, opened.written_eq, List.length_append]

theorem Wrote.held {count : Nat} {b next : FrameBuffer} (wrote : Wrote count b next) :
    next.held = b.held := by
  have whole : (b.frames.take count).flatMap Frame.bytes ++
      (b.frames.drop count).flatMap Frame.bytes = b.frames.flatMap Frame.bytes := by
    rw [← List.flatMap_append, List.take_append_drop]
  simp only [FrameBuffer.held, wrote.written, wrote.frames, wrote.incomplete, ← whole,
    List.append_assoc]

theorem held_completeFrame (b : FrameBuffer) (type : FrameType) :
    (b.completeFrame type).held = b.held := by
  simp [held, completeFrame, written, Frame.bytes]

theorem counted_completeFrame {b : FrameBuffer} (counted : b.Counted) (type : FrameType) :
    (b.completeFrame type).Counted := counted

theorem frameComplete_ok {b next : FrameBuffer} {world : Surroundings} {type : FrameType}
    (completed : b.frameComplete world type = (.ok (), next)) :
    next.held = b.held ∧ (b.Counted → next.Counted) := by
  have wrote := writeFrames_ok completed
  exact ⟨wrote.held.trans (b.held_completeFrame type),
    fun counted => wrote.counted (counted_completeFrame counted type)⟩

theorem push_ok {b next : FrameBuffer} {world : Surroundings} {packet : Bytes}
    (pushed : b.push world packet = (.ok (), next)) :
    next.held = b.held ++ packet ∧ (b.Counted → next.Counted) := by
  unfold push at pushed
  split at pushed
  · rename_i empty
    cases pushed
    exact ⟨by rw [List.isEmpty_iff.mp empty, List.append_nil], id⟩
  · dsimp only at pushed
    split at pushed
    · have wrote := writeFrames_ok pushed
      refine ⟨?_, fun counted => wrote.counted (counted_completeFrame counted .unknown)⟩
      rw [wrote.held, held_completeFrame]
      simp [held, written]
    · cases pushed
      exact ⟨by simp [held, written], id⟩

/-- Hands over the file when anything is in it. -/
theorem detach_eq {b : FrameBuffer} (counted : b.Counted) :
    b.detach.1 = (if b.written = [] then none else some b.written) ∧ b.detach.2.written = [] ∧
      b.detach.2.Counted ∧ b.detach.2.limits = b.limits ∧ b.detach.2.frames = b.frames ∧
      b.detach.2.incomplete = b.incomplete ∧ b.detach.2.incompleteBytes = b.incompleteBytes := by
  have counted' : b.byteCount = b.written.length := counted
  unfold detach
  split
  · rename_i zero
    have nothing : b.written = [] := List.eq_nil_of_length_eq_zero (counted' ▸ zero)
    exact ⟨by rw [if_pos nothing], nothing, counted, rfl, rfl, rfl, rfl⟩
  · rename_i some_bytes
    have something : b.written ≠ [] := by
      rintro nothing
      simp [counted', nothing] at some_bytes
    split
    · rename_i absent
      simp [written, absent] at something
    · rename_i file present
      refine ⟨?_, rfl, rfl, rfl, rfl, rfl, rfl⟩
      rw [if_neg something]
      simp [written, present]

theorem getD_detach {b : FrameBuffer} (counted : b.Counted) : b.detach.1.getD [] = b.written := by
  rw [(detach_eq counted).1]
  split
  · rename_i nothing
    exact nothing.symm
  · rfl

theorem rotate_ok {b next : FrameBuffer} {world : Surroundings} {condition : RolloverCondition}
    {file : Option Bytes} (rotated : b.rotate world condition = (.ok file, next))
    (counted : b.Counted) : file.getD [] ++ next.held = b.held ∧ next.Counted := by
  unfold rotate at rotated
  split at rotated
  · cases rotated
  · rename_i ready written
    have wrote := writeFrames_ok written
    split at rotated
    · obtain ⟨-, emptied, counted', -, frames, incomplete, -⟩ := detach_eq (wrote.counted counted)
      have content := getD_detach (wrote.counted counted)
      generalize ready.detach = detached at rotated emptied counted' frames incomplete content
      cases rotated
      refine ⟨?_, counted'⟩
      rw [content, ← wrote.held, held, emptied, frames, incomplete, held, List.nil_append,
        List.append_assoc]
    · cases rotated
      exact ⟨wrote.held, wrote.counted counted⟩

/-- A flush hands over everything. -/
theorem flush_ok {b next : FrameBuffer} {world : Surroundings} {file : Option Bytes}
    (flushed : b.flush world = (.ok file, next)) (counted : b.Counted) :
    file = (if b.held = [] then none else some b.held) ∧ next.held = [] ∧ next.Counted := by
  unfold flush at flushed
  generalize same : (if b.incomplete.isEmpty then b else b.completeFrame .unknown) = completed
    at flushed
  have completed_held :
      completed.held = b.held ∧ completed.Counted ∧ completed.incomplete = [] := by
    subst same
    split
    · rename_i nothing
      exact ⟨rfl, counted, List.isEmpty_iff.mp nothing⟩
    · exact ⟨b.held_completeFrame .unknown, counted, rfl⟩
  obtain ⟨held, counted, nothing_incomplete⟩ := completed_held
  dsimp only at flushed
  split at flushed
  · cases flushed
  · rename_i all written
    have wrote := writeFrames_ok written
    have no_frames : all.frames = [] := by rw [wrote.frames, List.drop_length]
    have nothing_left : all.incomplete = [] := wrote.incomplete.trans nothing_incomplete
    have in_file : all.written = b.held := by
      rw [← held, ← wrote.held, FrameBuffer.held, no_frames, nothing_left]
      simp
    obtain ⟨handed, emptied, counted', -, frames, incomplete, -⟩ :=
      detach_eq (wrote.counted counted)
    generalize all.detach = detached at flushed handed emptied counted' frames incomplete
    cases flushed
    refine ⟨by rw [handed, in_file], ?_, counted'⟩
    rw [FrameBuffer.held, emptied, frames, incomplete, no_frames, nothing_left]
    rfl

/-- One frame after the other declared complete, up to the first that fails. -/
def completeAll (b : FrameBuffer) (world : Surroundings) :
    List FrameType → Except FileError Unit × FrameBuffer
  | [] => (.ok (), b)
  | type :: rest =>
    match b.frameComplete world type with
    | (.error error, next) => (.error error, next)
    | (.ok (), next) => next.completeAll world rest

theorem completeAll_one (b : FrameBuffer) (world : Surroundings) (type : FrameType) :
    b.completeAll world [type] = b.frameComplete world type := by
  rw [completeAll]
  obtain ⟨failed | done, next⟩ := b.frameComplete world type <;> rfl

theorem completeAll_append {b middle next : FrameBuffer} {world : Surroundings}
    {types later : List FrameType} (first : b.completeAll world types = (.ok (), middle))
    (second : middle.completeAll world later = (.ok (), next)) :
    b.completeAll world (types ++ later) = (.ok (), next) := by
  induction types generalizing b with
  | nil =>
    cases first
    exact second
  | cons type rest ih =>
    rw [List.cons_append, completeAll]
    unfold completeAll at first
    split at first
    · cases first
    · exact ih first

theorem completeAll_ok {b next : FrameBuffer} {world : Surroundings} {types : List FrameType}
    (completed : b.completeAll world types = (.ok (), next)) :
    next.held = b.held ∧ (b.Counted → next.Counted) := by
  induction types generalizing b with
  | nil =>
    cases completed
    exact ⟨rfl, id⟩
  | cons type rest ih =>
    unfold completeAll at completed
    split at completed
    · cases completed
    · rename_i first here
      obtain ⟨held, counted⟩ := frameComplete_ok here
      obtain ⟨later, counted'⟩ := ih completed
      exact ⟨later.trans held, fun before => counted' (counted before)⟩

end FrameBuffer

end MotionImagery.Buffer
