import MotionImagery.Proofs.Buffer.Ledger

/-!
The frames that wait in a buffer. Whatever the buffer was asked to do, and whether or not that could
be done, there are no more of them than the limit, none but the first decodes on its own, and unless
there are none, one of them is of a known type. Of such frames nothing may be written yet, so what
there is to write is always written when the frame comes that makes it so.
-/
namespace MotionImagery.Buffer
open Video

/-- Frames that wait for more to come. -/
structure Waiting (maxFrames : Nat) (frames : List Frame) : Prop where
  room : frames.length ≤ maxFrames
  inner : ∀ frame ∈ frames.tail, frame.type ≠ .idr
  known : frames ≠ [] → ∃ frame ∈ frames, frame.type ≠ .unknown

/-- The first frame decodes on its own, and no other one does. -/
def StartsAtIdr (frames : List Frame) : Prop :=
  ∃ frame rest, frames = frame :: rest ∧ frame.type = .idr ∧ ∀ other ∈ rest, other.type ≠ .idr

/-- What can be left of frames when those that may be written are taken off. -/
inductive Kept (maxFrames : Nat) (frames : List Frame) : List Frame → Prop
  | nothing : Kept maxFrames frames []
  /-- Nothing is taken off. -/
  | everything (room : frames.length ≤ maxFrames)
    (known : ∃ frame ∈ frames, frame.type ≠ .unknown)
    (dependent : ∀ frame ∈ frames, frame.type ≠ .idr) : Kept maxFrames frames frames
  | fromIdr (room : frames.length ≤ maxFrames) (gone : List Frame) (frame : Frame)
    (rest : List Frame) (split : frames = gone ++ frame :: rest) (idr : frame.type = .idr)
    (dependent : ∀ other ∈ rest, other.type ≠ .idr) : Kept maxFrames frames (frame :: rest)

theorem Waiting.nil (maxFrames : Nat) : Waiting maxFrames [] :=
  ⟨Nat.zero_le _, by simp, by simp⟩

theorem Kept.waiting {maxFrames : Nat} {frames rest : List Frame}
    (kept : Kept maxFrames frames rest) :
    Waiting maxFrames rest := by
  cases kept with
  | nothing => exact .nil maxFrames
  | everything room known dependent =>
    refine ⟨room, ?_, fun _ => known⟩
    intro frame member
    exact dependent frame (List.mem_of_mem_tail member)
  | fromIdr room gone frame rest split idr dependent =>
    refine ⟨?_, dependent, fun _ => ⟨frame, List.mem_cons_self, by simp [idr]⟩⟩
    rw [split, List.length_append] at room
    omega

namespace FrameBuffer

theorem kept_readyCount (maxFrames : Nat) (frames : List Frame) :
    Kept maxFrames frames (frames.drop (readyCount maxFrames frames)) := by
  unfold readyCount
  split
  · rw [List.drop_length]
    exact .nothing
  · rename_i fits
    have room : frames.length ≤ maxFrames := Nat.le_of_not_lt fits
    split
    · rw [List.drop_length]
      exact .nothing
    · rename_i mixed
      cases found : frames.reverse.findIdx? fun frame => frame.type = .idr with
      | none =>
        have known : ∃ frame ∈ frames, frame.type ≠ .unknown := by simpa using mixed
        have dependent : ∀ frame ∈ frames, frame.type ≠ .idr := by
          simpa [List.findIdx?_eq_none_iff] using found
        exact .everything room known dependent
      | some fromEnd =>
        obtain ⟨inside, idr, later⟩ := List.findIdx?_eq_some_iff_getElem.mp found
        rw [List.length_reverse] at inside
        have inside' : frames.length - 1 - fromEnd < frames.length := by omega
        rw [List.getElem_reverse] at idr
        dsimp only
        rw [List.drop_eq_getElem_cons inside']
        have split : frames = frames.take (frames.length - 1 - fromEnd) ++
            frames[frames.length - 1 - fromEnd] ::
              frames.drop (frames.length - 1 - fromEnd + 1) := by
          rw [← List.drop_eq_getElem_cons inside', List.take_append_drop]
        apply Kept.fromIdr room _ _ _ split (of_decide_eq_true idr)
        -- A frame behind it stands in front of it when they are counted from the end.
        intro other member
        obtain ⟨place, bound, rfl⟩ := List.getElem_of_mem member
        rw [List.length_drop] at bound
        have before : fromEnd - 1 - place < fromEnd := by omega
        have differs := later (fromEnd - 1 - place) before
        rw [List.getElem_reverse] at differs
        have same : frames.length - 1 - (fromEnd - 1 - place) =
            frames.length - 1 - fromEnd + 1 + place := by omega
        simpa [same] using differs

theorem kept_of_eq_drop {maxFrames : Nat} {frames rest : List Frame}
    (taken : rest = frames.drop (readyCount maxFrames frames)) :
    frames = frames.take (readyCount maxFrames frames) ++ rest ∧ Kept maxFrames frames rest := by
  rw [taken]
  exact ⟨(List.take_append_drop _ _).symm, kept_readyCount maxFrames frames⟩

/-- The frames of which nothing may be written yet are those that wait. -/
theorem readyCount_eq_zero_iff (maxFrames : Nat) (frames : List Frame) :
    readyCount maxFrames frames = 0 ↔ Waiting maxFrames frames := by
  constructor
  · intro none_ready
    have kept := kept_readyCount maxFrames frames
    rw [none_ready, List.drop_zero] at kept
    exact kept.waiting
  · intro waiting
    unfold readyCount
    rw [if_neg (Nat.not_lt.mpr waiting.room)]
    split
    · rename_i unknown
      by_cases empty : frames = []
      · rw [empty, List.length_nil]
      · obtain ⟨frame, member, known⟩ := waiting.known empty
        exact absurd (of_decide_eq_true (List.all_eq_true.mp unknown frame member)) known
    · cases found : frames.reverse.findIdx? fun frame => frame.type = .idr with
      | none => rfl
      | some fromEnd =>
        obtain ⟨inside, idr, -⟩ := List.findIdx?_eq_some_iff_getElem.mp found
        rw [List.length_reverse] at inside
        rw [List.getElem_reverse] at idr
        dsimp only
        apply Nat.eq_zero_of_not_pos
        intro positive
        -- A frame that is not the first is among those that do not decode on their own.
        have member : frames[frames.length - 1 - fromEnd] ∈ frames.tail := by
          rw [← List.drop_one, List.mem_drop_iff_getElem]
          refine ⟨frames.length - 1 - fromEnd - 1, by omega, ?_⟩
          congr 1
          omega
        exact waiting.inner _ member (of_decide_eq_true idr)

/-- Taking frames off the list does not depend on whether they can be written. -/
theorem frames_writeFrames (b : FrameBuffer) (world : Surroundings) (count : Nat) :
    (b.writeFrames world count).2.frames = b.frames.drop count ∧
      (b.writeFrames world count).2.limits = b.limits := by
  have written := b.writing world count
  generalize b.writeFrames world count = result at written
  cases written with
  | nothing | failed | wrote => exact ⟨rfl, rfl⟩

theorem frames_detach (b : FrameBuffer) :
    b.detach.2.frames = b.frames ∧ b.detach.2.limits = b.limits := by
  unfold detach
  split
  · exact ⟨rfl, rfl⟩
  · split <;> exact ⟨rfl, rfl⟩

/-- The frames that wait when a request has completed its frame, before any of them is written. -/
def gathered (b : FrameBuffer) : Request → List Frame
  | .push packet =>
    if packet.isEmpty then b.frames
    else if b.limits.maxIncompleteBytes < (b.received packet).incompleteBytes then
      ((b.received packet).completeFrame .unknown).frames
    else b.frames
  | .frameComplete type => (b.completeFrame type).frames
  | .rotate _ => b.frames
  | .flush => b.closed.frames

theorem frames_rotate (b : FrameBuffer) (world : Surroundings) (condition : RolloverCondition) :
    (b.rotate world condition).2.frames =
        b.frames.drop (readyCount b.limits.maxFrames b.frames) ∧
      (b.rotate world condition).2.limits = b.limits := by
  have written : (b.writeReady world).2.frames = _ ∧ (b.writeReady world).2.limits = _ :=
    b.frames_writeFrames world _
  unfold rotate
  generalize b.writeReady world = result at written ⊢
  obtain ⟨error | ⟨⟨⟩⟩, next⟩ := result
  · exact written
  · dsimp only
    split
    · obtain ⟨frames, limits⟩ := next.frames_detach
      exact ⟨frames.trans written.1, limits.trans written.2⟩
    · exact written

theorem frames_flush (b : FrameBuffer) (world : Surroundings) :
    (b.flush world).2.frames = [] ∧ (b.flush world).2.limits = b.limits := by
  obtain ⟨frames, limits⟩ := b.closed.frames_writeFrames world b.closed.frames.length
  rw [List.drop_length] at frames
  have closed : b.closed.limits = b.limits := by
    unfold FrameBuffer.closed
    split <;> rfl
  rw [flush_eq]
  generalize b.closed.writeFrames world b.closed.frames.length = result at frames limits ⊢
  obtain ⟨error | ⟨⟨⟩⟩, next⟩ := result
  · exact ⟨frames, limits.trans closed⟩
  · obtain ⟨frames', limits'⟩ := next.frames_detach
    exact ⟨frames'.trans frames, (limits'.trans limits).trans closed⟩

/-- What a request leaves of the frames that wait. -/
theorem frames_answer (b : FrameBuffer) (world : Surroundings) (request : Request) :
    b.gathered request = b.selected request ++ (b.answer world request).2.frames ∧
      (b.answer world request).2.limits = b.limits ∧
      (b.selected request = [] ∧ b.gathered request = b.frames ∨
        Kept b.limits.maxFrames (b.gathered request) (b.answer world request).2.frames) := by
  cases request with
  | push packet =>
    simp only [gathered, selected, answer]
    cases empty : packet.isEmpty with
    | true => simp [push, empty]
    | false =>
      by_cases exceeds : b.limits.maxIncompleteBytes < (b.received packet).incompleteBytes
      · simp only [push_eq b world empty, exceeds, Bool.false_eq_true, ↓reduceIte]
        obtain ⟨frames, limits⟩ := ((b.received packet).completeFrame .unknown).frames_writeFrames
          world (readyCount b.limits.maxFrames ((b.received packet).completeFrame .unknown).frames)
        obtain ⟨split, kept⟩ := kept_of_eq_drop frames
        exact ⟨split, limits, .inr kept⟩
      · simp only [push_eq b world empty, exceeds, Bool.false_eq_true, ↓reduceIte]
        exact ⟨rfl, rfl, .inl ⟨trivial, trivial⟩⟩
  | frameComplete type =>
    obtain ⟨frames, limits⟩ := (b.completeFrame type).frames_writeFrames world
      (readyCount b.limits.maxFrames (b.completeFrame type).frames)
    obtain ⟨split, kept⟩ := kept_of_eq_drop frames
    exact ⟨split, limits, .inr kept⟩
  | rotate condition =>
    obtain ⟨frames, limits⟩ := b.frames_rotate world condition
    obtain ⟨split, kept⟩ := kept_of_eq_drop frames
    exact ⟨split, limits, .inr kept⟩
  | flush =>
    obtain ⟨frames, limits⟩ := b.frames_flush world
    have left : (b.answer world .flush).2.frames = [] := frames
    rw [left, List.append_nil]
    exact ⟨rfl, limits, .inr .nothing⟩

end FrameBuffer

/-- What can happen to a buffer. A file that a write to it fails on may be left in any state, and so
may its time and the counts that go with it. -/
inductive Event where
  | request (world : Surroundings) (request : Request)
  | reset
  | fileFault (file : Option Bytes) (createdAt : Option Nat) (byteCount : Nat) (stats : Stats)

namespace FrameBuffer

def meet (b : FrameBuffer) : Event → FrameBuffer
  | .request world request => (b.answer world request).2
  | .reset => b.reset
  | .fileFault file createdAt byteCount stats => { b with file, createdAt, byteCount, stats }

/-- One event after the other. -/
def after (limits : Limits) (events : List Event) : FrameBuffer := events.foldl meet (.new limits)

theorem waiting_meet {b : FrameBuffer} (waiting : Waiting b.limits.maxFrames b.frames)
    (event : Event) :
    Waiting b.limits.maxFrames (b.meet event).frames ∧ (b.meet event).limits = b.limits := by
  cases event with
  | request world request =>
    obtain ⟨split, limits, untouched | kept⟩ := b.frames_answer world request
    · rw [untouched.1, untouched.2, List.nil_append] at split
      rw [split] at waiting
      exact ⟨waiting, limits⟩
    · exact ⟨kept.waiting, limits⟩
  | reset => exact ⟨.nil _, rfl⟩
  | fileFault file createdAt byteCount stats => exact ⟨waiting, rfl⟩

theorem waiting_after (limits : Limits) (events : List Event) :
    Waiting limits.maxFrames (after limits events).frames ∧
      (after limits events).limits = limits := by
  have start : Waiting limits.maxFrames (new limits).frames ∧ (new limits).limits = limits :=
    ⟨.nil _, rfl⟩
  refine List.foldlRecOn
    (motive := fun b => Waiting limits.maxFrames b.frames ∧ b.limits = limits) events meet start ?_
  rintro b ⟨waiting, rfl⟩ event -
  exact waiting_meet waiting event

/-- Nothing is written, and nothing is dropped, where nothing may be written yet. -/
theorem writeReady_of_waiting {b : FrameBuffer} (waiting : Waiting b.limits.maxFrames b.frames)
    (world : Surroundings) : b.writeReady world = (.ok (), b) := by
  rw [writeReady, (readyCount_eq_zero_iff _ _).mpr waiting, writeFrames, List.take_zero]
  rfl

/-- **A buffer writes all that it may as soon as it may.** After any events, failed requests and
broken files among them, the frames in the list still wait for more to come: nothing may be written
between two requests, and a rotation begins with writing and dropping nothing. A request takes
frames off the front of the list, and when it takes any, it takes all of them or leaves a list that
starts with its only frame that decodes on its own. -/
theorem frames_wait (limits : Limits) (events : List Event) :
    let b := after limits events
    (b.frames.length ≤ limits.maxFrames ∧ (∀ frame ∈ b.frames.tail, frame.type ≠ .idr) ∧
      (b.frames ≠ [] → ∃ frame ∈ b.frames, frame.type ≠ .unknown)) ∧
    readyCount limits.maxFrames b.frames = 0 ∧
    (∀ world, b.writeReady world = (.ok (), b)) ∧
    ∀ world request,
      b.gathered request = b.selected request ++ (b.answer world request).2.frames ∧
      (b.selected request = [] ∨ (b.answer world request).2.frames = [] ∨
        StartsAtIdr (b.answer world request).2.frames) := by
  intro b
  obtain ⟨waiting, same⟩ : Waiting limits.maxFrames b.frames ∧ b.limits = limits :=
    waiting_after limits events
  refine ⟨⟨waiting.room, waiting.inner, waiting.known⟩, (readyCount_eq_zero_iff _ _).mpr waiting,
    writeReady_of_waiting (same.symm ▸ waiting), ?_⟩
  intro world request
  obtain ⟨split, -, untouched | kept⟩ := b.frames_answer world request
  · exact ⟨split, .inl untouched.1⟩
  · refine ⟨split, ?_⟩
    generalize (b.answer world request).2.frames = left at split kept
    cases kept with
    | nothing => exact .inr (.inl rfl)
    | everything => exact .inl (List.self_eq_append_left.mp split)
    | fromIdr room gone frame rest _ idr dependent =>
      exact .inr (.inr ⟨frame, rest, rfl, idr, dependent⟩)

end FrameBuffer

end MotionImagery.Buffer
