import MotionImagery.Proofs.Buffer.FrameList

/-!
How much waits in a buffer. Between two events the incomplete frame is within its limit, so a frame
that is completed exceeds that limit by one packet at most, and so many frames wait as their limit
says. Neither needs a frame ever to be declared complete, nor a write ever to succeed.
-/
namespace MotionImagery.Buffer
open Video

/-- The packets that come in with an event. -/
def Event.packets : Event → List Bytes
  | .request _ asked => asked.packets
  | .reset | .fileFault .. => []

namespace FrameBuffer

/-- Every frame that waits, and the incomplete one, is as large as packets of at most `largest`
bytes can make it. -/
structure Within (largest : Nat) (b : FrameBuffer) : Prop where
  counted : b.incompleteBytes = b.incomplete.flatten.length
  room : b.incompleteBytes ≤ b.limits.maxIncompleteBytes
  frames : ∀ frame ∈ b.frames, frame.bytes.length ≤ b.limits.maxIncompleteBytes + largest

theorem within_new (limits : Limits) (largest : Nat) : Within largest (new limits) :=
  ⟨rfl, Nat.zero_le _, nofun⟩

/-- An incomplete frame that exceeds its limit by a packet may still be completed. -/
theorem within_completeFrame {b : FrameBuffer} {largest : Nat}
    (counted : b.incompleteBytes = b.incomplete.flatten.length)
    (size : b.incompleteBytes ≤ b.limits.maxIncompleteBytes + largest)
    (frames : ∀ frame ∈ b.frames, frame.bytes.length ≤ b.limits.maxIncompleteBytes + largest)
    (type : FrameType) : Within largest (b.completeFrame type) := by
  refine ⟨rfl, Nat.zero_le _, ?_⟩
  intro frame member
  obtain earlier | last := List.mem_append.mp member
  · exact frames frame earlier
  · obtain rfl := List.mem_singleton.mp last
    rw [counted] at size
    exact size

namespace Within
variable {largest : Nat} {b : FrameBuffer}

theorem completeFrame (within : Within largest b) (type : FrameType) :
    Within largest (b.completeFrame type) :=
  within_completeFrame within.counted (Nat.le_trans within.room (Nat.le_add_right _ _))
    within.frames type

theorem closed (within : Within largest b) : Within largest b.closed := by
  unfold FrameBuffer.closed
  split
  · exact within
  · exact within.completeFrame .unknown

/-- Frames that are taken off the list are gone, written or not. -/
theorem writeFrames (within : Within largest b) (world : Surroundings) (count : Nat) :
    Within largest (b.writeFrames world count).2 := by
  have left : ∀ frame ∈ b.frames.drop count,
      frame.bytes.length ≤ b.limits.maxIncompleteBytes + largest :=
    fun frame member => within.frames frame (List.mem_of_mem_drop member)
  have written := b.writing world count
  generalize b.writeFrames world count = result at written
  cases written with
  | nothing | failed | wrote => exact ⟨within.counted, within.room, left⟩

theorem detach (within : Within largest b) : Within largest b.detach.2 := by
  unfold FrameBuffer.detach
  split
  · exact within
  · split
    · exact within
    · exact ⟨within.counted, within.room, within.frames⟩

theorem push (within : Within largest b) (world : Surroundings) {packet : Bytes}
    (small : packet.length ≤ largest) : Within largest (b.push world packet).2 := by
  have counted : (b.received packet).incompleteBytes =
      (b.received packet).incomplete.flatten.length := by
    simp [received, within.counted]
  cases empty : packet.isEmpty with
  | true =>
    rw [FrameBuffer.push, empty]
    exact within
  | false =>
    rw [push_eq b world empty]
    split
    · have size : (b.received packet).incompleteBytes ≤ b.limits.maxIncompleteBytes + largest :=
        Nat.add_le_add within.room small
      exact (within_completeFrame counted size within.frames .unknown).writeFrames world _
    · rename_i fits
      exact ⟨counted, Nat.le_of_not_lt fits, within.frames⟩

theorem rotate (within : Within largest b) (world : Surroundings)
    (condition : RolloverCondition) : Within largest (b.rotate world condition).2 := by
  have written : Within largest (b.writeReady world).2 := within.writeFrames world _
  unfold FrameBuffer.rotate
  generalize b.writeReady world = result at written ⊢
  obtain ⟨error | ⟨⟨⟩⟩, next⟩ := result
  · exact written
  · dsimp only
    split
    · exact written.detach
    · exact written

theorem flush (within : Within largest b) (world : Surroundings) :
    Within largest (b.flush world).2 := by
  have written := within.closed.writeFrames world b.closed.frames.length
  rw [flush_eq]
  generalize b.closed.writeFrames world b.closed.frames.length = result at written ⊢
  obtain ⟨error | ⟨⟨⟩⟩, next⟩ := result
  · exact written
  · exact written.detach

theorem answer (within : Within largest b) (world : Surroundings) {request : Request}
    (small : ∀ packet ∈ request.packets, packet.length ≤ largest) :
    Within largest (b.answer world request).2 := by
  cases request with
  | push packet =>
    refine within.push world ?_
    cases empty : packet.isEmpty with
    | true =>
      rw [List.isEmpty_iff.mp empty]
      exact Nat.zero_le _
    | false => exact small packet (by simp [Request.packets, empty])
  | frameComplete type => exact (within.completeFrame type).writeFrames world _
  | rotate condition => exact within.rotate world condition
  | flush => exact within.flush world

theorem meet (within : Within largest b) {event : Event}
    (small : ∀ packet ∈ event.packets, packet.length ≤ largest) :
    Within largest (b.meet event) := by
  cases event with
  | request world request => exact within.answer world small
  | reset => exact ⟨rfl, Nat.zero_le _, nofun⟩
  | fileFault => exact ⟨within.counted, within.room, within.frames⟩

end Within

theorem within_after (limits : Limits) {largest : Nat} {events : List Event}
    (small : ∀ event ∈ events, ∀ packet ∈ event.packets, packet.length ≤ largest) :
    Within largest (after limits events) :=
  List.foldlRecOn events FrameBuffer.meet (within_new limits largest)
    fun _ within event member => within.meet (small event member)

/-- Frames that are each within a size are together within as many times that size. -/
theorem length_flatMap_bytes_le {frames : List Frame} {size : Nat}
    (each : ∀ frame ∈ frames, frame.bytes.length ≤ size) :
    (frames.flatMap Frame.bytes).length ≤ frames.length * size := by
  induction frames with
  | nil => exact Nat.zero_le _
  | cons frame rest ih =>
    obtain ⟨first, others⟩ := List.forall_mem_cons.mp each
    rw [List.flatMap_cons, List.length_append, List.length_cons, Nat.succ_mul, Nat.add_comm]
    exact Nat.add_le_add (ih others) first

/-- **Memory is bounded.** After any events, failed requests and broken files among them, the count
of incomplete bytes is that of the incomplete packets and within its limit, no frame that waits
exceeds that limit by more than the largest packet, and with the limit on the number of frames this
bounds all bytes that wait. -/
theorem memory_bounded (limits : Limits) (largest : Nat) {events : List Event}
    (small : ∀ event ∈ events, ∀ packet ∈ event.packets, packet.length ≤ largest) :
    let b := after limits events
    b.incompleteBytes = b.incomplete.flatten.length ∧
      b.incompleteBytes ≤ limits.maxIncompleteBytes ∧
      (∀ frame ∈ b.frames, frame.bytes.length ≤ limits.maxIncompleteBytes + largest) ∧
      (b.frames.flatMap Frame.bytes).length + b.incomplete.flatten.length ≤
        limits.maxFrames * (limits.maxIncompleteBytes + largest) + limits.maxIncompleteBytes := by
  intro b
  obtain ⟨waiting, same⟩ : Waiting limits.maxFrames b.frames ∧ b.limits = limits :=
    waiting_after limits events
  obtain ⟨counted, room, frames⟩ : Within largest b := within_after limits small
  rw [same] at room frames
  refine ⟨counted, room, frames, ?_⟩
  have together := calc (b.frames.flatMap Frame.bytes).length
    _ ≤ b.frames.length * (limits.maxIncompleteBytes + largest) := length_flatMap_bytes_le frames
    _ ≤ limits.maxFrames * (limits.maxIncompleteBytes + largest) :=
      Nat.mul_le_mul_right _ waiting.room
  exact Nat.add_le_add together (counted ▸ room)

end FrameBuffer

namespace Sample

/-- No file can be created. A flush fails; then a frame that decodes on its own is followed by packets
whose frame is never declared complete. -/
def forced : List Event :=
  let push := fun packet => Event.request ⟨0, false⟩ (.push packet)
  [push [1, 1], .request ⟨0, false⟩ .flush, push [2, 2],
    .request ⟨0, false⟩ (.frameComplete .idr), push [3, 3], push [4, 4], push [5, 5]]

end Sample

/-- The forced frame waits behind the first one and exceeds the limit of three bytes by one; eight of
thirteen bytes are in use. -/
theorem sample_memory :
    (∀ event ∈ Sample.forced, ∀ packet ∈ event.packets, packet.length ≤ 2) ∧
      let b := FrameBuffer.after ⟨2, 3⟩ Sample.forced
      b.frames.map (fun frame => (frame.type, frame.bytes.length)) = [(.idr, 2), (.unknown, 4)] ∧
        b.incompleteBytes = 2 ∧
        (b.frames.flatMap Frame.bytes).length + b.incomplete.flatten.length ≤ 13 := by
  have small : ∀ event ∈ Sample.forced, ∀ packet ∈ event.packets, packet.length ≤ 2 := by decide
  obtain ⟨-, -, -, total⟩ := FrameBuffer.memory_bounded ⟨2, 3⟩ 2 small
  exact ⟨small, by decide, by decide, total⟩

end MotionImagery.Buffer
