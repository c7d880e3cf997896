import MotionImagery.Proofs.Buffer.Conservation

/-!
Where files end. The packets of a stream are cut into frames at positions, and a position may open
a frame of some type. While no limit is exceeded, a buffer writes up to a position that opens a
frame which decodes on its own, and files end there.
-/
namespace MotionImagery.Buffer
open Video

/-- The packets from one position to another. -/
def segment (stream : List Bytes) (start stop : Nat) : List Bytes :=
  (stream.drop start).take (stop - start)

theorem segment_self (stream : List Bytes) (position : Nat) :
    segment stream position position = [] := by
  rw [segment, Nat.sub_self, List.take_zero]

theorem segment_append {start middle stop : Nat} (stream : List Bytes) (before : start ≤ middle)
    (after : middle ≤ stop) :
    segment stream start middle ++ segment stream middle stop = segment stream start stop := by
  have length : stop - start = (middle - start) + (stop - middle) := by omega
  have shift : stream.drop middle = (stream.drop start).drop (middle - start) := by
    rw [List.drop_drop, Nat.add_sub_cancel' before]
  rw [segment, segment, segment, length, List.take_add, shift]

theorem segment_succ {stream : List Bytes} {start stop : Nat} {packet : Bytes} (le : start ≤ stop)
    (next : stream[stop]? = some packet) :
    segment stream start (stop + 1) = segment stream start stop ++ [packet] := by
  have one : segment stream stop (stop + 1) = [packet] := by
    rw [segment, Nat.add_sub_cancel_left, List.take_one, List.head?_drop, next, Option.toList_some]
  rw [← segment_append stream le (Nat.le_succ stop), one]

section
variable (stream : List Bytes) (opens : Nat → FrameType → Prop)

/-- Frames one after the other. Each of them has a known type, and unless the stream begins with it,
it begins at a position that opens a frame of its type. -/
def Chain : Nat → List Frame → Nat → Prop
  | start, [], stop => start = stop
  | start, frame :: rest, stop =>
    frame.type ≠ .unknown ∧ (start = 0 ∨ opens start frame.type) ∧
      ∃ middle, start ≤ middle ∧ frame.packets = segment stream start middle ∧
        Chain middle rest stop

end

variable {stream : List Bytes} {opens : Nat → FrameType → Prop}

theorem chain_append {frames later : List Frame} {start stop : Nat} :
    Chain stream opens start (frames ++ later) stop ↔
      ∃ middle, Chain stream opens start frames middle ∧ Chain stream opens middle later stop := by
  induction frames generalizing start with
  | nil => simp [Chain]
  | cons frame rest ih =>
    simp only [List.cons_append, Chain, ih]
    constructor
    · rintro ⟨known, opened, middle, le, packets, position, here, there⟩
      exact ⟨position, ⟨known, opened, middle, le, packets, here⟩, there⟩
    · rintro ⟨position, ⟨known, opened, middle, le, packets, here⟩, there⟩
      exact ⟨known, opened, middle, le, packets, position, here, there⟩

namespace Chain
variable {frames : List Frame} {start stop : Nat}

theorem bytes (chain : Chain stream opens start frames stop) :
    start ≤ stop ∧ frames.flatMap Frame.bytes = (segment stream start stop).flatten := by
  induction frames generalizing start with
  | nil =>
    obtain rfl : start = stop := chain
    exact ⟨Nat.le_refl start, by simp [segment_self]⟩
  | cons frame rest ih =>
    obtain ⟨-, -, middle, le, packets, later⟩ := chain
    obtain ⟨le', bytes⟩ := ih later
    refine ⟨Nat.le_trans le le', ?_⟩
    rw [List.flatMap_cons, bytes, Frame.bytes, packets, ← List.flatten_append,
      segment_append stream le le']

theorem known (chain : Chain stream opens start frames stop) :
    ∀ frame ∈ frames, frame.type ≠ .unknown := by
  induction frames generalizing start with
  | nil => simp
  | cons frame rest ih =>
    obtain ⟨known, -, middle, -, -, later⟩ := chain
    intro other member
    obtain rfl | member := List.mem_cons.mp member
    · exact known
    · exact ih later other member

end Chain

namespace FrameBuffer

/-- Within the limit and with known types, what is written ends in front of a frame that decodes
on its own. -/
theorem readyCount_idr {maxFrames : Nat} {frames : List Frame} (room : frames.length ≤ maxFrames)
    (known : ∀ frame ∈ frames, frame.type ≠ .unknown) :
    readyCount maxFrames frames = 0 ∨ ∃ frame rest,
      frames.drop (readyCount maxFrames frames) = frame :: rest ∧ frame.type = .idr := by
  unfold readyCount
  rw [if_neg (Nat.not_lt.mpr room)]
  split
  · rename_i all
    cases frames with
    | nil => exact .inl rfl
    | cons frame rest =>
      have unknown := List.all_eq_true.mp all frame List.mem_cons_self
      exact absurd (of_decide_eq_true unknown) (known frame List.mem_cons_self)
  · cases found : frames.reverse.findIdx? fun frame => frame.type = .idr with
    | none => exact .inl rfl
    | some fromEnd =>
      right
      obtain ⟨inside, idr, -⟩ := List.findIdx?_eq_some_iff_getElem.mp found
      rw [List.length_reverse] at inside
      have inside' : frames.length - 1 - fromEnd < frames.length := by omega
      rw [List.getElem_reverse] at idr
      exact ⟨_, _, List.drop_eq_getElem_cons inside', of_decide_eq_true idr⟩

/-- What is held after `n` packets of the stream, when those in front of `handed` have been handed
over: a file that ends at a position that opens a frame which decodes on its own, the frames from
there to the last edge, and the packets behind that. -/
structure Aligned (stream : List Bytes) (opens : Nat → FrameType → Prop) (handed edge n : Nat)
    (b : FrameBuffer) : Prop where
  counted : b.Counted
  room : b.frames.length ≤ b.limits.maxFrames
  ordered : edge ≤ n
  incomplete : b.incomplete = segment stream edge n
  cut : ∃ cut, handed ≤ cut ∧ b.written = (segment stream handed cut).flatten ∧
    (cut = 0 ∨ opens cut .idr) ∧ Chain stream opens cut b.frames edge

theorem aligned_new (limits : Limits) : Aligned stream opens 0 0 0 (new limits) where
  counted := rfl
  room := Nat.zero_le _
  ordered := Nat.le_refl 0
  incomplete := (segment_self stream 0).symm
  cut := ⟨0, Nat.le_refl 0, by rw [segment_self]; rfl, .inl rfl, rfl⟩

namespace Aligned
variable {b next : FrameBuffer} {world : Surroundings} {handed edge n : Nat}

theorem writeReady (aligned : Aligned stream opens handed edge n b)
    (ok : b.writeReady world = (.ok (), next)) : Aligned stream opens handed edge n next := by
  obtain ⟨cut, after_handed, written, boundary, chain⟩ := aligned.cut
  have wrote := writeFrames_ok ok
  generalize front : readyCount b.limits.maxFrames b.frames = count at wrote
  have split : Chain stream opens cut (b.frames.take count ++ b.frames.drop count) edge := by
    rwa [List.take_append_drop]
  obtain ⟨position, before, after⟩ := chain_append.mp split
  obtain ⟨le, bytes⟩ := before.bytes
  refine ⟨wrote.counted aligned.counted, ?_, aligned.ordered, ?_, position,
    Nat.le_trans after_handed le, ?_, ?_, ?_⟩
  · rw [wrote.frames, wrote.limits, List.length_drop]
    exact Nat.le_trans (Nat.sub_le _ _) aligned.room
  · rw [wrote.incomplete, aligned.incomplete]
  · rw [wrote.written, written, bytes, ← List.flatten_append, segment_append stream after_handed le]
  · -- With nothing written the boundary stays; otherwise the next frame begins at the new one.
    obtain none_written | ⟨frame, rest, waiting, idr⟩ := readyCount_idr aligned.room chain.known
    · obtain rfl : count = 0 := front.symm.trans none_written
      obtain rfl : cut = position := before
      exact boundary
    · rw [front] at waiting
      rw [waiting] at after
      exact idr ▸ after.2.1
  · rwa [wrote.frames]

theorem push (aligned : Aligned stream opens handed edge n b) {packet : Bytes}
    (taken : stream[n]? = some packet) (nonempty : packet ≠ [])
    (fits : b.incompleteBytes + packet.length ≤ b.limits.maxIncompleteBytes)
    (ok : b.push world packet = (.ok (), next)) :
    Aligned stream opens handed edge (n + 1) next ∧ next.frames = b.frames ∧
      next.limits = b.limits := by
  unfold FrameBuffer.push at ok
  rw [if_neg (by simpa using nonempty)] at ok
  dsimp only at ok
  rw [if_neg (Nat.not_lt.mpr fits)] at ok
  obtain rfl := (Prod.mk.inj ok).2
  refine ⟨⟨aligned.counted, aligned.room, Nat.le_succ_of_le aligned.ordered, ?_, aligned.cut⟩, rfl,
    rfl⟩
  rw [segment_succ aligned.ordered taken, ← aligned.incomplete]

theorem frameComplete (aligned : Aligned stream opens handed edge n b) {type : FrameType}
    (known : type ≠ .unknown) (opened : edge = 0 ∨ opens edge type)
    (fits : b.frames.length < b.limits.maxFrames)
    (ok : b.frameComplete world type = (.ok (), next)) : Aligned stream opens handed n n next := by
  obtain ⟨cut, after_handed, written, boundary, chain⟩ := aligned.cut
  have longer : Chain stream opens cut (b.frames ++ [⟨type, b.incomplete⟩]) n :=
    chain_append.mpr ⟨edge, chain, known, opened, n, aligned.ordered, aligned.incomplete, rfl⟩
  have completed : Aligned stream opens handed n n (b.completeFrame type) :=
    ⟨aligned.counted, by simpa [completeFrame] using Nat.succ_le_of_lt fits, Nat.le_refl n,
      (segment_self stream n).symm, cut, after_handed, written, boundary, longer⟩
  exact completed.writeReady ok

/-- A file that is handed over ends where the buffer has written to. -/
theorem rotate (aligned : Aligned stream opens handed edge n b) {condition : RolloverCondition}
    {file : Option Bytes} (ok : b.rotate world condition = (.ok file, next)) :
    ∃ handed', Aligned stream opens handed' edge n next ∧ (file = none → handed' = handed) ∧
      ∀ content ∈ file, content = (segment stream handed handed').flatten ∧ handed < handed' ∧
        opens handed' .idr := by
  unfold FrameBuffer.rotate at ok
  split at ok
  · cases ok
  · rename_i ready written
    have aligned := aligned.writeReady written
    split at ok
    · obtain ⟨given, emptied, counted, limits, frames, incomplete, -⟩ := detach_eq aligned.counted
      obtain ⟨cut, after_handed, whole, boundary, chain⟩ := aligned.cut
      generalize ready.detach = detached at ok given emptied counted limits frames incomplete
      cases ok
      have room : detached.2.frames.length ≤ detached.2.limits.maxFrames := by
        rw [frames, limits]
        exact aligned.room
      have incomplete : detached.2.incomplete = segment stream edge n :=
        incomplete.trans aligned.incomplete
      by_cases nothing : ready.written = []
      · rw [if_pos nothing] at given
        refine ⟨handed, ⟨counted, room, aligned.ordered, incomplete, cut, after_handed, ?_,
          boundary, ?_⟩, fun _ => rfl, by simp [given]⟩
        · rw [emptied, ← whole, nothing]
        · rwa [frames]
      · rw [if_neg nothing] at given
        have moved : handed < cut := by
          refine Nat.lt_of_le_of_ne after_handed fun same => nothing ?_
          rw [whole, same, segment_self]
          rfl
        refine ⟨cut, ⟨counted, room, aligned.ordered, incomplete, cut, Nat.le_refl cut, ?_,
          boundary, ?_⟩, by simp [given], ?_⟩
        · rw [emptied, segment_self]
          rfl
        · rwa [frames]
        · intro content here
          obtain rfl : ready.written = content := by simpa [given] using here
          exact ⟨whole, moved, boundary.resolve_left (by omega)⟩
    · cases ok
      exact ⟨handed, aligned, fun _ => rfl, by simp⟩

end Aligned

end FrameBuffer

end MotionImagery.Buffer
