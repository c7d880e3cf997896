import MotionImagery.Proofs.Buffer.Alignment
import MotionImagery.Proofs.Session.Conservation
import MotionImagery.Proofs.Session.VideoStream

/-!
Where the chunks of a video stream end. A packet is buffered before it is read, so the packet that
shows a unit to be complete is held with that unit: a frame reaches from behind the start of its
unit to the start of the next one, and chunks end with the packet that starts a unit which decodes
on its own, not in front of it.
-/
namespace MotionImagery
open Buffer Transport Video

namespace Session

/-- The packet makes neither the incomplete frame nor the list of frames exceed its limit. -/
def Roomy (s : Session) (packet : Bytes) : Prop :=
  s.buffer.incompleteBytes + packet.length ≤ s.buffer.limits.maxIncompleteBytes ∧
    ((unitsOf [(s.demux.read packet).1]).filterMap frameType? ≠ [] →
      s.buffer.frames.length < s.buffer.limits.maxFrames)

def RoomyFor (s : Session) (world : Surroundings) : List Bytes → Prop
  | [] => True
  | packet :: rest => s.Roomy packet ∧ (s.readPacket world packet).2.RoomyFor world rest

/-- No limit is exceeded while the datagrams are taken in. -/
def Unforced (s : Session) : List (Surroundings × Bytes) → Prop
  | [] => True
  | (world, datagram) :: rest =>
    ({ s with reassembler := (s.reassembler.push datagram).2 }).RoomyFor world
        (s.reassembler.push datagram).1 ∧
      (s.push world datagram).2.Unforced rest

instance (s : Session) (packet : Bytes) : Decidable (s.Roomy packet) :=
  inferInstanceAs (Decidable (_ ∧ _))

instance decidableRoomyFor (s : Session) (world : Surroundings) :
    (packets : List Bytes) → Decidable (s.RoomyFor world packets)
  | [] => .isTrue trivial
  | packet :: rest =>
    have := decidableRoomyFor (s.readPacket world packet).2 world rest
    inferInstanceAs (Decidable (s.Roomy packet ∧ (s.readPacket world packet).2.RoomyFor world rest))

instance decidableUnforced (s : Session) :
    (datagrams : List (Surroundings × Bytes)) → Decidable (s.Unforced datagrams)
  | [] => .isTrue trivial
  | (world, datagram) :: rest =>
    have := decidableUnforced (s.push world datagram).2 rest
    inferInstanceAs (Decidable (RoomyFor _ _ _ ∧ (s.push world datagram).2.Unforced rest))

end Session

/-- The position is right behind the start of a video unit of this type. -/
def OpensFrame (video : Nat) (units : List CutUnit) (stream : List Bytes) (position : Nat)
    (type : FrameType) : Prop :=
  ∃ n, position = n + 1 ∧ StartsFrame video units stream n type

/-- The position is right behind the last start in front of `n`; at zero there may be any. -/
def BehindStart (video : Nat) (stream : List Bytes) (position n : Nat) : Prop :=
  position = 0 ∨ ∃ last raw, position = last + 1 ∧ stream[last]? = some raw ∧
    startsUnit video raw = true ∧ startsBefore video stream last + 1 = startsBefore video stream n

/-- What a session is after `n` packets of a video stream. -/
structure Following (video : Nat) (units : List CutUnit) (stream opening : List Bytes)
    (handed n : Nat) (s : Session) : Prop where
  state : ((Demux.new true).readAll (stream.take n)).2 = s.demux
  reached : Reached video units stream opening n s.demux
  aligned : ∃ edge, BehindStart video stream edge n ∧
    s.buffer.Aligned stream (OpensFrame video units stream) handed edge n

section
variable {video : Nat} {units : List CutUnit} {stream opening : List Bytes} {handed n : Nat}
  {s next : Session} {world : Surroundings}

theorem VideoStream.following_new (travels : VideoStream video units stream)
    (begins : Begins video stream opening) (id now : Nat) (settings : SessionSettings) :
    Following video units stream opening 0 0 (.new id now settings) :=
  ⟨rfl, travels.reached_zero begins, 0, .inl rfl, FrameBuffer.aligned_new settings.limits⟩

/-- The unit whose next one starts has a type, and the packets since its own start are its frame. -/
theorem VideoStream.completed (travels : VideoStream video units stream) {d : Demux}
    (reached : Reached video units stream opening n d) (started : startsBefore video stream n ≠ 0)
    {edge : Nat} (behind : BehindStart video stream edge n) :
    ∃ type, ((units[startsBefore video stream n - 1]?).bind fun unit => frameOf video unit.bytes) =
        some type ∧ type ≠ .unknown ∧
      (edge = 0 ∨ OpensFrame video units stream edge type) := by
  obtain ⟨counter, progress⟩ := reached.progress
  have le := progress.started_le
  rw [List.length_map] at le
  have inside : startsBefore video stream n - 1 < units.length := by omega
  have found := List.getElem?_eq_getElem inside
  generalize units[startsBefore video stream n - 1] = unit at found
  obtain ⟨header, headed⟩ := travels.headed unit (List.mem_of_getElem? found)
  obtain ⟨type, framed, known⟩ := frameOf_headed video headed
  refine ⟨type, by rw [found]; exact framed, known, behind.imp_right ?_⟩
  rintro ⟨last, raw, rfl, here, starts, count⟩
  refine ⟨last, rfl, raw, unit, here, starts, ?_, framed⟩
  rwa [← count, Nat.add_sub_cancel] at found

theorem VideoStream.following_succ (travels : VideoStream video units stream)
    (begins : Begins video stream opening)
    (following : Following video units stream opening handed n s) {packet : Bytes}
    (here : stream[n]? = some packet) (roomy : s.Roomy packet)
    (ok : s.readPacket world packet = (.ok (), next)) :
    Following video units stream opening handed (n + 1) next := by
  obtain ⟨state, reached, edge, behind, aligned⟩ := following
  obtain ⟨reached', frames⟩ := travels.reached_succ begins state reached here
  obtain ⟨-, demux, -, -, -, ⟨pushed, buffered, completed⟩, -⟩ := Session.readPacket_ok ok
  obtain ⟨fits, room⟩ := roomy
  have nonempty : packet ≠ [] := by
    rintro rfl
    have whole := (travels.framed [] (List.mem_of_getElem? here)).1
    simp [packetSize] at whole
  obtain ⟨aligned', waiting, limits⟩ := aligned.push here nonempty fits buffered
  have state' : ((Demux.new true).readAll (stream.take (n + 1))).2 = next.demux := by
    rw [List.take_add_one, here, Demux.readAll_append, state, demux]
    rfl
  have reached' : Reached video units stream opening (n + 1) next.demux := demux ▸ reached'
  rw [frames] at completed room
  by_cases starts : startsUnit video packet = true ∧ startsBefore video stream n ≠ 0
  · obtain ⟨type, found, known, opened⟩ := travels.completed reached starts.2 behind
    rw [if_pos starts, found, Option.toList_some] at completed room
    rw [FrameBuffer.completeAll_one] at completed
    have fits' : pushed.frames.length < pushed.limits.maxFrames := by
      rw [waiting, limits]
      exact room (by simp)
    refine ⟨state', reached', n + 1, .inr ⟨n, packet, rfl, here, starts.1, ?_⟩,
      aligned'.frameComplete known opened fits' completed⟩
    rw [startsBefore_succ here, starts.1]
    rfl
  · rw [if_neg starts] at completed
    obtain rfl : pushed = next.buffer := congrArg Prod.snd completed
    refine ⟨state', reached', edge, ?_, aligned'⟩
    -- Nothing is complete: nothing starts here, or it is the first start and the edge is at zero.
    cases started : startsUnit video packet with
    | false =>
      rw [BehindStart, startsBefore_succ here, started]
      exact behind
    | true =>
      have first : startsBefore video stream n = 0 := by simpa [started] using starts
      refine .inl (behind.resolve_right ?_)
      rintro ⟨last, raw, -, -, -, count⟩
      omega

theorem VideoStream.following_packets (travels : VideoStream video units stream)
    (begins : Begins video stream opening)
    (following : Following video units stream opening handed n s) {packets : List Bytes}
    (come : packets <+: stream.drop n) (roomy : s.RoomyFor world packets)
    (ok : s.readPackets world packets = (.ok (), next)) :
    Following video units stream opening handed (n + packets.length) next := by
  induction packets generalizing n s with
  | nil =>
    cases ok
    exact following
  | cons packet rest ih =>
    obtain ⟨roomy, roomy'⟩ := roomy
    unfold Session.readPackets at ok
    split at ok
    · cases ok
    · rename_i first read
      obtain ⟨later, split⟩ := come
      have here : stream[n]? = some packet := by
        rw [← List.head?_drop, ← split]
        rfl
      have come' : rest <+: stream.drop (n + 1) := by
        refine ⟨later, ?_⟩
        rw [← List.tail_drop, ← split]
        rfl
      rw [read] at roomy'
      have following' := travels.following_succ begins following here roomy read
      have all := ih following' come' roomy' ok
      rwa [List.length_cons, Nat.add_comm rest.length, ← Nat.add_assoc]

theorem VideoStream.following_push (travels : VideoStream video units stream)
    (begins : Begins video stream opening)
    (following : Following video units stream opening handed n s) {datagram : Bytes}
    {chunk? : Option Chunk} (come : (s.reassembler.push datagram).1 <+: stream.drop n)
    (roomy : ({ s with reassembler := (s.reassembler.push datagram).2 }).RoomyFor world
      (s.reassembler.push datagram).1)
    (ok : s.push world datagram = (.ok chunk?, next)) :
    next.reassembler = (s.reassembler.push datagram).2 ∧
      ∃ handed', Following video units stream opening handed'
          (n + (s.reassembler.push datagram).1.length) next ∧
        (chunk? = none → handed' = handed) ∧ ∀ chunk ∈ chunk?,
          chunk.content = (segment stream handed handed').flatten ∧ handed < handed' ∧
            OpensFrame video units stream handed' .idr := by
  obtain ⟨read, file, pushed⟩ := Session.push_ok ok
  have through := Session.readPackets_ok pushed.packets
  obtain ⟨state, reached, edge, behind, aligned⟩ :=
    travels.following_packets begins
      (s := { s with reassembler := (s.reassembler.push datagram).2 })
      ⟨following.state, following.reached, following.aligned⟩ come roomy pushed.packets
  obtain ⟨handed', aligned', quiet, content⟩ := aligned.rotate pushed.buffer
  refine ⟨pushed.reassembler.trans through.reassembler, handed',
    ⟨state.trans pushed.demux.symm, pushed.demux ▸ reached, edge, behind, aligned'⟩, ?_, ?_⟩
  · rintro rfl
    refine quiet ?_
    cases file with
    | none => rfl
    | some content => cases pushed.chunk
  · intro chunk given
    have given := pushed.chunk.symm.trans given
    obtain ⟨bytes, rfl, rfl⟩ := Option.map_eq_some_iff.mp given
    exact content bytes rfl

/-- A chunk reaches from where the one before it ended to a start that decodes on its own. -/
theorem VideoStream.following_run (travels : VideoStream video units stream)
    (begins : Begins video stream opening)
    (following : Following video units stream opening handed n s)
    {datagrams : List (Surroundings × Bytes)}
    (come : (s.reassembler.feed (datagrams.map Prod.snd)).1 <+: stream.drop n)
    (unforced : s.Unforced datagrams) {chunks : List Chunk}
    (ok : s.run (Session.pushes datagrams) = (.ok chunks, next)) {before after : List Chunk}
    {chunk : Chunk} (split : chunks = before ++ chunk :: after) :
    ∃ start stop, handed ≤ start ∧ start < stop ∧
      contents before = (segment stream handed start).flatten ∧
      chunk.content = (segment stream start stop).flatten ∧
      OpensFrame video units stream stop .idr := by
  induction datagrams generalizing handed n s chunks before with
  | nil =>
    cases ok
    simp at split
  | cons first rest ih =>
    obtain ⟨world, datagram⟩ := first
    obtain ⟨roomy, unforced'⟩ := unforced
    simp only [Session.pushes, List.map_cons, Session.run, Session.call] at ok
    split at ok
    · cases ok
    · rename_i chunk? middle here
      split at ok
      · cases ok
      · rename_i later last there
        cases ok
        obtain ⟨remaining, whole⟩ := come
        simp only [List.map_cons, Reassembler.feed, List.append_assoc] at whole
        have come : (s.reassembler.push datagram).1 <+: stream.drop n := ⟨_, whole⟩
        obtain ⟨reassembler, handed', following', quiet, content⟩ :=
          travels.following_push begins following come roomy here
        have come' : (middle.reassembler.feed (rest.map Prod.snd)).1 <+:
            stream.drop (n + (s.reassembler.push datagram).1.length) := by
          refine ⟨remaining, ?_⟩
          rw [reassembler, ← List.drop_drop, ← whole, List.drop_left]
        rw [here] at unforced'
        have continues (before : List Chunk) (split : later = before ++ chunk :: after) :=
          ih following' come' unforced' there split
        cases chunk? with
        | none =>
          obtain rfl := quiet rfl
          exact continues before split
        | some given =>
          obtain ⟨bytes, lt, opens⟩ := content given rfl
          cases before with
          | nil =>
            obtain ⟨rfl, -⟩ := List.cons.inj split
            exact ⟨handed, handed', Nat.le_refl _, lt, by simp [contents, segment_self], bytes,
              opens⟩
          | cons earlier before =>
            obtain ⟨rfl, split'⟩ := List.cons.inj split
            obtain ⟨start, stop, le, lt', held, bytes', opens'⟩ := continues before split'
            have le' := Nat.le_of_lt lt
            refine ⟨start, stop, Nat.le_trans le' le, lt', ?_, bytes', opens'⟩
            rw [← segment_append stream le' le, List.flatten_append, ← bytes, ← held]
            simp [contents]

/-- Of the packet behind a start it is known whether it starts another unit. -/
theorem VideoStream.starts_next (travels : VideoStream video units stream) {type : FrameType}
    (starts : StartsFrame video units stream n type) {raw : Bytes}
    (here : stream[n + 1]? = some raw) {packet : Packet}
    (arrives : arriving? video raw = some packet) :
    packet.header.unitStart = true ↔
      ∃ unit, units[startsBefore video stream n]? = some unit ∧ unit.more = [] := by
  obtain ⟨first, unit, there, started, -, -⟩ := starts
  obtain ⟨previous, arrived, unitStart⟩ : ∃ previous, arriving? video first = some previous ∧
      previous.header.unitStart = true := by
    unfold startsUnit at started
    cases arrived : arriving? video first with
    | none => simp [arrived] at started
    | some previous => exact ⟨previous, rfl, by simpa [arrived] using started⟩
  obtain ⟨counter, arrivals⟩ := travels.arrivals
  have split : stream = stream.take n ++ first :: raw :: stream.drop (n + 2) := by
    obtain ⟨inside, rfl⟩ := List.getElem?_eq_some_iff.mp there
    obtain ⟨inside', rfl⟩ := List.getElem?_eq_some_iff.mp here
    rw [← List.drop_eq_getElem_cons inside', ← List.drop_eq_getElem_cons inside,
      List.take_append_drop]
  have marks := congrArg (List.map fun packet : Packet => packet.header.unitStart) arrivals
  rw [unitStart_packetsFrom, split, List.filterMap_append, List.filterMap_cons_some arrived,
    List.filterMap_cons_some arrives, List.map_append, List.map_cons, List.map_cons, unitStart]
    at marks
  rw [start_follows_start marks.symm, count_unitStart, startsBefore]

/-- A start is followed by the start of a unit that decodes on its own when its unit is that one
packet, the next packet is the video's again, and the next unit decodes on its own. -/
theorem VideoStream.starts_idr_next (travels : VideoStream video units stream) {type : FrameType}
    (starts : StartsFrame video units stream n type) :
    StartsFrame video units stream (n + 1) .idr ↔
      (∃ unit, units[startsBefore video stream n]? = some unit ∧ unit.more = []) ∧
      (∃ raw, stream[n + 1]? = some raw ∧ (arriving? video raw).isSome) ∧
      ∃ unit, units[startsBefore video stream n + 1]? = some unit ∧
        frameOf video unit.bytes = some .idr := by
  have count : startsBefore video stream (n + 1) = startsBefore video stream n + 1 := by
    obtain ⟨first, -, there, started, -⟩ := starts
    rw [startsBefore_succ there, started]
    rfl
  unfold StartsFrame
  rw [count]
  constructor
  · rintro ⟨raw, unit, here, started, found, idr⟩
    cases arrives : arriving? video raw with
    | none => simp [startsUnit, arrives] at started
    | some packet =>
      have unitStart : packet.header.unitStart = true := by
        simpa [startsUnit, arrives] using started
      exact ⟨(travels.starts_next starts here arrives).mp unitStart,
        ⟨raw, here, by simp [arrives]⟩, unit, found, idr⟩
  · rintro ⟨alone, ⟨raw, here, arrives⟩, unit, found, idr⟩
    obtain ⟨packet, arrives⟩ := Option.isSome_iff_exists.mp arrives
    have unitStart := (travels.starts_next starts here arrives).mpr alone
    exact ⟨raw, unit, here, by simpa [startsUnit, arrives] using unitStart, found, idr⟩

end

/-- **Chunks end with the start of a unit that decodes on its own.** Whatever the datagrams and the
rollover condition are, each chunk that is handed over while no limit is exceeded ends with the
packet that starts such a unit. The next chunk begins with the start of such a unit only when the
unit is that one packet and another one follows at once. -/
theorem chunks_end_with_idr_start (id now : Nat) (settings : SessionSettings) {video : Nat}
    {units : List CutUnit} {stream : List Bytes} (travels : VideoStream video units stream)
    {datagrams : List (Surroundings × Bytes)}
    (part : (datagrams.map Prod.snd).flatten <+: stream.flatten)
    (unforced : (Session.new id now settings).Unforced datagrams) {chunks : List Chunk}
    (ok : ((Session.new id now settings).run (Session.pushes datagrams)).1 = .ok chunks) :
    ∀ before chunk after, chunks = before ++ chunk :: after → ∃ start n, start ≤ n ∧
      contents before = (stream.take start).flatten ∧
      chunk.content = (segment stream start (n + 1)).flatten ∧
      StartsFrame video units stream n .idr ∧
      (StartsFrame video units stream (n + 1) .idr ↔
        (∃ unit, units[startsBefore video stream n]? = some unit ∧ unit.more = []) ∧
        (∃ raw, stream[n + 1]? = some raw ∧ (arriving? video raw).isSome) ∧
        ∃ unit, units[startsBefore video stream n + 1]? = some unit ∧
          frameOf video unit.bytes = some .idr) := by
  intro before chunk after split
  obtain ⟨opening, begins⟩ := travels.begins
  have come : ((Session.new id now settings).reassembler.feed (datagrams.map Prod.snd)).1 <+:
      stream.drop 0 := Reassembler.feed_prefix travels.framed part
  obtain ⟨start, stop, -, lt, held, bytes, n, rfl, starts⟩ := travels.following_run begins
    (travels.following_new begins id now settings) come unforced (Prod.ext ok rfl) split
  exact ⟨start, n, Nat.le_of_lt_succ lt, held, bytes, starts, travels.starts_idr_next starts⟩

namespace Transport.Sample

/-- A chunk is handed over as soon as anything is in it. -/
def settings : SessionSettings := { SessionSettings.standard with rollover := .byteCount 1 }

def framesDatagram : List (Surroundings × Bytes) := [(⟨0, true⟩, framesStream.flatten)]

theorem framesDatagram_taken :
    (Session.new 1 0 settings).Unforced framesDatagram ∧
      ((Session.new 1 0 settings).run (Session.pushes framesDatagram)).1.map
        (List.map Chunk.content) = .ok [(framesStream.take 4).flatten] := by
  decide +kernel

end Transport.Sample

/-- The one chunk of three frames ends with a start, as every chunk does. -/
theorem sample_chunk_end :
    let s := Session.new 1 0 Sample.settings
    VideoStream 0x100 Sample.frames Sample.framesStream ∧ s.Unforced Sample.framesDatagram ∧
      ∃ chunk start n, (s.run (Session.pushes Sample.framesDatagram)).1 = .ok [chunk] ∧
        chunk.content = (segment Sample.framesStream start (n + 1)).flatten ∧
        StartsFrame 0x100 Sample.frames Sample.framesStream n .idr := by
  intro s
  obtain ⟨unforced, evaluated⟩ := Sample.framesDatagram_taken
  obtain ⟨chunks, ok, one⟩ := succeeds_of_map evaluated
  obtain ⟨chunk, rfl, -⟩ := List.map_eq_singleton_iff.mp one
  have whole : (Sample.framesDatagram.map Prod.snd).flatten <+: Sample.framesStream.flatten :=
    ⟨[], by simp [Sample.framesDatagram]⟩
  obtain ⟨start, n, -, -, content, starts, -⟩ := chunks_end_with_idr_start 1 0 Sample.settings
    Sample.framesStream_travels whole unforced ok [] chunk [] rfl
  exact ⟨Sample.framesStream_travels, unforced, chunk, start, n, ok, content, starts⟩

/-- The chunk holds the first packet of the second unit, which decodes on its own, and the next
packet is the other one of that unit: the chunk does not end where a unit begins. -/
theorem chunk_cuts_unit :
    let s := Session.new 1 0 Sample.settings
    VideoStream 0x100 Sample.frames Sample.framesStream ∧ s.Unforced Sample.framesDatagram ∧
      (s.run (Session.pushes Sample.framesDatagram)).1.map (List.map Chunk.content) =
        .ok [(Sample.framesStream.take 4).flatten] ∧
      ∀ type, ¬StartsFrame 0x100 Sample.frames Sample.framesStream 4 type := by
  obtain ⟨unforced, evaluated⟩ := Sample.framesDatagram_taken
  refine ⟨Sample.framesStream_travels, unforced, evaluated, ?_⟩
  rintro type ⟨raw, unit, here, starts, -⟩
  have quiet : (Sample.framesStream[4]?).any (startsUnit 0x100) = false := by decide +kernel
  rw [here, Option.any_some, starts] at quiet
  cases quiet

end MotionImagery
