import MotionImagery.Proofs.Session.Steps
import MotionImagery.Proofs.Transport.Datagrams

/-!
Runs of a session. Every byte that the reassembler lets through comes out of the session once, in
order, whatever happens to the packets on the way. Datagrams decide when chunks are handed over, and
nothing else.
-/
namespace MotionImagery
open Buffer Telemetry Transport

/-- What a session is asked to do. -/
inductive Call where
  | push (datagram : Bytes)
  | flush
  deriving DecidableEq, Repr

namespace Session

def call (s : Session) (world : Surroundings) : Call → Except SessionError (Option Chunk) × Session
  | .push datagram => s.push world datagram
  | .flush => s.flush world

/-- One call after the other, up to the first that fails, and the chunks that they give. -/
def run (s : Session) : List (Surroundings × Call) → Except SessionError (List Chunk) × Session
  | [] => (.ok [], s)
  | (world, call) :: rest =>
    match s.call world call with
    | (.error error, next) => (.error error, next)
    | (.ok chunk?, next) =>
      match next.run rest with
      | (.error error, last) => (.error error, last)
      | (.ok chunks, last) => (.ok (chunk?.toList ++ chunks), last)

end Session

/-- The packets that the reassembler lets through. -/
def emitted (r : Reassembler) : List Call → List Bytes
  | [] => []
  | .push datagram :: rest => (r.push datagram).1 ++ emitted (r.push datagram).2 rest
  | .flush :: rest => emitted r.flush rest

def contents (chunks : List Chunk) : Bytes := chunks.flatMap Chunk.content

namespace Session

/-- Packets were buffered and read one after the other, and nothing failed. -/
structure PacketsRead (packets : List Bytes) (s next : Session) : Prop where
  reassembler : next.reassembler = s.reassembler
  demux : next.demux = (s.demux.readAll packets).2
  context : next.context = s.context
  settings : next.settings = s.settings
  window : next.window = (unitsOf (s.demux.readAll packets).1).foldl (collect s.context) s.window
  held : next.buffer.held = s.buffer.held ++ packets.flatten
  counted : s.buffer.Counted → next.buffer.Counted
  dropped : next.dropped =
    s.dropped + (unitsOf (s.demux.readAll packets).1).countP (isUnusable s.context)

variable {s next : Session} {world : Surroundings}

theorem PacketRead.one {packet : Bytes} (read : PacketRead world packet s next) :
    PacketsRead [packet] s next := by
  obtain ⟨pushed, buffered, completed⟩ := read.buffer
  obtain ⟨held, counted⟩ := FrameBuffer.push_ok buffered
  obtain ⟨held', counted'⟩ := FrameBuffer.completeAll_ok completed
  refine ⟨read.reassembler, read.demux, read.context, read.settings, read.window, ?_,
    fun before => counted' (counted before), read.dropped⟩
  rw [held', held, List.flatten_singleton]

theorem PacketsRead.none (s : Session) : PacketsRead [] s s :=
  ⟨rfl, rfl, rfl, rfl, rfl, (List.append_nil _).symm, fun same => same, rfl⟩

theorem PacketsRead.append {middle : Session} {packets later : List Bytes}
    (first : PacketsRead packets s middle) (second : PacketsRead later middle next) :
    PacketsRead (packets ++ later) s next := by
  refine ⟨second.reassembler.trans first.reassembler, ?_, second.context.trans first.context,
    second.settings.trans first.settings, ?_, ?_,
    fun before => second.counted (first.counted before), ?_⟩
  · rw [second.demux, first.demux, Demux.readAll_append]
  · rw [second.window, first.context, first.window, first.demux, Demux.readAll_append,
      unitsOf_append, List.foldl_append]
  · rw [second.held, first.held, List.append_assoc, List.flatten_append]
  · rw [second.dropped, first.context, first.dropped, first.demux, Demux.readAll_append,
      unitsOf_append, List.countP_append, Nat.add_assoc]

theorem readPackets_ok {packets : List Bytes} (ok : s.readPackets world packets = (.ok (), next)) :
    PacketsRead packets s next := by
  induction packets generalizing s with
  | nil =>
    cases ok
    exact .none _
  | cons packet rest ih =>
    unfold readPackets at ok
    split at ok
    · cases ok
    · rename_i first here
      exact (readPacket_ok here).one.append (ih ok)

theorem call_conserves {call : Call} {chunk? : Option Chunk}
    (ok : s.call world call = (.ok chunk?, next)) (counted : s.buffer.Counted) :
    s.buffer.held ++ (emitted s.reassembler [call]).flatten =
        contents chunk?.toList ++ next.buffer.held ∧
      next.buffer.Counted ∧
      ∀ rest, emitted s.reassembler (call :: rest) =
        emitted s.reassembler [call] ++ emitted next.reassembler rest := by
  cases call with
  | push datagram =>
    obtain ⟨read, file, pushed⟩ := push_ok ok
    have through := readPackets_ok pushed.packets
    obtain ⟨held, counted'⟩ := FrameBuffer.rotate_ok pushed.buffer (through.counted counted)
    refine ⟨?_, counted', fun rest => ?_⟩
    · have handed : contents chunk?.toList = file.getD [] := by
        rw [pushed.chunk]
        cases file <;> simp [contents]
      rw [handed, held, through.held, emitted, emitted, List.append_nil]
    · rw [emitted, emitted, emitted, List.append_nil, pushed.reassembler, through.reassembler]
  | flush =>
    obtain ⟨completed, file, flushed⟩ := flush_ok ok
    obtain ⟨held, counted'⟩ := FrameBuffer.completeAll_ok flushed.completes
    obtain ⟨all, emptied, counted''⟩ := FrameBuffer.flush_ok flushed.buffer (counted' counted)
    refine ⟨?_, counted'', fun rest => ?_⟩
    · have handed : contents chunk?.toList = s.buffer.held := by
        rw [flushed.chunk, all, held]
        split
        · rename_i nothing
          simp [contents, nothing]
        · simp [contents]
      rw [handed, emptied]
      rfl
    · rw [emitted, emitted, emitted, flushed.reassembler, List.nil_append]

/-- What came out and what is still held are together what was held and what was let through. -/
theorem run_conserves {calls : List (Surroundings × Call)} {chunks : List Chunk}
    (ok : s.run calls = (.ok chunks, next)) (counted : s.buffer.Counted) :
    s.buffer.held ++ (emitted s.reassembler (calls.map Prod.snd)).flatten =
        contents chunks ++ next.buffer.held ∧ next.buffer.Counted := by
  induction calls generalizing s chunks with
  | nil =>
    cases ok
    exact ⟨by simp [emitted, contents], counted⟩
  | cons first rest ih =>
    obtain ⟨world, call⟩ := first
    unfold run at ok
    split at ok
    · cases ok
    · rename_i chunk? middle here
      obtain ⟨held, counted', emits⟩ := call_conserves here counted
      split at ok
      · cases ok
      · rename_i later last there
        cases ok
        obtain ⟨held', counted''⟩ := ih there counted'
        refine ⟨?_, counted''⟩
        rw [List.map_cons, emits, List.flatten_append, ← List.append_assoc, held, List.append_assoc,
          held', ← List.append_assoc]
        simp [contents]

theorem run_append {calls later : List (Surroundings × Call)} {chunks : List Chunk}
    (ok : s.run (calls ++ later) = (.ok chunks, next)) :
    ∃ middle before after, s.run calls = (.ok before, middle) ∧
      middle.run later = (.ok after, next) ∧ chunks = before ++ after := by
  induction calls generalizing s chunks with
  | nil => exact ⟨s, [], chunks, rfl, ok, rfl⟩
  | cons first rest ih =>
    obtain ⟨world, call⟩ := first
    simp only [List.cons_append, run] at ok ⊢
    split at ok
    · cases ok
    · rename_i chunk? here there
      split at ok
      · cases ok
      · rename_i chunks' last continued
        cases ok
        obtain ⟨middle, before, after, earlier, remaining, rfl⟩ := ih continued
        exact ⟨middle, chunk?.toList ++ before, after, by rw [earlier], remaining, by simp⟩

theorem held_after_flush {chunk? : Option Chunk} (ok : s.flush world = (.ok chunk?, next))
    (counted : s.buffer.Counted) : next.buffer.held = [] := by
  obtain ⟨completed, file, flushed⟩ := flush_ok ok
  have counted' := (FrameBuffer.completeAll_ok flushed.completes).2 counted
  exact (FrameBuffer.flush_ok flushed.buffer counted').2.1

/-- A push that hands nothing over has read its packets, and that is all. -/
theorem push_quiet {datagram : Bytes} (ok : s.push world datagram = (.ok none, next))
    (counted : s.buffer.Counted) :
    PacketsRead (s.reassembler.push datagram).1
      { s with reassembler := (s.reassembler.push datagram).2 } next := by
  obtain ⟨read, file, pushed⟩ := push_ok ok
  have through := readPackets_ok pushed.packets
  have quiet : file = none := by
    cases file with
    | none => rfl
    | some content => cases pushed.chunk
  subst quiet
  obtain ⟨held, counted'⟩ := FrameBuffer.rotate_ok pushed.buffer (through.counted counted)
  exact ⟨pushed.reassembler.trans through.reassembler, pushed.demux.trans through.demux,
    pushed.context.trans through.context, pushed.settings.trans through.settings,
    (pushed.window rfl).trans through.window, held.trans through.held, fun _ => counted',
    pushed.dropped.trans through.dropped⟩

/-- Datagrams as calls. -/
def pushes (datagrams : List (Surroundings × Bytes)) : List (Surroundings × Call) :=
  datagrams.map fun (world, datagram) => (world, .push datagram)

theorem run_quiet {datagrams : List (Surroundings × Bytes)}
    (ok : s.run (pushes datagrams) = (.ok [], next)) (counted : s.buffer.Counted) :
    ∃ r, PacketsRead (s.reassembler.feed (datagrams.map Prod.snd)).1
      { s with reassembler := r } next := by
  induction datagrams generalizing s with
  | nil =>
    cases ok
    exact ⟨_, .none _⟩
  | cons first rest ih =>
    obtain ⟨world, datagram⟩ := first
    simp only [pushes, List.map_cons, run, call] at ok
    split at ok
    · cases ok
    · rename_i chunk? middle here
      split at ok
      · cases ok
      · rename_i chunks last there
        simp only [Prod.mk.injEq, Except.ok.injEq, List.append_eq_nil_iff, Option.toList_eq_nil_iff]
          at ok
        obtain ⟨⟨rfl, rfl⟩, rfl⟩ := ok
        have one := push_quiet here counted
        obtain ⟨r, later⟩ := ih there (one.counted counted)
        have reassembler : middle.reassembler = (s.reassembler.push datagram).2 := one.reassembler
        rw [reassembler] at later
        have one' : PacketsRead (s.reassembler.push datagram).1 { s with reassembler := r }
            { middle with reassembler := r } :=
          ⟨rfl, one.demux, one.context, one.settings, one.window, one.held, one.counted,
            one.dropped⟩
        exact ⟨r, one'.append later⟩

/-- The outcome of a flush is decided by what was read. -/
theorem flush_outcome {chunk? : Option Chunk} (ok : s.flush world = (.ok chunk?, next))
    (counted : s.buffer.Counted) :
    chunk? = (if s.buffer.held = [] then none else some ⟨s.buffer.held,
      ((s.demux.flush.1.foldl (collect s.context) s.window).finish s.settings.summary).1⟩) := by
  obtain ⟨completed, file, flushed⟩ := flush_ok ok
  obtain ⟨held, counted'⟩ := FrameBuffer.completeAll_ok flushed.completes
  obtain ⟨all, -, -⟩ := FrameBuffer.flush_ok flushed.buffer (counted' counted)
  rw [flushed.chunk, all, held]
  split <;> rfl

/-- **A session neither loses, repeats nor reorders bytes.** When a run that ends with a flush
succeeds, its chunks hold what the reassembler let through. When nothing is handed over before that
flush, the chunk it gives depends on the bytes alone and not on the datagrams they came in. -/
theorem chunks_hold_stream (id now : Nat) (settings : SessionSettings) :
    (∀ calls world chunks,
      ((new id now settings).run (calls ++ [(world, .flush)])).1 = .ok chunks →
        contents chunks = (emitted .empty (calls.map Prod.snd ++ [.flush])).flatten) ∧
      ∀ first second : List (Surroundings × Bytes),
        (first.map Prod.snd).flatten = (second.map Prod.snd).flatten →
        ((new id now settings).run (pushes first)).1 = .ok [] →
        ((new id now settings).run (pushes second)).1 = .ok [] →
        ∀ world world' outcome outcome',
          (((new id now settings).run (pushes first)).2.flush world).1 = .ok outcome →
          (((new id now settings).run (pushes second)).2.flush world').1 = .ok outcome' →
          outcome = outcome' := by
  have counted : (new id now settings).buffer.Counted := FrameBuffer.counted_new _
  constructor
  · intro calls world chunks ok
    have whole : (new id now settings).run (calls ++ [(world, .flush)]) = (.ok chunks, _) :=
      Prod.ext ok rfl
    obtain ⟨held, -⟩ := run_conserves whole counted
    obtain ⟨middle, before, after, earlier, flushed, -⟩ := run_append whole
    have emptied : ((new id now settings).run (calls ++ [(world, .flush)])).2.buffer.held = [] := by
      simp only [run, call] at flushed
      split at flushed
      · cases flushed
      · rename_i chunk? next here
        obtain rfl := (Prod.mk.inj flushed).2
        exact held_after_flush here (run_conserves earlier counted).2
    rw [emptied, List.append_nil, List.map_append] at held
    exact held.symm
  · intro first second same quiet quiet' world world' outcome outcome' ok ok'
    obtain ⟨r, read⟩ := run_quiet (Prod.ext quiet rfl) counted
    obtain ⟨r', read'⟩ := run_quiet (Prod.ext quiet' rfl) counted
    have packets : (Reassembler.empty.feed (first.map Prod.snd)).1 =
        (Reassembler.empty.feed (second.map Prod.snd)).1 := by
      rw [Reassembler.feed_flatten Reassembler.resting_empty, same,
        Reassembler.feed_flatten Reassembler.resting_empty]
    rw [flush_outcome (Prod.ext ok rfl) (read.counted counted), read.held, read.demux, read.window,
      read.context, read.settings, flush_outcome (Prod.ext ok' rfl) (read'.counted counted),
      read'.held, read'.demux, read'.window, read'.context, read'.settings]
    have here : (new id now settings).reassembler = Reassembler.empty := rfl
    simp only [here, packets]

end Session

namespace Transport.Sample

/-- Both tables and the video packets. -/
def bytes : Bytes := (pat :: pmt :: video).flatten

def halves : List (Surroundings × Bytes) :=
  [(⟨0, true⟩, bytes.take 500), (⟨5, true⟩, bytes.drop 500)]

def whole : List (Surroundings × Bytes) := [(⟨7, true⟩, bytes)]

end Transport.Sample

theorem succeeds_of_map {ε α β : Type} {outcome : Except ε α} {f : α → β} {y : β}
    (mapped : outcome.map f = .ok y) : ∃ x, outcome = .ok x ∧ f x = y := by
  cases outcome with
  | error error => cases mapped
  | ok x => exact ⟨x, rfl, Except.ok.inj mapped⟩

namespace Session

/-- A stream in two datagrams, one of which ends within a packet, and the same stream in one. -/
theorem sample_chunks :
    let s := new 1 0 .standard
    (∃ chunks, (s.run (pushes Sample.halves ++ [(⟨6, true⟩, .flush)])).1 = .ok chunks ∧
        contents chunks = Sample.bytes) ∧
      ∃ outcome, ((s.run (pushes Sample.halves)).2.flush ⟨6, true⟩).1 = .ok outcome ∧
        ((s.run (pushes Sample.whole)).2.flush ⟨9, true⟩).1 = .ok outcome := by
  have evaluated :
      ((new 1 0 .standard).run (pushes Sample.halves)).1.map List.length = .ok 0 ∧
      ((new 1 0 .standard).run (pushes Sample.whole)).1.map List.length = .ok 0 ∧
      ((new 1 0 .standard).run (pushes Sample.halves ++ [(⟨6, true⟩, .flush)])).1.map List.length =
        .ok 1 ∧
      (((new 1 0 .standard).run (pushes Sample.halves)).2.flush ⟨6, true⟩).1.map Option.isSome =
        .ok true ∧
      (((new 1 0 .standard).run (pushes Sample.whole)).2.flush ⟨9, true⟩).1.map Option.isSome =
        .ok true := by decide +kernel
  obtain ⟨quiet, quiet', all, flushed, flushed'⟩ := evaluated
  obtain ⟨none_given, quiet, empty⟩ := succeeds_of_map quiet
  obtain ⟨none_given', quiet', empty'⟩ := succeeds_of_map quiet'
  obtain rfl := List.eq_nil_of_length_eq_zero empty
  obtain rfl := List.eq_nil_of_length_eq_zero empty'
  obtain ⟨chunks, all, -⟩ := succeeds_of_map all
  obtain ⟨outcome, flushed, -⟩ := succeeds_of_map flushed
  obtain ⟨outcome', flushed', -⟩ := succeeds_of_map flushed'
  obtain ⟨holds, agree⟩ := chunks_hold_stream 1 0 .standard
  have through : (emitted .empty ((pushes Sample.halves).map Prod.snd ++ [.flush])).flatten =
      Sample.bytes := by decide +kernel
  have same : (Sample.halves.map Prod.snd).flatten = (Sample.whole.map Prod.snd).flatten := by
    decide +kernel
  obtain rfl := agree Sample.halves Sample.whole same quiet quiet' _ _ outcome outcome' flushed
    flushed'
  exact ⟨⟨chunks, all, (holds _ _ chunks all).trans through⟩, outcome, flushed, flushed'⟩

end Session

end MotionImagery
