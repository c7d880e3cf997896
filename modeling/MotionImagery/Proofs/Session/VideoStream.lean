import MotionImagery.Proofs.Session.Steps
import MotionImagery.Proofs.Transport.Datagrams

/-!
Streams with one video PID. Whatever else travels on them, the frames that a session completes are
those of the video units, and each is completed by the packet that starts the next unit.
-/
namespace MotionImagery
open Buffer Transport Video

/-- The stream type of the video that streams carry here. -/
def h264Type : Nat := 0x1B

/-- Some association table on the stream names the PID as that of a map table. -/
def Announced (stream : List Bytes) (pid : Nat) : Prop :=
  ∃ raw ∈ stream, ∃ table, CarriesAssociation raw table ∧ pid ∈ table.mapPids

/-- The PID carries video, and no other stream type stands for video. -/
def Sole (video pid streamType : Nat) : Prop :=
  (pid = video ∧ streamType = h264Type) ∨
    (pid ≠ video ∧ ∀ codec, StreamKind.ofType streamType ≠ .video codec)

/-- Packets that end when the tables have named the video PID. -/
def Opening (video : Nat) (opening : List Bytes) : Prop :=
  ∃ lead pat gap pmt association mapPid map, opening = lead ++ pat :: (gap ++ [pmt]) ∧
    CarriesAssociation pat association ∧ CarriesMap pmt mapPid map ∧ mapPid ∈ association.mapPids ∧
    map.streamType? video = some h264Type ∧
    ∀ raw ∈ gap, ∀ other, CarriesAssociation raw other → mapPid ∈ other.mapPids

/-- The stream begins with packets that name the video PID and bring nothing on it. -/
structure Begins (video : Nat) (stream opening : List Bytes) : Prop where
  part : opening <+: stream
  opens : Opening video opening
  absent : ∀ raw ∈ opening, arriving? video raw = none

/-- No map table that the demultiplexer may read names another video PID or another type. -/
def SoleVideo (video : Nat) (stream : List Bytes) : Prop :=
  ∀ raw ∈ stream, ∀ mapPid map, Announced stream mapPid → CarriesMap raw mapPid map →
    ∀ pid streamType, map.streamType? pid = some streamType → Sole video pid streamType

/-- Video units on one PID, behind the tables and mixed with packets of any other PIDs. -/
structure VideoStream (video : Nat) (units : List CutUnit) (stream : List Bytes) : Prop where
  framed : ∀ packet ∈ stream, Framed packet
  begins : ∃ opening, Begins video stream opening
  elementary : video ≠ AssociationTable.tablePid ∧ ¬Announced stream video
  sole : SoleVideo video stream
  cut : ∃ counter, stream.filter (fun raw => (arriving? video raw).isSome) =
    packetize video counter units
  headed : ∀ unit ∈ units, ∃ header, PesHeader.parse unit.bytes = .ok header

/-- The type of frame that video bytes hold. -/
def frameOf (video : Nat) (data : Bytes) : Option FrameType := frameType? ⟨video, h264Type, data⟩

/-- Only the header decides whether a unit is a frame, and every frame is known to decode on its own
or not to. -/
theorem frameOf_headed (video : Nat) {data : Bytes} {header : PesHeader}
    (headed : PesHeader.parse data = .ok header) :
    ∃ type, frameOf video data = some type ∧ type ≠ .unknown := by
  have kind : (⟨video, h264Type, data⟩ : ElementaryUnit).kind = .video .h264 := rfl
  refine ⟨H264.classify (header.payload data), ?_, ?_⟩
  · simp [frameOf, frameType?, Video.classify, kind, headed, Except.toOption]
  · unfold H264.classify
    split <;> simp

/-- What the demultiplexer knows of such a stream. -/
structure Tuned (video : Nat) (stream : List Bytes) (d : Demux) : Prop where
  verified : d.verifyCheck = true
  announced : ∀ pid ∈ d.mapPids, Announced stream pid
  sole : ∀ pid streamType, d.streamType? pid = some streamType → Sole video pid streamType

theorem tuned_new (video : Nat) (stream : List Bytes) : Tuned video stream (.new true) :=
  ⟨rfl, by simp [Demux.new], by simp [Demux.new, Demux.streamType?]⟩

theorem read_arriving {d : Demux} {pid streamType : Nat} {raw : Bytes} {packet : Packet}
    (arrives : arriving? pid raw = some packet) (known : d.streamType? pid = some streamType)
    (notTable : pid ≠ AssociationTable.tablePid) (notMap : pid ∉ d.mapPids) :
    d.read raw =
      (.ok (d.readPayload streamType packet).1, (d.readPayload streamType packet).2) := by
  obtain ⟨parsed, intact, rfl, carries⟩ := arriving?_eq_some.mp arrives
  simp [Demux.read, Demux.readPacket, parsed, intact, notTable, notMap, known, carries]

theorem frameType?_of_not_video {unit : ElementaryUnit}
    (other : ∀ codec, StreamKind.ofType unit.streamType ≠ .video codec) :
    frameType? unit = none := by
  unfold frameType? ElementaryUnit.kind
  split
  · rename_i codec kind
    exact absurd kind (other codec)
  · rfl

/-- What a read does, seen from the video. -/
structure VideoRead (video : Nat) (stream : List Bytes) (d : Demux) (raw : Bytes)
    (outcome : Except DemuxError (Option ElementaryUnit)) (next : Demux) : Prop where
  tuned : Tuned video stream next
  known : d.streamType? video = some h264Type → next.streamType? video = some h264Type
  lane : next.lane video = ((d.lane video).run (arriving? video raw).toList).2
  frames : (unitsOf [outcome]).filterMap frameType? =
    ((d.lane video).run (arriving? video raw).toList).1.filterMap (frameOf video)

section
variable {video : Nat} {units : List CutUnit} {stream : List Bytes} {d : Demux}

theorem Tuned.read_video (tuned : Tuned video stream d)
    (notTable : video ≠ AssociationTable.tablePid) (notMap : ¬Announced stream video) {raw : Bytes}
    {packet : Packet} (arrives : arriving? video raw = some packet)
    (known : d.streamType? video = some h264Type) :
    VideoRead video stream d raw (d.read raw).1 (d.read raw).2 := by
  have same : packet.header.pid = video := (arriving?_eq_some.mp arrives).2.2.1
  obtain ⟨mapPids, -, verifyCheck, -⟩ := d.readPayload_rest h264Type packet
  have types := d.readPayload_streamType? h264Type packet
  rw [read_arriving arrives known notTable fun listed => notMap (tuned.announced video listed)]
  refine ⟨⟨verifyCheck.trans tuned.verified, ?_, ?_⟩, fun _ => (types video).trans known, ?_, ?_⟩
  · rw [mapPids]
    exact tuned.announced
  · intro pid streamType found
    exact tuned.sole pid streamType ((types pid).symm.trans found)
  · rw [d.readPayload_lane, if_pos same.symm, arrives]
    rfl
  · rw [d.readPayload_unit, same, arrives]
    cases given : ((d.lane video).read packet).1 with
    | none => simp [unitsOf, Lane.run, given]
    | some data =>
      rw [Option.toList_some, Lane.run_one, given]
      rfl

theorem Tuned.read_other (tuned : Tuned video stream d) (sole : SoleVideo video stream)
    {raw : Bytes} (member : raw ∈ stream) (absent : arriving? video raw = none) :
    VideoRead video stream d raw (d.read raw).1 (d.read raw).2 := by
  have effect := d.read_effect tuned.verified raw
  generalize (d.read raw).1 = outcome, (d.read raw).2 = next at effect ⊢
  cases effect with
  | refused | passed | flagged =>
    exact ⟨⟨tuned.verified, tuned.announced, tuned.sole⟩, id, by rw [absent]; rfl,
      by rw [absent]; rfl⟩
  | association table carried =>
    exact ⟨⟨tuned.verified, fun pid listed => ⟨raw, member, table, carried, listed⟩, tuned.sole⟩,
      id, by rw [absent]; rfl, by rw [absent]; rfl⟩
  | map mapPid table types carried listed added =>
    have mapped := sole raw member mapPid table (tuned.announced mapPid listed) carried
    refine ⟨⟨tuned.verified, tuned.announced, fun pid streamType found => ?_⟩, fun known => ?_,
      by rw [absent]; rfl, by rw [absent]; rfl⟩
    · obtain here | ⟨-, before⟩ := Option.or_eq_some_iff.mp ((added pid).symm.trans found)
      · exact mapped pid streamType here
      · exact tuned.sole pid streamType before
    · refine (added video).trans (Option.or_eq_some_iff.mpr ?_)
      cases here : table.streamType? video with
      | none => exact .inr ⟨rfl, known⟩
      | some streamType =>
        obtain ⟨-, rfl⟩ | ⟨other, -⟩ := mapped video streamType here
        · exact .inl rfl
        · exact absurd rfl other
  | payload packet streamType parsed intact carries known =>
    have other : packet.header.pid ≠ video := by
      rintro rfl
      rw [arriving?_eq_some.mpr ⟨parsed, intact, rfl, carries⟩] at absent
      cases absent
    obtain ⟨-, silent⟩ := (tuned.sole _ _ known).resolve_left fun same => other same.1
    obtain ⟨mapPids, -, verifyCheck, -⟩ := d.readPayload_rest streamType packet
    have types := d.readPayload_streamType? streamType packet
    refine ⟨⟨verifyCheck.trans tuned.verified, by rw [mapPids]; exact tuned.announced, ?_⟩,
      (types video).trans, ?_, ?_⟩
    · intro pid streamType' found
      exact tuned.sole pid streamType' ((types pid).symm.trans found)
    · rw [d.readPayload_lane, if_neg other.symm, absent]
      rfl
    · rw [d.readPayload_unit, absent]
      cases given : ((d.lane packet.header.pid).read packet).1 with
      | none => rfl
      | some data =>
        have quiet : frameType? ⟨packet.header.pid, streamType, data⟩ = none :=
          frameType?_of_not_video silent
        simp [unitsOf, Lane.run, quiet]

theorem Tuned.readAll (tuned : Tuned video stream d) (sole : SoleVideo video stream)
    {raws : List Bytes} (members : ∀ raw ∈ raws, raw ∈ stream)
    (absent : ∀ raw ∈ raws, arriving? video raw = none) :
    Tuned video stream (d.readAll raws).2 := by
  induction raws generalizing d with
  | nil => exact tuned
  | cons raw rest ih =>
    have read := tuned.read_other sole (members raw List.mem_cons_self)
      (absent raw List.mem_cons_self)
    exact ih read.tuned (fun later member => members later (List.mem_cons_of_mem _ member))
      fun later member => absent later (List.mem_cons_of_mem _ member)

/-- A map PID stays known while association tables go on naming it. -/
theorem Tuned.readAll_listed (tuned : Tuned video stream d) (sole : SoleVideo video stream)
    {raws : List Bytes} (members : ∀ raw ∈ raws, raw ∈ stream)
    (absent : ∀ raw ∈ raws, arriving? video raw = none) {mapPid : Nat}
    (named : ∀ raw ∈ raws, ∀ other, CarriesAssociation raw other → mapPid ∈ other.mapPids)
    (listed : mapPid ∈ d.mapPids) : mapPid ∈ (d.readAll raws).2.mapPids := by
  induction raws generalizing d with
  | nil => exact listed
  | cons raw rest ih =>
    have read := tuned.read_other sole (members raw List.mem_cons_self)
      (absent raw List.mem_cons_self)
    have kept : mapPid ∈ (d.read raw).2.mapPids := by
      have effect := d.read_effect tuned.verified raw
      generalize (d.read raw).1 = outcome, (d.read raw).2 = next at effect ⊢
      cases effect with
      | refused | passed | flagged | map => exact listed
      | association table carried => exact named raw List.mem_cons_self table carried
      | payload packet streamType =>
        rw [(d.readPayload_rest streamType packet).1]
        exact listed
    exact ih read.tuned (fun later member => members later (List.mem_cons_of_mem _ member))
      (fun later member => absent later (List.mem_cons_of_mem _ member))
      (fun later member => named later (List.mem_cons_of_mem _ member)) kept

/-- Behind the opening the demultiplexer knows the video PID. -/
theorem SoleVideo.opened (sole : SoleVideo video stream) {opening : List Bytes}
    (begins : Begins video stream opening) :
    ((Demux.new true).readAll opening).2.streamType? video = some h264Type := by
  obtain ⟨part, opens, absent⟩ := begins
  obtain ⟨lead, pat, gap, pmt, association, mapPid, map, rfl, announced, mapped, listed, known,
    named⟩ := opens
  have members (raw : Bytes) (member : raw ∈ lead ++ pat :: (gap ++ [pmt])) : raw ∈ stream :=
    part.subset member
  have led := (tuned_new video stream).readAll sole
    (fun raw member => members raw (List.mem_append_left _ member))
    fun raw member => absent raw (List.mem_append_left _ member)
  have state : ((Demux.new true).readAll (lead ++ pat :: (gap ++ [pmt]))).2 =
      (((((Demux.new true).readAll lead).2.read pat).2.readAll gap).2.read pmt).2 := by
    rw [Demux.readAll_append]
    simp only [Demux.readAll]
    rw [Demux.readAll_append]
    rfl
  rw [state]
  generalize ((Demux.new true).readAll lead).2 = d at led
  have associated := led.read_other sole (members pat (by simp)) (absent pat (by simp))
  have names : mapPid ∈ (d.read pat).2.mapPids := by
    rw [d.read_association announced]
    exact listed
  have within (raw : Bytes) (member : raw ∈ gap) : raw ∈ lead ++ pat :: (gap ++ [pmt]) := by
    simp [member]
  have still := associated.tuned.readAll_listed sole
    (fun raw member => members raw (within raw member))
    (fun raw member => absent raw (within raw member)) named names
  obtain ⟨types, read, added⟩ := Demux.read_map _ mapped still
  rw [read]
  refine (added video).trans ?_
  rw [known]
  rfl

end

/-- Whether the packet starts a unit on the PID. -/
def startsUnit (video : Nat) (raw : Bytes) : Bool := (arriving? video raw).any (·.header.unitStart)

/-- The units started in front of a position. -/
def startsBefore (video : Nat) (stream : List Bytes) (n : Nat) : Nat :=
  (stream.take n).countP (startsUnit video)

theorem count_unitStart (video : Nat) (stream : List Bytes) :
    ((stream.filterMap (arriving? video)).map (·.header.unitStart)).count true =
      stream.countP (startsUnit video) := by
  induction stream with
  | nil => rfl
  | cons raw rest ih =>
    rw [List.countP_cons, ← ih, startsUnit]
    cases arrives : arriving? video raw with
    | none => simp [arrives]
    | some packet =>
      rw [List.filterMap_cons_some arrives, List.map_cons, List.count_cons]
      simp

theorem startsBefore_succ {video : Nat} {stream : List Bytes} {n : Nat} {raw : Bytes}
    (here : stream[n]? = some raw) :
    startsBefore video stream (n + 1) =
      startsBefore video stream n + (startsUnit video raw).toNat := by
  rw [startsBefore, List.take_add_one, here, List.countP_append, startsBefore]
  cases started : startsUnit video raw <;> simp [started]

/-- The packet at this place starts a video unit of this type. -/
def StartsFrame (video : Nat) (units : List CutUnit) (stream : List Bytes) (n : Nat)
    (type : FrameType) : Prop :=
  ∃ raw unit, stream[n]? = some raw ∧ startsUnit video raw = true ∧
    units[startsBefore video stream n]? = some unit ∧ frameOf video unit.bytes = some type

/-- What the demultiplexer is after so many packets. -/
structure Reached (video : Nat) (units : List CutUnit) (stream opening : List Bytes) (n : Nat)
    (d : Demux) : Prop where
  tuned : Tuned video stream d
  known : opening.length ≤ n → d.streamType? video = some h264Type
  progress : ∃ counter, Lane.Progress (units.map CutUnit.bytes) counter
    (startsBefore video stream n) ((stream.drop n).filterMap (arriving? video)) (d.lane video)

namespace VideoStream
variable {video : Nat} {units : List CutUnit} {stream opening : List Bytes}

theorem arrivals (travels : VideoStream video units stream) : ∃ counter,
    stream.filterMap (arriving? video) =
      packetsFrom video counter (units.flatMap CutUnit.marked) := by
  obtain ⟨counter, cut⟩ := travels.cut
  obtain ⟨_, _, ⟨_, _, _, _, _, _, _, _, _, mapped, _, known, _⟩, _⟩ := travels.begins
  refine ⟨counter, ?_⟩
  rw [← filterMap_filter_arriving, cut, packetize,
    arriving?_encodeFrom (pid_lt_of_streamType mapped known)]

theorem reached_zero (travels : VideoStream video units stream)
    (begins : Begins video stream opening) :
    Reached video units stream opening 0 (.new true) := by
  obtain ⟨counter, arrivals⟩ := travels.arrivals
  refine ⟨tuned_new video stream, fun empty => ?_, counter, ?_⟩
  · obtain ⟨_, _, _, _, _, _, _, rfl, _⟩ := begins.opens
    simp at empty
  · have fresh : (Demux.new true).lane video = .empty := by simp [Demux.lane, Demux.new, Lane.empty]
    rw [List.drop_zero, arrivals, fresh]
    refine ⟨consecutive_packetsFrom video counter _, by simp [Lane.Expects, Lane.empty], by
      simp [Lane.empty, startsBefore], ?_⟩
    rw [Lane.due_empty, gather_units]
    rfl

/-- A read completes the frame of the unit before the one that starts, and no other. -/
theorem reached_succ (travels : VideoStream video units stream)
    (begins : Begins video stream opening) {n : Nat} {d : Demux}
    (state : ((Demux.new true).readAll (stream.take n)).2 = d)
    (reached : Reached video units stream opening n d) {raw : Bytes}
    (here : stream[n]? = some raw) :
    Reached video units stream opening (n + 1) (d.read raw).2 ∧
      (unitsOf [(d.read raw).1]).filterMap frameType? =
        if startsUnit video raw = true ∧ startsBefore video stream n ≠ 0 then
          (units[startsBefore video stream n - 1]?.bind fun unit =>
            frameOf video unit.bytes).toList
        else [] := by
  obtain ⟨tuned, known, counter, progress⟩ := reached
  have member : raw ∈ stream := List.mem_of_getElem? here
  have beyond (packet : Packet) (arrives : arriving? video raw = some packet) :
      opening.length ≤ n := by
    refine Nat.le_of_not_lt fun early => ?_
    obtain ⟨rest, rfl⟩ := begins.part
    rw [List.getElem?_append_left early] at here
    rw [begins.absent raw (List.mem_of_getElem? here)] at arrives
    cases arrives
  have read : VideoRead video stream d raw (d.read raw).1 (d.read raw).2 := by
    cases arrives : arriving? video raw with
    | none => exact tuned.read_other travels.sole member arrives
    | some packet =>
      exact tuned.read_video travels.elementary.1 travels.elementary.2 arrives
        (known (beyond packet arrives))
  have known' (behind : opening.length ≤ n + 1) :
      (d.read raw).2.streamType? video = some h264Type := by
    by_cases earlier : opening.length ≤ n
    · exact read.known (known earlier)
    · have now : stream.take (n + 1) = opening := by
        obtain ⟨rest, rfl⟩ := begins.part
        rw [show n + 1 = opening.length by omega, List.take_left]
      have opened := travels.sole.opened begins
      rw [← now, List.take_add_one, here, Demux.readAll_append, state] at opened
      exact opened
  have todo : (stream.drop n).filterMap (arriving? video) =
      (arriving? video raw).toList ++ (stream.drop (n + 1)).filterMap (arriving? video) := by
    obtain ⟨inside, rfl⟩ := List.getElem?_eq_some_iff.mp here
    rw [List.drop_eq_getElem_cons inside]
    exact filterMap_arriving_cons video _ _
  have lane := read.lane
  have frames := read.frames
  rw [todo] at progress
  cases arrives : arriving? video raw with
  | none =>
    have quiet : startsUnit video raw = false := by rw [startsUnit, arrives]; rfl
    rw [arrives] at lane frames progress
    refine ⟨⟨read.tuned, known', counter, ?_⟩, ?_⟩
    · rw [startsBefore_succ here, quiet, lane]
      exact progress
    · rw [frames, quiet]
      rfl
  | some packet =>
    have starts : startsUnit video raw = packet.header.unitStart := by rw [startsUnit, arrives]; rfl
    rw [arrives] at lane frames progress
    obtain ⟨progress', given⟩ := progress.read
    refine ⟨⟨read.tuned, known', counter + 1, ?_⟩, ?_⟩
    · rw [startsBefore_succ here, starts, lane]
      exact progress'
    · rw [frames, Option.toList_some, Lane.run_one, given, starts]
      split
      · rw [List.getElem?_map]
        cases units[startsBefore video stream n - 1]? with
        | none => rfl
        | some unit => cases type : frameOf video unit.bytes <;> simp [type]
      · rfl

end VideoStream

namespace Transport.Sample

/-- An elementary header that says nothing, and one coded slice. -/
def slicePes (slice : UInt8) : Bytes := [0, 0, 1, 0xE0, 0, 0, 0x80, 0, 0, 0, 0, 1, slice]

def sliceRest : Bytes := [1, 2, 3]

/-- Three frames, of which the second decodes on its own and has two packets. -/
def frames : List CutUnit :=
  [⟨.ofPayload (slicePes 0x41) (by decide) (by decide), []⟩,
    ⟨.ofPayload (slicePes 0x65) (by decide) (by decide),
      [.ofPayload sliceRest (by decide) (by decide)]⟩,
    ⟨.ofPayload (slicePes 0x41) (by decide) (by decide), []⟩]

def framesStream : List Bytes := pat :: pmt :: packetize 0x100 0 frames

theorem carriesSection_frames {raw : Bytes} (member : raw ∈ packetize 0x100 0 frames) {pid : Nat}
    {s : Section} (carried : CarriesSection raw pid s) : pid = 0x100 := by
  have arrives := isSome_arriving_of_mem_encodeFrom (by decide) raw member
  obtain ⟨packet, arrives⟩ := Option.isSome_iff_exists.mp arrives
  obtain ⟨parsed, -, same, -⟩ := arriving?_eq_some.mp arrives
  exact (carriesSection_pid carried parsed).symm.trans same

theorem announced_frames {pid : Nat} (announced : Announced framesStream pid) : pid = 0x1000 := by
  obtain ⟨raw, member, table, carried, named⟩ := announced
  obtain ⟨-, s, onPid, -⟩ := id carried
  obtain rfl | rfl | member : raw = pat ∨ raw = pmt ∨ raw ∈ packetize 0x100 0 frames := by
    simpa [framesStream] using member
  · obtain rfl := carriesAssociation_unique carried pat_announces
    simpa [AssociationTable.mapPids, association] using named
  · obtain ⟨-, s', onPid', -⟩ := pmt_maps
    exact absurd (carriesSection_unique onPid onPid').1 (by decide)
  · exact absurd (carriesSection_frames member onPid) (by decide)

theorem framesStream_travels : VideoStream 0x100 frames framesStream where
  framed := by
    have all : framesStream.all fun packet =>
        packet.length == packetSize && packet.head? == some syncByte := by decide +kernel
    intro packet member
    simpa [Framed] using List.all_eq_true.mp all packet member
  begins := by
    refine ⟨[pat, pmt], ⟨_, rfl⟩, ⟨[], pat, [], pmt, association, 0x1000, map, rfl, pat_announces,
      pmt_maps, listed, rfl, by simp⟩, ?_⟩
    decide +kernel
  elementary := ⟨by decide, fun announced => absurd (announced_frames announced) (by decide)⟩
  sole := by
    intro raw member mapPid table announced carried pid streamType known
    obtain rfl := announced_frames announced
    obtain ⟨-, s, onPid, -⟩ := id carried
    obtain rfl | rfl | member : raw = pat ∨ raw = pmt ∨ raw ∈ packetize 0x100 0 frames := by
      simpa [framesStream] using member
    · obtain ⟨-, s', onPid', -⟩ := pat_announces
      exact absurd (carriesSection_unique onPid onPid').1 (by decide)
    · obtain ⟨-, rfl⟩ := carriesMap_unique carried pmt_maps
      obtain ⟨rfl, rfl⟩ | ⟨rfl, rfl⟩ := streamType_cases known
      · exact .inl ⟨rfl, rfl⟩
      · exact .inr ⟨by decide, fun _ => by simp [StreamKind.ofType]⟩
    · exact absurd (carriesSection_frames member onPid) (by decide)
  cut := ⟨0, by decide +kernel⟩
  headed := by
    intro unit member
    simp only [frames, List.mem_cons, List.not_mem_nil, or_false] at member
    obtain rfl | rfl | rfl := member <;> exact ⟨_, rfl⟩

end Transport.Sample

end MotionImagery
