import MotionImagery.Buffer.FrameBuffer
import MotionImagery.Log.Level
import MotionImagery.Summary.Window
import MotionImagery.Telemetry.Unit
import MotionImagery.Transport.Demux
import MotionImagery.Transport.Reassembly
import MotionImagery.Video.FrameType

/-!
Sessions: datagrams of one stream go in, and chunks come out. A chunk is a file of whole frames
with the attributes of the telemetry that was read while it was written.
-/
namespace MotionImagery
open Buffer Telemetry Transport

/-- What sessions are begun with. -/
structure SessionSettings where
  limits : Limits
  rollover : RolloverCondition
  summary : Summary.Settings
  /-- How far vertices of derived geometry may lie away when they are left out. -/
  tolerance : Option Float
  /-- Names of classification codes, given one after the other. -/
  classifications : List (Nat × String)
  /-- Microseconds between two reports of the counters. -/
  reportInterval : Nat

/-- Ten megabytes to a chunk, and a report every minute. -/
def SessionSettings.standard : SessionSettings :=
  ⟨.standard, .byteCount (10 * bytesPerMegabyte), .standard, none, [], 60000000⟩

/-- A file that was handed off, and its attributes. -/
structure Chunk where
  content : Bytes
  attributes : Attributes

/-- Why a session cannot go on: a file was not written, or the stream cannot be read. -/
inductive SessionError where
  | buffer (error : FileError)
  | unreadable (error : DemuxError)
  deriving DecidableEq, Repr

structure Session where
  id : Nat
  reassembler : Reassembler
  demux : Demux
  context : Context
  window : Summary.Window
  buffer : FrameBuffer
  settings : SessionSettings
  /-- When the counters were last reported. -/
  reported : Nat
  /-- Units that could not be used. -/
  dropped : Nat
  /-- What the session has to say since it was last asked. -/
  log : List Log.Line

namespace Session

/-- The window of a session, adjusted to its settings. -/
def windowFor (settings : SessionSettings) : Summary.Window :=
  let window := settings.tolerance.elim Summary.Window.uasDatalink fun tolerance =>
    Summary.Window.uasDatalink.adjust (.settingTolerance tolerance)
  settings.classifications.foldl (fun window (code, name) =>
    window.adjust (.namingClassification code name)) window

def new (id now : Nat) (settings : SessionSettings) : Session :=
  { id
    reassembler := .empty
    demux := .new true
    context := .uasDatalink
    window := windowFor settings
    buffer := .new settings.limits
    settings
    reported := now
    dropped := 0
    log := [] }

def say (s : Session) (level : Log.Level) (text : String) : Session :=
  { s with log := s.log ++ [⟨level, "[Session " ++ Text.decimal s.id ++ "] " ++ text⟩] }

/-- What was said, and the session without it. -/
def takeLog (s : Session) : List Log.Line × Session := (s.log, { s with log := [] })

/-- Drops a unit, and says why. -/
def drop (s : Session) (unit : ElementaryUnit) (what reason : String) : Session :=
  { s.say .warn (what ++ " unit on PID 0x" ++ Text.hex4 unit.pid ++ ": " ++ reason) with
    dropped := s.dropped + 1 }

/-- Video completes a frame, and telemetry is collected. -/
def dispatch (s : Session) (world : Surroundings) (unit : ElementaryUnit) :
    Except SessionError Unit × Session :=
  match unit.kind with
  | .video _ =>
    match Video.classify unit with
    | .error error => (.ok (), s.drop unit "Unclassifiable video" error.message)
    | .ok type =>
      let (outcome, buffer) := s.buffer.frameComplete world type
      (outcome.mapError .buffer, { s with buffer })
  | .telemetry =>
    match TelemetryUnit.decode s.context unit.data with
    | .error error => (.ok (), s.drop unit "Dropping telemetry" error.message)
    | .ok none => (.ok (), s)
    | .ok (some decoded) => (.ok (), { s with window := s.window.accept decoded.fields })
  | .other => (.ok (), s)

/-- One unit after the other, up to the first that fails. -/
def dispatchAll (s : Session) (world : Surroundings) :
    List ElementaryUnit → Except SessionError Unit × Session
  | [] => (.ok (), s)
  | unit :: rest =>
    match s.dispatch world unit with
    | (.error error, next) => (.error error, next)
    | (.ok (), next) => next.dispatchAll world rest

/-- Buffers a packet, and reads it. Packets that cannot be read are passed over, unless the stream
has no programs. -/
def readPacket (s : Session) (world : Surroundings) (packet : Bytes) :
    Except SessionError Unit × Session :=
  match s.buffer.push world packet with
  | (.error error, buffer) => (.error (.buffer error), { s with buffer })
  | (.ok (), buffer) =>
    let (outcome, demux) := s.demux.read packet
    let next := { s with buffer, demux }
    match outcome with
    | .ok unit => next.dispatchAll world unit.toList
    | .error error =>
      if error.isFatal then (.error (.unreadable error), next)
      else (.ok (), next.say .debug ("Skipping packet: " ++ error.message))

def readPackets (s : Session) (world : Surroundings) :
    List Bytes → Except SessionError Unit × Session
  | [] => (.ok (), s)
  | packet :: rest =>
    match s.readPacket world packet with
    | (.error error, next) => (.error error, next)
    | (.ok (), next) => next.readPackets world rest

/-- Says what the counters are, when it is time to. -/
def report (s : Session) (now : Nat) : Session :=
  if now - s.reported < s.settings.reportInterval then s
  else
    let stats := s.buffer.stats
    { s.say .info ("packets=" ++ Text.decimal stats.packetsReceived ++
        " received=" ++ Text.decimal stats.bytesReceived ++ "B written=" ++
        Text.decimal stats.bytesWritten ++ "B files=" ++ Text.decimal stats.filesWritten ++
        " dropped_units=" ++ Text.decimal s.dropped ++ " lost_packets=" ++
        Text.decimal s.demux.lostPackets ++ " skipped=" ++ Text.decimal s.reassembler.skipped ++
        "B") with
      reported := now }

/-- The chunk of a file, and a new window. -/
def handOff (s : Session) (content : Bytes) : Chunk × Session :=
  let (attributes, window) := s.window.finish s.settings.summary
  (⟨content, attributes⟩, { s with window })

/-- Takes in a datagram. Gives a chunk when the rollover condition is met; an error means that
the stream has to be taken up by a new session. -/
def push (s : Session) (world : Surroundings) (datagram : Bytes) :
    Except SessionError (Option Chunk) × Session :=
  let (packets, reassembler) := s.reassembler.push datagram
  match ({ s with reassembler }).readPackets world packets with
  | (.error error, next) => (.error error, next)
  | (.ok (), read) =>
    let next := read.report world.now
    let (outcome, buffer) := next.buffer.rotate world next.settings.rollover
    let rotated := { next with buffer }
    match outcome with
    | .error error => (.error (.buffer error), rotated)
    | .ok none => (.ok none, rotated)
    | .ok (some content) =>
      let (chunk, handed) := rotated.handOff content
      (.ok (some chunk), handed)

/-- Completes what is pending, when the stream has gone quiet or ends. Telemetry without a file is
dropped. -/
def flush (s : Session) (world : Surroundings) : Except SessionError (Option Chunk) × Session :=
  let (units, demux) := s.demux.flush
  match ({ s with reassembler := s.reassembler.flush, demux }).dispatchAll world units with
  | (.error error, next) => (.error error, next)
  | (.ok (), next) =>
    let (outcome, buffer) := next.buffer.flush world
    let flushed := { next with buffer }
    match outcome with
    | .error error => (.error (.buffer error), flushed)
    | .ok none => (.ok none, { flushed with window := (flushed.window.finish s.settings.summary).2 })
    | .ok (some content) =>
      let (chunk, handed) := flushed.handOff content
      (.ok (some chunk), handed)

end Session

end MotionImagery
