import MotionImagery.Buffer.Rollover
import MotionImagery.Video.FrameType

/-!
Packets grouped into frames, and frames into files that end where a group of frames ends. Packets
gather in an incomplete frame until the frame is declared complete; complete frames wait in a
list until it is known that a group of them is complete, and are then written to the current
file. The file is created when there is something to write to it.
-/
namespace MotionImagery.Buffer
open Video

structure Limits where
  /-- More frames than this are written without waiting any longer. -/
  maxFrames : Nat
  /-- More bytes than this in the incomplete frame complete it as unknown. -/
  maxIncompleteBytes : Nat
  deriving DecidableEq, Repr

def Limits.standard : Limits := ⟨1000, 50000000⟩

structure Frame where
  type : FrameType
  packets : List Bytes
  deriving DecidableEq, Repr

def Frame.bytes (frame : Frame) : Bytes := frame.packets.flatten

/-- Counters over the whole life of a buffer. -/
structure Stats where
  bytesReceived : Nat
  packetsReceived : Nat
  bytesWritten : Nat
  filesWritten : Nat
  deriving DecidableEq, Repr

def Stats.zero : Stats := ⟨0, 0, 0, 0⟩

/-- The current file could not be created. -/
inductive FileError where
  | notCreated
  deriving DecidableEq, Repr

/-- What the world adds to an operation: the time, in microseconds, and whether a file can be
created. -/
structure Surroundings where
  now : Nat
  creates : Bool
  deriving DecidableEq, Repr

structure FrameBuffer where
  limits : Limits
  frames : List Frame
  incomplete : List Bytes
  incompleteBytes : Nat
  /-- What the current file holds, when there is one. -/
  file : Option Bytes
  /-- When the current file was created. -/
  createdAt : Option Nat
  byteCount : Nat
  stats : Stats
  deriving DecidableEq, Repr

namespace FrameBuffer

def new (limits : Limits) : FrameBuffer := ⟨limits, [], [], 0, none, none, 0, .zero⟩

/-- How many frames at the front of the list may be written: all of them when there are more
than the limit or none but unknown ones, otherwise those before the last frame that decodes on
its own, unless that is the first. -/
def readyCount (maxFrames : Nat) (frames : List Frame) : Nat :=
  if maxFrames < frames.length then frames.length
  else if frames.all fun frame => frame.type = .unknown then frames.length
  else match frames.reverse.findIdx? fun frame => frame.type = .idr with
    | some fromEnd => frames.length - 1 - fromEnd
    | none => 0

def completeFrame (b : FrameBuffer) (type : FrameType) : FrameBuffer :=
  { b with frames := b.frames ++ [⟨type, b.incomplete⟩], incomplete := [], incompleteBytes := 0 }

/-- Creates the current file when there is none. -/
def openFile (b : FrameBuffer) (world : Surroundings) : Except FileError FrameBuffer :=
  match b.file with
  | some _ => .ok b
  | none =>
    if world.creates then .ok { b with file := some [], createdAt := some world.now }
    else .error .notCreated

/-- Adds to the current file. -/
def append (b : FrameBuffer) (content : Bytes) : FrameBuffer :=
  { b with
    file := b.file.map (· ++ content)
    byteCount := b.byteCount + content.length
    stats := { b.stats with bytesWritten := b.stats.bytesWritten + content.length } }

/-- Takes `count` frames off the list and writes them. Frames without bytes leave no trace;
frames that cannot be written are gone. -/
def writeFrames (b : FrameBuffer) (world : Surroundings) (count : Nat) :
    Except FileError Unit × FrameBuffer :=
  let content := (b.frames.take count).flatMap Frame.bytes
  let taken := { b with frames := b.frames.drop count }
  if content.isEmpty then (.ok (), taken)
  else match taken.openFile world with
    | .error error => (.error error, taken)
    | .ok opened => (.ok (), opened.append content)

def writeReady (b : FrameBuffer) (world : Surroundings) : Except FileError Unit × FrameBuffer :=
  b.writeFrames world (readyCount b.limits.maxFrames b.frames)

/-- Adds a packet to the incomplete frame. An empty one is no packet. -/
def push (b : FrameBuffer) (world : Surroundings) (packet : Bytes) :
    Except FileError Unit × FrameBuffer :=
  if packet.isEmpty then (.ok (), b)
  else
    let received := { b with
      incomplete := b.incomplete ++ [packet]
      incompleteBytes := b.incompleteBytes + packet.length
      stats := { b.stats with
        bytesReceived := b.stats.bytesReceived + packet.length
        packetsReceived := b.stats.packetsReceived + 1 } }
    if b.limits.maxIncompleteBytes < received.incompleteBytes then
      (received.completeFrame .unknown).writeReady world
    else (.ok (), received)

/-- Declares the incomplete frame complete. -/
def frameComplete (b : FrameBuffer) (world : Surroundings) (type : FrameType) :
    Except FileError Unit × FrameBuffer :=
  (b.completeFrame type).writeReady world

/-- Without a creation time the file has no age. -/
def fileState (b : FrameBuffer) (now : Nat) : FileState :=
  ⟨b.byteCount, b.createdAt.elim 0 fun created => now - created⟩

/-- Hands the current file over, if anything was written to it. -/
def detach (b : FrameBuffer) : Option Bytes × FrameBuffer :=
  if b.byteCount = 0 then (none, b)
  else match b.file with
    | none => (none, b)
    | some content =>
      (some content, { b with
        file := none
        createdAt := none
        byteCount := 0
        stats := { b.stats with filesWritten := b.stats.filesWritten + 1 } })

/-- Hands the current file over when the condition is ready. -/
def rotate (b : FrameBuffer) (world : Surroundings) (condition : RolloverCondition) :
    Except FileError (Option Bytes) × FrameBuffer :=
  match b.writeReady world with
  | (.error error, next) => (.error error, next)
  | (.ok (), next) =>
    if condition.isReady (next.fileState world.now) then
      let (file, detached) := next.detach
      (.ok file, detached)
    else (.ok none, next)

/-- Completes and writes everything, then hands the file over. -/
def flush (b : FrameBuffer) (world : Surroundings) :
    Except FileError (Option Bytes) × FrameBuffer :=
  let completed := if b.incomplete.isEmpty then b else b.completeFrame .unknown
  match completed.writeFrames world completed.frames.length with
  | (.error error, next) => (.error error, next)
  | (.ok (), next) =>
    let (file, detached) := next.detach
    (.ok file, detached)

/-- Drops everything but the counters. -/
def reset (b : FrameBuffer) : FrameBuffer := { new b.limits with stats := b.stats }

end FrameBuffer

end MotionImagery.Buffer
