import MotionImagery.Monitor
import MotionImagery.Program.Run
import MotionImagery.Time.Pattern
import Std.Async.Signal
import Std.Async.Timer
import Std.Async.UDP

/-!
The program on a real host: its files, its clock, its network and its terminal.
-/
namespace MotionImagery.Program
open Std.Async (Async Selectable Selector)

/-- What an action gives, unless it fails. -/
def attempt {α : Type} (action : IO α) : IO (Option α) := do
  match ← action.toBaseIO with
  | .ok result => return some result
  | .error _ => return none

def nanosSinceEpoch : IO Int := return (← Std.Time.Timestamp.now).toNanosecondsSinceUnixEpoch.val

/-- The present on the clocks here; where the zone is not known, on those of universal time. -/
def present : IO Time.Moment := do
  let now ← Std.Time.Timestamp.now
  let offset ← attempt do
    let rules ← Std.Time.Database.defaultGetLocalZoneRules
    return (rules.findLocalTimeTypeForTimestamp now).getTimeZone.offset.second.val
  let nanos ← nanosSinceEpoch
  return ⟨nanos / 1000000000, (nanos % 1000000000).toNat, .ofOffset (offset.getD 0)⟩

def readFiles (directory : String) : IO (List (String × Option Nat)) := do
  let now ← nanosSinceEpoch
  let mut found := #[]
  for entry in ← (← IO.FS.realPath directory).readDir do
    if let some metadata ← attempt entry.path.symlinkMetadata then
      if metadata.type == .file then
        let written := metadata.modified.sec * 1000000000 + metadata.modified.nsec.toNat
        let age := if written ≤ now then some ((now - written) / 1000).toNat else none
        found := found.push (entry.fileName, age)
  return found.toList

/-- Writes a line to the terminal, and to the log file of the day. -/
def writeLine (journal : Journal) (target : String) (line : Log.Line) : IO Unit := do
  let now ← present
  let clock := (Time.format? now "%Y-%m-%d %H:%M:%S%.3f").getD ""
  let day := (Time.format? now "%Y-%m-%d").getD ""
  let text := clock ++ " " ++ line.level.name ++ " " ++ target ++ ": " ++ line.text
  IO.println text
  IO.FS.withFile (journal.directory ++ "/" ++ logFileName ++ "." ++ day) .append
    fun file => file.putStrLn text

def tell (notice : Notice) : IO Unit :=
  match notice with
  | .stopped stop =>
    if stop.isRequest then IO.println notice.text else IO.eprintln notice.text
  | _ => IO.eprintln notice.text

/-- The address to bind to; one that was read has as many parts as it needs. -/
def socketAddress : Network.Address → Std.Net.SocketAddress
  | .v4 bytes port =>
    let byte := fun i => UInt8.ofNat (bytes.getD i 0)
    .v4 ⟨.ofParts (byte 0) (byte 1) (byte 2) (byte 3), UInt16.ofNat port⟩
  | .v6 groups _ port =>
    let group := fun i => UInt16.ofNat (groups.getD i 0)
    .v6 ⟨.ofParts (group 0) (group 1) (group 2) (group 3) (group 4) (group 5) (group 6) (group 7),
      UInt16.ofNat port⟩

def address : Std.Net.SocketAddress → Network.Address
  | .v4 socket => .v4 (socket.addr.octets.toList.map UInt8.toNat) socket.port.toNat
  | .v6 socket => .v6 (socket.addr.segments.toList.map UInt16.toNat) 0 socket.port.toNat

/-- The size of the largest datagram. -/
def datagramSize : UInt64 := 65535

/-- The longest time that is waited, in milliseconds. -/
def longestWait : Nat := 1000000000000

/-- What happens next: an interrupt, a datagram, or nothing for a while. -/
def nextEvent (socket : Std.Async.UDP.Socket) (interrupt : Std.Async.Signal.Waiter)
    (idleSeconds : Nat) : Async MonitorEvent := do
  let wait := Nat.min (idleSeconds * 1000) longestWait
  Selectable.one #[
    .case interrupt.selector fun _ => return .ended,
    .case (socket.recvSelector datagramSize) fun (data, peer) =>
      return .datagram (peer.elim "" fun peer => (address peer).write) data.toList,
    .case (← Selector.sleep ⟨wait⟩) fun _ => return .quiet]

/-- Lets the monitor see one event after the other, until the last or an error. -/
partial def follow (journal : Journal) (event : IO MonitorEvent) (monitor : Monitor) :
    IO (Option String) := do
  let next ← event
  let now ← present
  let settings := monitor.settings
  let creates ← settings.temporaryDirectory.elim (pure true) fun directory =>
    Option.isSome <$> attempt (IO.FS.realPath directory)
  let (outcome, stepped) := monitor.step (Time.format? now)
    ⟨(← IO.monoNanosNow) / 1000, creates⟩ next
  let (lines, files, rest) := stepped.handOver
  for (target, line) in lines do
    if journal.filter.keeps target line.level then writeLine journal target line
  for (file, content) in files do
    IO.FS.writeBinFile (settings.outputDirectory ++ "/" ++ file) (ByteArray.mk content.toArray)
  match outcome, next with
  | .error error, _ => return some error.message
  | .ok (), .ended => return none
  | .ok (), _ => follow journal event rest

/-- Binds the address, and monitors it until there is an interrupt. -/
def monitorAddress (journal : Journal) (settings : Config.MonitorSettings) :
    IO (Option String) := do
  let socket ← Std.Async.UDP.Socket.mk
  socket.bind (socketAddress settings.listen)
  if journal.filter.keeps Monitor.target .info then
    writeLine journal Monitor.target ⟨.info, "Monitoring " ++ (address (← socket.getSockName)).write⟩
  IO.FS.createDirAll settings.outputDirectory
  let entries ← (← IO.FS.realPath settings.outputDirectory).readDir
  let directory := entries.toList.foldl (fun directory entry =>
    Keyed.put entry.fileName [] directory) ([] : Output.Directory)
  let interrupt ← Std.Async.Signal.Waiter.mk .sigint false
  let monitor := Monitor.new (Time.format? (← present)) ⟨(← IO.monoNanosNow) / 1000, true⟩
    directory settings
  follow journal (nextEvent socket interrupt settings.idleSeconds).block monitor

def realHost : Host IO where
  isThere path := Option.isSome <$> attempt (IO.FS.realPath path)
  readText path := attempt (IO.FS.readFile path)
  makeDirectories path := do
    if path.isEmpty then return true
    return (← attempt (IO.FS.createDirAll path)).isSome
  files path := attempt (readFiles path)
  remove directory file := Option.isSome <$> attempt (IO.FS.removeFile (directory ++ "/" ++ file))
  directives := IO.getEnv "RUST_LOG"
  tell := tell
  log := writeLine
  monitor journal settings := do
    match ← (monitorAddress journal settings).toBaseIO with
    | .ok outcome => return outcome
    | .error error => return some (toString error)

end MotionImagery.Program

def main (arguments : List String) : IO UInt32 := do
  let exit ← MotionImagery.Program.run MotionImagery.Program.realHost arguments
  return UInt32.ofNat exit.code
