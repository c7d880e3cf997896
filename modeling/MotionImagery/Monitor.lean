import MotionImagery.Config.Monitor
import MotionImagery.Output.Store
import MotionImagery.Text.Quoted

/-!
A monitor of one address: datagrams go into a session, and the chunks that come out of it are
written. A stream that cannot be read is taken up by a new session; one that has gone quiet is
flushed once, until it is resumed.
-/
namespace MotionImagery
open Buffer (Surroundings)

/-- Why a monitor cannot go on. -/
inductive MonitorError where
  | session (error : SessionError)
  | output (error : Output.WriteError)
  deriving DecidableEq, Repr

def MonitorError.message : MonitorError → String
  | session (.buffer _) => "the chunk cannot be buffered"
  | session (.unreadable error) => "Stream unreadable: " ++ error.message
  | output error => "cannot write " ++ Text.quote error.name

inductive MonitorEvent where
  /-- A datagram, and the text of the address that it came from. -/
  | datagram (peer : String) (data : Bytes)
  /-- There was no datagram for as long as the stream may be idle. -/
  | quiet
  | ended

/-- Lines of the log with their targets. -/
abbrev TargetedLog := List (String × Log.Line)

structure Monitor where
  settings : Config.MonitorSettings
  session : Session
  store : Output.Store
  isIdle : Bool
  log : TargetedLog

namespace Monitor

def target : String := "fmv_ingest::monitor"

def sessionTarget : String := "fmv_ingest::monitor::session"

variable (write : String → Option String) (world : Surroundings)

def new (directory : Output.Directory) (settings : Config.MonitorSettings) : Monitor :=
  { settings
    session := .new 1 world.now settings.session
    store := .new write directory settings.nameTemplate
    isIdle := false
    log := [] }

def say (m : Monitor) (level : Log.Level) (text : String) : Monitor :=
  { m with log := m.log ++ [(target, ⟨level, text⟩)] }

/-- Says something about the session. -/
def report (m : Monitor) (level : Log.Level) (text : String) : Monitor :=
  m.say level ("[Session " ++ Text.decimal m.session.id ++ "] " ++ text)

/-- Goes on with a session, and takes over what it has to say. -/
def resume (m : Monitor) (session : Session) : Monitor :=
  let (lines, session) := session.takeLog
  { m with session, log := m.log ++ lines.map fun line => (sessionTarget, line) }

/-- Writes the chunk, if there is one. -/
def persist (m : Monitor) : Option Chunk → Except MonitorError Unit × Monitor
  | none => (.ok (), m)
  | some chunk =>
    let (outcome, store) := m.store.persist write chunk.content chunk.attributes
    (match outcome with
      | .ok _ => .ok ()
      | .error error => .error (.output error), { m with store })

def flush (m : Monitor) : Except MonitorError Unit × Monitor :=
  let (outcome, session) := m.session.flush world
  match outcome with
  | .error error => (.error (.session error), m.resume session)
  | .ok chunk => (m.resume session).persist write chunk

/-- Takes up the stream anew. -/
def restart (m : Monitor) : Monitor :=
  { m with session := .new (m.session.id + 1) world.now m.settings.session }.report .info "Started"

def receive (m : Monitor) (peer : String) (data : Bytes) : Except MonitorError Unit × Monitor :=
  let awake :=
    if m.isIdle then { m.report .info ("Stream resumed from " ++ peer) with isIdle := false } else m
  let (outcome, session) := awake.session.push world data
  let next := awake.resume session
  match outcome with
  | .ok chunk => next.persist write chunk
  | .error (.unreadable error) =>
    match (next.report .error ("Stream unreadable: " ++ error.message)).flush write world with
    | (.ok (), flushed) => (.ok (), flushed.restart world)
    | failed => failed
  | .error error => (.error (.session error), next)

/-- Flushes what is pending, and writes the record of the stream. -/
def finish (m : Monitor) : Except MonitorError Unit × Monitor :=
  match (m.say .info "Shutdown requested").flush write world with
  | (.error error, failed) => (.error error, failed)
  | (.ok (), flushed) =>
    let (outcome, store) := flushed.store.finish
    let done := { flushed with store }
    match outcome with
    | .error error => (.error (.output error), done)
    | .ok _ =>
      (.ok (), done.say .info ("Stream ended after " ++ Text.decimal done.session.id ++
        " session(s), " ++ Text.decimal done.store.record.chunks ++ " chunk(s)"))

def step (m : Monitor) : MonitorEvent → Except MonitorError Unit × Monitor
  | .datagram peer data => m.receive write world peer data
  | .quiet =>
    if m.isIdle then (.ok (), m)
    else
      ({ m.report .info ("No data for " ++ Config.writeSeconds m.settings.idleSeconds ++
        ", flushing") with isIdle := true }).flush write world
  | .ended => m.finish write world

/-- What was said and the files that were written. The monitor goes on with their names alone. -/
def handOver (m : Monitor) : TargetedLog × List (String × Bytes) × Monitor :=
  let files := m.store.directory.filter fun file => !file.2.isEmpty
  let emptied := m.store.directory.map fun file => (file.1, [])
  (m.log, files, { m with log := [], store := { m.store with directory := emptied } })

end Monitor

end MotionImagery
