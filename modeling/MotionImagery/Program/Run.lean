import MotionImagery.Config.Monitor
import MotionImagery.Log.Filter
import MotionImagery.Text.Quoted

/-!
The program: it reads its arguments and its configuration, removes logs that are too old, says what
it is going to do, and monitors its address.

What it needs of its surroundings is a parameter, so that a run is a function of them.
-/
namespace MotionImagery.Program
open Config

/-- What the program has to say when it is not in its log. -/
inductive Notice where
  | stopped (stop : Stop)
  | loaded (path : String)
  | notLoaded (path : String)
  | notRemoved (name : String)
  | noLog (directory : String)
  | badDirective (error : Log.FilterError)
  | badThreshold (error : Buffer.ThresholdError)
  deriving DecidableEq, Repr

/-- A log that has been opened: where it is, and what is kept in it. -/
structure Journal where
  directory : String
  filter : Log.Filter
  deriving DecidableEq, Repr

/-- What the program does to its surroundings, and what it learns from them. -/
structure Host (m : Type → Type) where
  isThere : String → m Bool
  readText : String → m (Option String)
  makeDirectories : String → m Bool
  /-- The files of a directory, and how many microseconds ago each was last written. -/
  files : String → m (Option (List (String × Option Nat)))
  /-- Removes a file from a directory. -/
  remove : String → String → m Bool
  /-- The directives of the log that the user has set for all programs. -/
  directives : m (Option String)
  tell : Notice → m Unit
  /-- Writes a line with its target to the log. -/
  log : Journal → String → Log.Line → m Unit
  /-- Monitors until it is told to end; if it cannot, it gives the reason. -/
  monitor : Journal → MonitorSettings → m (Option String)

def name : String := "fmv-ingest"

def version : String := name ++ " 0.1.0"

def standardConfiguration : String := "fmv-ingest.toml"

def standardLogDirectory : String := "logs"

def standardRetentionDays : Nat := 7

/-- How the names of log files begin. -/
def logFileName : String := "fmv-ingest.log"

/-- The target of the program's own lines. -/
def target : String := "fmv_ingest"

/-- The target of lines about the log. -/
def logTarget : String := "fmv_ingest::logging"

def Notice.text : Notice → String
  | stopped .help =>
    name ++ " - UDP full-motion video ingest service\n\nUsage: " ++ name ++ " [OPTIONS]\n\nOptions:" ++
      String.join (longNames.map fun option => "\n  --" ++ option.1)
  | stopped .version => version
  | stopped .unknownArgument => "error: unexpected argument"
  | stopped .missingValue | stopped .emptyValue => "error: a value is required"
  | stopped .unwantedValue => "error: unexpected value"
  | stopped .repeated => "error: an argument cannot be used multiple times"
  | stopped .invalidValue => "error: invalid value"
  | loaded path => "Loaded config from: " ++ path
  | notLoaded _ => "Failed to load config file"
  | notRemoved file => "Failed to remove old log file " ++ Text.quote file
  | noLog directory => "Error: no log in " ++ Text.quote directory
  | badDirective error => "Error: invalid filter directive " ++ Text.quote error.directive
  | badThreshold error => "Error: " ++ error.message

inductive Exit where
  | success
  | failure
  | misuse
  deriving DecidableEq, Repr

def Exit.code : Exit → Nat
  | success => 0
  | failure => 1
  | misuse => 2

/-- Log files that were last written more than so many days ago. -/
def expired (days : Nat) (files : List (String × Option Nat)) : List String :=
  (files.filter fun (file, age) =>
    logFileName.toList.isPrefixOf file.toList &&
      age.any fun age => decide (days * 86400000000 < age)).map Prod.fst

/-- The user's directives come first, unless they cannot be read. Only after them the program's own
settings are looked at. -/
def filter (directives : Option String) (settings : LogSettings) :
    Except Log.FilterError Log.Filter :=
  match directives.map Log.Filter.read with
  | some (.ok filter) => .ok filter
  | _ => Log.Filter.read (if settings.verbose then "debug" else settings.level.getD "info")

/-- What the program says when it begins. -/
def greeting (settings : MonitorSettings) : List String :=
  [name ++ " starting...",
    "  Listen address: " ++ settings.listen.write,
    "  Output directory: " ++ Text.quote settings.outputDirectory,
    "  Rollover: " ++ settings.session.rollover.describe,
    "  Idle timeout: " ++ writeSeconds settings.idleSeconds]

variable {m : Type → Type} [Monad m]

/-- Logs a line, if it is kept. -/
def say (host : Host m) (journal : Journal) (target : String) (line : Log.Line) : m Unit :=
  if journal.filter.keeps target line.level then host.log journal target line else pure ()

/-- The configuration that the arguments name, or the standard one if there is a file of it. -/
def configuration (host : Host m) (arguments : Arguments) : m (Option File) := do
  let standard := if ← host.isThere standardConfiguration then some standardConfiguration else none
  match arguments.file.or standard with
  | none => return some .empty
  | some path =>
    match (← host.readText path).map File.read with
    | some (.ok file) =>
      host.tell (.loaded path)
      return some file
    | _ =>
      host.tell (.notLoaded path)
      return none

/-- Removes the files, and counts those that it could. -/
def removeAll (host : Host m) (directory : String) : List String → m Nat
  | [] => return 0
  | file :: rest => do
    let removed ← host.remove directory file
    if !removed then host.tell (.notRemoved file)
    let others ← removeAll host directory rest
    return (if removed then 1 else 0) + others

/-- Makes the directory of the log, removes from it what is too old, and decides what is kept. -/
def openLog (host : Host m) (settings : LogSettings) : m (Option Journal) := do
  let directory := settings.directory.getD standardLogDirectory
  let days := settings.retentionDays.getD standardRetentionDays
  let files ← if ← host.makeDirectories directory then host.files directory else pure none
  match files with
  | none =>
    host.tell (.noLog directory)
    return none
  | some files =>
    let removed ← removeAll host directory (expired days files)
    match filter (← host.directives) settings with
    | .error error =>
      host.tell (.badDirective error)
      return none
    | .ok filter =>
      let journal : Journal := ⟨directory, filter⟩
      if 0 < removed then
        say host journal logTarget ⟨.info, "Removed " ++ Text.decimal removed ++
          " log file(s) older than " ++ Text.decimal days ++ " day(s)"⟩
      return some journal

/-- Says what the settings are, and monitors. -/
def monitor (host : Host m) (journal : Journal) (settings : MonitorSettings) : m Exit := do
  for line in greeting settings do
    say host journal target ⟨.info, line⟩
  match ← host.monitor journal settings with
  | none =>
    say host journal target ⟨.info, name ++ " stopped"⟩
    return .success
  | some reason =>
    say host journal target ⟨.error, "Monitor stopped: " ++ reason⟩
    return .failure

/-- A run with these arguments. -/
def run (host : Host m) (commandLine : List String) : m Exit := do
  match Arguments.read commandLine with
  | .error stop =>
    host.tell (.stopped stop)
    return if stop.isRequest then .success else .misuse
  | .ok arguments =>
    match ← configuration host arguments with
    | none => return .failure
    | some file =>
      match ← openLog host (.merge arguments file) with
      | none => return .failure
      | some journal =>
        match MonitorSettings.merge arguments file with
        | .error error =>
          host.tell (.badThreshold error)
          return .failure
        | .ok settings => monitor host journal settings

end MotionImagery.Program
