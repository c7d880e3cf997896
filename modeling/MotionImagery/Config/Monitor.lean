import MotionImagery.Config.Arguments
import MotionImagery.Config.File
import MotionImagery.Output.NameTemplate
import MotionImagery.Session

/-!
What a monitor is run with: the command line before the configuration file before the standard.
-/
namespace MotionImagery.Config
open Buffer

structure MonitorSettings where
  listen : Network.Address
  outputDirectory : String
  nameTemplate : Output.NameTemplate
  /-- After so many seconds without data, what is pending is written. -/
  idleSeconds : Nat
  /-- Where chunks are kept until they are complete, if that is to be a certain place. -/
  temporaryDirectory : Option String
  session : SessionSettings

/-- A time in whole seconds. -/
def writeSeconds (seconds : Nat) : String :=
  if seconds = 0 then "0ns" else Text.decimal seconds ++ "s"

namespace MonitorSettings

/-- Every address of this host, on port 15000. -/
def standardListen : Network.Address := .v4 [0, 0, 0, 0] 15000

def standardOutputDirectory : String := "fmv-output"

def standardMegabytes : Nat := 10

def standardIdleSeconds : Nat := 5

def microseconds (seconds : Nat) : Nat := seconds * 1000000

/-- Where a size and an age are given, either suffices; where none is, the standard size does. -/
def rollover (megabytes seconds : Option Nat) : Except ThresholdError RolloverCondition :=
  match megabytes, seconds with
  | some count, some age =>
    (RolloverCondition.megabytes count).map (.either · (.elapsed (microseconds age)))
  | none, some age => .ok (.elapsed (microseconds age))
  | some count, none => RolloverCondition.megabytes count
  | none, none => RolloverCondition.megabytes standardMegabytes

def summary (subsampleCount : Option Nat) : Summary.Settings :=
  subsampleCount.elim Summary.Settings.standard fun count =>
    Keyed.put Summary.Settings.subsampleKey (Text.decimal count) Summary.Settings.standard

def merge (arguments : Arguments) (file : File) : Except ThresholdError MonitorSettings := do
  let condition ← rollover (arguments.rolloverMegabytes.or file.rollover.megabytes)
    (arguments.rolloverSeconds.or file.rollover.seconds)
  let session : SessionSettings :=
    { limits :=
        ⟨file.buffer.maxFrames.getD Limits.standard.maxFrames,
          file.buffer.maxIncompleteBytes.getD Limits.standard.maxIncompleteBytes⟩
      rollover := condition
      summary := summary file.telemetry.subsampleCount
      tolerance := file.telemetry.tolerance
      classifications := file.telemetry.classifications
      reportInterval := (file.monitor.reportSeconds.map microseconds).getD
        SessionSettings.standard.reportInterval }
  return {
    listen := (arguments.listen.or file.monitor.listen).getD standardListen
    outputDirectory :=
      (arguments.outputDirectory.or file.monitor.outputDirectory).getD standardOutputDirectory
    nameTemplate :=
      ((arguments.nameTemplate.or file.monitor.nameTemplate).map Output.NameTemplate.mk).getD
        .standard
    idleSeconds := (arguments.idleSeconds.or file.monitor.idleSeconds).getD standardIdleSeconds
    temporaryDirectory := file.buffer.temporaryDirectory
    session }

end MonitorSettings

/-- Where and for how long the log is kept, as far as that is given, and what is in it. -/
structure LogSettings where
  directory : Option String
  retentionDays : Option Nat
  level : Option String
  verbose : Bool
  deriving DecidableEq, Repr

def LogSettings.merge (arguments : Arguments) (file : File) : LogSettings :=
  ⟨arguments.logDirectory.or file.logging.directory,
    arguments.retentionDays.or file.logging.retentionDays, file.logging.level, arguments.verbose⟩

end MotionImagery.Config
