import MotionImagery.Network.Address
import MotionImagery.Text.Numeral
import MotionImagery.Toml.Read

/-!
The configuration file: a TOML document of five sections. Every section may be left out, and every
setting in it; sections of other names are refused, while settings of other names are passed over.

A section may also be written as a list of its settings in their order, of which none is left out.
-/
namespace MotionImagery.Config
open Toml (Value)

structure MonitorSection where
  listen : Option Network.Address
  outputDirectory : Option String
  nameTemplate : Option String
  idleSeconds : Option Nat
  reportSeconds : Option Nat

structure RolloverSection where
  megabytes : Option Nat
  seconds : Option Nat

structure BufferSection where
  maxFrames : Option Nat
  maxIncompleteBytes : Option Nat
  temporaryDirectory : Option String

structure TelemetrySection where
  subsampleCount : Option Nat
  tolerance : Option Float
  classifications : List (Nat × String)

structure LoggingSection where
  directory : Option String
  retentionDays : Option Nat
  level : Option String

structure File where
  monitor : MonitorSection
  rollover : RolloverSection
  buffer : BufferSection
  telemetry : TelemetrySection
  logging : LoggingSection

def File.empty : File :=
  ⟨⟨none, none, none, none, none⟩, ⟨none, none⟩, ⟨none, none, none⟩, ⟨none, none, []⟩,
    ⟨none, none, none⟩⟩

/-- A file that is no TOML document, or whose settings are not what they have to be. -/
structure FileError where
  deriving DecidableEq, Repr

def text? : Value → Option String
  | .text content => some content
  | _ => none

def unsigned? (limit : Nat) : Value → Option Nat
  | .integer number => if 0 ≤ number ∧ number ≤ limit then some number.toNat else none
  | _ => none

def float? : Value → Option Float
  | .float number => some number
  | .integer number => some (Float.ofInt number)
  | _ => none

def address? (value : Value) : Option Network.Address := (text? value).bind Network.Address.read?

def items? : Value → Option (List Value)
  | .list items => some items
  | .tables elements => some (elements.map (.table .defined))
  | _ => none

/-- The settings of the given names. In a list, as many as are required have to be there; a date
counts as a section without settings. -/
def settings? (names : List String) (required : Nat) : Value → Option (List (Option Value))
  | .table _ members => some (names.map (Keyed.find? · members))
  | .date _ => some (names.map fun _ => none)
  | value =>
    (items? value).bind fun items =>
      if required ≤ items.length then some ((List.range names.length).map (items[·]?)) else none

/-- A setting that may be left out. -/
def optional? {α : Type} (read? : Value → Option α) : Option Value → Option (Option α)
  | none => some none
  | some value => (read? value).map some

def MonitorSection.read? (value : Value) : Option MonitorSection := do
  let names :=
    ["listen", "output_dir", "filename_template", "idle_timeout_secs", "stats_interval_secs"]
  match ← settings? names 5 value with
  | [listen, directory, template, idle, report] =>
    return ⟨← optional? address? listen, ← optional? text? directory, ← optional? text? template,
      ← optional? (unsigned? Text.unsigned64) idle, ← optional? (unsigned? Text.unsigned64) report⟩
  | _ => none

def RolloverSection.read? (value : Value) : Option RolloverSection := do
  match ← settings? ["megabytes", "elapsed_secs"] 2 value with
  | [megabytes, seconds] =>
    return ⟨← optional? (unsigned? Text.unsigned64) megabytes,
      ← optional? (unsigned? Text.unsigned64) seconds⟩
  | _ => none

def BufferSection.read? (value : Value) : Option BufferSection := do
  match ← settings? ["max_frameset_size", "max_incomplete_frame_bytes", "temp_dir"] 3 value with
  | [frames, bytes, directory] =>
    return ⟨← optional? (unsigned? Text.unsigned64) frames,
      ← optional? (unsigned? Text.unsigned64) bytes, ← optional? text? directory⟩
  | _ => none

/-- A code of one byte and its name. -/
def classification? (value : Value) : Option (Nat × String) := do
  match ← settings? ["code", "name"] 2 value with
  | [some code, some name] => return (← unsigned? 255 code, ← text? name)
  | _ => none

def TelemetrySection.read? (value : Value) : Option TelemetrySection := do
  match ← settings? ["subsample_count", "distance_tolerance", "classification"] 2 value with
  | [count, tolerance, names] =>
    let named ← optional? (fun value => (items? value).bind (List.mapM classification?)) names
    return ⟨← optional? (unsigned? Text.unsigned64) count, ← optional? float? tolerance,
      named.getD []⟩
  | _ => none

def LoggingSection.read? (value : Value) : Option LoggingSection := do
  match ← settings? ["log_dir", "retention_days", "level"] 3 value with
  | [directory, days, level] =>
    return ⟨← optional? text? directory, ← optional? (unsigned? Text.unsigned64) days,
      ← optional? text? level⟩
  | _ => none

namespace File

def sectionNames : List String := ["monitor", "rollover", "buffer", "klv", "logging"]

/-- A section that may be left out. -/
def section? {α : Type} (name : String) (read? : Value → Option α) (standard : α)
    (members : Toml.Members) : Option α :=
  (optional? read? (Keyed.find? name members)).map (·.getD standard)

def ofMembers? (members : Toml.Members) : Option File := do
  if members.any fun member => member.1 ∉ sectionNames then none
  return {
    monitor := ← section? "monitor" MonitorSection.read? empty.monitor members
    rollover := ← section? "rollover" RolloverSection.read? empty.rollover members
    buffer := ← section? "buffer" BufferSection.read? empty.buffer members
    telemetry := ← section? "klv" TelemetrySection.read? empty.telemetry members
    logging := ← section? "logging" LoggingSection.read? empty.logging members }

def read (text : String) : Except FileError File :=
  match (Toml.read? text).bind ofMembers? with
  | some file => .ok file
  | none => .error {}

end File

end MotionImagery.Config
