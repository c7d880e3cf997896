import MotionImagery.Network.Address
import MotionImagery.Text.Numeral
import MotionImagery.Text.Split

/-!
The command line: options with a value, and switches without one.

The value of an option is the next argument, or what follows an equals sign in the same one. Short
names may share one argument; a value may follow them directly. A value that stands in an argument of
its own is only looked at when the next option is met, or at the end.
-/
namespace MotionImagery.Config

/-- What was given; a setting or a switch is given once at most. -/
structure Arguments where
  listen : Option Network.Address
  outputDirectory : Option String
  nameTemplate : Option String
  file : Option String
  verbose : Bool
  rolloverMegabytes : Option Nat
  rolloverSeconds : Option Nat
  idleSeconds : Option Nat
  logDirectory : Option String
  retentionDays : Option Nat

def Arguments.empty : Arguments :=
  ⟨none, none, none, none, false, none, none, none, none, none⟩

inductive Setting where
  | listen
  | outputDirectory
  | nameTemplate
  | file
  | rolloverMegabytes
  | rolloverSeconds
  | idleSeconds
  | logDirectory
  | retentionDays
  deriving DecidableEq, Repr

inductive Switch where
  | verbose
  | help
  | version
  deriving DecidableEq, Repr

/-- What a name stands for. -/
inductive Choice where
  | setting (setting : Setting)
  | switch (switch : Switch)
  deriving DecidableEq, Repr

/-- Why a command line ends without arguments to go on with. -/
inductive Stop where
  | help
  | version
  | unknownArgument
  | missingValue
  /-- A path of no characters. -/
  | emptyValue
  | unwantedValue
  | repeated
  | invalidValue
  deriving DecidableEq, Repr

/-- A request, but not a mistake. -/
def Stop.isRequest (stop : Stop) : Bool := stop == .help || stop == .version

def longNames : List (String × Choice) :=
  [("listen", .setting .listen), ("output-dir", .setting .outputDirectory),
    ("filename-template", .setting .nameTemplate), ("config", .setting .file),
    ("verbose", .switch .verbose), ("rollover-megabytes", .setting .rolloverMegabytes),
    ("rollover-seconds", .setting .rolloverSeconds), ("idle-timeout", .setting .idleSeconds),
    ("log-dir", .setting .logDirectory), ("log-retention-days", .setting .retentionDays),
    ("help", .switch .help), ("version", .switch .version)]

def shortNames : List (Char × Choice) :=
  [('l', .setting .listen), ('o', .setting .outputDirectory), ('f', .setting .file),
    ('v', .switch .verbose), ('h', .switch .help), ('V', .switch .version)]

namespace Arguments

def isGiven (arguments : Arguments) : Setting → Bool
  | .listen => arguments.listen.isSome
  | .outputDirectory => arguments.outputDirectory.isSome
  | .nameTemplate => arguments.nameTemplate.isSome
  | .file => arguments.file.isSome
  | .rolloverMegabytes => arguments.rolloverMegabytes.isSome
  | .rolloverSeconds => arguments.rolloverSeconds.isSome
  | .idleSeconds => arguments.idleSeconds.isSome
  | .logDirectory => arguments.logDirectory.isSome
  | .retentionDays => arguments.retentionDays.isSome

def valid {α : Type} (value : Option α) : Except Stop α :=
  match value with
  | some value => .ok value
  | none => .error .invalidValue

def number (text : String) : Except Stop Nat := valid (Text.unsigned? Text.unsigned64 text.toList)

def path (text : String) : Except Stop String :=
  if text.isEmpty then .error .emptyValue else .ok text

/-- Gives a setting its value, for the first time. -/
def set (setting : Setting) (text : String) (arguments : Arguments) : Except Stop Arguments := do
  if arguments.isGiven setting then throw .repeated
  match setting with
  | .listen => return { arguments with listen := ← valid (Network.Address.read? text) }
  | .outputDirectory => return { arguments with outputDirectory := ← path text }
  | .nameTemplate => return { arguments with nameTemplate := text }
  | .file => return { arguments with file := ← path text }
  | .rolloverMegabytes => return { arguments with rolloverMegabytes := ← number text }
  | .rolloverSeconds => return { arguments with rolloverSeconds := ← number text }
  | .idleSeconds => return { arguments with idleSeconds := ← number text }
  | .logDirectory => return { arguments with logDirectory := ← path text }
  | .retentionDays => return { arguments with retentionDays := ← number text }

def turnOn (switch : Switch) (arguments : Arguments) : Except Stop Arguments :=
  match switch with
  | .help => .error .help
  | .version => .error .version
  | .verbose =>
    if arguments.verbose then .error .repeated else .ok { arguments with verbose := true }

end Arguments

/-- How far a command line has been read. -/
structure Reading where
  arguments : Arguments
  /-- The option that was met last, with the argument after it. -/
  pending : Option (Setting × Option String)
  /-- Two hyphens were met, after which there are no options. -/
  closed : Bool

namespace Reading

/-- Gives the pending option the value that it has been waiting for. -/
def settle (reading : Reading) : Except Stop Arguments :=
  match reading.pending with
  | none => .ok reading.arguments
  | some (_, none) => .error .missingValue
  | some (setting, some text) => reading.arguments.set setting text

/-- Takes in an option, with its value if that is attached. -/
def choose (choice : Choice) (attached : Option String) (reading : Reading) :
    Except Stop Reading :=
  match choice, attached with
  | .switch _, some _ => .error .unwantedValue
  | .switch switch, none => do
    return { reading with arguments := ← (← reading.settle).turnOn switch, pending := none }
  | .setting setting, some text => do
    return { reading with arguments := ← (← reading.settle).set setting text, pending := none }
  | .setting setting, none => do
    return { reading with arguments := ← reading.settle, pending := some (setting, none) }

/-- Short names in one argument; what follows the name of a setting is its value. -/
def letters (reading : Reading) : List Char → Except Stop Reading
  | [] => .ok reading
  | c :: rest =>
    match shortNames.lookup c, rest with
    | none, _ => .error .unknownArgument
    | some (.switch switch), rest => do letters (← reading.choose (.switch switch) none) rest
    | some (.setting setting), [] => reading.choose (.setting setting) none
    | some (.setting setting), '=' :: value =>
      reading.choose (.setting setting) (some (String.ofList value))
    | some (.setting setting), value =>
      reading.choose (.setting setting) (some (String.ofList value))

/-- A long name, with a value after an equals sign. -/
def word (reading : Reading) (text : List Char) : Except Stop Reading :=
  let (name, attached) := match Text.splitAtFirst? ['='] text with
    | none => (text, none)
    | some (name, value) => (name, some (String.ofList value))
  match longNames.lookup (String.ofList name) with
  | none => .error .unknownArgument
  | some choice => reading.choose choice attached

/-- Takes in an argument. One that begins with a hyphen is a value only if it is nothing else. -/
def next (reading : Reading) (argument : String) : Except Stop Reading :=
  if reading.closed then .error .unknownArgument
  else
    match argument.toList with
    | ['-', '-'] => .ok { reading with closed := true }
    | '-' :: '-' :: text => reading.word text
    | '-' :: c :: rest => reading.letters (c :: rest)
    | _ =>
      match reading.pending with
      | some (setting, none) => .ok { reading with pending := some (setting, some argument) }
      | _ => .error .unknownArgument

end Reading

def Arguments.read (arguments : List String) : Except Stop Arguments := do
  (← arguments.foldlM Reading.next ⟨.empty, none, false⟩).settle

end MotionImagery.Config
