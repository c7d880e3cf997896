import MotionImagery.Keyed

/-!
Values of a TOML document, and how its statements build up the tables.

A table may be written in parts, but it is defined only once: by its own header, by dotted keys, or
by braces. A header of a table inside it implies a table without defining it.
-/
namespace MotionImagery.Toml

/-- How a table came to be. -/
inductive Origin where
  /-- By its own header. -/
  | defined
  /-- By the header of a table inside it. -/
  | implied
  /-- By a dotted key. -/
  | dotted
  /-- By braces; nothing can be added to it. -/
  | complete
  deriving DecidableEq, Repr

inductive Value where
  | text (content : String)
  | integer (number : Int)
  | float (number : Float)
  | truth (value : Bool)
  /-- A date, a time, or both, as it is written. -/
  | date (written : String)
  | list (items : List Value)
  | table (origin : Origin) (members : List (String × Value))
  /-- The tables of one header in double brackets. -/
  | tables (elements : List (List (String × Value)))

abbrev Members := Keyed String Value

/-- A key with the keys of the tables that lead to it. -/
structure KeyPath where
  parents : List String
  key : String
  deriving DecidableEq, Repr

/-- A change of a table, which keeps how it came to be or decides it anew. It fails if the table
does not allow it. -/
abbrev Change := Origin → Members → Option (Origin × Members)

/-- Applies a change to the table that the keys lead to. Tables on the way that are missing are
made; of tables in double brackets the last is meant. A dotted key does not lead through a table that
has a header of its own. -/
def descend (dotted : Bool) (change : Change) : List String → Change
  | [], origin, members => change origin members
  | key :: path, origin, members =>
    match Keyed.find? key members with
    | none =>
      (descend dotted change path (if dotted then .dotted else .implied) []).map
        fun (inner, changed) => (origin, Keyed.put key (.table inner changed) members)
    | some (.table inner found) =>
      if inner = .complete ∨ (dotted ∧ inner = .defined) then none
      else
        (descend dotted change path inner found).map
          fun (inner, changed) => (origin, Keyed.put key (.table inner changed) members)
    | some (.tables elements) =>
      elements.getLast?.bind fun last =>
        (descend dotted change path .defined last).map fun (_, changed) =>
          (origin, Keyed.put key (.tables (elements.dropLast ++ [changed])) members)
    | some _ => none

/-- Adds a member. A table that was made by dotted keys is only added to by dotted keys, and no
other table is. -/
def addMember (dotted : Bool) (key : String) (value : Value) : Change := fun origin members =>
  if dotted = decide (origin = .dotted) ∧ !Keyed.contains key members then
    some (origin, Keyed.put key value members)
  else none

def assign (path : KeyPath) (value : Value) : Change :=
  descend true (addMember (!path.parents.isEmpty) path.key value) path.parents

/-- Defines a table that is missing or only implied. -/
def openTable (key : String) : Change := fun origin members =>
  match Keyed.find? key members with
  | none => some (origin, Keyed.put key (.table .defined []) members)
  | some (.table .implied found) => some (origin, Keyed.put key (.table .defined found) members)
  | some _ => none

/-- Adds a table to those in double brackets. -/
def openElement (key : String) : Change := fun origin members =>
  match Keyed.find? key members with
  | none => some (origin, Keyed.put key (.tables [[]]) members)
  | some (.tables elements) => some (origin, Keyed.put key (.tables (elements ++ [[]])) members)
  | some _ => none

/-- A table in braces. -/
def inlineTable? (entries : List (KeyPath × Value)) : Option Value :=
  (entries.foldlM (fun members entry => (assign entry.1 entry.2 .defined members).map Prod.snd)
    []).map (.table .complete)

inductive Statement where
  | assignment (path : KeyPath) (value : Value)
  | table (path : KeyPath)
  | element (path : KeyPath)

/-- The tables so far, and the keys of the one that assignments go to. -/
structure Document where
  members : Members
  current : List String

namespace Document

def empty : Document := ⟨[], []⟩

def changed (document : Document) (current path : List String) (change : Change) :
    Option Document :=
  (descend false change path .defined document.members).map fun (_, members) => ⟨members, current⟩

def apply (document : Document) : Statement → Option Document
  | .assignment path value =>
    document.changed document.current document.current (assign path value)
  | .table path => document.changed (path.parents ++ [path.key]) path.parents (openTable path.key)
  | .element path =>
    document.changed (path.parents ++ [path.key]) path.parents (openElement path.key)

def ofStatements? (statements : List Statement) : Option Document := statements.foldlM apply empty

end Document

end MotionImagery.Toml
