import MotionImagery.Keyed
import MotionImagery.Output.Directory
import MotionImagery.Text.Split

/-!
A tree of directories and files in memory, and paths in it. A path leads from the root or from the
current directory, step by step; two points lead up.
-/
namespace MotionImagery.Program

/-- The names from the root on. -/
abbrev Location := List String

inductive Node where
  | directory
  /-- The age counts microseconds; a file of a later time has none. -/
  | file (text : String) (age : Option Nat)
  deriving DecidableEq, Repr

/-- The root is not among the nodes; it is always there. -/
structure FileTree where
  nodes : Keyed Location Node
  current : Location

namespace FileTree

def node? (location : Location) (tree : FileTree) : Option Node :=
  if location.isEmpty then some .directory else Keyed.find? location tree.nodes

def isDirectory (location : Location) (tree : FileTree) : Bool :=
  tree.node? location == some .directory

/-- An empty tree with a current directory. -/
def empty (current : Location) : FileTree :=
  ⟨((List.range current.length).map fun length => current.take (length + 1)).foldl
    (fun nodes location => Keyed.put location .directory nodes) [], current⟩

def steps (path : String) : List String := (Text.splitAll '/' path.toList).map String.ofList

def start (path : String) (tree : FileTree) : Location :=
  if path.toList.head? = some '/' then [] else tree.current

/-- Where a step leads from a location. -/
def step (location : Location) (name : String) : Location :=
  if name = "" ∨ name = "." then location
  else if name = ".." then location.dropLast
  else location ++ [name]

/-- Where a path leads, if there are directories all the way to its last step. -/
def locate? (path : String) (tree : FileTree) : Option Location :=
  if path.isEmpty then none
  else
    (steps path).foldlM (fun location name =>
      if tree.isDirectory location then some (step location name) else none) (tree.start path)

def find? (path : String) (tree : FileTree) : Option Node :=
  (tree.locate? path).bind fun location => tree.node? location

def read? (path : String) (tree : FileTree) : Option String :=
  match tree.find? path with
  | some (.file text _) => some text
  | _ => none

/-- Makes the directories that are missing on the way of these steps, up to one that cannot be
made. -/
def makeSteps (location : Location) : List String → FileTree → Bool × FileTree
  | [], tree => (tree.isDirectory location, tree)
  | name :: rest, tree =>
    let next := step location name
    match tree.node? next with
    | some .directory => makeSteps next rest tree
    | some (.file _ _) => (false, tree)
    | none =>
      if Output.Directory.isName name then
        makeSteps next rest { tree with nodes := Keyed.put next .directory tree.nodes }
      else (false, tree)

def makeDirectories (path : String) (tree : FileTree) : Bool × FileTree :=
  if path.isEmpty then (true, tree) else makeSteps (tree.start path) (steps path) tree

/-- Writes a file, and makes the directories that lead to it. -/
def write (path text : String) (age : Option Nat) (tree : FileTree) : FileTree :=
  let made := (makeSteps (tree.start path) (steps path).dropLast tree).2
  match made.locate? path with
  | some location => { made with nodes := Keyed.put location (.file text age) made.nodes }
  | none => made

/-- The names in a directory, and what they name. -/
def children (location : Location) (tree : FileTree) : List (String × Node) :=
  tree.nodes.filterMap fun (place, node) =>
    if place.dropLast = location then place.getLast?.map fun name => (name, node) else none

/-- The names and the ages of the files in a directory. -/
def files? (path : String) (tree : FileTree) : Option (List (String × Option Nat)) :=
  (tree.locate? path).bind fun location =>
    if tree.isDirectory location then
      some ((tree.children location).filterMap fun (name, node) =>
        match node with
        | .file _ age => some (name, age)
        | .directory => none)
    else none

/-- Removes a file from a directory. -/
def remove (directory name : String) (tree : FileTree) : Bool × FileTree :=
  match tree.locate? directory with
  | none => (false, tree)
  | some location =>
    match tree.node? (location ++ [name]) with
    | some (.file _ _) =>
      (true, { tree with nodes := Keyed.erase (location ++ [name]) tree.nodes })
    | _ => (false, tree)

/-- The names in the current directory, in ascending order. -/
def entries (tree : FileTree) : List String := (tree.children tree.current).map Prod.fst

end FileTree

end MotionImagery.Program
