import MotionImagery.Output.Directory
import MotionImagery.Output.NameTemplate
import MotionImagery.Output.Record
import MotionImagery.Text.Utf8

/-!
Chunks as files: each gets a name that is still free, and beside it a file of its attributes. The
record of the stream is written at its end.

How a pattern of the template is written, which depends on the time, and how two areas are united
are parameters.
-/
namespace MotionImagery.Output

/-- A directory, how chunks in it are named, and what is recorded of the stream. -/
structure Store where
  directory : Directory
  template : NameTemplate
  record : StreamRecord

namespace Store

def chunkName (stem : String) : String := stem ++ ".ts"

/-- The file of the attributes has the chunk's name with another ending. A name that is nothing but
an ending counts as one that has none. -/
def sidecarName (stem : String) : String :=
  if stem.isEmpty then chunkName stem ++ ".json" else stem ++ ".json"

def numbered (base : String) (number : Nat) : String := base ++ "-" ++ Text.decimal number

/-- The base, or the base with the least number from one on, such that there is no chunk of that
name. Of as many numbers as there are files, and one more, one is free. -/
def freeStem (base : String) (directory : Directory) : String :=
  let isFree := fun (stem : String) => !Keyed.contains (chunkName stem) directory
  if isFree base then base
  else
    (((List.range (directory.length + 1)).map fun n => numbered base (n + 1)).find? isFree).getD base

/-- An empty store on a directory. The record is named when the store is opened. -/
def new (write : String → Option String) (directory : Directory) (template : NameTemplate) :
    Store :=
  ⟨directory, template, .new (template.expand write)⟩

def jsonFile (attributes : Attributes) : Bytes := Text.encode attributes.toJson.pretty

/-- Writes a chunk and its attributes, and gives the stem of their names. A chunk whose attributes
cannot be written stays, but is not recorded. -/
def persistWith (unite : List Polygon → List Polygon → List Polygon)
    (write : String → Option String) (content : Bytes) (attributes : Attributes)
    (store : Store) : Except WriteError String × Store :=
  let stem := freeStem (store.template.expand write) store.directory
  match store.directory.write (chunkName stem) content with
  | .error error => (.error error, store)
  | .ok directory =>
    let kept := { store with directory }
    match directory.write (sidecarName stem) (jsonFile attributes) with
    | .error error => (.error error, kept)
    | .ok directory =>
      (.ok stem,
        { kept with
          directory, record := store.record.updateWith unite (chunkName stem) attributes })

def persist (write : String → Option String) (content : Bytes) (attributes : Attributes)
    (store : Store) : Except WriteError String × Store :=
  store.persistWith unionAreas write content attributes

def recordName (store : Store) : String := store.record.name ++ "-stream.json"

/-- Writes the record of the stream; there is none without chunks. -/
def finish (store : Store) : Except WriteError (Option String) × Store :=
  if store.record.chunks = 0 then (.ok none, store)
  else
    match store.directory.write store.recordName (jsonFile store.record.attributes) with
    | .error error => (.error error, store)
    | .ok directory => (.ok (some store.recordName), { store with directory })

end Store

end MotionImagery.Output
