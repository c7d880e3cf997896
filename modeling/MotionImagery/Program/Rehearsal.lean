import MotionImagery.Program.FileTree
import MotionImagery.Program.Run

/-!
Runs of the program on files in memory, where no address can be monitored.
-/
namespace MotionImagery.Program

/-- The files, what the user has set, and what the program has said so far. -/
structure Rehearsal where
  tree : FileTree
  directives : Option String
  notices : List Notice
  log : List Log.Line

namespace Rehearsal

/-- A change of the tree that has an outcome. -/
def onTree {α : Type} (change : FileTree → α × FileTree) : StateM Rehearsal α :=
  modifyGet fun rehearsal =>
    let (outcome, tree) := change rehearsal.tree
    (outcome, { rehearsal with tree })

def host : Host (StateM Rehearsal) where
  isThere path := return ((← get).tree.find? path).isSome
  readText path := return (← get).tree.read? path
  makeDirectories path := onTree fun tree => tree.makeDirectories path
  files path := return (← get).tree.files? path
  remove directory name := onTree fun tree => tree.remove directory name
  directives := return (← get).directives
  tell notice := modify fun rehearsal =>
    { rehearsal with notices := rehearsal.notices ++ [notice] }
  log _ _ line := modify fun rehearsal => { rehearsal with log := rehearsal.log ++ [line] }
  monitor _ _ := return some ""

def run (arguments : List String) (rehearsal : Rehearsal) : Exit × Rehearsal :=
  (Program.run host arguments).run rehearsal

end Rehearsal

end MotionImagery.Program
