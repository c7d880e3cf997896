/-!
Lines of a log, and how important they are.
-/
namespace MotionImagery.Log

inductive Level where
  | error
  | warn
  | info
  | debug
  | trace
  deriving DecidableEq, Repr

namespace Level

def name : Level → String
  | error => "ERROR"
  | warn => "WARN"
  | info => "INFO"
  | debug => "DEBUG"
  | trace => "TRACE"

/-- The more important a level, the smaller its number. -/
def rank : Level → Nat
  | error => 1
  | warn => 2
  | info => 3
  | debug => 4
  | trace => 5

end Level

structure Line where
  level : Level
  text : String
  deriving DecidableEq, Repr

def Line.write (line : Line) : String := line.level.name ++ " " ++ line.text

end MotionImagery.Log
