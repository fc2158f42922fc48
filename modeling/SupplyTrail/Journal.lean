import SupplyTrail.Text.Terminal
/-!
# Log lines

What a process reports while it works.  A line has a level and a text; lines come in the order in which things happen.
-/
namespace SupplyTrail

inductive Level where
  | info
  | warn
  | error
  deriving DecidableEq, Repr

def Level.name : Level → String
  | .info => "INFO"
  | .warn => "WARN"
  | .error => "ERROR"

structure LogLine where
  level : Level
  text : String
  deriving DecidableEq, Repr

/-- The line as a terminal may be given it. -/
def LogLine.render (l : LogLine) : String := s!"{l.level.name} {Text.tame l.text}"

end SupplyTrail
