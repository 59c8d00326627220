/-!
Log lines.
-/

namespace PhaseExecutors

inductive Level
  | error
  | warn
  | info
  | debug
  | trace
deriving DecidableEq, Repr

namespace Level

/-- A larger rank is more detail. -/
def rank : Level → Nat
  | .error => 0
  | .warn => 1
  | .info => 2
  | .debug => 3
  | .trace => 4

def name : Level → String
  | .error => "ERROR"
  | .warn => "WARN"
  | .info => "INFO"
  | .debug => "DEBUG"
  | .trace => "TRACE"

/-- A log kept at this level shows lines of the other one. -/
def shows (kept line : Level) : Bool := line.rank ≤ kept.rank

end Level

structure LogLine where
  level : Level
  text : String
deriving DecidableEq, Repr

namespace LogLine

def toText (l : LogLine) : String := s!"{l.level.name} {l.text}"

end LogLine

abbrev Log := List LogLine

/-- The lines that a log kept at this level shows. -/
def Log.atLevel (kept : Level) (log : Log) : Log := log.filter fun l => kept.shows l.level

end PhaseExecutors
