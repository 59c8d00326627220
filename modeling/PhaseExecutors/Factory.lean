import PhaseExecutors.Settings
import PhaseExecutors.Plan
import PhaseExecutors.Task

/-!
The factory: settings, and executors built for a phase from the plan of the snapshot in force.

What a builder makes of a plan may depend on the plans it was given before; the factory keeps them.
-/

namespace PhaseExecutors

/-- Why a pool was not started. -/
inductive BuildFault
  | parallelism (n : Size)
  | emptyHeavyLane
  | system (message : String)
deriving DecidableEq, Repr

namespace BuildFault

def message : BuildFault → String
  | .parallelism n =>
    s!"parallelism must be between 1 and {maxPoolParallelism.toNat}, got {n.toNat}"
  | .emptyHeavyLane => "cpu-heavy lane capacity must be > 0"
  | .system message => message

/-- The plan itself is at fault, not the system. -/
def isInvalidInput : BuildFault → Bool
  | .parallelism _ | .emptyHeavyLane => true
  | .system _ => false

end BuildFault

structure BuildError where
  pool : String
  fault : BuildFault
deriving DecidableEq, Repr

def BuildError.message (e : BuildError) : String :=
  s!"failed to start pool '{e.pool}': {e.fault.message}"

/-- Ways in which building an executor ends without one. `threadsOverflow`, `tooManyPermits` and
`nulInName` are defects that stop the whole program. -/
inductive ExecutorError
  | unmet (e : UnmetPrecondition)
  | build (e : BuildError)
  | threadsOverflow
  | tooManyPermits
  | nulInName (name : String)
deriving DecidableEq

/-- The largest number of permits of a heavy lane. -/
def maxPermits : Size := 2305843009213693951

/-- The bytes of a text as a list of numbers. -/
def byteList (s : String) : String :=
  "[" ++ String.intercalate ", " (s.toUTF8.toList.map fun b => toString b.toNat) ++ "]"

namespace ExecutorError

def message : ExecutorError → String
  | .unmet e => e.message
  | .build e => e.message
  | .threadsOverflow => "attempt to add with overflow"
  | .tooManyPermits =>
    s!"a semaphore may not have more than MAX_PERMITS permits ({maxPermits.toNat})"
  | .nulInName name =>
    let position := (name.toUTF8.toList.takeWhile (· != 0)).length
    s!"thread name may not contain interior null bytes: NulError({position}, {byteList name})"

/-- The program stops. -/
def isDefect : ExecutorError → Bool
  | .unmet _ | .build _ => false
  | .threadsOverflow | .tooManyPermits | .nulInName _ => true

end ExecutorError

/-- Makes an executor from a plan, given the plans before it. -/
abbrev Builder (α : Type) := List Plan → Plan → Except ExecutorError α

structure Factory where
  settings : Settings
  classifier : Classifier
  /-- The plans that the builder was given, in order. -/
  built : List Plan

namespace Factory

def ofSettings (s : Settings) : Factory := ⟨s, Classifier.evaluator, []⟩

def snapshot (f : Factory) : Snapshot := f.settings.current

def planFor (f : Factory) (phase : Phase) : Except UnmetPrecondition Plan :=
  Plan.forPhase phase f.snapshot

def refresh (f : Factory) (p : Provider) : Factory × Log :=
  let (settings, log) := f.settings.refresh p
  ({ f with settings }, log)

def refusalNote (phase : Phase) (e : UnmetPrecondition) : LogLine :=
  ⟨.error, s!"Refusing to build {phase.name} executor: {e.message}"⟩

def buildNote (phase : Phase) (plan : Plan) (threads : Size) : LogLine :=
  ⟨.debug, s!"Building {phase.name} executor: {plan.toText} ({threads.toNat} threads)"⟩

/-- The line about a plan, which a log shows only from level `debug` on. The threads are added
up for this line alone. -/
def announce (kept : Level) (phase : Phase) (plan : Plan) : Except ExecutorError Log :=
  if kept.shows .debug then
    match plan.totalThreads? with
    | some threads => .ok [buildNote phase plan threads]
    | none => .error .threadsOverflow
  else .ok []

/-- Builds an executor for a phase. -/
def executorFor {α : Type} (f : Factory) (kept : Level) (builder : Builder α) (phase : Phase) :
    Except ExecutorError α × Factory × Log :=
  match f.planFor phase with
  | .error e => (.error (.unmet e), f, [refusalNote phase e])
  | .ok plan =>
    match announce kept phase plan with
    | .error e => (.error e, f, [])
    | .ok log => (builder f.built plan, { f with built := f.built ++ [plan] }, log)

end Factory

end PhaseExecutors
