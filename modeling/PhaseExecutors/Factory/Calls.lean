import PhaseExecutors.Factory

/-!
Calls of a factory, one after the other.

An executor is asked for by its phase, or by the name that the factory has for the executor of a
phase.
-/

namespace PhaseExecutors

namespace Factory

inductive Call
  | refresh (p : Provider)
  | planFor (phase : Phase)
  | executorFor (phase : Phase)
  | analysisExecutor
  | executionExecutor
  | mergedExecutor

/-- What a caller gets. -/
inductive Reply (α : Type)
  | snapshot (s : Snapshot)
  | plan (answer : Except UnmetPrecondition Plan)
  | executor (answer : Except ExecutorError α)

variable {α : Type}

def analysisExecutor (f : Factory) (kept : Level) (builder : Builder α) :
    Except ExecutorError α × Factory × Log :=
  f.executorFor kept builder .analysis

def executionExecutor (f : Factory) (kept : Level) (builder : Builder α) :
    Except ExecutorError α × Factory × Log :=
  f.executorFor kept builder .execution

def mergedExecutor (f : Factory) (kept : Level) (builder : Builder α) :
    Except ExecutorError α × Factory × Log :=
  f.executorFor kept builder .merged

def call (f : Factory) (kept : Level) (builder : Builder α) : Call → Reply α × Factory × Log
  | .refresh p =>
    let (f, log) := f.refresh p
    (.snapshot f.snapshot, f, log)
  | .planFor phase => (.plan (f.planFor phase), f, [])
  | .executorFor phase => (f.executorFor kept builder phase).map .executor id
  | .analysisExecutor => (f.analysisExecutor kept builder).map .executor id
  | .executionExecutor => (f.executionExecutor kept builder).map .executor id
  | .mergedExecutor => (f.mergedExecutor kept builder).map .executor id

/-- The replies to some calls, the factory after them, and the log. -/
def calls (f : Factory) (kept : Level) (builder : Builder α) :
    List Call → List (Reply α) × Factory × Log
  | [] => ([], f, [])
  | c :: cs =>
    let (reply, f, log) := f.call kept builder c
    let (replies, f, rest) := calls f kept builder cs
    (reply :: replies, f, log ++ rest)

end Factory

end PhaseExecutors
