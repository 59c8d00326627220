import PhaseExecutors.Task

/-!
The tracker counts the tasks in flight and collects what became of the others.

Its result is there once nothing is in flight: the first fatal failure, or else the summary.
-/

namespace PhaseExecutors

/-- How a task left the executor. -/
inductive Outcome
  | completed
  | recoverable (failure : TaskFailure)
  | fatal (failure : TaskFailure)
  | skipped
deriving DecidableEq, Repr

namespace Outcome

def recoverable? : Outcome → Option TaskFailure
  | .recoverable f => some f
  | _ => none

def fatal? : Outcome → Option TaskFailure
  | .fatal f => some f
  | _ => none

theorem fatal?_eq_some_iff {o : Outcome} {f : TaskFailure} :
    o.fatal? = some f ↔ o = .fatal f := by
  cases o <;> simp [fatal?]

end Outcome

/-- The counts of tasks. After `n` operations none of them is above `n` (see `counted_run`), so
below `2 ^ 64` operations words of 64 bits count the same. -/
structure Tracker where
  inFlight : Nat
  summary : Summary
  fatal : Option TaskFailure
deriving DecidableEq

namespace Tracker

def init : Tracker := ⟨0, .empty, none⟩

def enqueue (t : Tracker) : Tracker := { t with inFlight := t.inFlight + 1 }

/-- Counts a task that was never let in. -/
def reject (t : Tracker) : Tracker :=
  { t with summary := { t.summary with skipped := t.summary.skipped + 1 } }

/-- Takes an outcome into the summary. Of several fatal failures the first is kept. -/
def record (t : Tracker) : Outcome → Tracker
  | .completed => { t with summary := { t.summary with completed := t.summary.completed + 1 } }
  | .recoverable f =>
    { t with summary := { t.summary with recoverable := t.summary.recoverable ++ [f] } }
  | .fatal f => { t with fatal := t.fatal <|> some f }
  | .skipped => t.reject

/-- A task leaves. A surplus departure leaves the count at zero. -/
def finish (t : Tracker) (o : Outcome) : Tracker :=
  let t := t.record o
  { t with inFlight := t.inFlight - 1 }

@[simp] theorem inFlight_enqueue (t : Tracker) : t.enqueue.inFlight = t.inFlight + 1 := rfl
@[simp] theorem inFlight_reject (t : Tracker) : t.reject.inFlight = t.inFlight := rfl
@[simp] theorem inFlight_record (t : Tracker) (o : Outcome) :
    (t.record o).inFlight = t.inFlight := by cases o <;> rfl
@[simp] theorem inFlight_finish (t : Tracker) (o : Outcome) :
    (t.finish o).inFlight = t.inFlight - 1 := by simp [finish]

def isQuiet (t : Tracker) : Bool := t.inFlight == 0

def outcome (t : Tracker) : Except TaskFailure Summary :=
  match t.fatal with
  | some f => .error f
  | none => .ok t.summary

theorem outcome_eq_ok_iff {t : Tracker} {summary : Summary} :
    t.outcome = .ok summary ↔ t.fatal = none ∧ t.summary = summary := by
  cases h : t.fatal <;> simp [outcome, h]

theorem outcome_eq_error_iff {t : Tracker} {f : TaskFailure} :
    t.outcome = .error f ↔ t.fatal = some f := by
  cases h : t.fatal <;> simp [outcome, h]

/-- What a wait returns, unless it would block. -/
def result? (t : Tracker) : Option (Except TaskFailure Summary) :=
  if t.isQuiet then some t.outcome else none

theorem result?_eq_some_iff {t : Tracker} {r : Except TaskFailure Summary} :
    t.result? = some r ↔ t.inFlight = 0 ∧ t.outcome = r := by
  simp [result?, isQuiet]

inductive Op
  | enqueue
  | reject
  | finish (o : Outcome)
deriving DecidableEq, Repr

def step (t : Tracker) : Op → Tracker
  | .enqueue => t.enqueue
  | .reject => t.reject
  | .finish o => t.finish o

def run (t : Tracker) (ops : List Op) : Tracker := ops.foldl step t

theorem run_append (t : Tracker) (ops ops' : List Op) :
    run t (ops ++ ops') = run (run t ops) ops' := by
  simp [run, List.foldl_append]

end Tracker

end PhaseExecutors
