import PhaseExecutors.Executor.Step
import PhaseExecutors.Tracker.Monitor

/-!
An executor that threads wait for.

A wait looks at the tracker, and parks while tasks are in flight. Its look is one step; before it
and after it the executor goes on, takes more work, and other threads wait. Each wait has a number,
so a thread that waits several times is several waiters.
-/

namespace PhaseExecutors

structure Watched where
  executor : Executor
  waiters : List Waiter
  /-- What the waits that are over returned, in order. -/
  returns : List (Nat × Except TaskFailure Summary)

namespace Watched

inductive Event
  /-- The executor makes a step. -/
  | work (e : Executor.Event)
  /-- A new waiter takes its first look. -/
  | arrive
  /-- A waiter looks again, after a notice or without one. -/
  | wake (waiter : Nat)

def init (plan : Plan) (classifier : Classifier) : Watched := ⟨.init plan classifier, [], []⟩

/-- The waiters after a step of the executor: the last task to leave notifies them. -/
def notified (t : Tracker) (waiters : List Waiter) : Executor.Event → List Waiter
  | .finish _ => if t.isQuiet then waiters.map Waiter.notify else waiters
  | _ => waiters

/-- A waiter looks at the tracker, and takes its place among the others. -/
def look (w : Watched) (waiter : Nat) (place : Waiter → List Waiter) : Watched :=
  { w with
    waiters := place (Monitor.look w.executor.tracker)
    returns := w.returns ++ (w.executor.tracker.result?.map fun r => (waiter, r)).toList }

def step? (w : Watched) : Event → Option Watched
  | .work e =>
    (w.executor.step? e).map fun s =>
      { w with executor := s, waiters := notified s.tracker w.waiters e }
  | .arrive => some (w.look w.waiters.length fun waiter => w.waiters ++ [waiter])
  | .wake i =>
    match w.waiters[i]? with
    | some .parked | some .notified => some (w.look i (w.waiters.set i))
    | _ => none

def run? (w : Watched) : List Event → Option Watched
  | [] => some w
  | e :: es => (w.step? e).bind fun w => run? w es

end Watched

end PhaseExecutors
