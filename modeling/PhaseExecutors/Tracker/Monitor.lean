import PhaseExecutors.Tracker

/-!
Waiting for the tracker.

Each critical section is one step. A waiter that finds tasks in flight parks and gives the lock
up in the same step; the last task to leave notifies all parked waiters; a parked waiter may also
wake without notice. A waiter that wakes looks again, and parks again if it has to.
-/

namespace PhaseExecutors

inductive Waiter
  | parked
  | notified
  | returned (result : Except TaskFailure Summary)

namespace Waiter

def notify : Waiter → Waiter
  | .parked => .notified
  | w => w

end Waiter

structure Monitor where
  tracker : Tracker
  waiters : List Waiter

namespace Monitor

inductive Event
  | enqueue
  | reject
  | finish (o : Outcome)
  /-- A new waiter takes its first look. -/
  | arrive
  /-- A parked waiter looks again, after a notice or without one. -/
  | wake (waiter : Nat)

def init : Monitor := ⟨.init, []⟩

/-- What becomes of a waiter that looks. -/
def look (t : Tracker) : Waiter :=
  match t.result? with
  | some result => .returned result
  | none => .parked

def step? (m : Monitor) : Event → Option Monitor
  | .enqueue => some { m with tracker := m.tracker.enqueue }
  | .reject => some { m with tracker := m.tracker.reject }
  | .finish o =>
    let t := m.tracker.finish o
    some ⟨t, if t.isQuiet then m.waiters.map Waiter.notify else m.waiters⟩
  | .arrive => some { m with waiters := m.waiters ++ [look m.tracker] }
  | .wake i =>
    match m.waiters[i]? with
    | some .parked | some .notified => some { m with waiters := m.waiters.set i (look m.tracker) }
    | _ => none

def run? (m : Monitor) : List Event → Option Monitor
  | [] => some m
  | e :: es => (m.step? e).bind fun m => run? m es

end Monitor

end PhaseExecutors
