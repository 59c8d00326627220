import PhaseExecutors.Executor.Step

/-!
One schedule of an executor: whatever can go on does, the oldest first, until nothing can.

The weight of the work that is left bounds the number of steps.
-/

namespace PhaseExecutors

mutual

/-- More than the steps that a task and its children can take. -/
def Work.weight : Work → Nat
  | .task _ _ _ _ children => Work.weightAll children + 10

def Work.weightAll : List Work → Nat
  | [] => 0
  | w :: ws => w.weight + 3 + weightAll ws

end

namespace Executor

/-- The next event of a job, if it has one. -/
def jobEvent? (s : Executor) (i : Nat) (j : Job) : Option Event :=
  match j.stage with
  | .waiting =>
    if s.cancelled then some (.giveUp i)
    else if 0 < s.freePermits then some (.acquire i)
    else none
  | .called => if s.hasWorker j.task.lane then some (.resume i) else none
  | .ready => some (.begin i)
  | .gated =>
    match j.work.gate with
    | some gate => if gate ∈ s.opened then some (.pass i) else none
    | none => none
  | .running (_ :: _) none => some (.askChild i)
  | .running (_ :: _) (some _) => some (.recordChild i)
  | .running [] _ => some (.conclude i)
  | .failing _ => some (.cancel i)
  | .finishing _ => some (.finish i)
  | .leaving => some (.leave i)

def jobsEvent? (s : Executor) (i : Nat) : List Job → Option Event
  | [] => none
  | j :: js => s.jobEvent? i j <|> jobsEvent? s (i + 1) js

/-- The first queued task for which a worker is free. -/
def queueEvent? (s : Executor) (i : Nat) : List Routed → Option Event
  | [] => none
  | task :: tasks =>
    if s.hasWorker task.lane then some (.dequeue i) else queueEvent? s (i + 1) tasks

def nextEvent? (s : Executor) : Option Event :=
  match s.tickets with
  | _ :: _ => some (.record 0)
  | [] => s.jobsEvent? 0 s.jobs <|> s.queueEvent? 0 s.queue

/-- At most `fuel` steps of the schedule. -/
def runFor : Nat → Executor → Executor
  | 0, s => s
  | fuel + 1, s =>
    match s.nextEvent? >>= s.step? with
    | some s => runFor fuel s
    | none => s

/-- More than the steps that the work at hand can take. -/
def weight (s : Executor) : Nat :=
  Work.weightAll (s.tickets.map Ticket.work) + Work.weightAll (s.queue.map Routed.work) +
    Work.weightAll (s.jobs.map Job.work)

/-- Goes on until everything that is left waits at a gate, or for what such a task holds. -/
def runToRest (s : Executor) : Executor := runFor s.weight s

/-- A submission from outside, without a step of another thread in between. -/
def submitNow (s : Executor) (work : Work) : Executor := s.submit work !s.cancelled

def submitAll (s : Executor) (ws : List Work) : Executor := ws.foldl submitNow s

end Executor

end PhaseExecutors
