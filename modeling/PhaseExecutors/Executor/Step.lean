import PhaseExecutors.Executor.Start
import PhaseExecutors.Executor.Work
import PhaseExecutors.Tracker

/-!
An executor at work.

The state holds submissions that are under way, queued tasks, and jobs: the tasks that a pool has
taken up. A task is routed to a lane when it is queued, and keeps that lane. Every event is one
atomic step, and any order of steps that are enabled is a run. A job holds a worker of its pool
except while it waits for a permit of the heavy lane or to be called.
-/

namespace PhaseExecutors

/-! ### Lanes -/

/-- The pools of an executor by what they are for; plans may give them equal names. -/
inductive Role
  | general
  | cpuHeavy
  | execution
deriving DecidableEq, Repr

namespace Plan

/-- The pool of a role; roles without a pool of their own share the general one. -/
def pool : Plan → Role → PoolSpec
  | .single pool, _ => pool
  | .tieredPriority pool _, _ => pool
  | .multiPool general _ _, .general => general
  | .multiPool _ heavy _, .cpuHeavy => heavy
  | .multiPool general _ execution, .execution => execution.getD general

/-- The roles that have a pool of their own, in the order in which the pools start. -/
def roles : Plan → List Role
  | .single _ | .tieredPriority .. => [.general]
  | .multiPool _ _ none => [.general, .cpuHeavy]
  | .multiPool _ _ (some _) => [.general, .cpuHeavy, .execution]

/-- The pool on which tasks of a kind run. -/
def role : Plan → TaskKind → Role
  | .multiPool .., .cpuHeavy => .cpuHeavy
  | .multiPool _ _ (some _), .execution => .execution
  | _, _ => .general

/-- The pool to which tasks of a kind are routed. -/
def route (plan : Plan) (kind : TaskKind) : PoolSpec := plan.pool (plan.role kind)

/-- The permits of the heavy lane, if the plan has one. -/
def permits : Plan → Nat
  | .tieredPriority _ capacity => capacity.toNat
  | .single _ | .multiPool .. => 0

/-- Tasks of this kind need a permit. -/
def needsPermit : Plan → TaskKind → Bool
  | .tieredPriority .., .cpuHeavy => true
  | _, _ => false

end Plan

/-- Where tasks of a kind run: on the pool of a role, and with permits if the lane is limited. -/
structure Lane where
  role : Role
  limited : Bool
deriving DecidableEq, Repr

/-- A task on the lane to which it was routed when it was submitted. -/
structure Routed where
  work : Work
  lane : Lane

namespace Plan

def lane (plan : Plan) (kind : TaskKind) : Lane := ⟨plan.role kind, plan.needsPermit kind⟩

def spawn (plan : Plan) (work : Work) : Routed := ⟨work, plan.lane work.kind⟩

@[simp] theorem work_spawn (plan : Plan) (work : Work) : (plan.spawn work).work = work := rfl

end Plan

/-- The site of its body: the label, and the pool of the lane. -/
def Routed.site (plan : Plan) (task : Routed) : String × String :=
  (task.work.label, (plan.pool task.lane.role).name)

/-! ### Jobs -/

/-- How far a job has come. -/
inductive Stage
  /-- Waits for a permit, without a worker. -/
  | waiting
  /-- Is to go on as soon as a worker is free. -/
  | called
  /-- Has a worker; the body has not begun. -/
  | ready
  /-- The body has begun and waits at its gate. -/
  | gated
  /-- The body has children to submit. Of the first, `admitted` holds the answer to whether the
  executor still takes tasks, once it was asked. -/
  | running (todo : List Work) (admitted : Option Bool)
  /-- The body has failed fatally and is about to stop the executor. -/
  | failing (failure : TaskFailure)
  /-- The outcome is about to be recorded. -/
  | finishing (outcome : Outcome)
  /-- The outcome is recorded; permit and worker are about to be given back. -/
  | leaving

structure Job where
  task : Routed
  permit : Bool
  stage : Stage

def Job.work (j : Job) : Work := j.task.work

@[simp] theorem Job.work_mk (task : Routed) (permit : Bool) (stage : Stage) :
    Job.work ⟨task, permit, stage⟩ = task.work := rfl

namespace Stage

def holdsWorker : Stage → Bool
  | .waiting | .called => false
  | _ => true

/-- The body has begun and has not ended. -/
def inBody : Stage → Bool
  | .gated | .running .. => true
  | _ => false

end Stage

/-! ### States and events -/

/-- A submission from outside: whether the executor took tasks is known, and not yet recorded. -/
structure Ticket where
  work : Work
  admitted : Bool

/-- An executor at some moment. -/
structure Executor where
  plan : Plan
  classifier : Classifier
  cancelled : Bool
  tracker : Tracker
  tickets : List Ticket
  queue : List Routed
  jobs : List Job
  freePermits : Nat
  opened : List Nat
  /-- The gates at which some body has arrived. -/
  reached : List Nat
  /-- Label and pool of each body that ran. -/
  ran : List (String × String)
  log : Log

namespace Executor

inductive Event
  /-- A submission from outside asks whether the executor takes tasks. -/
  | ask (work : Work)
  /-- A submission from outside is recorded. -/
  | record (ticket : Nat)
  /-- A pool takes up a queued task. -/
  | dequeue (index : Nat)
  /-- A waiting job gets a permit. -/
  | acquire (job : Nat)
  /-- A job stops waiting for a permit, because the executor is cancelled. -/
  | giveUp (job : Nat)
  /-- A called job gets a worker. -/
  | resume (job : Nat)
  /-- A body begins, or is skipped if the executor is cancelled. -/
  | begin (job : Nat)
  /-- A body passes its gate. -/
  | pass (job : Nat)
  /-- A body asks whether the executor takes its next child. -/
  | askChild (job : Nat)
  /-- The submission of a child is recorded. -/
  | recordChild (job : Nat)
  /-- A body ends. -/
  | conclude (job : Nat)
  /-- A fatal failure stops the executor. -/
  | cancel (job : Nat)
  /-- The outcome of a job is recorded. -/
  | finish (job : Nat)
  /-- A job gives back its permit and its worker. -/
  | leave (job : Nat)
  /-- A gate is opened. -/
  | open (gate : Nat)

def init (plan : Plan) (classifier : Classifier) : Executor where
  plan := plan
  classifier := classifier
  cancelled := false
  tracker := .init
  tickets := []
  queue := []
  jobs := []
  freePermits := plan.permits
  opened := []
  reached := []
  ran := []
  log := []

/-- An executor on the pools of a plan, if they start. -/
def start (plan : Plan) (classifier : Classifier) : Except ExecutorError Executor :=
  plan.start.map fun _ => init plan classifier

/-- The names of the pools that an executor runs on, the general one first. -/
def poolNames (s : Executor) : List String := s.plan.roles.map fun role => (s.plan.pool role).name

/-- The workers of a pool that jobs hold. -/
def busy (s : Executor) (role : Role) : Nat :=
  s.jobs.countP fun j => j.stage.holdsWorker && j.task.lane.role == role

/-- The pool of the lane has a free worker. -/
def hasWorker (s : Executor) (lane : Lane) : Bool :=
  s.busy lane.role < (s.plan.pool lane.role).parallelism.toNat

def setJob (s : Executor) (i : Nat) (j : Job) (stage : Stage) : Executor :=
  { s with jobs := s.jobs.set i { j with stage } }

def note (s : Executor) (level : Level) (text : String) : Executor :=
  { s with log := s.log ++ [⟨level, text⟩] }

/-- Records a submission: the task is queued or dropped. -/
def submit (s : Executor) (work : Work) (admitted : Bool) : Executor :=
  if admitted then
    { s with tracker := s.tracker.enqueue, queue := s.queue ++ [s.plan.spawn work] }
  else
    { s with tracker := s.tracker.reject }.note .trace
      s!"Dropping {work.kind.name} task submitted after a fatal failure"

/-- The body of a job goes on behind its gate. -/
def enterBody (s : Executor) (i : Nat) (j : Job) : Executor :=
  { s with ran := s.ran ++ [j.task.site s.plan] }.setJob i j (.running j.work.children none)

/-- The body of a job ends with its error, or without one. An error is charged to the pool to which
the kind of the task is routed. -/
def conclude (s : Executor) (i : Nat) (j : Job) : Executor :=
  match j.work.ending.error? with
  | none => s.setJob i j (.finishing .completed)
  | some e =>
    let failure : TaskFailure := ⟨(s.plan.route j.work.kind).name, e⟩
    match s.classifier e with
    | .recoverable =>
      (s.note .debug s!"Recoverable {j.work.kind.name} task failure: {failure.toText}").setJob i j
        (.finishing (.recoverable failure))
    | .fatal =>
      (s.note .error
        s!"Fatal {j.work.kind.name} task failure, stopping executor: {failure.toText}").setJob i j
        (.failing failure)

/-- One step, if the event is possible. -/
def step? (s : Executor) : Event → Option Executor
  | .ask work => some { s with tickets := s.tickets ++ [⟨work, !s.cancelled⟩] }
  | .record i =>
    match s.tickets[i]? with
    | some t => some ({ s with tickets := s.tickets.eraseIdx i }.submit t.work t.admitted)
    | none => none
  | .dequeue i =>
    match s.queue[i]? with
    | some task =>
      if s.hasWorker task.lane then
        let stage := if task.lane.limited then Stage.waiting else .ready
        some { s with queue := s.queue.eraseIdx i, jobs := s.jobs ++ [⟨task, false, stage⟩] }
      else none
    | none => none
  | .acquire i =>
    match s.jobs[i]? with
    | some j =>
      match j.stage with
      | .waiting =>
        if 0 < s.freePermits then
          some ({ s with freePermits := s.freePermits - 1 }.setJob i { j with permit := true }
            .called)
        else none
      | _ => none
    | none => none
  | .giveUp i =>
    match s.jobs[i]? with
    | some j =>
      if s.cancelled then
        match j.stage with
        | .waiting => some (s.setJob i j .called)
        | .called =>
          if j.permit then
            some ({ s with freePermits := s.freePermits + 1 }.setJob i { j with permit := false }
              .called)
          else none
        | _ => none
      else none
    | none => none
  | .resume i =>
    match s.jobs[i]? with
    | some j =>
      match j.stage with
      | .called => if s.hasWorker j.task.lane then some (s.setJob i j .ready) else none
      | _ => none
    | none => none
  | .begin i =>
    match s.jobs[i]? with
    | some j =>
      match j.stage with
      | .ready =>
        if s.cancelled then some (s.setJob i j (.finishing .skipped))
        else
          match j.work.gate with
          | some gate => some ({ s with reached := gate :: s.reached }.setJob i j .gated)
          | none => some (s.enterBody i j)
      | _ => none
    | none => none
  | .pass i =>
    match s.jobs[i]? with
    | some j =>
      match j.stage, j.work.gate with
      | .gated, some gate => if gate ∈ s.opened then some (s.enterBody i j) else none
      | _, _ => none
    | none => none
  | .askChild i =>
    match s.jobs[i]? with
    | some j =>
      match j.stage with
      | .running (c :: todo) none => some (s.setJob i j (.running (c :: todo) (some !s.cancelled)))
      | _ => none
    | none => none
  | .recordChild i =>
    match s.jobs[i]? with
    | some j =>
      match j.stage with
      | .running (c :: todo) (some admitted) =>
        some ((s.submit c admitted).setJob i j (.running todo none))
      | _ => none
    | none => none
  | .conclude i =>
    match s.jobs[i]? with
    | some j =>
      match j.stage with
      | .running [] none => some (s.conclude i j)
      | _ => none
    | none => none
  | .cancel i =>
    match s.jobs[i]? with
    | some j =>
      match j.stage with
      | .failing failure =>
        some ({ s with cancelled := true }.setJob i j (.finishing (.fatal failure)))
      | _ => none
    | none => none
  | .finish i =>
    match s.jobs[i]? with
    | some j =>
      match j.stage with
      | .finishing outcome =>
        some ({ s with tracker := s.tracker.finish outcome }.setJob i j .leaving)
      | _ => none
    | none => none
  | .leave i =>
    match s.jobs[i]? with
    | some j =>
      match j.stage with
      | .leaving =>
        some { s with
          jobs := s.jobs.eraseIdx i
          freePermits := s.freePermits + (if j.permit then 1 else 0) }
      | _ => none
    | none => none
  | .open gate => some { s with opened := gate :: s.opened }

def run? (s : Executor) : List Event → Option Executor
  | [] => some s
  | e :: es => (s.step? e).bind fun s => run? s es

@[simp] theorem run?_nil (s : Executor) : run? s [] = some s := rfl
theorem run?_cons (s : Executor) (e : Event) (es : List Event) :
    run? s (e :: es) = (s.step? e).bind fun s => run? s es := rfl

/-- The states that an executor of this plan can come to. -/
inductive Reachable (plan : Plan) (classifier : Classifier) : Executor → Prop
  | init : Reachable plan classifier (Executor.init plan classifier)
  | step {s t : Executor} {e : Event} (h : Reachable plan classifier s)
      (he : s.step? e = some t) : Reachable plan classifier t

end Executor

end PhaseExecutors
