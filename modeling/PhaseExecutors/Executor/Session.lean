import PhaseExecutors.Executor.Schedule

/-!
Sessions: a client submits tasks, opens gates, and looks at the executor when it has come to rest.

The client gives names to gates. Every use of a name makes a new gate, which is closed.

Recoverable failures come in the order of the schedule; between two successful waits a session
sorts those that are new, so what it shows does not depend on the schedule.
-/

namespace PhaseExecutors

structure Session where
  executor : Executor
  /-- The gates so far by their names, the newest first. -/
  gates : List (String × Nat)
  /-- The gates that are still closed. -/
  closed : List Nat
  /-- The recoverable failures of the last successful wait, as it showed them. -/
  shown : List TaskFailure

namespace Session

def start (plan : Plan) (classifier : Classifier) : Session := ⟨.init plan classifier, [], [], []⟩

/-- The order of failures: by pool, then by the text of the error. -/
def failureLE (a b : TaskFailure) : Bool :=
  if a.pool = b.pool then a.error.toText ≤ b.error.toText else a.pool < b.pool

/-- The failures of a wait after `shown` has been seen: the new ones are sorted. -/
def arrange (shown all : List TaskFailure) : List TaskFailure :=
  shown ++ (all.drop shown.length).mergeSort failureLE

/-- What a client sees of an executor at rest. -/
structure View where
  inFlight : Nat
  cancelled : Bool
  /-- The bodies that ran, as sorted texts of label and pool. -/
  ran : List String
deriving DecidableEq, Repr

def view (s : Session) : View where
  inFlight := s.executor.tracker.inFlight
  cancelled := s.executor.cancelled
  ran := (s.executor.ran.map fun (label, pool) => s!"{label}@{pool}").mergeSort (· ≤ ·)

def rest (s : Session) : Session := { s with executor := s.executor.runToRest }

def submit (s : Session) (works : List Work) : Session :=
  { s with executor := s.executor.submitAll works }

/-- The newest gate of a name. -/
def gate? (s : Session) (name : String) : Option Nat := s.gates.lookup name

/-- Opens the newest gate of a name, if there is one. -/
def «open» (s : Session) (name : String) : Session :=
  match s.gate? name with
  | none => s
  | some gate =>
    { s with
      executor := { s.executor with opened := gate :: s.executor.opened }
      closed := s.closed.filter (· ≠ gate) }

/-- Submits a task whose body waits at a new gate. An older gate of the same name opens, because
nothing else would open it. -/
def submitGated (s : Session) (name : String) (work : Work) : Session :=
  let s := s.open name
  let gate := s.gates.length
  { s.submit [work.gatedBy gate] with
    gates := (name, gate) :: s.gates
    closed := gate :: s.closed }

/-- A body has arrived at the newest gate of a name. -/
def hasReached (s : Session) (name : String) : Bool :=
  (s.gate? name).any fun gate => s.executor.reached.contains gate

/-- Waits until nothing is in flight; `none` if a closed gate would make the wait endless. -/
def await? (s : Session) : Option (Except TaskFailure Summary × Session) :=
  if !s.closed.isEmpty then none
  else
    let s := s.rest
    match s.executor.tracker.outcome with
    | .error failure => some (.error failure, s)
    | .ok summary =>
      let failures := arrange s.shown summary.recoverable
      some (.ok { summary with recoverable := failures }, { s with shown := failures })

end Session

end PhaseExecutors
