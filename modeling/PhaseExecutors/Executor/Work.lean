import PhaseExecutors.Task

/-!
Work: trees of tasks.

A body may wait at a gate, then submits its children in order, and then ends. Gates are known by
number.
-/

namespace PhaseExecutors

/-- How a body ends. A panic may carry no readable message. -/
inductive Ending
  | ok
  | error (e : TaskError)
  | panicked (message : Option String)
deriving DecidableEq, Repr

namespace Ending

/-- The error of the task, if it has one. -/
def error? : Ending → Option TaskError
  | .ok => none
  | .error e => some e
  | .panicked message => some ⟨.panic, message.getD "task panicked"⟩

theorem error?_eq_none_iff {ending : Ending} : ending.error? = none ↔ ending = .ok := by
  cases ending <;> simp [error?]

end Ending

inductive Work
  | task (label : String) (kind : TaskKind) (gate : Option Nat) (ending : Ending)
      (children : List Work)

namespace Work

def label : Work → String
  | .task label .. => label

def kind : Work → TaskKind
  | .task _ kind .. => kind

def gate : Work → Option Nat
  | .task _ _ gate .. => gate

def ending : Work → Ending
  | .task _ _ _ ending _ => ending

def children : Work → List Work
  | .task _ _ _ _ children => children

/-- The task with its body waiting at a gate first. -/
def gatedBy (gate : Nat) : Work → Work
  | .task label kind _ ending children => .task label kind (some gate) ending children

mutual

/-- The number of tasks of a tree. -/
def size : Work → Nat
  | .task _ _ _ _ children => sizeAll children + 1

def sizeAll : List Work → Nat
  | [] => 0
  | w :: ws => w.size + sizeAll ws

end

mutual

/-- All tasks of a tree, the root first. -/
def tasks : Work → List Work
  | w@(.task _ _ _ _ children) => w :: tasksAll children

/-- All tasks of a forest. -/
def tasksAll : List Work → List Work
  | [] => []
  | w :: ws => w.tasks ++ tasksAll ws

end

end Work

end PhaseExecutors
