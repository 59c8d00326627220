import PhaseExecutors.Value.Decode

/-!
Tasks, their errors, and the summary of a batch.
-/

namespace PhaseExecutors

inductive TaskKind
  | default
  | cpuHeavy
  | execution
deriving DecidableEq, Repr

namespace TaskKind

def all : List TaskKind := [.default, .cpuHeavy, .execution]

def name : TaskKind → String
  | .default => "default"
  | .cpuHeavy => "cpu_heavy"
  | .execution => "execution"

def byName : List (String × TaskKind) := all.map fun k => (k.name, k)

def decode : Decoder TaskKind := Decode.name byName

end TaskKind

/-! ### Errors of tasks -/

inductive TaskErrorKind
  | evaluation
  | interrupted
  | panic
  | internal
deriving DecidableEq, Repr

namespace TaskErrorKind

def all : List TaskErrorKind := [.evaluation, .interrupted, .panic, .internal]

/-- The name in documents. -/
def name : TaskErrorKind → String
  | .evaluation => "evaluation"
  | .interrupted => "interrupted"
  | .panic => "panic"
  | .internal => "internal"

/-- The phrase in messages. -/
def toText : TaskErrorKind → String
  | .evaluation => "evaluation error"
  | .interrupted => "interrupted"
  | .panic => "panic"
  | .internal => "internal error"

def byName : List (String × TaskErrorKind) := all.map fun k => (k.name, k)

def decode : Decoder TaskErrorKind := Decode.name byName

end TaskErrorKind

structure TaskError where
  kind : TaskErrorKind
  message : String
deriving DecidableEq, Repr

namespace TaskError

def interrupted : TaskError := ⟨.interrupted, "evaluation interrupted"⟩

def toText (e : TaskError) : String := s!"{e.kind.toText}: {e.message}"

def type : RecordType := ⟨"struct TaskError", ["kind", "message"]⟩

def decode : Decoder TaskError := fun v => do
  let fields ← type.fieldsOf v
  fields.finish .refused <|
    ((fields.get "kind" TaskErrorKind.decode).map mk).apply (fields.get "message" Decode.text)

def toValue (e : TaskError) : Value :=
  .table [("kind", .text e.kind.name), ("message", .text e.message)]

end TaskError

/-! ### Classification -/

inductive Severity
  | recoverable
  | fatal
deriving DecidableEq, Repr

namespace Severity

def isFatal : Severity → Bool
  | .recoverable => false
  | .fatal => true

def name : Severity → String
  | .recoverable => "recoverable"
  | .fatal => "fatal"

def byName : List (String × Severity) := [.recoverable, .fatal].map fun s => (s.name, s)

def decode : Decoder Severity := Decode.name byName

end Severity

/-- Decides which errors stop an executor. -/
abbrev Classifier := TaskError → Severity

namespace Classifier

/-- A failed or interrupted evaluation concerns its own task only; a panic or an internal error
stops all work. -/
def evaluator : Classifier := fun e =>
  match e.kind with
  | .evaluation | .interrupted => .recoverable
  | .panic | .internal => .fatal

def allFatal : Classifier := fun _ => .fatal

def allRecoverable : Classifier := fun _ => .recoverable

end Classifier

/-! ### Failures and summaries -/

/-- An error, and the pool in which its task ran. -/
structure TaskFailure where
  pool : String
  error : TaskError
deriving DecidableEq, Repr

namespace TaskFailure

def toText (f : TaskFailure) : String := s!"task failed in pool '{f.pool}': {f.error.toText}"

def type : RecordType := ⟨"struct TaskFailure", ["pool", "error"]⟩

def decode : Decoder TaskFailure := fun v => do
  let fields ← type.fieldsOf v
  fields.finish .refused <|
    ((fields.get "pool" Decode.text).map mk).apply (fields.get "error" TaskError.decode)

def toValue (f : TaskFailure) : Value :=
  .table [("error", f.error.toValue), ("pool", .text f.pool)]

end TaskFailure

/-- What became of the tasks of a batch that no fatal failure stopped. -/
structure Summary where
  completed : Nat
  recoverable : List TaskFailure
  skipped : Nat
deriving DecidableEq, Repr

namespace Summary

def empty : Summary := ⟨0, [], 0⟩

/-- The tasks that ran to their end. -/
def ran (s : Summary) : Nat := s.completed + s.recoverable.length

def type : RecordType :=
  ⟨"struct QuiescenceSummary", ["completed", "recoverable_failures", "skipped"]⟩

def decode : Decoder Summary := fun v => do
  let fields ← type.fieldsOf v
  let count := fun v => (Decode.size v).map UInt64.toNat
  fields.finish .refused <|
    (((fields.get "completed" count).map mk).apply
      (fields.get "recoverable_failures" (Decode.list TaskFailure.decode))).apply
      (fields.get "skipped" count)

def toValue (s : Summary) : Value :=
  .table [("completed", .unsigned (Size.clamp s.completed)),
    ("recoverable_failures", .array (s.recoverable.map TaskFailure.toValue)),
    ("skipped", .unsigned (Size.clamp s.skipped))]

end Summary

end PhaseExecutors
