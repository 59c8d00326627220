import PhaseExecutors.Plan
import PhaseExecutors.Executor.Work

/-!
Synthetic workloads.

A workload has roots, of which every so many is cpu-heavy; each root submits the same number of
children and ends well, but one root may be told to fail at once instead.
-/

namespace PhaseExecutors

structure Workload where
  tasks : Size
  /-- Every so many roots are cpu-heavy; zero means none is. -/
  heavyEvery : Size := 0
  /-- The children of each root. -/
  fanOut : Size := 0
  /-- The root that fails. -/
  failAt : Option Size := none
  childKind : TaskKind
deriving DecidableEq, Repr

namespace Workload

/-- Children run as execution work in the merged phase only. -/
def childKindOf : Phase → TaskKind
  | .merged => .execution
  | .analysis | .execution => .default

def ofPhase (phase : Phase) (tasks : Size) : Workload where
  tasks := tasks
  childKind := childKindOf phase

/-- The tasks of the whole workload, or the largest size if they are more. -/
def expectedTasks (w : Workload) : Size := w.tasks.satMul (w.fanOut.satAdd 1)

def kindOf (w : Workload) (index : Nat) : TaskKind :=
  if 0 < w.heavyEvery.toNat ∧ (index + 1) % w.heavyEvery.toNat = 0 then .cpuHeavy else .default

def failure (index : Nat) : TaskError := ⟨.internal, s!"synthetic failure in task {index}"⟩

def root (w : Workload) (index : Nat) : Work :=
  if w.failAt.map UInt64.toNat = some index then
    .task s!"root {index}" (w.kindOf index) none (.error (failure index)) []
  else
    .task s!"root {index}" (w.kindOf index) none .ok <|
      List.replicate w.fanOut.toNat (.task s!"child of {index}" w.childKind none .ok [])

def roots (w : Workload) : List Work := (List.range w.tasks.toNat).map w.root

/-- The kind of a task and how it ended. -/
def ranLine (work : Work) : String :=
  match work.ending.error? with
  | none => s!"{work.kind.name}: ok"
  | some e => s!"{work.kind.name}: {e.toText}"

/-- The tasks in the order of a queue that runs everything: all roots, then their children. -/
def queueOrder (w : Workload) : List Work := w.roots ++ w.roots.flatMap Work.children

end Workload

end PhaseExecutors
