import PhaseExecutors.Snapshot

/-!
Executor plans: which pools a phase gets.

The plan of a phase is a function of the snapshot. It is refused when a size that the phase needs
is zero; the error names the first such size.
-/

namespace PhaseExecutors

inductive Phase
  | analysis
  | execution
  | merged
deriving DecidableEq, Repr

namespace Phase

def all : List Phase := [.analysis, .execution, .merged]

def name : Phase → String
  | .analysis => "analysis"
  | .execution => "execution"
  | .merged => "merged"

def byName : List (String × Phase) := all.map fun p => (p.name, p)

def decode : Decoder Phase := Decode.name byName

end Phase

/-! ### Preconditions -/

/-- A size that a phase needs is zero. -/
structure UnmetPrecondition where
  phase : Phase
  field : SnapshotField
  snapshot : Snapshot
deriving DecidableEq

def UnmetPrecondition.message (e : UnmetPrecondition) : String :=
  s!"expected {e.field.name} > 0 : {e.snapshot.toText}"

/-- A field of the snapshot, if it is not zero. -/
def Snapshot.require (s : Snapshot) (phase : Phase) (field : SnapshotField) :
    Except UnmetPrecondition Size :=
  if s.field field = 0 then .error ⟨phase, field, s⟩ else .ok (s.field field)

/-! ### Pools -/

structure PoolSpec where
  name : String
  parallelism : Size
deriving DecidableEq, Repr

namespace PoolSpec

def toText (p : PoolSpec) : String := s!"{p.name}({p.parallelism.toNat})"

def type : RecordType := ⟨"struct PoolSpec", ["name", "parallelism"]⟩

def decode (surplus : Surplus) : Decoder PoolSpec := fun v => do
  let fields ← type.fieldsOf v
  fields.finish surplus <|
    ((fields.get "name" Decode.text).map mk).apply (fields.get "parallelism" Decode.size)

def toValue (p : PoolSpec) : Value :=
  .table [("name", .text p.name), ("parallelism", .unsigned p.parallelism)]

end PoolSpec

/-- The largest number of threads of one pool. -/
def maxPoolParallelism : Size := 4096

def generalPool : String := "graph-evaluator"

def cpuHeavyPool : String := "graph-evaluator-cpu-heavy"

def executionPool : String := "graph-evaluator-execution"

/-! ### Plans -/

inductive Plan
  /-- One pool for all work. -/
  | single (pool : PoolSpec)
  /-- One pool, in which at most so many cpu-heavy tasks run at a time. -/
  | tieredPriority (pool : PoolSpec) (cpuHeavyCapacity : Size)
  /-- A pool for each kind of work. -/
  | multiPool (general cpuHeavy : PoolSpec) (execution : Option PoolSpec)
deriving DecidableEq, Repr

namespace Plan

def forAnalysis (s : Snapshot) : Except UnmetPrecondition Plan := do
  let n ← s.require .analysis .analysisParallelism
  let heavy := s.cpuHeavyPoolSize
  if 0 < heavy then
    if s.usePrioritization then return .tieredPriority ⟨generalPool, n⟩ heavy
    else return .multiPool ⟨generalPool, n⟩ ⟨cpuHeavyPool, heavy⟩ none
  else return .single ⟨generalPool, n⟩

def forExecution (s : Snapshot) : Except UnmetPrecondition Plan := do
  let n ← s.require .execution .executionParallelism
  return .single ⟨generalPool, n⟩

def forMerged (s : Snapshot) : Except UnmetPrecondition Plan := do
  let analysis ← s.require .merged .analysisParallelism
  let execution ← s.require .merged .executionParallelism
  let heavy ← s.require .merged .cpuHeavyPoolSize
  return .multiPool ⟨generalPool, analysis⟩ ⟨cpuHeavyPool, heavy⟩ (some ⟨executionPool, execution⟩)

def forPhase : Phase → Snapshot → Except UnmetPrecondition Plan
  | .analysis => forAnalysis
  | .execution => forExecution
  | .merged => forMerged

def strategy : Plan → String
  | .single _ => "single"
  | .tieredPriority .. => "tiered_priority"
  | .multiPool .. => "multi_pool"

/-- A plan goes by the name of its first pool. -/
def name : Plan → String
  | .single pool => pool.name
  | .tieredPriority pool _ => pool.name
  | .multiPool general _ _ => general.name

def pools : Plan → List PoolSpec
  | .single pool => [pool]
  | .tieredPriority pool _ => [pool]
  | .multiPool general heavy execution => general :: heavy :: execution.toList

/-- The threads of all pools. -/
def threads (plan : Plan) : Nat := plan.pools.foldr (fun p n => p.parallelism.toNat + n) 0

/-- The threads of all pools; `none` if their number is no size. -/
def totalThreads? (plan : Plan) : Option Size := Size.ofNat? plan.threads

def toText : Plan → String
  | .single pool => s!"single {pool.toText}"
  | .tieredPriority pool capacity => s!"tiered_priority {pool.toText} heavy_lane={capacity.toNat}"
  | plan@(.multiPool ..) =>
    "multi_pool [" ++ String.intercalate ", " (plan.pools.map PoolSpec.toText) ++ "]"

/-! ### Document form -/

inductive Strategy
  | single
  | tieredPriority
  | multiPool
deriving DecidableEq

def strategies : List (String × Strategy) :=
  [("single", .single), ("tiered_priority", .tieredPriority), ("multi_pool", .multiPool)]

def singleType : RecordType := ⟨"struct variant ExecutorPlan::Single", ["pool"]⟩

def tieredType : RecordType :=
  ⟨"struct variant ExecutorPlan::TieredPriority", ["pool", "cpu_heavy_capacity"]⟩

def multiType : RecordType :=
  ⟨"struct variant ExecutorPlan::MultiPool", ["general", "cpu_heavy", "execution"]⟩

def decode : Decoder Plan := fun v => do
  let (strategy, rest) ← Decode.tagged "ExecutorPlan" "strategy" strategies v
  let pool := PoolSpec.decode .refusedInside
  match strategy with
  | .single =>
    let fields ← singleType.fieldsOf rest
    fields.finish .refusedInside ((fields.get "pool" pool).map .single)
  | .tieredPriority =>
    let fields ← tieredType.fieldsOf rest
    fields.finish .refusedInside <|
      ((fields.get "pool" pool).map .tieredPriority).apply
        (fields.get "cpu_heavy_capacity" Decode.size)
  | .multiPool =>
    let fields ← multiType.fieldsOf rest
    let execution := match fields.length? with
      | none => fields.getD "execution" (Decode.optional pool) none
      | some _ => fields.get "execution" (Decode.optional pool)
    fields.finish .refusedInside <|
      (((fields.get "general" pool).map .multiPool).apply (fields.get "cpu_heavy" pool)).apply
        execution

def toValue : Plan → Value
  | .single pool => .table [("pool", pool.toValue), ("strategy", .text "single")]
  | .tieredPriority pool capacity =>
    .table [("cpu_heavy_capacity", .unsigned capacity), ("pool", pool.toValue),
      ("strategy", .text "tiered_priority")]
  | .multiPool general heavy execution =>
    .table [("cpu_heavy", heavy.toValue),
      ("execution", (execution.map PoolSpec.toValue).getD .null), ("general", general.toValue),
      ("strategy", .text "multi_pool")]

end Plan

end PhaseExecutors
