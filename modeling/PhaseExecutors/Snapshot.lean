import PhaseExecutors.Options

/-!
Snapshots: the sizes of all phases, as resolved from the option groups of one command.

A group that is absent leaves its sizes at zero. With prioritization the cpu-heavy work runs
inside the analysis pool, so its size never exceeds the analysis parallelism.
-/

namespace PhaseExecutors

structure Snapshot where
  analysisParallelism : Size
  executionParallelism : Size
  globbingParallelism : Size
  cpuHeavyPoolSize : Size
  usePrioritization : Bool
  heavy_le : usePrioritization = true → cpuHeavyPoolSize ≤ analysisParallelism
deriving DecidableEq

namespace Snapshot

/-- The cpu-heavy size that fits the analysis parallelism. -/
def clampHeavy (analysis heavy : Size) (prioritize : Bool) : Size :=
  if prioritize ∧ analysis < heavy then analysis else heavy

theorem clampHeavy_le {analysis heavy : Size} {prioritize : Bool} (h : prioritize = true) :
    clampHeavy analysis heavy prioritize ≤ analysis := by
  unfold clampHeavy
  split
  · exact UInt64.le_refl _
  · next hn => exact UInt64.not_lt.mp fun hlt => hn ⟨h, hlt⟩

theorem clampHeavy_le_heavy {analysis heavy : Size} {prioritize : Bool} :
    clampHeavy analysis heavy prioritize ≤ heavy := by
  unfold clampHeavy
  split
  · next h => exact UInt64.le_of_lt h.2
  · exact UInt64.le_refl _

theorem clampHeavy_eq_zero_iff {analysis heavy : Size} {prioritize : Bool} (h : 0 < analysis) :
    clampHeavy analysis heavy prioritize = 0 ↔ heavy = 0 := by
  unfold clampHeavy
  split
  · next hlt =>
    have hheavy : 0 < heavy := UInt64.lt_trans h hlt.2
    simp only [UInt64.pos_iff_ne_zero.mp h, UInt64.pos_iff_ne_zero.mp hheavy]
  · rfl

theorem clampHeavy_eq_heavy_iff {analysis heavy : Size} {prioritize : Bool} :
    clampHeavy analysis heavy prioritize = heavy ↔ ¬(prioritize = true ∧ analysis < heavy) := by
  unfold clampHeavy
  split
  · next h => exact iff_of_false (UInt64.ne_of_lt h.2) (not_not_intro h)
  · next h => exact iff_of_true rfl h

theorem clampHeavy_false (analysis heavy : Size) : clampHeavy analysis heavy false = heavy :=
  clampHeavy_eq_heavy_iff.mpr nofun

theorem clampHeavy_true (analysis heavy : Size) :
    clampHeavy analysis heavy true = min heavy analysis := by
  simp only [clampHeavy, true_and]
  change _ = if heavy ≤ analysis then heavy else analysis
  split
  · next h => rw [if_neg (UInt64.not_le.mpr h)]
  · next h => rw [if_pos (UInt64.not_lt.mp h)]

def make (analysis execution globbing heavy : Size) (prioritize : Bool) : Snapshot :=
  ⟨analysis, execution, globbing, clampHeavy analysis heavy prioritize, prioritize, clampHeavy_le⟩

/-- No phase can run. -/
def inert : Snapshot := make 0 0 0 0 false

def forTesting : Snapshot := make 6 6 6 4 true

instance : Inhabited Snapshot := ⟨inert⟩

def resolve (loading : Option LoadingOptions) (build : Option BuildOptions)
    (package : Option PackageOptions) (analysis : Option AnalysisOptions) : Snapshot :=
  make ((loading.map (·.threads)).getD 0) ((build.map (·.jobs)).getD 0)
    ((package.map (·.globbingThreads)).getD 0) ((analysis.map (·.cpuHeavyPoolSize)).getD 0)
    ((analysis.map (·.usePrioritization)).getD false)

end Snapshot

inductive SnapshotField
  | analysisParallelism
  | executionParallelism
  | globbingParallelism
  | cpuHeavyPoolSize
  | usePrioritization
deriving DecidableEq, Repr

namespace SnapshotField

def all : List SnapshotField :=
  [.analysisParallelism, .executionParallelism, .globbingParallelism, .cpuHeavyPoolSize,
    .usePrioritization]

def name : SnapshotField → String
  | .analysisParallelism => "analysis_parallelism"
  | .executionParallelism => "execution_parallelism"
  | .globbingParallelism => "globbing_parallelism"
  | .cpuHeavyPoolSize => "cpu_heavy_pool_size"
  | .usePrioritization => "use_prioritization"

def byName : List (String × SnapshotField) := all.map fun f => (f.name, f)

def decode : Decoder SnapshotField := Decode.name byName

end SnapshotField

namespace Snapshot

/-- A field as a size; a flag counts as one or zero. -/
def field (s : Snapshot) : SnapshotField → Size
  | .analysisParallelism => s.analysisParallelism
  | .executionParallelism => s.executionParallelism
  | .globbingParallelism => s.globbingParallelism
  | .cpuHeavyPoolSize => s.cpuHeavyPoolSize
  | .usePrioritization => if s.usePrioritization then 1 else 0

def toText (s : Snapshot) : String :=
  "ParallelismSnapshot\x7b" ++ s!"analysis_parallelism={s.analysisParallelism.toNat}, " ++
    s!"execution_parallelism={s.executionParallelism.toNat}, " ++
    s!"globbing_parallelism={s.globbingParallelism.toNat}, " ++
    s!"cpu_heavy_pool_size={s.cpuHeavyPoolSize.toNat}, " ++
    s!"use_prioritization={s.usePrioritization}" ++ "\x7d"

def toValue (s : Snapshot) : Value :=
  .table [("analysis_parallelism", .unsigned s.analysisParallelism),
    ("cpu_heavy_pool_size", .unsigned s.cpuHeavyPoolSize),
    ("execution_parallelism", .unsigned s.executionParallelism),
    ("globbing_parallelism", .unsigned s.globbingParallelism),
    ("use_prioritization", .bool s.usePrioritization)]

end Snapshot

end PhaseExecutors
