import PhaseExecutors.Config.Basic
import PhaseExecutors.Plan

/-!
Validation of a configuration for a host.

A count written as zero would disable its phase without a word, so it is refused, except for the
cpu-heavy size. No count may resolve to more threads than a pool can have.
-/

namespace PhaseExecutors

inductive ValidationError
  | zero (key : String)
  | tooLarge (key : String) (value : Size)
deriving DecidableEq, Repr

namespace ValidationError

def message : ValidationError → String
  | .zero key => s!"{key} cannot be 0"
  | .tooLarge key value =>
    s!"{key} resolves to {value.toNat} threads; at most {maxPoolParallelism.toNat} are allowed"

end ValidationError

namespace Config

/-- The counts of the sections that are present and that must not be zero. -/
def neededCounts (c : Config) : List (String × ThreadCount) :=
  (c.loading.map fun s => ("loading.threads", s.threads)).toList ++
    (c.build.map fun s => ("build.jobs", s.jobs)).toList ++
    (c.package.map fun s => ("package.globbing_threads", s.globbingThreads)).toList

/-- All counts of the sections that are present. -/
def counts (c : Config) : List (String × ThreadCount) :=
  c.neededCounts ++
    (c.analysis.map fun s => ("analysis.cpu_heavy_pool_size", s.cpuHeavyPoolSize)).toList

/-- The first zero counts before the first count that is too large. -/
def validate (c : Config) (host : Size) : Except ValidationError Unit :=
  match c.neededCounts.find? fun e => e.2.isZero with
  | some (key, _) => .error (.zero key)
  | none =>
    match c.counts.find? fun e => maxPoolParallelism < e.2.resolve host with
    | some (key, count) => .error (.tooLarge key (count.resolve host))
    | none => .ok ()

end Config

end PhaseExecutors
