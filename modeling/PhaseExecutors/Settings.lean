import PhaseExecutors.Snapshot
import PhaseExecutors.Provider
import PhaseExecutors.Log

/-!
Settings: the snapshot in force and its version.

A refresh asks a provider for the four groups, resolves a complete snapshot from the answers, and
only then publishes it under the next version. A group of the wrong type counts as absent and is
reported.
-/

namespace PhaseExecutors

structure Settings where
  /-- The number of publications. A word of 64 bits counts the same below `2 ^ 64` of them. -/
  version : Nat
  current : Snapshot
deriving DecidableEq

/-- The options that a refresh has heard of so far. -/
structure Answers where
  loading : Option LoadingOptions := none
  build : Option BuildOptions := none
  package : Option PackageOptions := none
  analysis : Option AnalysisOptions := none
deriving DecidableEq

namespace Answers

def mismatch (actual asked : GroupId) : LogLine :=
  ⟨.warn, s!"Options provider returned group '{actual.name}' for '{asked.name}'; " ++
    "treating it as absent"⟩

/-- Takes note of the answer for one id. -/
def hear (a : Answers) (asked : GroupId) (answer : Option OptionGroup) : Answers × Log :=
  match asked, answer with
  | _, none => (a, [])
  | .loadingPhaseThreads, some (.loadingPhaseThreads o) => ({ a with loading := some o }, [])
  | .buildRequest, some (.buildRequest o) => ({ a with build := some o }, [])
  | .package, some (.package o) => ({ a with package := some o }, [])
  | .analysis, some (.analysis o) => ({ a with analysis := some o }, [])
  | asked, some group => (a, [mismatch group.id asked])

/-- Asks for the ids in order. -/
def gather (p : Provider) (a : Answers) : List GroupId → Answers × Log
  | [] => (a, [])
  | id :: ids =>
    let (a, line) := a.hear id (p id)
    let (a, log) := gather p a ids
    (a, line ++ log)

def resolve (a : Answers) : Snapshot := .resolve a.loading a.build a.package a.analysis

/-- Reports that the cpu-heavy size had to give way to the analysis parallelism. -/
def clampNote (a : Answers) (s : Snapshot) : Log :=
  match a.analysis with
  | none => []
  | some o =>
    if o.cpuHeavyPoolSize = s.cpuHeavyPoolSize then []
    else
      [⟨.info, s!"Prioritized analysis: cpu_heavy_pool_size {o.cpuHeavyPoolSize.toNat} " ++
        s!"reduced to analysis_parallelism {s.cpuHeavyPoolSize.toNat}"⟩]

end Answers

namespace Settings

def initial (s : Snapshot) : Settings := ⟨0, s⟩

/-- Replaces the snapshot and counts the version up. -/
def publish (s : Settings) (next : Snapshot) : Settings := ⟨s.version + 1, next⟩

def refreshNote (s : Settings) : LogLine :=
  ⟨.debug, s!"Refreshed parallelism settings (version {s.version}): {s.current.toText}"⟩

/-- A refresh without interruption: the settings after it, and its log. -/
def refresh (s : Settings) (p : Provider) : Settings × Log :=
  let (answers, warnings) := Answers.gather p {} GroupId.all
  let next := s.publish answers.resolve
  (next, warnings ++ answers.clampNote answers.resolve ++ [next.refreshNote])

end Settings

end PhaseExecutors
