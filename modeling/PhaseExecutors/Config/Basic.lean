import PhaseExecutors.Config.ThreadCount
import PhaseExecutors.Value.Decode
import PhaseExecutors.Provider

/-!
The configuration: four sections, each of which may be absent.

An absent section is an absent option group. Within a section that is present, a key that is left
out has its default.
-/

namespace PhaseExecutors

structure LoadingSection where
  threads : ThreadCount := .auto
deriving DecidableEq

structure BuildSection where
  jobs : ThreadCount := .auto
deriving DecidableEq

structure PackageSection where
  globbingThreads : ThreadCount := .fixed 100
deriving DecidableEq

structure AnalysisSection where
  cpuHeavyPoolSize : ThreadCount := .fixed 0
  usePrioritization : Bool := false
deriving DecidableEq

structure Config where
  loading : Option LoadingSection := none
  build : Option BuildSection := none
  package : Option PackageSection := none
  analysis : Option AnalysisSection := none
deriving DecidableEq

/-! ### Reading -/

/-- A count is a number or a text. -/
def ThreadCount.decode : Decoder ThreadCount
  | .unsigned n => .ok (.fixed n)
  | .signed n =>
    if n.toInt < 0 then .error ⟨.noShape "Raw", []⟩ else .ok (.fixed (UInt64.ofNat n.toInt.toNat))
  | .text s =>
    match ThreadCount.read s with
    | .ok count => .ok count
    | .error e => .error ⟨.refused e.message, []⟩
  | _ => .error ⟨.noShape "Raw", []⟩

namespace LoadingSection

def type : RecordType := ⟨"struct FileLoadingConfig", ["threads"]⟩

def decode (surplus : Surplus) : Decoder LoadingSection := fun v => do
  let fields ← type.fieldsOf v
  let default : LoadingSection := {}
  fields.finish surplus ((fields.getD "threads" ThreadCount.decode default.threads).map mk)

end LoadingSection

namespace BuildSection

def type : RecordType := ⟨"struct FileBuildConfig", ["jobs"]⟩

def decode (surplus : Surplus) : Decoder BuildSection := fun v => do
  let fields ← type.fieldsOf v
  let default : BuildSection := {}
  fields.finish surplus ((fields.getD "jobs" ThreadCount.decode default.jobs).map mk)

end BuildSection

namespace PackageSection

def type : RecordType := ⟨"struct FilePackageConfig", ["globbing_threads"]⟩

def decode (surplus : Surplus) : Decoder PackageSection := fun v => do
  let fields ← type.fieldsOf v
  let default : PackageSection := {}
  fields.finish surplus <|
    (fields.getD "globbing_threads" ThreadCount.decode default.globbingThreads).map mk

end PackageSection

namespace AnalysisSection

def type : RecordType :=
  ⟨"struct FileAnalysisConfig", ["cpu_heavy_pool_size", "use_prioritization"]⟩

def decode (surplus : Surplus) : Decoder AnalysisSection := fun v => do
  let fields ← type.fieldsOf v
  let default : AnalysisSection := {}
  fields.finish surplus <|
    ((fields.getD "cpu_heavy_pool_size" ThreadCount.decode default.cpuHeavyPoolSize).map mk).apply
      (fields.getD "use_prioritization" Decode.bool default.usePrioritization)

end AnalysisSection

namespace Config

def type : RecordType := ⟨"struct FileConfig", ["loading", "build", "package", "analysis"]⟩

def decode (surplus : Surplus) : Decoder Config := fun v => do
  let fields ← type.fieldsOf v
  let loading := fields.getD "loading" (Decode.optional (LoadingSection.decode surplus)) none
  let build := fields.getD "build" (Decode.optional (BuildSection.decode surplus)) none
  let package := fields.getD "package" (Decode.optional (PackageSection.decode surplus)) none
  let analysis := fields.getD "analysis" (Decode.optional (AnalysisSection.decode surplus)) none
  fields.finish surplus ((((loading.map mk).apply build).apply package).apply analysis)

end Config

/-! ### Writing -/

/-- A fixed count is a number, any other a text. -/
def ThreadCount.toValue : ThreadCount → Value
  | .fixed n => .unsigned n
  | count => .text count.toText

namespace Config

/-- An entry that is left out if its section is absent. -/
def entry {α : Type} (key : String) (value : α → Value) : Option α → List (String × Value)
  | none => []
  | some a => [(key, value a)]

def toValue (c : Config) : Value :=
  .table <|
    entry "loading" (fun (s : LoadingSection) => .table [("threads", s.threads.toValue)])
      c.loading ++
    entry "build" (fun (s : BuildSection) => .table [("jobs", s.jobs.toValue)]) c.build ++
    entry "package" (fun (s : PackageSection) =>
      .table [("globbing_threads", s.globbingThreads.toValue)]) c.package ++
    entry "analysis" (fun (s : AnalysisSection) =>
      .table [("cpu_heavy_pool_size", s.cpuHeavyPoolSize.toValue),
        ("use_prioritization", .bool s.usePrioritization)]) c.analysis

/-! ### Options -/

/-- The option groups of a configuration on a host with that many CPUs. -/
def options (c : Config) (host : Size) : Provider
  | .loadingPhaseThreads =>
    c.loading.map fun s => .loadingPhaseThreads ⟨s.threads.resolve host⟩
  | .buildRequest => c.build.map fun s => .buildRequest ⟨s.jobs.resolve host⟩
  | .package => c.package.map fun s => .package ⟨s.globbingThreads.resolve host⟩
  | .analysis =>
    c.analysis.map fun s => .analysis ⟨s.cpuHeavyPoolSize.resolve host, s.usePrioritization⟩

end Config

end PhaseExecutors
