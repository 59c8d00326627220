import PhaseExecutors.Value.Decode

/-!
Option groups: the sizes that a command asks for.

A command may leave out each of the four groups. A group carries its own id, and its document
form names the id next to the options.
-/

namespace PhaseExecutors

inductive GroupId
  | loadingPhaseThreads
  | buildRequest
  | package
  | analysis
deriving DecidableEq, Repr

namespace GroupId

/-- All ids, in the order in which a refresh asks for them. -/
def all : List GroupId := [.loadingPhaseThreads, .buildRequest, .package, .analysis]

def name : GroupId → String
  | .loadingPhaseThreads => "loading_phase_threads"
  | .buildRequest => "build_request"
  | .package => "package"
  | .analysis => "analysis"

def byName : List (String × GroupId) := all.map fun id => (id.name, id)

def decode : Decoder GroupId := Decode.name byName

end GroupId

structure LoadingOptions where
  threads : Size
deriving DecidableEq, Repr

structure BuildOptions where
  jobs : Size
deriving DecidableEq, Repr

structure PackageOptions where
  globbingThreads : Size
deriving DecidableEq, Repr

structure AnalysisOptions where
  cpuHeavyPoolSize : Size
  usePrioritization : Bool
deriving DecidableEq, Repr

inductive OptionGroup
  | loadingPhaseThreads (options : LoadingOptions)
  | buildRequest (options : BuildOptions)
  | package (options : PackageOptions)
  | analysis (options : AnalysisOptions)
deriving DecidableEq, Repr

namespace OptionGroup

def id : OptionGroup → GroupId
  | .loadingPhaseThreads _ => .loadingPhaseThreads
  | .buildRequest _ => .buildRequest
  | .package _ => .package
  | .analysis _ => .analysis

end OptionGroup

/-! ### Document forms -/

namespace LoadingOptions

def type : RecordType := ⟨"struct LoadingPhaseThreadsOptions", ["threads"]⟩

def decode (surplus : Surplus) : Decoder LoadingOptions := fun v => do
  let fields ← type.fieldsOf v
  fields.finish surplus ((fields.get "threads" Decode.size).map mk)

def toValue (o : LoadingOptions) : Value := .table [("threads", .unsigned o.threads)]

end LoadingOptions

namespace BuildOptions

def type : RecordType := ⟨"struct BuildRequestOptions", ["jobs"]⟩

def decode (surplus : Surplus) : Decoder BuildOptions := fun v => do
  let fields ← type.fieldsOf v
  fields.finish surplus ((fields.get "jobs" Decode.size).map mk)

def toValue (o : BuildOptions) : Value := .table [("jobs", .unsigned o.jobs)]

end BuildOptions

namespace PackageOptions

def type : RecordType := ⟨"struct PackageOptions", ["globbing_threads"]⟩

def decode (surplus : Surplus) : Decoder PackageOptions := fun v => do
  let fields ← type.fieldsOf v
  fields.finish surplus ((fields.get "globbing_threads" Decode.size).map mk)

def toValue (o : PackageOptions) : Value :=
  .table [("globbing_threads", .unsigned o.globbingThreads)]

end PackageOptions

namespace AnalysisOptions

def type : RecordType := ⟨"struct AnalysisOptions", ["cpu_heavy_pool_size", "use_prioritization"]⟩

def decode (surplus : Surplus) : Decoder AnalysisOptions := fun v => do
  let fields ← type.fieldsOf v
  fields.finish surplus <|
    ((fields.get "cpu_heavy_pool_size" Decode.size).map mk).apply
      (fields.get "use_prioritization" Decode.bool)

def toValue (o : AnalysisOptions) : Value :=
  .table [("cpu_heavy_pool_size", .unsigned o.cpuHeavyPoolSize),
    ("use_prioritization", .bool o.usePrioritization)]

end AnalysisOptions

namespace OptionGroup

def decode : Decoder OptionGroup := fun v => do
  let (id, rest) ← Decode.tagged "OptionGroup" "group" GroupId.byName v
  match id with
  | .loadingPhaseThreads => (LoadingOptions.decode .refusedInside rest).map .loadingPhaseThreads
  | .buildRequest => (BuildOptions.decode .refusedInside rest).map .buildRequest
  | .package => (PackageOptions.decode .refusedInside rest).map .package
  | .analysis => (AnalysisOptions.decode .refusedInside rest).map .analysis

/-- The options and the id in one table, sorted by key. -/
def toValue : OptionGroup → Value
  | .loadingPhaseThreads o =>
    .table [("group", .text "loading_phase_threads"), ("threads", .unsigned o.threads)]
  | .buildRequest o => .table [("group", .text "build_request"), ("jobs", .unsigned o.jobs)]
  | .package o =>
    .table [("globbing_threads", .unsigned o.globbingThreads), ("group", .text "package")]
  | .analysis o =>
    .table [("cpu_heavy_pool_size", .unsigned o.cpuHeavyPoolSize), ("group", .text "analysis"),
      ("use_prioritization", .bool o.usePrioritization)]

end OptionGroup

end PhaseExecutors
