import PhaseExecutors.Config.Basic
import PhaseExecutors.Toml.Writer

/-!
Overrides: settings that a command line puts above all other sources.

They take effect as a document of their own, which has no form for a number beyond 63 bits.
-/

namespace PhaseExecutors

structure Overrides where
  loadingPhaseThreads : Option ThreadCount := none
  jobs : Option ThreadCount := none
  globbingThreads : Option ThreadCount := none
  cpuHeavyPoolSize : Option ThreadCount := none
  usePrioritization : Option Bool := none
deriving DecidableEq

/-- An override that cannot be written. -/
structure OverrideTooLarge where
  key : String
  value : Size
deriving DecidableEq, Repr

def OverrideTooLarge.message (e : OverrideTooLarge) : String :=
  s!"override {e.key} = {e.value.toNat} is too large"

namespace Overrides

def isEmpty (o : Overrides) : Bool := o == {}

/-- A count as a value of the document. -/
def countValue (key : String) : ThreadCount → Except OverrideTooLarge Value
  | .fixed n =>
    if n.toNat < Size.signedBound then .ok (.signed (Int64.ofInt n.toNat)) else .error ⟨key, n⟩
  | count => .ok (.text count.toText)

/-- The entry of a count in its section, if it is overridden. -/
def countEntry (sectionName key : String) :
    Option ThreadCount → Except OverrideTooLarge (List (String × Value))
  | none => .ok []
  | some count => do return [(key, ← countValue (sectionName ++ "." ++ key) count)]

/-- A section is there if one of its keys is. -/
def sectionEntry (sectionName : String) : List (String × Value) → List (String × Value)
  | [] => []
  | entries => [(sectionName, .table entries)]

/-- The overrides as a document, sorted by key. -/
def document (o : Overrides) : Except OverrideTooLarge Value := do
  let loading ← countEntry "loading" "threads" o.loadingPhaseThreads
  let build ← countEntry "build" "jobs" o.jobs
  let package ← countEntry "package" "globbing_threads" o.globbingThreads
  let size ← countEntry "analysis" "cpu_heavy_pool_size" o.cpuHeavyPoolSize
  let prioritize := match o.usePrioritization with
    | none => []
    | some b => [("use_prioritization", Value.bool b)]
  return .table <|
    sectionEntry "analysis" (size ++ prioritize) ++ sectionEntry "build" build ++
      sectionEntry "loading" loading ++ sectionEntry "package" package

/-- The text of the document. -/
def toToml (o : Overrides) : Except OverrideTooLarge String := do
  return (Toml.write (← o.document)).toOption.getD ""

end Overrides

end PhaseExecutors
