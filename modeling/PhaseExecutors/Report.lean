import PhaseExecutors.Plan
import PhaseExecutors.Task
import PhaseExecutors.Site
import PhaseExecutors.Value.Json
import PhaseExecutors.Config.Loader

/-!
Reports: what a run prints about settings, about a batch of tasks, and about configuration files.

A report is a list of lines. Color changes how a text stands out and never the text itself. A
number of threads or tasks that is no size has no text, so such a report is `none`.
-/

namespace PhaseExecutors

/-! ### Color -/

/-- What a text stands out as. -/
inductive Accent
  | frame
  | title
  | heading
  | available
  | unavailable
  | success
  | present
  | faint
deriving DecidableEq, Repr

namespace Accent

/-- The attributes of a terminal that make the accent. -/
def codes : Accent → String
  | .frame => "36"
  | .title => "1"
  | .heading => "1;36"
  | .available => "1;33"
  | .unavailable => "1;31"
  | .success => "1;32"
  | .present => "32"
  | .faint => "2"

/-- The text between a switch to the accent and a switch back, or the plain text. -/
def paint (color : Bool) (a : Accent) (text : String) : String :=
  if color then "\x1b[" ++ a.codes ++ "m" ++ text ++ "\x1b[0m" else text

end Accent

namespace Report

/-! ### Lines -/

/-- The text of lines that each end in a line break. -/
def ofLines (lines : List String) : String := String.join (lines.map (· ++ "\n"))

def repeated (n : Nat) (c : Char) : String := String.ofList (List.replicate n c)

/-- The text with blanks behind it, up to a width. -/
def padded (width : Nat) (text : String) : String := text ++ repeated (width - text.length) ' '

/-- The text between blanks; an odd blank stands behind it. -/
def centered (width : Nat) (text : String) : String :=
  let blanks := width - text.length
  repeated (blanks / 2) ' ' ++ text ++ repeated (blanks - blanks / 2) ' '

/-- The width of a report. -/
def width : Nat := 60

def rule (color : Bool) : String := Accent.frame.paint color (repeated width '=')

/-! ### Settings -/

/-- A phase with its plan, or with the reason why it has none. -/
abbrev PhasePlan := Phase × Except UnmetPrecondition Plan

def phasePlans (s : Snapshot) : List PhasePlan := Phase.all.map fun p => (p, Plan.forPhase p s)

def fieldText (s : Snapshot) : SnapshotField → String
  | .usePrioritization => toString s.usePrioritization
  | field => toString (s.field field).toNat

def fieldRow (s : Snapshot) (field : SnapshotField) : String :=
  "  " ++ padded 24 field.name ++ fieldText s field

/-- The width of the names of phases and of labels. -/
def labelWidth : Nat := 10

def item (text : String) : String := "  " ++ padded labelWidth "" ++ " * " ++ text

/-- The pools of a plan, and the bound on its heavy lane. -/
def planItems (plan : Plan) : List String :=
  plan.pools.map (item ∘ PoolSpec.toText) ++
    match plan with
    | .tieredPriority _ capacity => [item s!"cpu-heavy lane capped at {capacity.toNat}"]
    | .single _ | .multiPool .. => []

def phaseLines (color : Bool) : PhasePlan → Option (List String)
  | (phase, .ok plan) => do
    let threads ← plan.totalThreads?
    let label := Accent.available.paint color (padded labelWidth phase.name)
    return s!"  {label} {plan.strategy} ({threads.toNat} threads)" :: planItems plan
  | (phase, .error e) =>
    let label := Accent.unavailable.paint color (padded labelWidth phase.name)
    let reason := Accent.faint.paint color s!"unavailable: expected {e.field.name} > 0"
    some [s!"  {label} {reason}"]

def settingsHead (color : Bool) (s : Snapshot) (version : Nat) : List String :=
  let version := Accent.heading.paint color "Version:" ++ s!" {version}"
  let title := Accent.title.paint color (centered width "Parallelism Settings")
  [rule color, title, rule color, version, ""] ++ SnapshotField.all.map (fieldRow s) ++
    ["", Accent.heading.paint color "Executors", repeated 40 '-']

/-- The snapshot in force and the plans of phases. -/
def settings (color : Bool) (s : Snapshot) (version : Nat) (plans : List PhasePlan) :
    Option String := do
  let phases ← plans.mapM (phaseLines color)
  return ofLines (settingsHead color s version ++ phases.flatten ++ ["", rule color])

def phaseValue : PhasePlan → Option Value
  | (_, .ok plan) => do
    let threads ← plan.totalThreads?
    return .table [("plan", plan.toValue), ("total_threads", .unsigned threads)]
  | (_, .error e) => some (.table [("error", .text e.message)])

/-- The same as a document. Of several entries for one phase the last counts. -/
def settingsValue (s : Snapshot) (version : Nat) (plans : List PhasePlan) : Option Value := do
  let executors ← plans.mapM fun p => do return (p.1.name, ← phaseValue p)
  return .table [("executors", .ofEntries executors), ("snapshot", s.toValue),
    ("version", .unsigned (Size.clamp version))]

def settingsDocument (s : Snapshot) (version : Nat) (plans : List PhasePlan) : Option String :=
  (settingsValue s version plans).map (Json.pretty 0)

/-! ### Batches -/

def outcomeLines (color : Bool) : Except TaskFailure Summary → Option (List String)
  | .ok summary => do
    let ran ← Size.ofNat? summary.ran
    let counts := s!"({summary.completed} completed, " ++
      s!"{summary.recoverable.length} recoverable failures), {summary.skipped} skipped"
    let label := Accent.success.paint color "Quiescent:"
    return s!"{label} {ran.toNat} tasks ran {counts}" ::
      summary.recoverable.map fun failure => s!"  * {failure.toText}"
  | .error failure =>
    let label := Accent.unavailable.paint color "Failed:"
    some [s!"{label} {failure.toText}"]

/-- The executor of a batch and how the batch ended. -/
def batch (color : Bool) (plan : Plan) (outcome : Except TaskFailure Summary) :
    Option String := do
  let lines ← outcomeLines color outcome
  let label := Accent.heading.paint color "Executor:"
  return ofLines (s!"{label} {plan.toText}" :: lines)

/-! ### Configuration files -/

def sourceLine (color : Bool) (s : Site.Source) : String :=
  let state :=
    if s.found then Accent.present.paint color "found" else Accent.faint.paint color "not found"
  "  " ++ padded labelWidth (s.label ++ ":") ++ s!"{s.path} ({state})"

/-- The places where configuration files are looked for. -/
def sources (color : Bool) (places : List Site.Source) : String :=
  ofLines <| Accent.title.paint color "Configuration files (priority order):" ::
    places.map (sourceLine color)

end Report

end PhaseExecutors
