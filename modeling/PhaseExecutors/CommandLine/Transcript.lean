import PhaseExecutors.CommandLine.Invocation
import PhaseExecutors.Config.Validation
import PhaseExecutors.Executor.Schedule
import PhaseExecutors.Report

/-!
Transcripts: what the program does with an invocation.

A run loads and validates the configuration, puts its options in force, and then shows the
settings or runs a workload. It ends with a failure as soon as one of these steps has one. What it
writes to its output is text and log lines, in the order in which they arise.
-/

namespace PhaseExecutors

/-- Color is forced, or the output is a terminal and nothing forbids color. -/
def Site.wantsColor (s : Site) (terminal : Bool) : Bool :=
  let isOn (name : String) : Option Bool := (s.valueOf? name).map (· ≠ "0")
  if isOn "CLICOLOR_FORCE" = some true then true
  else if (isOn "NO_COLOR").isSome then false
  else terminal && (isOn "CLICOLOR").getD true

/-- Messages about the command line have color if nothing forbids it and it is forced, or a
terminal that knows color shows them. A variable counts as given if it is not empty. -/
def Site.wantsMessageColor (s : Site) (terminal : Bool) : Bool :=
  let isGiven (name : String) : Bool := (s.valueOf? name).getD "" ≠ ""
  let isOn : Option Bool := (s.valueOf? "CLICOLOR").map (· ≠ "0")
  let knowsColor : Bool := isGiven "TERM" && s.valueOf? "TERM" ≠ some "dumb"
  if isGiven "NO_COLOR" then false
  else if isGiven "CLICOLOR_FORCE" then true
  else if isOn = some false then false
  else terminal && (knowsColor || isOn.isSome || (s.valueOf? "CI").isSome)

namespace CommandLine

/-- Why a run fails. -/
inductive Failure
  | badCount (p : Parameter) (e : ThreadCount.ReadError)
  | load (e : LoadError)
  | invalid (e : ValidationError)
  | noExecutor (phase : Phase) (e : ExecutorError)
  | stopped (phase : Phase)
  /-- A number that should be reported is no size. -/
  | unreportable

namespace Failure

/-- A failure that stops the program on the spot. -/
def isDefect : Failure → Bool
  | .noExecutor _ e => e.isDefect
  | .unreportable => true
  | _ => false

def message : Failure → String
  | .badCount p _ => s!"invalid value for --{p.word}"
  | .load e => s!"failed to load configuration: {e.message}"
  | .invalid _ => "invalid configuration"
  | .noExecutor phase e =>
    if e.isDefect then e.message else s!"cannot run the {phase.name} phase"
  | .stopped phase => s!"the {phase.name} phase stopped after a fatal task failure"
  | .unreportable => ExecutorError.threadsOverflow.message

def cause? : Failure → Option String
  | .badCount _ e => some e.message
  | .invalid e => some e.message
  | .noExecutor _ e => if e.isDefect then none else some e.message
  | .load _ | .stopped _ | .unreportable => none

/-- The lines of a text, each moved to the right. -/
def indented (text : String) : String :=
  String.intercalate "\n" ((Text.splitText '\n' text).map ("    " ++ ·))

def toText (f : Failure) : String :=
  "Error: " ++ f.message ++
    match f.cause? with
    | none => "\n"
    | some cause => "\n\nCaused by:\n" ++ indented cause ++ "\n"

def code (f : Failure) : Nat := if f.isDefect then 101 else 1

end Failure

/-! ### Output -/

inductive Piece
  | text (s : String)
  | note (l : LogLine)
deriving DecidableEq, Repr

/-- What a run writes, and the failure that it ends with. -/
structure Transcript where
  output : List Piece
  failure : Option Failure

namespace Transcript

def code (t : Transcript) : Nat := (t.failure.map Failure.code).getD 0

/-- The text that is written, without the log. -/
def text (t : Transcript) : String :=
  String.join <| t.output.filterMap fun
    | .text s => some s
    | .note _ => none

def log (t : Transcript) : Log :=
  t.output.filterMap fun
    | .text _ => none
    | .note l => some l

/-- The transcript with output ahead of its own. -/
def after (t : Transcript) (ahead : List Piece) : Transcript :=
  { t with output := ahead ++ t.output }

/-- Only the lines of the log that this level shows. -/
def keepLevel (kept : Level) (t : Transcript) : Transcript :=
  { t with output := t.output.filter fun
    | .text _ => true
    | .note l => kept.shows l.level }

end Transcript

/-! ### Runs -/

namespace Invocation

def level (i : Invocation) : Level :=
  match i.verbosity with
  | 0 => .warn
  | 1 => .info
  | 2 => .debug
  | _ => .trace

/-- Reads the count of a parameter, if it is given. -/
def count (p : Parameter) : Option String → Except Failure (Option ThreadCount)
  | none => .ok none
  | some text => ((ThreadCount.read text).map some).mapError (.badCount p)

def overrides (i : Invocation) : Except Failure Overrides := do
  let loadingPhaseThreads ← count .loadingPhaseThreads i.loadingPhaseThreads
  let jobs ← count .jobs i.jobs
  let globbingThreads ← count .globbingThreads i.globbingThreads
  let cpuHeavyPoolSize ← count .cpuHeavyPoolSize i.cpuHeavyPoolSize
  return ⟨loadingPhaseThreads, jobs, globbingThreads, cpuHeavyPoolSize, i.prioritize⟩

/-- The configuration of a run, valid for the host. -/
def configuration (i : Invocation) (site : Site) (host : Size) : Except Failure Config := do
  let overrides ← i.overrides
  let loaded :=
    if i.noConfig then Config.loadOverrides overrides else Config.load site i.config overrides
  let config ← loaded.mapError .load
  (config.validate host).mapError .invalid
  return config

end Invocation

/-- The settings after their first refresh, in the form asked for. -/
def showSettings (color : Bool) (format : Format) (f : Factory) : Transcript :=
  let plans := Report.phasePlans f.snapshot
  let report? := match format with
    | .text => Report.settings color f.snapshot f.settings.version plans
    | .json => Report.settingsDocument f.snapshot f.settings.version plans
  match report? with
  | some report => ⟨[.text (report ++ "\n")], none⟩
  | none => ⟨[], some .unreportable⟩

def submitNote (plan : Plan) (w : Workload) : LogLine :=
  ⟨.info, s!"Submitting {w.tasks.toNat} tasks ({w.expectedTasks.toNat} expected) to '{plan.name}'"⟩

/-- The line about the end of a batch. -/
def endNote (plan : Plan) : Except TaskFailure Summary → LogLine
  | .ok summary =>
    ⟨.debug, s!"Executor '{plan.name}' quiescent: {summary.completed} completed, " ++
      s!"{summary.recoverable.length} recoverable failures"⟩
  | .error failure => ⟨.debug, s!"Executor '{plan.name}' stopped: {failure.toText}"⟩

/-- Runs a workload on a plan that has started. -/
def runOn (color : Bool) (phase : Phase) (plan : Plan) (w : Workload) : Transcript :=
  let executor := ((Executor.init plan .evaluator).submitAll w.roots).runToRest
  let outcome := executor.tracker.outcome
  let log := plan.startLog ++ [submitNote plan w] ++ executor.log ++ [endNote plan outcome]
  let ending : Transcript := match Report.batch color plan outcome, outcome with
    | none, _ => ⟨[], some .unreportable⟩
    | some report, .ok _ => ⟨[.text report], none⟩
    | some report, .error _ => ⟨[.text report], some (.stopped phase)⟩
  ⟨log.map .note ++ ending.output ++ plan.stopLog.map .note, ending.failure⟩

def runBatch (color : Bool) (kept : Level) (phase : Phase) (w : Workload) (f : Factory) :
    Transcript :=
  let builder : Builder Plan := fun _ plan => plan.start.map fun _ => plan
  let (built, _, log) := f.executorFor kept builder phase
  let run : Transcript := match built with
    | .error e => ⟨[], some (.noExecutor phase e)⟩
    | .ok plan => runOn color phase plan w
  run.after (log.map .note)

/-- Puts the options of a configuration in force, and goes on with the settings. -/
def withConfig (c : Config) (host : Size) (next : Factory → Transcript) : Transcript :=
  let (f, log) := (Factory.ofSettings (.initial .inert)).refresh (c.options host)
  (next f).after (log.map .note)

namespace Invocation

/-- Carries out an invocation; the log is kept at every level. -/
def perform (i : Invocation) (site : Site) (host : Size) (color : Bool) : Transcript :=
  let configured (next : Factory → Transcript) : Transcript := match i.configuration site host with
    | .error e => ⟨[], some e⟩
    | .ok c => withConfig c host next
  match i.command with
  | .sources => ⟨[.text (Report.sources color (site.sources i.config))], none⟩
  | .settings format => configured (showSettings color format)
  | .batch phase w => configured (runBatch color i.level phase w)

def startNote : LogLine := ⟨.info, s!"Starting {programName}"⟩

/-- The transcript of an invocation with its log at the level asked for. -/
def transcript (i : Invocation) (site : Site) (host : Size) (color : Bool) : Transcript :=
  ((i.perform site host color).after [.note startNote]).keepLevel i.level

end Invocation

end CommandLine

end PhaseExecutors
