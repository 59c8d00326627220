import PhaseExecutors.Number.Size
import PhaseExecutors.Plan

/-!
The words of a command line: commands, flags and parameters, and where each of them is known.

A flag stands alone, a parameter takes a value. Those that concern every command are known before
and behind the name of the command.
-/

namespace PhaseExecutors.CommandLine

def programName : String := "phasepool"

def programVersion : String := "0.1.0"

def about : String := "Parallelism settings and phase executors for a build engine"

/-! ### Commands -/

inductive CommandName
  | settings
  | batch
  | sources
deriving DecidableEq, Repr

namespace CommandName

def all : List CommandName := [.settings, .batch, .sources]

def word : CommandName → String
  | .settings => "show"
  | .batch => "run"
  | .sources => "sources"

def ofWord? (w : String) : Option CommandName := all.find? fun c => c.word == w

end CommandName

/-- The word that asks for help on a command. -/
def helpWord : String := "help"

/-! ### Switches -/

inductive Flag
  | verbose
  | noConfig
  | help
  | version
deriving DecidableEq, Repr

inductive Parameter
  | config
  | loadingPhaseThreads
  | jobs
  | globbingThreads
  | cpuHeavyPoolSize
  | prioritize
  | format
  | phase
  | tasks
  | heavyEvery
  | fanOut
  | failAt
deriving DecidableEq, Repr

inductive Switch
  | flag (f : Flag)
  | parameter (p : Parameter)
deriving DecidableEq, Repr

namespace Flag

def word : Flag → String
  | .verbose => "verbose"
  | .noConfig => "no-config"
  | .help => "help"
  | .version => "version"

def letter? : Flag → Option Char
  | .verbose => some 'v'
  | .noConfig => none
  | .help => some 'h'
  | .version => some 'V'

/-- The form in messages; a flag that counts shows it. -/
def shown (f : Flag) : String :=
  match f with
  | .verbose => s!"--{f.word}..."
  | .noConfig | .help | .version => s!"--{f.word}"

end Flag

namespace Parameter

def word : Parameter → String
  | .config => "config"
  | .loadingPhaseThreads => "loading-phase-threads"
  | .jobs => "jobs"
  | .globbingThreads => "globbing-threads"
  | .cpuHeavyPoolSize => "cpu-heavy-pool-size"
  | .prioritize => "prioritize"
  | .format => "format"
  | .phase => "phase"
  | .tasks => "tasks"
  | .heavyEvery => "heavy-every"
  | .fanOut => "fan-out"
  | .failAt => "fail-at"

def letter? : Parameter → Option Char
  | .jobs => some 'j'
  | .format => some 'f'
  | _ => none

/-- What stands for the value in messages. -/
def placeholder : Parameter → String
  | .config => "PATH"
  | .loadingPhaseThreads | .jobs | .globbingThreads | .cpuHeavyPoolSize => "COUNT"
  | .prioritize => "BOOL"
  | .format => "FORMAT"
  | .phase => "PHASE"
  | .tasks => "TASKS"
  | .heavyEvery => "K"
  | .fanOut => "F"
  | .failAt => "I"

/-- The form in messages. -/
def shown (p : Parameter) : String := s!"--{p.word} <{p.placeholder}>"

end Parameter

namespace Switch

def word : Switch → String
  | .flag f => f.word
  | .parameter p => p.word

def letter? : Switch → Option Char
  | .flag f => f.letter?
  | .parameter p => p.letter?

def shown : Switch → String
  | .flag f => f.shown
  | .parameter p => p.shown

end Switch

/-! ### Scopes -/

/-- A part of a command line: before the name of the command, or behind it. -/
inductive Scope
  | program
  | command (name : CommandName)
deriving DecidableEq, Repr

namespace Scope

/-- What every scope knows. -/
def common : List Switch :=
  [.flag .verbose, .flag .noConfig, .flag .help, .parameter .config,
    .parameter .loadingPhaseThreads, .parameter .jobs, .parameter .globbingThreads,
    .parameter .cpuHeavyPoolSize, .parameter .prioritize]

/-- What only this scope knows. -/
def own : Scope → List Switch
  | .program => [.flag .version]
  | .command .settings => [.parameter .format]
  | .command .batch =>
    [.parameter .phase, .parameter .tasks, .parameter .heavyEvery, .parameter .fanOut,
      .parameter .failAt]
  | .command .sources => []

def switches (s : Scope) : List Switch := common ++ s.own

def long? (s : Scope) (word : String) : Option Switch := s.switches.find? fun w => w.word == word

def short? (s : Scope) (letter : Char) : Option Switch :=
  s.switches.find? fun w => w.letter? == some letter

end Scope

/-! ### Help -/

/-- The page that explains the words. -/
def helpPage : String :=
  let commands := CommandName.all.map fun c =>
    let own := (Scope.command c).own.map fun s => s!" [{s.shown}]"
    s!"  {c.word}{String.join own}"
  let switches := (Scope.common ++ Scope.program.own).map fun s => s!"  {s.shown}"
  String.join <| List.map (· ++ "\n") <|
    [about, "", s!"Usage: {programName} [OPTIONS] <COMMAND>", "", "Commands:"] ++ commands ++
      ["", "Options:"] ++ switches

end PhaseExecutors.CommandLine
