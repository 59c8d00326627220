import PhaseExecutors.CommandLine.Switch
import PhaseExecutors.Text.Styled
import PhaseExecutors.Workload

/-!
Invocations: what a command line asks for.

The words are taken from the left. A parameter without an attached value waits for the next word;
its value is taken in when the next switch or the end of its scope comes, so an unknown word in
between is reported first. What is given behind the name of a command goes before what is given
ahead of it.
-/

namespace PhaseExecutors.CommandLine

/-- Why a command line is not carried out. -/
inductive Halt
  | help
  | version
  | nothingGiven
  | missingCommand
  | unknownCommand (word : String)
  | unknownArgument (word : String)
  | surplusValue (f : Flag) (text : String)
  | missingValue (p : Parameter)
  | badChoice (p : Parameter) (text : String)
  | badSize (p : Parameter) (text : String) (e : Size.ReadError)
  | repeated (s : Switch)
deriving DecidableEq, Repr

namespace Halt

/-- The message of a fault, with the words that it is about. -/
def fault (spans : List Text.Span) : List Text.Span :=
  ⟨.error, "error:"⟩ :: .plain " " :: spans

/-- A message about one word. -/
def aboutWord (before word behind : String) : List Text.Span :=
  fault [.plain s!"{before} '", ⟨.invalid, word⟩, .plain s!"'{behind}"]

/-- A message about a value of a switch. -/
def aboutValue (before text shown behind : String) : List Text.Span :=
  aboutWord before text " for '" ++ [⟨.literal, shown⟩, .plain s!"'{behind}"]

/-- The message, of all but the calls for help. -/
def spans? : Halt → Option (List Text.Span)
  | .help | .nothingGiven => none
  | .version => some [.plain s!"{programName} {programVersion}"]
  | .missingCommand => some <| fault
    [.plain "'", ⟨.invalid, programName⟩,
      .plain "' requires a subcommand but one was not provided"]
  | .unknownCommand word => some (aboutWord "unrecognized subcommand" word "")
  | .unknownArgument word => some (aboutWord "unexpected argument" word " found")
  | .surplusValue f text =>
    some (aboutValue "unexpected value" text f.shown " found; no more were expected")
  | .missingValue p =>
    some (aboutWord "a value is required for" p.shown " but none was supplied")
  | .badChoice p text => some (aboutValue "invalid value" text p.shown "")
  | .badSize p text e => some (aboutValue "invalid value" text p.shown s!": {e.message}")
  | .repeated s => some (aboutWord "the argument" s.shown " cannot be used multiple times")

def message? (h : Halt) : Option String := h.spans?.map (Text.Span.join .text)

/-- Help and version are what was asked for. -/
def isAnswer : Halt → Bool
  | .help | .version => true
  | _ => false

def code (h : Halt) : Nat := if h.isAnswer then 0 else 2

/-- What is written: the message, or the help page. -/
def toText (color : Bool) (h : Halt) : String :=
  match h.spans? with
  | some spans =>
    (if color then Text.Span.joinColored spans else Text.Span.join .stream spans) ++ "\n"
  | none => helpPage

end Halt

/-! ### What is given -/

inductive Format
  | text
  | json
deriving DecidableEq, Repr

def Format.byName : List (String × Format) := [("text", .text), ("json", .json)]

def boolByName : List (String × Bool) := [("true", true), ("false", false)]

/-- What one scope gives; thread counts are not read yet. -/
structure Given where
  verbose : Option Nat := none
  noConfig : Bool := false
  config : Option String := none
  loadingPhaseThreads : Option String := none
  jobs : Option String := none
  globbingThreads : Option String := none
  cpuHeavyPoolSize : Option String := none
  prioritize : Option Bool := none
  format : Option Format := none
  phase : Option Phase := none
  tasks : Option Size := none
  heavyEvery : Option Size := none
  fanOut : Option Size := none
  failAt : Option Size := none
deriving DecidableEq, Repr

namespace Parameter

/-- A value that is not empty. -/
def filled (p : Parameter) (text : String) : Except Halt String :=
  if text = "" then .error (.missingValue p) else .ok text

def oneOf {α : Type} (p : Parameter) (choices : List (String × α)) (text : String) :
    Except Halt α := do
  let text ← p.filled text
  match choices.lookup text with
  | some a => .ok a
  | none => .error (.badChoice p text)

def size (p : Parameter) (text : String) : Except Halt Size :=
  (Size.read text.toList).mapError (.badSize p text)

/-- A value for a parameter that has none so far. -/
def first {α : Type} (p : Parameter) (old : Option α) (value : Except Halt α) :
    Except Halt (Option α) :=
  match old with
  | some _ => .error (.repeated (.parameter p))
  | none => value.map some

end Parameter

/-- How often a flag that counts is counted at most. -/
def maxVerbosity : Nat := 255

namespace Given

def isEmpty (g : Given) : Bool := g == {}

/-- Takes in the value of a parameter. -/
def put (g : Given) (p : Parameter) (text : String) : Except Halt Given :=
  match p with
  | .config => do return { g with config := ← p.first g.config (p.filled text) }
  | .loadingPhaseThreads => do
    return { g with loadingPhaseThreads := ← p.first g.loadingPhaseThreads (.ok text) }
  | .jobs => do return { g with jobs := ← p.first g.jobs (.ok text) }
  | .globbingThreads => do
    return { g with globbingThreads := ← p.first g.globbingThreads (.ok text) }
  | .cpuHeavyPoolSize => do
    return { g with cpuHeavyPoolSize := ← p.first g.cpuHeavyPoolSize (.ok text) }
  | .prioritize => do
    return { g with prioritize := ← p.first g.prioritize (p.oneOf boolByName text) }
  | .format => do return { g with format := ← p.first g.format (p.oneOf Format.byName text) }
  | .phase => do return { g with phase := ← p.first g.phase (p.oneOf Phase.byName text) }
  | .tasks => do return { g with tasks := ← p.first g.tasks (p.size text) }
  | .heavyEvery => do return { g with heavyEvery := ← p.first g.heavyEvery (p.size text) }
  | .fanOut => do return { g with fanOut := ← p.first g.fanOut (p.size text) }
  | .failAt => do return { g with failAt := ← p.first g.failAt (p.size text) }

/-- Takes in a flag. -/
def raise (g : Given) (f : Flag) : Except Halt Given :=
  match f with
  | .verbose => .ok { g with verbose := some (min maxVerbosity (g.verbose.getD 0 + 1)) }
  | .noConfig =>
    if g.noConfig then .error (.repeated (.flag f)) else .ok { g with noConfig := true }
  | .help => .error .help
  | .version => .error .version

/-- What an inner scope gives before what an outer scope gives. -/
def within (inner outer : Given) : Given where
  verbose := inner.verbose <|> outer.verbose
  noConfig := inner.noConfig || outer.noConfig
  config := inner.config <|> outer.config
  loadingPhaseThreads := inner.loadingPhaseThreads <|> outer.loadingPhaseThreads
  jobs := inner.jobs <|> outer.jobs
  globbingThreads := inner.globbingThreads <|> outer.globbingThreads
  cpuHeavyPoolSize := inner.cpuHeavyPoolSize <|> outer.cpuHeavyPoolSize
  prioritize := inner.prioritize <|> outer.prioritize
  format := inner.format <|> outer.format
  phase := inner.phase <|> outer.phase
  tasks := inner.tasks <|> outer.tasks
  heavyEvery := inner.heavyEvery <|> outer.heavyEvery
  fanOut := inner.fanOut <|> outer.fanOut
  failAt := inner.failAt <|> outer.failAt

end Given

/-! ### The scan of one scope -/

/-- The parameter at the end of the words so far: it waits for a value, or has one that is not
taken in yet. -/
structure Pending where
  parameter : Parameter
  value : Option String
deriving DecidableEq, Repr

structure Scan where
  given : Given := {}
  pending : Option Pending := none
deriving DecidableEq, Repr

/-- What stands behind the switches of a scope. -/
inductive Tail
  | nothing
  | help (words : List String)
  | command (name : CommandName) (words : List String)
deriving DecidableEq, Repr

namespace Scan

/-- The parameter that waits for a value. -/
def awaited? (s : Scan) : Option Parameter :=
  match s.pending with
  | some ⟨p, none⟩ => some p
  | _ => none

/-- Takes in the pending value. -/
def settle (s : Scan) : Except Halt Given :=
  match s.pending with
  | none => .ok s.given
  | some ⟨p, none⟩ => .error (.missingValue p)
  | some ⟨p, some text⟩ => s.given.put p text

def flag (s : Scan) (f : Flag) : Except Halt Scan := do
  return { given := ← (← s.settle).raise f }

/-- A parameter with its value in the same word. -/
def attached (s : Scan) (p : Parameter) (text : String) : Except Halt Scan := do
  return { given := ← (← s.settle).put p text }

/-- A parameter whose value is to be the next word. -/
def await (s : Scan) (p : Parameter) : Except Halt Scan := do
  return { given := ← s.settle, pending := some ⟨p, none⟩ }

/-- A word that begins with two dashes, without them. -/
def long (scope : Scope) (s : Scan) (body : List Char) : Except Halt Scan :=
  let name := String.ofList (body.takeWhile (· ≠ '='))
  match scope.long? name, body.dropWhile (· ≠ '=') with
  | none, _ => .error (.unknownArgument s!"--{name}")
  | some (.flag f), [] => s.flag f
  | some (.flag f), _ :: value => .error (.surplusValue f (String.ofList value))
  | some (.parameter p), [] => s.await p
  | some (.parameter p), _ :: value => s.attached p (String.ofList value)

/-- A word of letters behind one dash. The rest behind the letter of a parameter is its value. -/
def short (scope : Scope) (s : Scan) : List Char → Except Halt Scan
  | [] => .ok s
  | letter :: rest =>
    match scope.short? letter, rest with
    | none, _ => .error (.unknownArgument s!"-{letter}")
    | some (.flag f), _ => do short scope (← s.flag f) rest
    | some (.parameter p), [] => s.await p
    | some (.parameter p), '=' :: value => s.attached p (String.ofList value)
    | some (.parameter p), value => s.attached p (String.ofList value)

/-- A word names what may stand behind the switches of a scope. -/
def tail? (scope : Scope) (word : String) (rest : List String) : Option Tail :=
  match scope with
  | .command _ => none
  | .program =>
    if word = helpWord then some (.help rest)
    else (CommandName.ofWord? word).map fun name => .command name rest

/-- The error of a word that has no place in a scope. -/
def stray (scope : Scope) (behindDashes : Bool) (word : String) : Halt :=
  match scope with
  | .command _ => .unknownArgument word
  | .program =>
    if behindDashes && (tail? scope word []).isSome then .unknownArgument word
    else .unknownCommand word

/-- Takes the words of a scope. Behind two lone dashes no word has a place. -/
def words (scope : Scope) (s : Scan) : List String → Except Halt (Scan × Tail)
  | [] => .ok (s, .nothing)
  | word :: rest =>
    match s.awaited?, tail? scope word rest with
    | none, some tail => .ok (s, tail)
    | awaited, _ =>
      match word.toList with
      | ['-', '-'] =>
        match rest with
        | [] => .ok (s, .nothing)
        | next :: _ => .error (stray scope true next)
      | '-' :: '-' :: body => do words scope (← long scope s body) rest
      | '-' :: letter :: letters => do words scope (← short scope s (letter :: letters)) rest
      | _ =>
        match awaited with
        | some p => words scope { s with pending := some ⟨p, some word⟩ } rest
        | none => .error (stray scope false word)

end Scan

/-! ### Invocations -/

inductive Command
  | settings (format : Format)
  | batch (phase : Phase) (workload : Workload)
  | sources
deriving DecidableEq, Repr

structure Invocation where
  command : Command
  verbosity : Nat
  noConfig : Bool
  config : Option String
  loadingPhaseThreads : Option String
  jobs : Option String
  globbingThreads : Option String
  cpuHeavyPoolSize : Option String
  prioritize : Option Bool
deriving DecidableEq, Repr

namespace Given

/-- The command of a name, with what is not given filled up. -/
def command (g : Given) : CommandName → Command
  | .settings => .settings (g.format.getD .text)
  | .batch =>
    let phase := g.phase.getD .analysis
    .batch phase { Workload.ofPhase phase (g.tasks.getD 100) with
      heavyEvery := g.heavyEvery.getD 0
      fanOut := g.fanOut.getD 0
      failAt := g.failAt }
  | .sources => .sources

def invocation (g : Given) (name : CommandName) : Invocation where
  command := g.command name
  verbosity := g.verbose.getD 0
  noConfig := g.noConfig
  config := g.config
  loadingPhaseThreads := g.loadingPhaseThreads
  jobs := g.jobs
  globbingThreads := g.globbingThreads
  cpuHeavyPoolSize := g.cpuHeavyPoolSize
  prioritize := g.prioritize

end Given

/-- The answer to a call for help on commands; no command has commands of its own. -/
def helpOn : List String → Halt
  | [] => .help
  | word :: rest =>
    if word = helpWord || (CommandName.ofWord? word).isSome then
      match rest with
      | [] => .help
      | next :: _ => .unknownCommand next
    else .unknownCommand word

/-- Reads a command line, without the name of the program. -/
def Invocation.ofWords (words : List String) : Except Halt Invocation := do
  let (outer, tail) ← Scan.words .program {} words
  match tail with
  | .nothing =>
    let given ← outer.settle
    throw (if given.isEmpty then .nothingGiven else .missingCommand)
  | .help rest => throw (helpOn rest)
  | .command name rest =>
    let (inner, _) ← Scan.words (.command name) {} rest
    let given ← inner.settle
    return (given.within (← outer.settle)).invocation name

end PhaseExecutors.CommandLine
