import PhaseExecutors.Settings

/-!
Refreshes of several threads at a time.

Each lookup of a refresh, the resolution and the publication are steps of their own, between which
other refreshes and readers may take theirs. A run keeps what readers have seen.
-/

namespace PhaseExecutors

/-- How far a refresh has come. -/
inductive RefreshStage
  | asking (pending : List GroupId) (answers : Answers)
  | resolved (next : Snapshot)
  | published (outcome : Settings)
deriving DecidableEq

structure Refresh where
  provider : Provider
  stage : RefreshStage
  log : Log

namespace Refresh

def start (p : Provider) : Refresh := ⟨p, .asking GroupId.all {}, []⟩

/-- The next step of a refresh, and the settings after it. A refresh that has published rests. -/
def advance (r : Refresh) (s : Settings) : Refresh × Settings :=
  match r.stage with
  | .asking (id :: ids) answers =>
    let (answers, log) := answers.hear id (r.provider id)
    ({ r with stage := .asking ids answers, log := r.log ++ log }, s)
  | .asking [] answers =>
    let next := answers.resolve
    ({ r with stage := .resolved next, log := r.log ++ answers.clampNote next }, s)
  | .resolved next =>
    let s := s.publish next
    ({ r with stage := .published s, log := r.log ++ [s.refreshNote] }, s)
  | .published _ => (r, s)

end Refresh

/-- What a reader has seen. -/
inductive Reading
  | snapshot (s : Snapshot)
  | version (n : Nat)
deriving DecidableEq

structure SharedSettings where
  settings : Settings
  /-- All refreshes begun so far. -/
  refreshes : List Refresh
  /-- What each reader has seen, in order. -/
  readings : List (Nat × Reading)

namespace SharedSettings

inductive Event
  | start (p : Provider)
  | advance (refresh : Nat)
  | readSnapshot (reader : Nat)
  | readVersion (reader : Nat)

def initial (s : Snapshot) : SharedSettings := ⟨Settings.initial s, [], []⟩

def step (w : SharedSettings) : Event → SharedSettings
  | .start p => { w with refreshes := w.refreshes ++ [Refresh.start p] }
  | .advance i =>
    match w.refreshes[i]? with
    | none => w
    | some r =>
      let (r, s) := r.advance w.settings
      { w with settings := s, refreshes := w.refreshes.set i r }
  | .readSnapshot i =>
    { w with readings := w.readings ++ [(i, .snapshot w.settings.current)] }
  | .readVersion i => { w with readings := w.readings ++ [(i, .version w.settings.version)] }

def run (w : SharedSettings) (es : List Event) : SharedSettings := es.foldl step w

@[simp] theorem run_nil (w : SharedSettings) : run w [] = w := rfl
@[simp] theorem run_cons (w : SharedSettings) (e : Event) (es : List Event) :
    run w (e :: es) = run (step w e) es := rfl

end SharedSettings

end PhaseExecutors
