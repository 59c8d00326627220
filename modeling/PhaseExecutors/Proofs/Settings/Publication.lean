import Mathlib.Data.List.Basic
import Mathlib.Data.List.Forall2
import PhaseExecutors.Settings.Interleaved

/-!
Refreshes that overlap publish one after the other.

A refresh looks at the settings in one step only, the one in which it publishes. So it comes to what
a refresh without interruption comes to at that moment, and the snapshots in force are, in the order
of their versions, the initial one and then one for each publication.
-/

namespace PhaseExecutors

/-! ### What a provider answers -/

namespace OptionGroup

def loading? : OptionGroup → Option LoadingOptions
  | .loadingPhaseThreads o => some o
  | _ => none

def build? : OptionGroup → Option BuildOptions
  | .buildRequest o => some o
  | _ => none

def package? : OptionGroup → Option PackageOptions
  | .package o => some o
  | _ => none

def analysis? : OptionGroup → Option AnalysisOptions
  | .analysis o => some o
  | _ => none

end OptionGroup

/-- The four groups of a provider. A group in the place of another one is absent. -/
def Provider.answers (p : Provider) : Answers where
  loading := (p .loadingPhaseThreads).bind OptionGroup.loading?
  build := (p .buildRequest).bind OptionGroup.build?
  package := (p .package).bind OptionGroup.package?
  analysis := (p .analysis).bind OptionGroup.analysis?

/-- The snapshot that the four groups of a provider resolve to. -/
def Provider.snapshot (p : Provider) : Snapshot := (Provider.answers p).resolve

namespace Answers

/-- An answer concerns the group that was asked for, and no other one. -/
lemma hear_fst (a : Answers) (asked : GroupId) (answer : Option OptionGroup) :
    (a.hear asked answer).1 =
      match asked with
      | .loadingPhaseThreads =>
        { a with loading := (answer.bind OptionGroup.loading?).or a.loading }
      | .buildRequest => { a with build := (answer.bind OptionGroup.build?).or a.build }
      | .package => { a with package := (answer.bind OptionGroup.package?).or a.package }
      | .analysis => { a with analysis := (answer.bind OptionGroup.analysis?).or a.analysis } := by
  cases asked <;> rcases answer with _ | (_ | _ | _ | _) <;> rfl

lemma gather_all (p : Provider) : (gather p {} GroupId.all).1 = p.answers := by
  simp [gather, GroupId.all, hear_fst, Provider.answers]

end Answers

lemma Settings.refresh_fst (s : Settings) (p : Provider) :
    (s.refresh p).1 = s.publish p.snapshot := by
  rw [Provider.snapshot, ← Answers.gather_all]
  rfl

/-! ### One refresh -/

namespace RefreshStage

/-- The steps up to the end of a refresh. -/
def left : RefreshStage → ℕ
  | .asking pending _ => pending.length + 2
  | .resolved _ => 1
  | .published _ => 0

lemma left_eq_zero_iff {stage : RefreshStage} : stage.left = 0 ↔ ∃ out, stage = .published out := by
  cases stage <;> simp [left]

end RefreshStage

namespace Refresh

variable {r : Refresh} {p : Provider} {s : Settings} {next : Snapshot} {out : Settings}

/-- The settings and the log to which a refresh comes if nothing interrupts it from now on. -/
def outlook (r : Refresh) (s : Settings) : Settings × Log :=
  match r.stage with
  | .asking pending answers =>
    let (answers, warnings) := Answers.gather r.provider answers pending
    let next := s.publish answers.resolve
    (next, r.log ++ warnings ++ answers.clampNote answers.resolve ++ [next.refreshNote])
  | .resolved next => (s.publish next, r.log ++ [(s.publish next).refreshNote])
  | .published out => (out, r.log)

lemma outlook_start (p : Provider) (s : Settings) : (start p).outlook s = s.refresh p := by
  simp [outlook, start, Settings.refresh]

lemma provider_advance (r : Refresh) (s : Settings) : (r.advance s).1.provider = r.provider := by
  unfold advance
  split <;> rfl

lemma left_advance (r : Refresh) (s : Settings) :
    (r.advance s).1.stage.left = r.stage.left - 1 := by
  unfold advance
  split <;> simp_all [RefreshStage.left]

/-- The publication is the only step at which a refresh looks at the settings and changes them. -/
lemma advance_of_resolved (h : r.stage = .resolved next) :
    r.advance s = ({ r with stage := .published (r.outlook s).1, log := (r.outlook s).2 },
      (r.outlook s).1) := by
  simp [advance, outlook, h]

lemma advance_of_asking (h : 1 < r.stage.left) :
    (r.advance s).2 = s ∧ ∀ t, (r.advance s).1.outlook t = r.outlook t := by
  rcases r with ⟨p, ⟨_ | ⟨id, ids⟩, answers⟩ | _ | _, log⟩
  · simp [advance, outlook, Answers.gather]
  · simp [advance, outlook, Answers.gather]
  · simp [RefreshStage.left] at h
  · simp [RefreshStage.left] at h

lemma advance_of_published (h : r.stage = .published out) : r.advance s = (r, s) := by
  simp [advance, h]

end Refresh

/-! ### The history of the settings -/

/-- A publication: which refresh made it, and the snapshot in force from then on. -/
structure Swap where
  refresh : ℕ
  snapshot : Snapshot

/-- The snapshots in force, in the order of their versions. -/
def timeline (initial : Snapshot) (swaps : List Swap) : List Snapshot :=
  initial :: swaps.map Swap.snapshot

lemma timeline_append (initial : Snapshot) (swaps more : List Swap) :
    timeline initial (swaps ++ more) = timeline initial swaps ++ more.map Swap.snapshot := by
  simp [timeline]

/-- What was read was in force under a version. -/
def Reading.At (inForce : List Snapshot) (v : ℕ) : Reading → Prop
  | .snapshot s => inForce[v]? = some s
  | .version n => n = v

lemma Reading.At.append {initial : Snapshot} {past : List Swap} {v : ℕ} {x : Reading}
    (more : List Swap) (h : x.At (timeline initial past) v) :
    x.At (timeline initial (past ++ more)) v := by
  cases x with
  | version n => exact h
  | snapshot s =>
    have hv := (List.getElem?_eq_some_iff.mp h).1
    rw [Reading.At, timeline_append, List.getElem?_append_left hv]
    exact h

namespace SharedSettings

open Refresh

variable {initial : Snapshot} {w : SharedSettings} {past : List Swap} {seen : List ℕ} {i : ℕ}
  {r : Refresh}

/-- The publication that an event makes, if any. -/
def swap? (w : SharedSettings) : Event → Option Swap
  | .advance i =>
    match (w.refreshes[i]?).map Refresh.stage with
    | some (.resolved next) => some ⟨i, next⟩
    | _ => none
  | _ => none

/-- The publications of a run, in order. -/
def swaps (w : SharedSettings) : List Event → List Swap
  | [] => []
  | e :: es => (w.swap? e).toList ++ (w.step e).swaps es

/-- A reader asks. -/
def Event.asks : Event → Bool
  | .readSnapshot _ | .readVersion _ => true
  | .start _ | .advance _ => false

/-- The versions in force when readers ask, in order. -/
def asked (w : SharedSettings) : List Event → List ℕ
  | [] => []
  | e :: es => (if e.asks then [w.settings.version] else []) ++ (w.step e).asked es

/-- A refresh that has published came to what a refresh without interruption comes to from the
settings of its version. -/
structure Published (initial : Snapshot) (past : List Swap) (i v : ℕ) (r : Refresh)
    (out : Settings) : Prop where
  stage : r.stage = .published out
  swap : past[v]? = some ⟨i, r.provider.snapshot⟩
  refresh : ∃ before, (timeline initial past)[v]? = some before ∧
    (Settings.mk v before).refresh r.provider = (out, r.log)

/-- A refresh has published, or has not looked at the settings yet. -/
inductive Recorded (initial : Snapshot) (past : List Swap) (i : ℕ) (r : Refresh) : Prop
  | pending (left_pos : 0 < r.stage.left) (left_le : r.stage.left ≤ 6)
      (outlook : ∀ s, r.outlook s = s.refresh r.provider)
  | published (v : ℕ) (out : Settings) (h : Published initial past i v r out)

lemma Published.append {v : ℕ} {out : Settings} (more : List Swap)
    (h : Published initial past i v r out) : Published initial (past ++ more) i v r out := by
  have hv : v < past.length := (List.getElem?_eq_some_iff.mp h.swap).1
  refine ⟨h.stage, ?_, ?_⟩
  · rw [List.getElem?_append_left hv, h.swap]
  · obtain ⟨before, hbefore, hr⟩ := h.refresh
    refine ⟨before, ?_, hr⟩
    rw [timeline_append, List.getElem?_append_left (by simp [timeline]; omega), hbefore]

lemma Recorded.append (more : List Swap) (h : Recorded initial past i r) :
    Recorded initial (past ++ more) i r := by
  cases h with
  | pending left_pos left_le outlook => exact .pending left_pos left_le outlook
  | published v out h => exact .published v out (h.append more)

/-- What holds after the publications `past`, with readers that asked under the versions `seen`. -/
structure Chronicle (initial : Snapshot) (past : List Swap) (seen : List ℕ) (w : SharedSettings) :
    Prop where
  version : w.settings.version = past.length
  current : (timeline initial past)[past.length]? = some w.settings.current
  recorded : ∀ i r, w.refreshes[i]? = some r → Recorded initial past i r
  made : ∀ s ∈ past, ∃ r out, w.refreshes[s.refresh]? = some r ∧ r.stage = .published out
  single : (past.map Swap.refresh).Nodup
  sorted : seen.Pairwise (· ≤ ·)
  seen_le : ∀ v ∈ seen, v ≤ past.length
  readings : List.Forall₂ (fun x v => x.2.At (timeline initial past) v) w.readings seen

namespace Chronicle

lemma start (initial : Snapshot) : Chronicle initial [] [] (SharedSettings.initial initial) :=
  ⟨rfl, rfl, by simp [SharedSettings.initial], by simp, by simp, by simp, by simp,
    by simp [SharedSettings.initial]⟩

/-- A step that publishes nothing leaves the settings, and may only move one refresh. -/
lemma of_frame {w' : SharedSettings} (h : Chronicle initial past seen w)
    (hs : w'.settings = w.settings) (hreadings : w'.readings = w.readings)
    (hrecorded : ∀ i r, w'.refreshes[i]? = some r → Recorded initial past i r)
    (hkept : ∀ (i : ℕ) (r : Refresh) (out : Settings), w.refreshes[i]? = some r →
      r.stage = .published out → w'.refreshes[i]? = some r) : Chronicle initial past seen w' where
  version := hs ▸ h.version
  current := hs ▸ h.current
  recorded := hrecorded
  made s hmem := by
    obtain ⟨r, out, hr, hout⟩ := h.made s hmem
    exact ⟨r, out, hkept _ _ _ hr hout, hout⟩
  single := h.single
  sorted := h.sorted
  seen_le := h.seen_le
  readings := hreadings ▸ h.readings

lemma begin (p : Provider) (h : Chronicle initial past seen w) :
    Chronicle initial past seen (w.step (.start p)) := by
  refine h.of_frame rfl rfl ?_ ?_
  · intro i r hi
    rw [step, List.getElem?_append] at hi
    split at hi
    · exact h.recorded i r hi
    · rw [List.getElem?_singleton] at hi
      split_ifs at hi
      obtain rfl := Option.some.inj hi
      exact .pending (Nat.zero_lt_succ _) (Nat.le_refl _) (outlook_start p)
  · intro i r out hi _
    rw [step, List.getElem?_append_left (List.getElem?_eq_some_iff.mp hi).1, hi]

lemma read (x : Reading) (reader : ℕ) (hx : x.At (timeline initial past) past.length)
    (h : Chronicle initial past seen w) :
    Chronicle initial past (seen ++ [w.settings.version])
      { w with readings := w.readings ++ [(reader, x)] } where
  version := h.version
  current := h.current
  recorded := h.recorded
  made := h.made
  single := h.single
  sorted := by
    rw [List.pairwise_append, h.version]
    exact ⟨h.sorted, List.pairwise_singleton _ _, by simpa using h.seen_le⟩
  seen_le := by simpa [or_imp, forall_and, h.version] using h.seen_le
  readings := List.rel_append h.readings (.cons (h.version ▸ hx) .nil)

/-- A refresh that asks or resolves moves on, and all others rest. -/
lemma ask (hi : w.refreshes[i]? = some r) (hleft : 1 < r.stage.left)
    (h : Chronicle initial past seen w) : Chronicle initial past seen (w.step (.advance i)) := by
  obtain ⟨hs, houtlook⟩ := advance_of_asking (s := w.settings) hleft
  have hlt : i < w.refreshes.length := (List.getElem?_eq_some_iff.mp hi).1
  have hstep : w.step (.advance i) =
      { w with refreshes := w.refreshes.set i (r.advance w.settings).1 } := by
    simp [step, hi, hs]
  rw [hstep]
  refine h.of_frame rfl rfl ?_ ?_
  · intro j r' hj
    rw [List.getElem?_set] at hj
    split at hj
    · subst j
      obtain rfl : (r.advance w.settings).1 = r' := by simpa [hlt] using hj
      cases h.recorded i r hi with
      | published v out hp => simp [hp.stage, RefreshStage.left] at hleft
      | pending left_pos left_le houtlook' =>
        refine .pending ?_ ?_ fun s => ?_
        · rw [left_advance]
          omega
        · rw [left_advance]
          omega
        · rw [houtlook, houtlook', provider_advance]
    · exact h.recorded j r' hj
  · intro j r' out hj hout
    rw [List.getElem?_set_ne, hj]
    rintro rfl
    rw [hi] at hj
    cases hj
    simp [hout, RefreshStage.left] at hleft

section Resolved

/-! A refresh that has resolved its answers and is yet to publish. -/

variable {next : Snapshot} (hi : w.refreshes[i]? = some r) (hr : r.stage = .resolved next)
  (h : Chronicle initial past seen w)

include hi hr h

lemma outlook_of_resolved : r.outlook w.settings = w.settings.refresh r.provider := by
  cases h.recorded i r hi with
  | pending _ _ houtlook => exact houtlook _
  | published v out hp =>
    rw [hp.stage] at hr
    cases hr

lemma snapshot_of_resolved : next = r.provider.snapshot := by
  have houtlook := congrArg (fun x : Settings × Log => x.1.current) (h.outlook_of_resolved hi hr)
  simpa [outlook, hr, Settings.refresh_fst, Settings.publish] using houtlook

/-- It has no publication in the history. -/
lemma not_mem_of_resolved : i ∉ past.map Swap.refresh := by
  intro hmem
  obtain ⟨s, hs, rfl⟩ := List.mem_map.mp hmem
  obtain ⟨r', out, hr', hout⟩ := h.made s hs
  rw [hi] at hr'
  cases hr'
  rw [hr] at hout
  cases hout

/-- The step in which it publishes. -/
lemma publish :
    Chronicle initial (past ++ [⟨i, next⟩]) seen (w.step (.advance i)) := by
  have hlt : i < w.refreshes.length := (List.getElem?_eq_some_iff.mp hi).1
  have houtlook := h.outlook_of_resolved hi hr
  have hfst : (r.outlook w.settings).1 = w.settings.publish next := by simp [outlook, hr]
  have hstep : w.step (.advance i) =
      { w with
        settings := w.settings.publish next
        refreshes := w.refreshes.set i
          { r with
            stage := .published (w.settings.publish next)
            log := (r.outlook w.settings).2 } } := by
    simp only [step, hi, advance_of_resolved hr, hfst]
  have hself : Published initial (past ++ [⟨i, next⟩]) i past.length
      { r with
        stage := .published (w.settings.publish next)
        log := (r.outlook w.settings).2 } (w.settings.publish next) := by
    refine ⟨rfl, by simp [h.snapshot_of_resolved hi hr], w.settings.current, ?_, ?_⟩
    · rw [timeline_append, List.getElem?_append_left (by simp [timeline]), h.current]
    · rw [← h.version, ← houtlook, ← hfst]
  rw [hstep]
  refine ⟨?_, ?_, ?_, ?_, ?_, h.sorted, ?_, h.readings.imp fun _ _ hx => hx.append _⟩
  · simp [Settings.publish, h.version]
  · simp [timeline, Settings.publish]
  · intro j r' hj
    rw [List.getElem?_set] at hj
    split at hj
    · subst j
      obtain rfl := Option.some.inj hj
      exact .published _ _ hself
    · exact (h.recorded j r' hj).append _
  · intro s hs
    by_cases hsi : s.refresh = i
    · exact ⟨_, _, by rw [hsi]; exact List.getElem?_set_self hlt, hself.stage⟩
    · rw [List.mem_append, List.mem_singleton] at hs
      obtain ⟨r', out, hr', hout⟩ := h.made s (hs.resolve_right fun he => hsi (by rw [he]))
      exact ⟨r', out, by rw [List.getElem?_set_ne (Ne.symm hsi), hr'], hout⟩
  · rw [List.map_append, List.map_singleton, List.nodup_append]
    refine ⟨h.single, List.pairwise_singleton _ _, ?_⟩
    rintro _ hmem _ hlast rfl
    obtain rfl := List.mem_singleton.mp hlast
    exact h.not_mem_of_resolved hi hr hmem
  · intro v hv
    rw [List.length_append]
    exact Nat.le_add_right_of_le (h.seen_le v hv)

end Resolved

theorem step (e : Event) (h : Chronicle initial past seen w) :
    Chronicle initial (past ++ (w.swap? e).toList)
      (seen ++ if e.asks then [w.settings.version] else []) (w.step e) := by
  -- Only a publication adds to the history, and only a reader to the versions that were seen.
  have frame (hnone : w.swap? e = none)
      (h' : Chronicle initial past (seen ++ if e.asks then [w.settings.version] else [])
        (w.step e)) :
      Chronicle initial (past ++ (w.swap? e).toList)
        (seen ++ if e.asks then [w.settings.version] else []) (w.step e) := by
    rwa [hnone, Option.toList_none, List.append_nil]
  cases e with
  | start p => exact frame rfl (by simpa [Event.asks] using h.begin p)
  | readSnapshot reader => exact frame rfl (h.read _ reader h.current)
  | readVersion reader => exact frame rfl (h.read _ reader h.version)
  | advance i =>
    rw [Event.asks, if_neg Bool.false_ne_true, List.append_nil] at frame ⊢
    cases hi : w.refreshes[i]? with
    | none =>
      have hstep : w.step (.advance i) = w := by simp [SharedSettings.step, hi]
      exact frame (by simp [swap?, hi]) (hstep.symm ▸ h)
    | some r =>
      cases hr : r.stage with
      | asking pending answers =>
        exact frame (by simp [swap?, hi, hr]) (h.ask hi (by simp [hr, RefreshStage.left]))
      | resolved next => simpa [swap?, hi, hr] using h.publish hi hr
      | published out =>
        have hstep : w.step (.advance i) = w := by
          have hset : w.refreshes.set i r = w.refreshes := by
            obtain ⟨hlt, rfl⟩ := List.getElem?_eq_some_iff.mp hi
            exact List.set_getElem_self hlt
          simp [SharedSettings.step, hi, advance_of_published hr, hset]
        exact frame (by simp [swap?, hi, hr]) (hstep.symm ▸ h)

theorem run (es : List Event) (h : Chronicle initial past seen w) :
    Chronicle initial (past ++ w.swaps es) (seen ++ w.asked es) (w.run es) := by
  induction es generalizing w past seen with
  | nil => simpa [swaps, asked] using h
  | cons e es ih =>
    rw [run_cons, swaps, asked, ← List.append_assoc, ← List.append_assoc]
    exact ih (h.step e)

end Chronicle

/-! ### What later steps leave alone -/

def Event.advances (i : ℕ) : Event → Bool
  | .advance j => i == j
  | _ => false

/-- A step of its own takes a refresh one step nearer to its end, all others leave it alone. -/
lemma refreshes_step (e : Event) (hi : w.refreshes[i]? = some r) :
    ∃ r', (w.step e).refreshes[i]? = some r' ∧ r'.provider = r.provider ∧
      r'.stage.left = r.stage.left - (if Event.advances i e then 1 else 0) ∧
      (r.stage.left = 0 → r' = r) := by
  have hlt : i < w.refreshes.length := (List.getElem?_eq_some_iff.mp hi).1
  cases e with
  | start p =>
    refine ⟨r, ?_, rfl, rfl, fun _ => rfl⟩
    rw [step, List.getElem?_append_left hlt, hi]
  | readSnapshot | readVersion => exact ⟨r, hi, rfl, rfl, fun _ => rfl⟩
  | advance j =>
    by_cases hij : i = j
    · subst j
      refine ⟨(r.advance w.settings).1, ?_, provider_advance r _, ?_, fun hzero => ?_⟩
      · simp only [step, hi, List.getElem?_set_self hlt]
      · simp [left_advance, Event.advances]
      · obtain ⟨out, hout⟩ := RefreshStage.left_eq_zero_iff.mp hzero
        rw [advance_of_published hout]
    · refine ⟨r, ?_, rfl, by simp [Event.advances, hij], fun _ => rfl⟩
      cases hj : w.refreshes[j]? with
      | none => simp [step, hj, hi]
      | some => simp [step, hj, List.getElem?_set_ne (Ne.symm hij), hi]

lemma refreshes_run (es : List Event) (hi : w.refreshes[i]? = some r) :
    ∃ r', (w.run es).refreshes[i]? = some r' ∧ r'.provider = r.provider ∧
      r'.stage.left = r.stage.left - es.countP (Event.advances i) ∧
      (r.stage.left = 0 → r' = r) := by
  induction es generalizing w r with
  | nil => exact ⟨r, hi, rfl, rfl, fun _ => rfl⟩
  | cons e es ih =>
    obtain ⟨r₁, h₁, hp₁, hl₁, hz₁⟩ := refreshes_step e hi
    obtain ⟨r₂, h₂, hp₂, hl₂, hz₂⟩ := ih h₁
    refine ⟨r₂, h₂, hp₂.trans hp₁, ?_, fun hzero => ?_⟩
    · rw [hl₂, hl₁, List.countP_cons, Nat.sub_sub, Nat.add_comm]
    · rw [hz₂ (by omega), hz₁ hzero]

lemma readings_step (e : Event) (w : SharedSettings) : w.readings <+: (w.step e).readings := by
  cases e with
  | start => exact List.prefix_refl _
  | readSnapshot | readVersion => exact List.prefix_append _ _
  | advance j =>
    rw [step]
    split <;> exact List.prefix_refl _

lemma readings_run (es : List Event) (w : SharedSettings) :
    w.readings <+: (w.run es).readings := by
  induction es generalizing w with
  | nil => exact List.prefix_refl _
  | cons e es ih => exact (readings_step e w).trans (ih _)

/-! ### What was asked for -/

/-- The provider of the refresh that an event starts. -/
def Event.provider? : Event → Option Provider
  | .start p => some p
  | .advance _ | .readSnapshot _ | .readVersion _ => none

/-- The event that a reading answers. -/
def question : ℕ × Reading → Event
  | (reader, .snapshot _) => .readSnapshot reader
  | (reader, .version _) => .readVersion reader

lemma providers_step (e : Event) (w : SharedSettings) :
    (w.step e).refreshes.map Refresh.provider =
      w.refreshes.map Refresh.provider ++ e.provider?.toList := by
  cases e with
  | start p => simp [step, Event.provider?, Refresh.start]
  | readSnapshot | readVersion => simp [step, Event.provider?]
  | advance i =>
    rw [step, Event.provider?, Option.toList_none, List.append_nil]
    cases hi : w.refreshes[i]? with
    | none => rfl
    | some r =>
      obtain ⟨hlt, rfl⟩ := List.getElem?_eq_some_iff.mp hi
      have hlt' : i < (w.refreshes.map Refresh.provider).length := by simpa using hlt
      simp only [List.map_set, provider_advance]
      rw [← List.getElem_map Refresh.provider (h := hlt'), List.set_getElem_self]

lemma providers_run (es : List Event) (w : SharedSettings) :
    (w.run es).refreshes.map Refresh.provider =
      w.refreshes.map Refresh.provider ++ es.filterMap Event.provider? := by
  induction es generalizing w with
  | nil => simp
  | cons e es ih =>
    rw [run_cons, ih, providers_step, List.append_assoc]
    cases e <;> rfl

lemma questions_step (e : Event) (w : SharedSettings) :
    (w.step e).readings.map question = w.readings.map question ++ [e].filter Event.asks := by
  cases e with
  | start p => simp [step, Event.asks]
  | readSnapshot | readVersion => exact List.map_append
  | advance i =>
    rw [step]
    split <;> simp [Event.asks]

lemma questions_run (es : List Event) (w : SharedSettings) :
    (w.run es).readings.map question = w.readings.map question ++ es.filter Event.asks := by
  induction es generalizing w with
  | nil => simp
  | cons e es ih =>
    rw [run_cons, ih, questions_step, List.append_assoc, ← List.filter_append,
      List.singleton_append]

/-- The versions that a reader has seen, in order. -/
def versionsSeen (readings : List (ℕ × Reading)) (reader : ℕ) : List ℕ :=
  readings.filterMap fun
    | (j, .version n) => if j = reader then some n else none
    | (_, .snapshot _) => none

lemma versionsSeen_sublist {inForce : List Snapshot} {readings : List (ℕ × Reading)}
    {versions : List ℕ} (reader : ℕ)
    (h : List.Forall₂ (fun x v => x.2.At inForce v) readings versions) :
    (versionsSeen readings reader).Sublist versions := by
  induction h with
  | nil => exact .slnil
  | @cons x v xs vs hx _ ih =>
    rcases x with ⟨j, _ | n⟩
    · exact ih.cons v
    · obtain rfl : n = v := hx
      by_cases hj : j = reader
      · simpa [versionsSeen, hj] using ih.cons_cons n
      · simpa [versionsSeen, hj] using ih.cons n

/-! ### Every run -/

/-- What a run comes to, of which `swaps` are the publications. -/
structure Serial (initial : Snapshot) (es : List Event) (swaps : List Swap) (w : SharedSettings) :
    Prop where
  /-- The refreshes are those that were started, in this order and each with its own provider. -/
  begun : w.refreshes.map Refresh.provider = es.filterMap Event.provider?
  /-- Every reader that asked has its answer, and of the kind that it asked for. -/
  answered : w.readings.map question = es.filter Event.asks
  version : w.settings.version = swaps.length
  current : (timeline initial swaps)[w.settings.version]? = some w.settings.current
  clamped : ∀ s ∈ timeline initial swaps,
    s.usePrioritization = true → s.cpuHeavyPoolSize ≤ s.analysisParallelism
  /-- A publication belongs to one refresh, which ends with it, and it has the answers to this
  refresh and no others. -/
  made : ∀ (v : ℕ) (s : Swap), swaps[v]? = some s → ∃ r, w.refreshes[s.refresh]? = some r ∧
    r.stage = .published ⟨v + 1, s.snapshot⟩ ∧ s.snapshot = r.provider.snapshot
  single : (swaps.map Swap.refresh).Nodup
  /-- What a refresh returns and reports is its own snapshot with the version of that. -/
  returned : ∀ (i : ℕ) (r : Refresh) (out : Settings), w.refreshes[i]? = some r →
    r.stage = .published out → ∃ v, out = ⟨v + 1, r.provider.snapshot⟩ ∧
      swaps[v]? = some ⟨i, r.provider.snapshot⟩ ∧ r.log.getLast? = some out.refreshNote ∧
      ∃ before, (timeline initial swaps)[v]? = some before ∧
        (Settings.mk v before).refresh r.provider = (out, r.log)
  /-- Readings are those of the versions in force when the readers asked; none of these is from
  before an earlier one. -/
  readings : ∃ versions : List ℕ, versions = (SharedSettings.initial initial).asked es ∧
    versions.Pairwise (· ≤ ·) ∧ (∀ v ∈ versions, v ≤ w.settings.version) ∧
    List.Forall₂ (fun x v => x.2.At (timeline initial swaps) v) w.readings versions
  seen : ∀ reader, (versionsSeen w.readings reader).Pairwise (· ≤ ·)
  /-- Four questions, the resolution and the publication are all that a refresh takes. -/
  ends : ∀ (i : ℕ) (r : Refresh) (more : List Event), w.refreshes[i]? = some r →
    6 ≤ more.countP (Event.advances i) → ∃ r' out, (w.run more).refreshes[i]? = some r' ∧
      r'.provider = r.provider ∧ r'.stage = .published out
  kept : ∀ more : List Event, w.readings <+: (w.run more).readings ∧
    ∀ (i : ℕ) (r : Refresh) (out : Settings), w.refreshes[i]? = some r →
      r.stage = .published out → (w.run more).refreshes[i]? = some r

lemma Published.out_eq {v : ℕ} {out : Settings} (h : Published initial past i v r out) :
    out = ⟨v + 1, r.provider.snapshot⟩ ∧ r.log.getLast? = some out.refreshNote := by
  obtain ⟨before, -, hr⟩ := h.refresh
  have hout : out = ((Settings.mk v before).refresh r.provider).1 := by rw [hr]
  have hlog : r.log = ((Settings.mk v before).refresh r.provider).2 := by rw [hr]
  refine ⟨by rw [hout, Settings.refresh_fst, Settings.publish], ?_⟩
  rw [hlog, hout]
  simp [Settings.refresh]

namespace Chronicle

lemma exists_published {out : Settings} (h : Chronicle initial past seen w)
    (hi : w.refreshes[i]? = some r) (hout : r.stage = .published out) :
    ∃ v, Published initial past i v r out := by
  cases h.recorded i r hi with
  | pending left_pos => simp [hout, RefreshStage.left] at left_pos
  | published v out' hp =>
    obtain rfl : out' = out := by simpa [hp.stage] using hout
    exact ⟨v, hp⟩

/-- Each publication is that of a refresh, with the version that follows. -/
lemma exists_of_swap {v : ℕ} {s : Swap} (h : Chronicle initial past seen w)
    (hv : past[v]? = some s) :
    ∃ r, w.refreshes[s.refresh]? = some r ∧ r.stage = .published ⟨v + 1, s.snapshot⟩ ∧
      s.snapshot = r.provider.snapshot := by
  obtain ⟨r, out, hr, hout⟩ := h.made s (List.mem_of_getElem? hv)
  obtain ⟨v', hp⟩ := h.exists_published hr hout
  -- One refresh has one publication, so it is this one.
  obtain rfl : v' = v := by
    have hlt : v' < (past.map Swap.refresh).length := by
      simpa using (List.getElem?_eq_some_iff.mp hp.swap).1
    exact (List.getElem?_inj hlt h.single).mp (by simp [hp.swap, hv])
  have hs : s.snapshot = r.provider.snapshot :=
    congrArg Swap.snapshot (Option.some.inj (hv.symm.trans hp.swap))
  exact ⟨r, hr, by rw [hout, hp.out_eq.1, hs], hs⟩

lemma left_le (h : Chronicle initial past seen w) (hi : w.refreshes[i]? = some r) :
    r.stage.left ≤ 6 := by
  cases h.recorded i r hi with
  | pending _ left_le => exact left_le
  | published v out hp => simp [hp.stage, RefreshStage.left]

end Chronicle

/-- **Refreshes are atomic, and none is lost.** However the refreshes of several threads overlap,
they come to the same as if each of them had run without interruption at the moment of its
publication, and readers see the snapshots of these publications in their order. -/
theorem serial_run (initial : Snapshot) (es : List Event) :
    Serial initial es ((SharedSettings.initial initial).swaps es)
      ((SharedSettings.initial initial).run es) := by
  have h := (Chronicle.start initial).run es
  have hbegun := providers_run es (SharedSettings.initial initial)
  have hanswered := questions_run es (SharedSettings.initial initial)
  rw [List.nil_append, List.nil_append] at h
  generalize (SharedSettings.initial initial).swaps es = past at h ⊢
  generalize (SharedSettings.initial initial).run es = w at h hbegun hanswered ⊢
  exact {
    begun := hbegun
    answered := hanswered
    version := h.version
    current := h.version ▸ h.current
    clamped := fun s _ => s.heavy_le
    made := fun _ _ => h.exists_of_swap
    single := h.single
    returned := by
      intro i r out hi hout
      obtain ⟨v, hp⟩ := h.exists_published hi hout
      exact ⟨v, hp.out_eq.1, hp.swap, hp.out_eq.2, hp.refresh⟩
    readings := ⟨_, rfl, h.sorted, h.version ▸ h.seen_le, h.readings⟩
    seen := fun reader => h.sorted.sublist (versionsSeen_sublist reader h.readings)
    ends := by
      intro i r more hi hcount
      obtain ⟨r', hr', hp, hleft, -⟩ := refreshes_run more hi
      have hle := h.left_le hi
      obtain ⟨out, hout⟩ := RefreshStage.left_eq_zero_iff.mp (by omega : r'.stage.left = 0)
      exact ⟨r', out, hr', hp, hout⟩
    kept := by
      refine fun more => ⟨readings_run more w, fun i r out hi hout => ?_⟩
      obtain ⟨r', hr', -, -, hsame⟩ := refreshes_run more hi
      rw [hr', hsame (RefreshStage.left_eq_zero_iff.mpr ⟨out, hout⟩)] }

/-- The order of the publications is not that in which the refreshes begin. -/
example (p q : Provider) :
    ((SharedSettings.initial .inert).swaps ([.start p, .start q] ++
      List.replicate 5 (.advance 0) ++ List.replicate 6 (.advance 1) ++
      [.advance 0])).map Swap.refresh = [1, 0] := by
  simp [SharedSettings.initial, swaps, swap?, step, List.replicate, Refresh.start, GroupId.all,
    advance]

end SharedSettings

end PhaseExecutors
