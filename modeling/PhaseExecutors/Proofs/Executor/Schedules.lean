import Mathlib.Algebra.BigOperators.Group.List.Basic
import PhaseExecutors.Proofs.Executor.Forest
import PhaseExecutors.Proofs.Executor.Summary

/-!
The result of a forest of tasks does not depend on the schedule.

A forest without a fatal failure runs as a whole, each task once. A forest with one ends in an
error under every schedule, also if the task that fails is never reached: then another one that
stopped the executor is to blame.
-/

namespace PhaseExecutors

open Executor (Event)
open Work (forest)

namespace Work

/-- The error of a task, charged to the pool that its kind is routed to. -/
def failure? (plan : Plan) (w : Work) : Option TaskFailure :=
  w.ending.error?.map fun e => ⟨(plan.route w.kind).name, e⟩

def FailsFatally (classifier : Classifier) (w : Work) : Prop :=
  ∃ e, w.ending.error? = some e ∧ classifier e = .fatal

variable {plan : Plan} {classifier : Classifier} {w : Work}

lemma outcome_eq_fatal_iff {f : TaskFailure} :
    w.outcome plan classifier = .fatal f ↔
      w.failure? plan = some f ∧ classifier f.error = .fatal := by
  cases he : w.ending.error? with
  | none => simp [outcome, failure?, he]
  | some e =>
    cases hk : classifier e <;> simp [outcome, failure?, he, hk]
    · rintro rfl
      simp [hk]
    · rintro rfl
      exact hk

lemma failsFatally_iff : w.FailsFatally classifier ↔ ∃ f, w.outcome plan classifier = .fatal f := by
  simp only [outcome_eq_fatal_iff, FailsFatally, failure?]
  constructor
  · rintro ⟨e, he, hk⟩
    exact ⟨⟨(plan.route w.kind).name, e⟩, by rw [he]; rfl, hk⟩
  · rintro ⟨f, hf, hk⟩
    obtain ⟨e, he, rfl⟩ := Option.map_eq_some_iff.mp hf
    exact ⟨e, he, hk⟩

lemma outcome_eq_completed_iff : w.outcome plan classifier = .completed ↔ w.ending = .ok := by
  rw [← Ending.error?_eq_none_iff]
  cases he : w.ending.error? with
  | none => simp [outcome, he]
  | some e => cases hk : classifier e <;> simp [outcome, he, hk]

lemma recoverable?_outcome (h : ¬w.FailsFatally classifier) :
    (w.outcome plan classifier).recoverable? = w.failure? plan := by
  cases he : w.ending.error? with
  | none => simp [outcome, failure?, he, Outcome.recoverable?]
  | some e =>
    cases hk : classifier e with
    | recoverable => simp [outcome, failure?, he, hk, Outcome.recoverable?]
    | fatal => exact absurd ⟨e, he, hk⟩ h

end Work

namespace Executor

/-- A run in which all trees of a forest were submitted, and which has come to its end. -/
structure Ended (plan : Plan) (classifier : Classifier) (roots : List Work) (es : List Event)
    (s : Executor) : Prop where
  run : (init plan classifier).run? es = some s
  /-- The trees come from outside in any order. -/
  asked : (es.filterMap Event.asked?).Perm roots
  recorded : s.tickets = []
  quiet : s.tracker.inFlight = 0

namespace Ended

variable {plan : Plan} {classifier : Classifier} {roots : List Work} {es : List Event}
  {s : Executor}

/-- Jobs that are about to leave have nothing ahead of them and owe nothing. -/
lemma sum_eq_zero (h : Ended plan classifier roots es s) {α : Type*} {f : Job → Multiset α}
    (hf : ∀ j, j.stage = .leaving → f j = 0) : (s.jobs.map f).sum = 0 := by
  refine List.sum_eq_zero ?_
  intro x hx
  obtain ⟨j, hj, rfl⟩ := List.mem_map.mp hx
  exact hf j (((Ledger.places_of_run h.run).of_quiet h.quiet).2 j hj)

lemma tasks (h : Ended plan classifier roots es s) :
    forest (Ledger.ofRun plan classifier es).refused +
      forest ((Ledger.ofRun plan classifier es).skipped.map Entry.work) +
        ((Ledger.ofRun plan classifier es).begun.map Entry.work : List Work) = forest roots := by
  have htasks := (Ledger.course_of_run h.run).tasks
  have hahead := h.sum_eq_zero (f := Job.ahead) fun j hj => by rw [Job.ahead, hj]
  have hqueue := ((Ledger.places_of_run h.run).of_quiet h.quiet).1
  have hasked := (Ledger.events_of_run h.run).1
  rw [hahead, h.recorded, hqueue, hasked, Work.forest_perm h.asked] at htasks
  simpa using htasks

lemma outcomes (h : Ended plan classifier roots es s) :
    ((Ledger.ofRun plan classifier es).outcomes : Multiset Outcome) =
      ((Ledger.ofRun plan classifier es).begun.map fun e => e.work.outcome plan classifier :
        List Outcome) +
      ((Ledger.ofRun plan classifier es).skipped.map fun _ => Outcome.skipped : List Outcome) := by
  have houtcomes := (Ledger.course_of_run h.run).outcomes
  obtain ⟨hplan, hclassifier⟩ := (Reachable.init.of_run? h.run).plan_eq
  have howed := h.sum_eq_zero (f := Job.owed plan classifier) fun j hj => by rw [Job.owed, hj]
  rwa [hplan, hclassifier, howed, zero_add] at houtcomes

lemma sites (h : Ended plan classifier roots es s) :
    s.ran.Perm ((Ledger.ofRun plan classifier es).begun.map fun e => e.work.site plan) := by
  have hsites := (Ledger.course_of_run h.run).sites
  obtain ⟨hplan, -⟩ := (Reachable.init.of_run? h.run).plan_eq
  have hhalted := h.sum_eq_zero (f := Job.halted plan) fun j hj => by rw [Job.halted, hj]
  rw [hplan, hhalted, zero_add] at hsites
  exact Multiset.coe_eq_coe.mp hsites

/-- A recorded failure is that of a task of the forest. -/
lemma exists_of_fatal (h : Ended plan classifier roots es s) {f : TaskFailure}
    (hf : s.tracker.fatal = some f) :
    ∃ w ∈ Work.tasksAll roots, w.outcome plan classifier = .fatal f := by
  have hmem : Outcome.fatal f ∈ (Ledger.ofRun plan classifier es).outcomes := by
    have hhead := (Ledger.tallies_of_run h.run).fatal
    rw [hf] at hhead
    obtain ⟨o, ho, hof⟩ := List.mem_filterMap.mp (List.mem_of_mem_head? hhead.symm)
    cases o <;> simp [Outcome.fatal?] at hof
    rwa [← hof]
  rw [← Multiset.mem_coe, h.outcomes, Multiset.mem_add, Multiset.mem_coe, Multiset.mem_coe] at hmem
  rcases hmem with hmem | hmem
  · obtain ⟨e, he, heq⟩ := List.mem_map.mp hmem
    refine ⟨e.work, ?_, heq⟩
    rw [← Multiset.mem_coe]
    change e.work ∈ forest roots
    rw [← h.tasks]
    exact Multiset.mem_add.mpr (Or.inr (List.mem_map_of_mem he))
  · simp at hmem

/-- Without a fatal failure, all tasks of the forest began, and their outcomes are recorded. -/
lemma of_not_fatal (h : Ended plan classifier roots es s) (hf : s.tracker.fatal = none) :
    (Ledger.ofRun plan classifier es).Unstopped ∧
      ((Ledger.ofRun plan classifier es).begun.map Entry.work).Perm (Work.tasksAll roots) ∧
      (Ledger.ofRun plan classifier es).outcomes.Perm
        ((Work.tasksAll roots).map (Work.outcome plan classifier)) := by
  have hc := Ledger.not_cancelled_of_ok h.run h.quiet hf
  have hu := (Ledger.unstopped_of_run h.run hc).1
  have hbegun : ((Ledger.ofRun plan classifier es).begun.map Entry.work).Perm
      (Work.tasksAll roots) := by
    have htasks := h.tasks
    rw [hu.refused, hu.skipped, List.map_nil, Work.forest_nil, zero_add, zero_add] at htasks
    exact Multiset.coe_eq_coe.mp htasks
  refine ⟨hu, hbegun, ?_⟩
  have houtcomes := h.outcomes
  rw [hu.skipped, List.map_nil, Multiset.coe_nil, add_zero] at houtcomes
  refine (Multiset.coe_eq_coe.mp houtcomes).trans ?_
  simpa [Function.comp_def] using hbegun.map (Work.outcome plan classifier)

end Ended

/-! ### The end of a run -/

/-- What the end of a run tells, by the tasks of its forest. -/
structure Settled (plan : Plan) (classifier : Classifier) (roots : List Work) (es : List Event)
    (s : Executor) : Prop where
  /-- A wait fails exactly if some task of the forest fails fatally. -/
  fails : (∃ f, s.tracker.result? = some (.error f)) ↔
    ∃ w ∈ Work.tasksAll roots, w.FailsFatally classifier
  /-- It fails with the error of such a task, and with the pool of the task's kind. -/
  failure : ∀ f, s.tracker.result? = some (.error f) →
    ∃ w ∈ Work.tasksAll roots, w.ending.error? = some f.error ∧ classifier f.error = .fatal ∧
      f.pool = (plan.route w.kind).name
  /-- Otherwise every task began once, and its body ran in the pool of its kind; the summary has
  all that completed, and the failures of the others. -/
  succeeds : (∀ w ∈ Work.tasksAll roots, ¬w.FailsFatally classifier) → ∃ summary,
    s.tracker.result? = some (.ok summary) ∧
    ((Ledger.ofRun plan classifier es).begun.map Entry.work).Perm (Work.tasksAll roots) ∧
    s.ran.Perm ((Work.tasksAll roots).map fun w => (w.label, (plan.route w.kind).name)) ∧
    summary.completed = ((Work.tasksAll roots).countP fun w => w.ending = .ok) ∧
    summary.recoverable.Perm ((Work.tasksAll roots).filterMap (Work.failure? plan)) ∧
    summary.skipped = 0

/-- Two ends with the same result, up to the order of what is listed and to which fatal failure
came first. -/
def Agree (s t : Executor) : Prop :=
  (∃ f g, s.tracker.result? = some (.error f) ∧ t.tracker.result? = some (.error g)) ∨
    ∃ m n, s.tracker.result? = some (.ok m) ∧ t.tracker.result? = some (.ok n) ∧
      m.completed = n.completed ∧ m.recoverable.Perm n.recoverable ∧ m.skipped = n.skipped ∧
      s.ran.Perm t.ran

section

variable {plan : Plan} {classifier : Classifier} {roots : List Work} {es es' : List Event}
  {s t : Executor}

lemma Ended.result?_eq (h : Ended plan classifier roots es s) :
    s.tracker.result? = some s.tracker.outcome :=
  Tracker.result?_eq_some_iff.mpr ⟨h.quiet, rfl⟩

lemma Ended.fatal_eq_none_iff (h : Ended plan classifier roots es s) :
    s.tracker.fatal = none ↔ ∀ w ∈ Work.tasksAll roots, ¬w.FailsFatally classifier := by
  constructor
  · -- All tasks began, and none of the outcomes that were recorded for them is a fatal one.
    intro hf w hw hfails
    obtain ⟨hu, -, houtcomes⟩ := h.of_not_fatal hf
    obtain ⟨f, hout⟩ := Work.failsFatally_iff.mp hfails
    have hmem := houtcomes.mem_iff.mpr (List.mem_map_of_mem hw)
    rw [hout] at hmem
    cases (hu.outcomes _ hmem).2
  · intro hall
    rw [Option.eq_none_iff_forall_ne_some]
    intro f hf
    obtain ⟨w, hw, hout⟩ := h.exists_of_fatal hf
    exact hall w hw (Work.failsFatally_iff.mpr ⟨f, hout⟩)

lemma Ended.settled (h : Ended plan classifier roots es s) :
    Settled plan classifier roots es s := by
  have hresult := h.result?_eq
  have hiff := h.fatal_eq_none_iff
  have hfailure : ∀ f, s.tracker.result? = some (.error f) →
      ∃ w ∈ Work.tasksAll roots, w.ending.error? = some f.error ∧ classifier f.error = .fatal ∧
        f.pool = (plan.route w.kind).name := by
    intro f hres
    obtain ⟨-, hout⟩ := Tracker.result?_eq_some_iff.mp hres
    obtain ⟨w, hw, hout⟩ := h.exists_of_fatal (Tracker.outcome_eq_error_iff.mp hout)
    obtain ⟨hfail, hk⟩ := Work.outcome_eq_fatal_iff.mp hout
    obtain ⟨e, he, rfl⟩ := Option.map_eq_some_iff.mp hfail
    exact ⟨w, hw, he, hk, rfl⟩
  refine ⟨⟨?_, ?_⟩, hfailure, ?_⟩
  · rintro ⟨f, hres⟩
    obtain ⟨w, hw, he, hk, -⟩ := hfailure f hres
    exact ⟨w, hw, f.error, he, hk⟩
  · rintro ⟨w, hw, hfails⟩
    cases hf : s.tracker.fatal with
    | none => exact absurd hfails (hiff.mp hf w hw)
    | some f => exact ⟨f, by rw [hresult, Tracker.outcome_eq_error_iff.mpr hf]⟩
  · intro hall
    have hf := hiff.mpr hall
    obtain ⟨hu, hbegun, houtcomes⟩ := h.of_not_fatal hf
    have htallies := Ledger.tallies_of_run h.run
    refine ⟨s.tracker.summary, ?_, hbegun, ?_, ?_, ?_, ?_⟩
    · rw [hresult, Tracker.outcome_eq_ok_iff.mpr ⟨hf, rfl⟩]
    · refine h.sites.trans ?_
      have hmap := hbegun.map (Work.site plan)
      rw [List.map_map] at hmap
      exact hmap
    · rw [htallies.completed, houtcomes.count_eq, List.count, List.countP_map]
      refine List.countP_congr fun w _ => ?_
      simp [Work.outcome_eq_completed_iff]
    · rw [htallies.recoverable]
      refine (houtcomes.filterMap _).trans ?_
      rw [List.filterMap_map]
      refine List.Perm.of_eq (List.filterMap_congr fun w hw => ?_)
      exact Work.recoverable?_outcome (hall w hw)
    · exact hu.skipped_eq_zero htallies

lemma Ended.agree (h : Ended plan classifier roots es s) (h' : Ended plan classifier roots es' t) :
    Agree s t := by
  by_cases hfails : ∃ w ∈ Work.tasksAll roots, w.FailsFatally classifier
  · obtain ⟨f, hf⟩ := h.settled.fails.mpr hfails
    obtain ⟨g, hg⟩ := h'.settled.fails.mpr hfails
    exact Or.inl ⟨f, g, hf, hg⟩
  · have hall : ∀ w ∈ Work.tasksAll roots, ¬w.FailsFatally classifier :=
      fun w hw hfail => hfails ⟨w, hw, hfail⟩
    obtain ⟨m, hm, -, hran, hc, hr, hs⟩ := h.settled.succeeds hall
    obtain ⟨n, hn, -, hran', hc', hr', hs'⟩ := h'.settled.succeeds hall
    refine Or.inr ⟨m, n, hm, hn, ?_, hr.trans hr'.symm, ?_, hran.trans hran'.symm⟩
    · rw [hc, hc']
    · rw [hs, hs']

/-- **The result of a forest does not depend on the schedule.** Every run that takes the forest in
and comes to its end settles it, and any two such runs agree. -/
theorem settled_of_ended (h : Ended plan classifier roots es s) :
    Settled plan classifier roots es s ∧
      ∀ es' t, Ended plan classifier roots es' t → Agree s t :=
  ⟨h.settled, fun _ _ h' => h.agree h'⟩

/-- A child fails on its own account after its parent has ended, and its outcome is recorded
first. -/
theorem settled_of_late_child : ∃ plan roots es s,
    Ended plan Classifier.evaluator roots es s ∧ (Work.tasksAll roots).length = 2 ∧
      s.jobs.length = 1 ∧ Settled plan Classifier.evaluator roots es s := by
  let child : Work := .task "child" .cpuHeavy none (.error .interrupted) []
  let parent : Work := .task "parent" .default none .ok [child]
  let es : List Event := [.ask parent, .record 0, .dequeue 0, .begin 0, .askChild 0, .recordChild 0,
    .conclude 0, .dequeue 0, .begin 1, .conclude 1, .finish 1, .finish 0, .leave 0]
  have h : Ended (.multiPool ⟨generalPool, 1⟩ ⟨cpuHeavyPool, 1⟩ none) .evaluator [parent] es _ :=
    ⟨rfl, .rfl, rfl, rfl⟩
  exact ⟨_, _, _, _, h, rfl, rfl, (settled_of_ended h).1⟩

end

end Executor

end PhaseExecutors
