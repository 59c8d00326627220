import PhaseExecutors.Proofs.Executor.Accounts

/-!
What becomes of a forest of tasks.

At every moment each task of the forest has begun, or lies in a tree whose root is still to begin,
was dropped, or was skipped. Each task that began owes its outcome and its entry among the bodies
that ran until these are recorded.
-/

namespace PhaseExecutors

open Executor (Event Step)

namespace Work

lemma tasks_eq (w : Work) : w.tasks = w :: tasksAll w.children := by
  cases w
  rw [tasks]
  rfl

/-- All tasks of a forest, in no order. -/
def forest (ws : List Work) : Multiset Work := tasksAll ws

@[simp] lemma forest_nil : forest [] = 0 := by
  simp [forest, tasksAll]

@[simp] lemma forest_cons (w : Work) (ws : List Work) :
    forest (w :: ws) = {w} + forest w.children + forest ws := by
  simp only [forest, tasksAll, tasks_eq, ← Multiset.coe_add, ← Multiset.cons_coe,
    ← Multiset.singleton_add]

@[simp] lemma forest_append (ws ws' : List Work) : forest (ws ++ ws') = forest ws + forest ws' := by
  induction ws with
  | nil => simp
  | cons w ws ih => rw [List.cons_append, forest_cons, forest_cons, ih, add_assoc _ _ (forest ws')]

/-- The order of the trees does not matter. -/
lemma forest_perm {ws ws' : List Work} (h : ws.Perm ws') : forest ws = forest ws' := by
  induction h with
  | nil => rfl
  | cons w _ ih => rw [forest_cons, forest_cons, ih]
  | swap w w' ws =>
    simp only [forest_cons]
    abel
  | trans _ _ ih ih' => exact ih.trans ih'

end Work

open Work (forest)

namespace Job

/-- The tasks that have yet to begin or to be submitted in a job. -/
def ahead (j : Job) : Multiset Work :=
  match j.stage with
  | .waiting | .called | .ready => forest [j.work]
  | .gated => forest j.work.children
  | .running todo _ => forest todo
  | .failing _ | .finishing _ | .leaving => 0

/-- The outcome that is to be recorded for a job that has begun, or was skipped. -/
def owed (plan : Plan) (classifier : Classifier) (j : Job) : Multiset Outcome :=
  match j.stage with
  | .waiting | .called | .ready | .leaving => 0
  | .gated | .running .. => {j.work.outcome plan classifier}
  | .failing f => {.fatal f}
  | .finishing o => {o}

/-- The site of a body that has begun and waits at its gate. -/
def halted (plan : Plan) (j : Job) : Multiset (String × String) :=
  match j.stage with
  | .gated => {j.work.site plan}
  | _ => 0

section

variable {plan : Plan} {classifier : Classifier} {r : Routed} {p : Bool} {o : Outcome}

lemma ahead_ofOutcome : ahead ⟨r, p, .ofOutcome o⟩ = 0 := by
  cases o <;> rfl

lemma owed_ofOutcome : owed plan classifier ⟨r, p, .ofOutcome o⟩ = {o} := by
  cases o <;> rfl

lemma halted_ofOutcome : halted plan ⟨r, p, .ofOutcome o⟩ = 0 := by
  cases o <;> rfl

/-- What a job has ahead of it when it is taken up, whether it waits or not. -/
lemma ahead_taken (b : Bool) : ahead ⟨r, p, if b then .waiting else .ready⟩ = forest [r.work] := by
  cases b <;> rfl

lemma owed_taken (b : Bool) : owed plan classifier ⟨r, p, if b then .waiting else .ready⟩ = 0 := by
  cases b <;> rfl

lemma halted_taken (b : Bool) : halted plan ⟨r, p, if b then .waiting else .ready⟩ = 0 := by
  cases b <;> rfl

end

/-! ### Sums over jobs, at a cut of the list -/

section

variable {α : Type*} {f : Job → Multiset α} {js pre post : List Job} {j j' : Job}
  {a a' b d : Multiset α}

/-- What one job gives up goes elsewhere, and what it gets comes from there, or is new. -/
lemma sum_cut (h : (js.map f).sum + a = b) (hjs : js = pre ++ j :: post)
    (hd : f j' + a' = f j + a + d) : ((pre ++ j' :: post).map f).sum + a' = b + d := by
  rw [hjs] at h
  calc ((pre ++ j' :: post).map f).sum + a'
      = (pre.map f).sum + (post.map f).sum + (f j' + a') := by
        simp only [List.map_append, List.map_cons, List.sum_append, List.sum_cons]
        abel
    _ = ((pre ++ j :: post).map f).sum + a + d := by
        simp only [hd, List.map_append, List.map_cons, List.sum_append, List.sum_cons]
        abel
    _ = b + d := by rw [h]

lemma sum_cut_eq (h : (js.map f).sum + a = b) (hjs : js = pre ++ j :: post) (hj : f j' = f j) :
    ((pre ++ j' :: post).map f).sum + a = b := by
  rw [hjs] at h
  rw [← h]
  simp only [List.map_append, List.map_cons, hj]

lemma sum_rest (h : (js.map f).sum + a = b) (hjs : js = pre ++ j :: post) (hj : f j = 0) :
    ((pre ++ post).map f).sum + a = b := by
  rw [← h, hjs]
  simp only [List.map_append, List.map_cons, List.sum_append, List.sum_cons, hj, zero_add]

lemma sum_snoc (h : (js.map f).sum + a = b) (hd : f j + a' = a) :
    ((js ++ [j]).map f).sum + a' = b := by
  rw [← h, ← hd]
  simp only [List.map_append, List.map_cons, List.map_nil, List.sum_append, List.sum_cons,
    List.sum_nil, add_zero, add_assoc]

end

end Job

/-! ### The course of a run -/

namespace Ledger

structure Course (l : Ledger) (s : Executor) : Prop where
  /-- Every task of the forest has begun, is ahead, was dropped, or was skipped. -/
  tasks : (s.jobs.map Job.ahead).sum + (forest (s.tickets.map Ticket.work) +
    forest (s.queue.map Routed.work) + forest l.refused + forest (l.skipped.map Entry.work) +
    (l.begun.map Entry.work : List Work)) =
      forest l.asked
  /-- Every task that began or was skipped has its outcome recorded, or owes it. -/
  outcomes : (s.jobs.map (Job.owed s.plan s.classifier)).sum + l.outcomes =
    (l.begun.map fun e => e.work.outcome s.plan s.classifier : List Outcome) +
      (l.skipped.map fun _ => Outcome.skipped : List Outcome)
  /-- Every body that began ran, or waits at its gate. -/
  sites : (s.jobs.map (Job.halted s.plan)).sum + s.ran =
    (l.begun.map fun e => e.work.site s.plan : List (String × String))

variable {l l' : Ledger} {s t : Executor}

/-- A step of one job that owes what it owed before, and changes nothing else. -/
lemma Course.of_cut (h : Course l s) {pre post : List Job} {j j' : Job}
    (hs : s.jobs = pre ++ j :: post) (ht : t.jobs = pre ++ j' :: post)
    (hahead : j'.ahead = j.ahead)
    (howed : j'.owed s.plan s.classifier = j.owed s.plan s.classifier)
    (hhalted : j'.halted s.plan = j.halted s.plan) (hplan : t.plan = s.plan)
    (hclassifier : t.classifier = s.classifier) (htickets : t.tickets = s.tickets)
    (hqueue : t.queue = s.queue) (hran : t.ran = s.ran) : Course l t := by
  refine ⟨?_, ?_, ?_⟩
  · rw [htickets, hqueue, ht]
    exact Job.sum_cut_eq h.tasks hs hahead
  · rw [hplan, hclassifier, ht]
    exact Job.sum_cut_eq h.outcomes hs howed
  · rw [hplan, hran, ht]
    exact Job.sum_cut_eq h.sites hs hhalted

/-- The entry of a job whose body begins. -/
lemma Course.begin (h : Course l s) {pre post : List Job} {e : Entry} {r : Routed} {p : Bool}
    {stage : Stage} (he : e.work = r.work) (hs : s.jobs = pre ++ ⟨r, p, .ready⟩ :: post)
    (ht : t.jobs = pre ++ ⟨r, p, stage⟩ :: post)
    (hahead : Job.ahead ⟨r, p, stage⟩ = forest r.work.children)
    (howed : Job.owed s.plan s.classifier ⟨r, p, stage⟩ = {r.work.outcome s.plan s.classifier})
    (hhalted : Job.halted s.plan ⟨r, p, stage⟩ + (t.ran : Multiset (String × String)) =
      s.ran + {r.work.site s.plan})
    (hplan : t.plan = s.plan) (hclassifier : t.classifier = s.classifier)
    (htickets : t.tickets = s.tickets) (hqueue : t.queue = s.queue) :
    Course { l with begun := l.begun ++ [e] } t := by
  refine ⟨?_, ?_, ?_⟩
  · rw [htickets, hqueue, ht]
    refine (Job.sum_cut (d := 0) h.tasks hs ?_).trans (add_zero _)
    rw [hahead]
    simp only [Job.ahead, Job.work_mk, Work.forest_cons, Work.forest_nil, List.map_append,
      List.map_cons, List.map_nil, he, ← Multiset.coe_add, Multiset.coe_singleton]
    abel
  · rw [hplan, hclassifier, ht]
    refine (Job.sum_cut (d := {r.work.outcome s.plan s.classifier}) h.outcomes hs ?_).trans ?_
    · rw [howed]
      simp only [Job.owed, Ledger.outcomes]
      abel
    · simp only [List.map_append, List.map_cons, List.map_nil, he, ← Multiset.coe_add,
        Multiset.coe_singleton]
      abel
  · rw [hplan, ht]
    refine (Job.sum_cut (d := {r.work.site s.plan}) h.sites hs ?_).trans ?_
    · rw [hhalted]
      simp only [Job.halted, zero_add]
    · simp only [List.map_append, List.map_cons, List.map_nil, he, ← Multiset.coe_add,
        Multiset.coe_singleton]

lemma Course.step (ht : Ties l s) (hlanes : s.OnLanes) (h : Course l s) {ev : Event}
    (hs : Step s ev t) : Course (l.step s ev) t := by
  cases hs with
  | «open» => exact ⟨h.tasks, h.outcomes, h.sites⟩
  | ask w =>
    refine ⟨?_, h.outcomes, h.sites⟩
    simp only [Ledger.step, List.map_append, List.map_cons, List.map_nil, Work.forest_append,
      ← h.tasks]
    abel
  | recordIn hs =>
    rw [step_record hs]
    refine ⟨?_, h.outcomes, h.sites⟩
    simp only [Ledger.submit, if_true, ← h.tasks, hs, Plan.work_spawn, List.map_append,
      List.map_cons, List.map_nil, Work.forest_append, Work.forest_cons, Work.forest_nil]
    abel
  | recordOut hs =>
    rw [step_record hs]
    refine ⟨?_, h.outcomes, h.sites⟩
    simp only [Ledger.submit, Bool.false_eq_true, if_false, ← h.tasks, hs, List.map_append,
      List.map_cons, Work.forest_append, Work.forest_cons, Work.forest_nil]
    abel
  | dequeue hs hw =>
    obtain ⟨pre', e, post', hl, -, -, -, hlen⟩ := ht.exists_queued hs
    rw [← hlen, step_dequeue hl]
    refine ⟨Job.sum_snoc h.tasks ?_, Job.sum_snoc h.outcomes ?_, Job.sum_snoc h.sites ?_⟩
    · simp only [Job.ahead_taken, hs, List.map_append, List.map_cons, Work.forest_append,
        Work.forest_cons, Work.forest_nil]
      abel
    · rw [Job.owed_taken, zero_add]
      rfl
    · rw [Job.halted_taken, zero_add]
  | skip hs hc =>
    obtain ⟨e, he, hwork⟩ := ht.getElem? hs
    rw [step_skip he hc]
    refine ⟨(Job.sum_cut (d := 0) h.tasks hs ?_).trans (add_zero _),
      (Job.sum_cut (d := {.skipped}) h.outcomes hs ?_).trans ?_, Job.sum_cut_eq h.sites hs rfl⟩
    · simp only [Job.ahead, hwork, List.map_append, List.map_cons, List.map_nil,
        Work.forest_append, Work.forest_cons, Work.forest_nil]
      abel
    · simp only [Job.owed, Ledger.outcomes]
      abel
    · simp only [List.map_append, List.map_cons, List.map_nil, ← Multiset.coe_add,
        Multiset.coe_singleton]
      abel
  | halt hs hc =>
    obtain ⟨e, he, hwork⟩ := ht.getElem? hs
    rw [step_begin he hc]
    exact h.begin hwork hs rfl rfl rfl (add_comm _ _) rfl rfl rfl rfl
  | start hs hc =>
    obtain ⟨e, he, hwork⟩ := ht.getElem? hs
    rw [step_begin he hc]
    refine h.begin hwork hs rfl rfl rfl ?_ rfl rfl rfl rfl
    have hsite := hlanes.site_eq hs
    simp only [Job.work_mk] at hsite
    simp only [Job.halted, hsite, ← Multiset.coe_add, Multiset.coe_singleton, zero_add]
  | pass hs =>
    refine ⟨Job.sum_cut_eq h.tasks hs rfl, Job.sum_cut_eq h.outcomes hs rfl,
      (Job.sum_cut (d := 0) h.sites hs ?_).trans (add_zero _)⟩
    simp only [Job.halted, hlanes.site_eq hs, ← Multiset.coe_add, Multiset.coe_singleton]
    abel
  | childIn hs =>
    obtain ⟨e, he, -⟩ := ht.getElem? hs
    rw [step_recordChild he hs]
    refine ⟨(Job.sum_cut (d := 0) h.tasks hs ?_).trans (add_zero _),
      Job.sum_cut_eq h.outcomes hs rfl, Job.sum_cut_eq h.sites hs rfl⟩
    simp only [Ledger.submit, if_true, Job.ahead, Plan.work_spawn, List.map_append, List.map_cons,
      List.map_nil, Work.forest_append, Work.forest_cons, Work.forest_nil]
    abel
  | childOut hs =>
    obtain ⟨e, he, -⟩ := ht.getElem? hs
    rw [step_recordChild he hs]
    refine ⟨(Job.sum_cut (d := 0) h.tasks hs ?_).trans (add_zero _),
      Job.sum_cut_eq h.outcomes hs rfl, Job.sum_cut_eq h.sites hs rfl⟩
    simp only [Ledger.submit, Bool.false_eq_true, if_false, Job.ahead, Work.forest_append,
      Work.forest_cons, Work.forest_nil]
    abel
  | finish hs =>
    obtain ⟨e, he, -⟩ := ht.getElem? hs
    rw [step_finish he hs]
    refine ⟨Job.sum_cut_eq h.tasks hs rfl,
      (Job.sum_cut (d := 0) h.outcomes hs ?_).trans (add_zero _), Job.sum_cut_eq h.sites hs rfl⟩
    simp only [Job.owed, Ledger.outcomes, List.map_append, List.map_cons, List.map_nil,
      ← Multiset.coe_add, Multiset.coe_singleton]
    abel
  | leave hs =>
    obtain ⟨pre', e, post', hl, -, -, -, hlen⟩ := ht.exists_cut hs
    rw [← hlen, step_leave hl]
    exact ⟨Job.sum_rest h.tasks hs rfl, Job.sum_rest h.outcomes hs rfl, Job.sum_rest h.sites hs rfl⟩
  | conclude hs =>
    exact h.of_cut hs rfl Job.ahead_ofOutcome Job.owed_ofOutcome Job.halted_ofOutcome rfl rfl rfl
      rfl rfl
  | acquire hs | giveUp hs | giveBack hs | resume hs | askChild hs | cancel hs =>
    exact h.of_cut hs rfl rfl rfl rfl rfl rfl rfl rfl rfl

lemma course_of_run {plan : Plan} {classifier : Classifier} {es : List Event}
    (hrun : (Executor.init plan classifier).run? es = some s) :
    Course (ofRun plan classifier es) s := by
  have h := run_induction (P := fun _ l s => s.OnLanes ∧ Course l s) ?_
    (fun ht h hs => ⟨h.1.step hs, h.2.step ht h.1 hs⟩) hrun
  · exact h.2
  · exact ⟨⟨nofun, nofun⟩, by constructor <;> rfl⟩

end Ledger

end PhaseExecutors
