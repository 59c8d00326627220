import Mathlib.Tactic.Abel
import PhaseExecutors.Proofs.Executor.Ledger

/-!
The count of tasks in flight is exact: it is the number of the tasks that were let in and whose
outcome is not recorded yet.

A task that was let in is in the queue, in a job, or has left; its outcome is recorded when its
job is about to leave, and only then.
-/

namespace PhaseExecutors

open Executor (Event Step)

namespace Stage

/-- The outcome of the job is recorded. -/
def isLeaving : Stage → Bool
  | .leaving => true
  | _ => false

@[simp] lemma isLeaving_leaving : isLeaving .leaving = true := rfl
@[simp] lemma isLeaving_waiting : isLeaving .waiting = false := rfl
@[simp] lemma isLeaving_called : isLeaving .called = false := rfl
@[simp] lemma isLeaving_ready : isLeaving .ready = false := rfl
@[simp] lemma isLeaving_gated : isLeaving .gated = false := rfl
@[simp] lemma isLeaving_running (todo : List Work) (admitted : Option Bool) :
    isLeaving (.running todo admitted) = false := rfl
@[simp] lemma isLeaving_failing (f : TaskFailure) : isLeaving (.failing f) = false := rfl
@[simp] lemma isLeaving_finishing (o : Outcome) : isLeaving (.finishing o) = false := rfl
lemma isLeaving_iff {stage : Stage} : stage.isLeaving ↔ stage = .leaving := by
  cases stage <;> simp
@[simp] lemma isLeaving_ofOutcome (o : Outcome) : (ofOutcome o).isLeaving = false := by
  cases o <;> rfl

end Stage

namespace Ledger

/-- The entries whose jobs are at certain stages. -/
def among (p : Stage → Bool) (xs : List (Entry × Job)) : List Entry :=
  (xs.filter fun x => p x.2.stage).map Prod.fst

section Among

variable {p : Stage → Bool} {e : Entry} {j j' : Job} {xs ys : List (Entry × Job)}

lemma among_append : among p (xs ++ ys) = among p xs ++ among p ys := by
  simp [among]

lemma among_cons :
    among p ((e, j) :: xs) = (if p j.stage then [e] else []) ++ among p xs := by
  cases h : p j.stage <;> simp [among, h]

lemma among_cut_eq (h : p j'.stage = p j.stage) :
    among p (xs ++ (e, j') :: ys) = among p (xs ++ (e, j) :: ys) := by
  rw [among_append, among_append, among_cons, among_cons, h]

end Among

/-- The entries whose jobs are about to leave. -/
def leaving (es : List Entry) (js : List Job) : List Entry :=
  ((es.zip js).filter fun x => x.2.stage.isLeaving).map Prod.fst

lemma leaving_append {es es' : List Entry} {js js' : List Job} (h : es.length = js.length) :
    leaving (es ++ es') (js ++ js') = leaving es js ++ leaving es' js' := by
  rw [leaving, List.zip_append h]
  exact among_append

lemma leaving_cons (e : Entry) (j : Job) (es : List Entry) (js : List Job) :
    leaving (e :: es) (j :: js) = (if j.stage.isLeaving then [e] else []) ++ leaving es js := by
  rw [leaving, List.zip_cons_cons]
  exact among_cons

lemma length_leaving {es : List Entry} {js : List Job} (h : es.length = js.length) :
    (leaving es js).length = js.countP fun j => j.stage.isLeaving := by
  induction js generalizing es with
  | nil => simp [leaving]
  | cons j js ih =>
    obtain _ | ⟨e, es⟩ := es
    · simp at h
    · rw [leaving_cons, List.length_append, ih (by simpa using h), List.countP_cons]
      cases j.stage.isLeaving <;> simp [Nat.add_comm]

/-- A job that changes its stage in front of its leaving. -/
lemma leaving_of_cut {es : List Entry} {pre post : List Job} {j j' : Job}
    (h : es.length = (pre ++ j :: post).length) (hj : j.stage.isLeaving = false)
    (hj' : j'.stage.isLeaving = false) :
    leaving es (pre ++ j' :: post) = leaving es (pre ++ j :: post) := by
  have hlt : pre.length < es.length := by
    rw [h, List.length_append, List.length_cons]
    omega
  obtain ⟨e, he⟩ : ∃ e, es[pre.length]? = some e := ⟨_, List.getElem?_eq_getElem hlt⟩
  obtain ⟨es', es'', rfl, hlen⟩ := Executor.exists_cut he
  rw [leaving_append hlen, leaving_append hlen, leaving_cons, leaving_cons, hj, hj']

/-- Where the tasks that were let in are. -/
structure Places (l : Ledger) (s : Executor) : Prop where
  numbers : l.accepted.map Entry.number = List.range l.accepted.length
  accepted : (l.queue : Multiset Entry) + l.jobs + l.left = l.accepted
  finished : (↑(l.finished.map Prod.fst) : Multiset Entry) = leaving l.jobs s.jobs + l.left
  inFlight : s.tracker.inFlight = s.queue.length + s.jobs.countP fun j => !j.stage.isLeaving

variable {l l' : Ledger} {s t : Executor}

lemma Places.init (plan : Plan) (classifier : Classifier) :
    Places empty (.init plan classifier) := by
  constructor <;> rfl

/-- A step that lets no task in and out, and leaves the count alone. -/
lemma Places.of_eq (h : Places l s) (ha : l'.accepted = l.accepted) (hq : l'.queue = l.queue)
    (hj : l'.jobs = l.jobs) (hl : l'.left = l.left) (hf : l'.finished = l.finished)
    (hc : leaving l.jobs t.jobs = leaving l.jobs s.jobs)
    (hn : t.tracker.inFlight = t.queue.length + t.jobs.countP fun j => !j.stage.isLeaving) :
    Places l' t := by
  refine ⟨?_, ?_, ?_, hn⟩
  · rw [ha, h.numbers]
  · rw [ha, hq, hj, hl, h.accepted]
  · rw [hf, hj, hl, hc, h.finished]

/-- A step of one job that goes on. -/
lemma Places.of_cut (h : Places l s) (hlen : l.jobs.length = s.jobs.length) {pre post : List Job}
    {j j' : Job} (hs : s.jobs = pre ++ j :: post) (ht : t.jobs = pre ++ j' :: post)
    (hj : j.stage.isLeaving = false) (hj' : j'.stage.isLeaving = false)
    (hq : t.queue = s.queue) (hn : t.tracker.inFlight = s.tracker.inFlight)
    (hl : l'.accepted = l.accepted ∧ l'.queue = l.queue ∧ l'.jobs = l.jobs ∧ l'.left = l.left ∧
      l'.finished = l.finished) : Places l' t := by
  obtain ⟨ha, hq', hjobs, hleft, hf⟩ := hl
  refine h.of_eq ha hq' hjobs hleft hf ?_ ?_
  · rw [hs] at hlen
    rw [hs, ht, leaving_of_cut hlen hj hj']
  · rw [hn, h.inFlight, hq, hs, ht]
    simp [hj, hj']

/-- A new task goes to the end of the queue. -/
lemma Places.submit (h : Places l s) (parent : Option ℕ) (w : Work)
    (hc : leaving l.jobs t.jobs = leaving l.jobs s.jobs)
    (hn : t.tracker.inFlight = t.queue.length + t.jobs.countP fun j => !j.stage.isLeaving) :
    Places (l.submit parent w true) t := by
  refine ⟨?_, ?_, ?_, hn⟩
  · simp [Ledger.submit, h.numbers, List.range_succ]
  · simp only [Ledger.submit, if_true, ← Multiset.coe_add, ← h.accepted]
    abel
  · simp only [Ledger.submit, if_true, hc, h.finished]

lemma Places.step (ht : Ties l s) (h : Places l s) {ev : Event} (hs : Step s ev t) :
    Places (l.step s ev) t := by
  have hlen := ht.length_jobs
  have hn := h.inFlight
  cases hs with
  | ask | «open» => exact h.of_eq rfl rfl rfl rfl rfl rfl hn
  | recordIn hs =>
    rw [step_record hs]
    exact h.submit none _ rfl (by simp [hn]; omega)
  | recordOut hs =>
    rw [step_record hs]
    exact h.of_eq rfl rfl rfl rfl rfl rfl hn
  | @dequeue _ _ r hs hw =>
    obtain ⟨pre', e, post', hl, he, hpre, hpost, hlen'⟩ := ht.exists_queued hs
    rw [← hlen', step_dequeue hl]
    have hstage :
        (if r.lane.limited then Stage.waiting else .ready).isLeaving = false := by
      split <;> rfl
    refine ⟨h.numbers, ?_, ?_, ?_⟩
    · rw [← h.accepted, hl]
      simp only [← Multiset.coe_add, ← Multiset.cons_coe, ← Multiset.singleton_add,
        Multiset.coe_nil]
      abel
    · rw [leaving_append hlen, leaving_cons, hstage]
      simpa [leaving] using h.finished
    · simp [hn, hs, hstage]
      omega
  | skip hs hc =>
    obtain ⟨e, he, -⟩ := ht.getElem? hs
    rw [step_skip he hc]
    exact h.of_cut hlen hs rfl rfl rfl rfl rfl ⟨rfl, rfl, rfl, rfl, rfl⟩
  | halt hs hc | start hs hc =>
    obtain ⟨e, he, -⟩ := ht.getElem? hs
    rw [step_begin he hc]
    exact h.of_cut hlen hs rfl rfl rfl rfl rfl ⟨rfl, rfl, rfl, rfl, rfl⟩
  | childIn hs =>
    obtain ⟨e, he, -⟩ := ht.getElem? hs
    rw [step_recordChild he hs]
    rw [hs] at hlen hn
    refine h.submit _ _ (by rw [hs]; exact leaving_of_cut hlen rfl rfl) ?_
    simp [hn]
    omega
  | childOut hs =>
    obtain ⟨e, he, -⟩ := ht.getElem? hs
    rw [step_recordChild he hs]
    exact h.of_cut hlen hs rfl rfl rfl rfl rfl ⟨rfl, rfl, rfl, rfl, rfl⟩
  | finish hs =>
    obtain ⟨pre', e, post', hl, he, hpre, hpost, hlen'⟩ := ht.exists_cut hs
    rw [step_finish (e := e) (by simp [hl, ← hlen']) hs]
    refine ⟨h.numbers, h.accepted, ?_, ?_⟩
    · have hf := h.finished
      rw [hl, hs, leaving_append hlen', leaving_cons] at hf
      rw [hl, leaving_append hlen', leaving_cons]
      simp only [List.map_append, List.map_cons, List.map_nil, ← Multiset.coe_add, hf,
        Stage.isLeaving_leaving, Stage.isLeaving_finishing, if_true, Bool.false_eq_true, if_false]
      abel
    · simp [hn, hs]
      omega
  | leave hs =>
    obtain ⟨pre', e, post', hl, he, hpre, hpost, hlen'⟩ := ht.exists_cut hs
    rw [← hlen', step_leave hl]
    refine ⟨h.numbers, ?_, ?_, ?_⟩
    · rw [← h.accepted, hl]
      simp only [← Multiset.coe_add, ← Multiset.cons_coe, ← Multiset.singleton_add,
        Multiset.coe_nil]
      abel
    · have hf := h.finished
      rw [hl, hs, leaving_append hlen', leaving_cons] at hf
      rw [hf, leaving_append hlen']
      simp only [Stage.isLeaving_leaving, if_true, ← Multiset.coe_add]
      abel
    · simp [hn, hs]
  | acquire hs | giveUp hs | giveBack hs | resume hs | pass hs | askChild hs | cancel hs =>
    exact h.of_cut hlen hs rfl rfl rfl rfl rfl ⟨rfl, rfl, rfl, rfl, rfl⟩
  | conclude hs =>
    exact h.of_cut hlen hs rfl rfl (by simp) rfl rfl ⟨rfl, rfl, rfl, rfl, rfl⟩

lemma places_of_run {plan : Plan} {classifier : Classifier} {es : List Event}
    (hrun : (Executor.init plan classifier).run? es = some s) :
    Places (ofRun plan classifier es) s :=
  run_induction (P := fun _ => Places) (.init plan classifier) (fun ht h hs => h.step ht hs) hrun

/-! ### Which outcomes are recorded -/

/-- An outcome is recorded for the task. -/
def hasFinished (l : Ledger) (e : Entry) : Bool := l.finished.any fun c => c.1.number == e.number

lemma hasFinished_iff {e : Entry} :
    l.hasFinished e ↔ e.number ∈ l.finished.map fun c => c.1.number := by
  simp [hasFinished]

lemma leaving_sublist {es : List Entry} {js : List Job} (h : es.length = js.length) :
    (leaving es js).Sublist es := by
  have hsub : ((es.zip js).filter fun x => x.2.stage.isLeaving).Sublist (es.zip js) :=
    List.filter_sublist
  have := hsub.map Prod.fst
  rwa [List.map_fst_zip (Nat.le_of_eq h)] at this

/-- The tasks with a recorded outcome are among those that were let in, each counted once. -/
lemma Places.finished_le (h : Places l s) (ht : Ties l s) :
    (↑(l.finished.map Prod.fst) : Multiset Entry) ≤ l.accepted := by
  have hsub : (↑(leaving l.jobs s.jobs) : Multiset Entry) ≤ l.jobs :=
    (leaving_sublist ht.length_jobs).subperm
  calc (↑(l.finished.map Prod.fst) : Multiset Entry)
      = leaving l.jobs s.jobs + l.left := h.finished
    _ ≤ l.jobs + l.left := by gcongr
    _ ≤ l.queue + l.jobs + l.left := by rw [add_assoc]; exact Multiset.le_add_left _ _
    _ = l.accepted := h.accepted

lemma Places.nodup (h : Places l s) : (l.accepted.map Entry.number).Nodup := by
  rw [h.numbers]
  exact List.nodup_range

lemma Places.nodup_finished (h : Places l s) (ht : Ties l s) :
    (l.finished.map fun c => c.1.number).Nodup := by
  have hle := Multiset.map_le_map (f := Entry.number) (h.finished_le ht)
  have hnd : Multiset.Nodup (↑(l.accepted.map Entry.number) : Multiset ℕ) := h.nodup
  simpa [Function.comp_def] using Multiset.nodup_of_le hle hnd

/-- In flight and recorded together make up all tasks that were let in. -/
lemma Places.inFlight_add (h : Places l s) (ht : Ties l s) :
    s.tracker.inFlight + l.finished.length = l.accepted.length := by
  have ha := congrArg Multiset.card h.accepted
  have hf := congrArg Multiset.card h.finished
  simp only [Multiset.card_add, Multiset.coe_card, List.length_map] at ha hf
  rw [length_leaving ht.length_jobs] at hf
  have hq : l.queue.length = s.queue.length := by simpa using congrArg List.length ht.queue
  have hj : s.jobs.length = (s.jobs.countP fun j => j.stage.isLeaving) +
      s.jobs.countP fun j => !j.stage.isLeaving := by
    simpa using List.length_eq_countP_add_countP (fun j : Job => j.stage.isLeaving) (l := s.jobs)
  have := ht.length_jobs
  rw [h.inFlight]
  omega

/-- With nothing in flight, the queue is empty and all that jobs have yet to do is leave. -/
lemma Places.of_quiet (h : Places l s) (hq : s.tracker.inFlight = 0) :
    s.queue = [] ∧ ∀ j ∈ s.jobs, j.stage = .leaving := by
  have hn := h.inFlight
  refine ⟨List.length_eq_zero_iff.mp (by omega), ?_⟩
  have hcount : (s.jobs.countP fun j => !j.stage.isLeaving) = 0 := by omega
  intro j hj
  exact Stage.isLeaving_iff.mp (by simpa using List.countP_eq_zero.mp hcount j hj)

/-- The tasks without a recorded outcome, as many as the others leave. -/
lemma Places.length_open (h : Places l s) (ht : Ties l s) :
    (l.accepted.filter fun e => !l.hasFinished e).length + l.finished.length =
      l.accepted.length := by
  obtain ⟨rest, hrest⟩ := Multiset.le_iff_exists_add.mp (h.finished_le ht)
  induction rest using Quotient.inductionOn with
  | _ rest =>
    have hperm : l.accepted.Perm (l.finished.map Prod.fst ++ rest) := Multiset.coe_eq_coe.mp hrest
    have hnd := (hperm.map Entry.number).nodup_iff.mp h.nodup
    rw [List.map_append, List.nodup_append] at hnd
    have hdone : (l.finished.map Prod.fst).filter (fun e => !l.hasFinished e) = [] := by
      rw [List.filter_eq_nil_iff]
      intro e he
      obtain ⟨c, hc, rfl⟩ := List.mem_map.mp he
      simpa [hasFinished] using ⟨c.1, ⟨c.2, hc⟩, rfl⟩
    have hopen : rest.filter (fun e => !l.hasFinished e) = rest := by
      rw [List.filter_eq_self]
      intro e he
      rw [Bool.not_eq_true', ← Bool.not_eq_true, hasFinished_iff]
      intro hmem
      exact hnd.2.2 _ (by simpa [Function.comp_def] using hmem) _ (List.mem_map_of_mem he) rfl
    rw [(hperm.filter _).length_eq, List.filter_append, hdone, hopen, hperm.length_eq]
    simp [Nat.add_comm]

/-- Two tasks that were let in have different numbers. -/
lemma Places.eq_of_number (h : Places l s) {a b : Entry} (ha : a ∈ l.accepted) (hb : b ∈ l.accepted)
    (hn : a.number = b.number) : a = b :=
  List.inj_on_of_nodup_map h.nodup ha hb hn

/-- The tasks with a recorded outcome are those whose jobs are about to leave or have left. -/
lemma Places.hasFinished_iff (h : Places l s) (ht : Ties l s) {e : Entry} (he : e ∈ l.accepted) :
    l.hasFinished e ↔ e ∈ leaving l.jobs s.jobs ∨ e ∈ l.left := by
  have hmem : e ∈ l.finished.map Prod.fst ↔ e ∈ leaving l.jobs s.jobs ∨ e ∈ l.left := by
    rw [← Multiset.mem_coe, h.finished, Multiset.mem_add, Multiset.mem_coe, Multiset.mem_coe]
  rw [← hmem, Ledger.hasFinished_iff]
  constructor
  · intro hn
    obtain ⟨c, hc, hce⟩ := List.mem_map.mp hn
    have hc' : c.1 ∈ l.finished.map Prod.fst := List.mem_map_of_mem hc
    have := h.eq_of_number (Multiset.mem_of_le (h.finished_le ht) hc') he hce
    rwa [← this]
  · intro hm
    obtain ⟨c, hc, rfl⟩ := List.mem_map.mp hm
    exact List.mem_map_of_mem hc

lemma Places.nodup_accepted (h : Places l s) : l.accepted.Nodup := h.nodup.of_map _

/-- A job that goes on is one of a task without a recorded outcome. -/
lemma Places.open_of_cut (h : Places l s) (ht : Ties l s) {pre post : List Job} {j : Job}
    (hs : s.jobs = pre ++ j :: post) (hj : j.stage.isLeaving = false) :
    ∃ e, l.jobs[pre.length]? = some e ∧ l.hasFinished e = false := by
  obtain ⟨pre', e, post', hl, -, -, -, hlen⟩ := ht.exists_cut hs
  have hnd : (l.jobs ++ l.left).Nodup := by
    have := h.nodup_accepted
    rw [← Multiset.coe_nodup, ← h.accepted, Multiset.coe_add, Multiset.coe_add, Multiset.coe_nodup,
      List.append_assoc, List.nodup_append] at this
    exact this.2.1
  have he : e ∈ l.accepted := by
    rw [← Multiset.mem_coe, ← h.accepted]
    simp [hl]
  refine ⟨e, by simp [hl, ← hlen], ?_⟩
  rw [Bool.eq_false_iff, Ne, h.hasFinished_iff ht he]
  rw [hl, List.append_assoc, List.cons_append, List.nodup_middle, List.nodup_cons] at hnd
  rintro (hlv | hleft)
  · have hpost : post'.length = post.length := by
      have := ht.length_jobs
      rw [hl, hs] at this
      simp at this
      omega
    rw [hl, hs, leaving_append hlen, leaving_cons, hj] at hlv
    simp only [Bool.false_eq_true, if_false, List.nil_append, List.mem_append] at hlv
    refine hnd.1 ?_
    rcases hlv with hlv | hlv
    · simp [(leaving_sublist hlen).subset hlv]
    · simp [(leaving_sublist hpost).subset hlv]
  · exact hnd.1 (by simp [hleft])

/-! ### Exact accounts -/

/-- A task was let in on the submission of another one. -/
def Submitted (l : Ledger) (a b : Entry) : Prop := b ∈ l.accepted ∧ b.parent = some a.number

/-- The count of a tracker agrees with the tasks of the ledger, and no task is lost sight of. -/
structure Exact (l : Ledger) (s : Executor) : Prop where
  queue : l.queue.map Entry.work = s.queue.map Routed.work
  jobs : l.jobs.map Entry.work = s.jobs.map Job.work
  /-- A task that was let in is queued, in a job or gone, and at one place only. -/
  places : (l.queue ++ l.jobs ++ l.left).Perm l.accepted
  distinct : (l.accepted.map Entry.number).Nodup
  /-- Its outcome is recorded when its job is about to leave, and not before. -/
  finished : ∀ e ∈ l.accepted, l.hasFinished e ↔ e ∈ leaving l.jobs s.jobs ∨ e ∈ l.left
  /-- In flight are the tasks without a recorded outcome. -/
  inFlight : s.tracker.inFlight = (l.accepted.filter fun e => !l.hasFinished e).length
  /-- These are queued, or in jobs that wait, run, or have yet to record how they ended. -/
  unfinished : s.tracker.inFlight = s.queue.length + s.jobs.countP fun j => !j.stage.isLeaving
  /-- No task has two outcomes. -/
  once : (l.finished.map fun c => c.1.number).Nodup
  known : ∀ c ∈ l.finished, c.1 ∈ l.accepted
  /-- The count goes down by one with every outcome. -/
  counted : ∀ i t, s.step? (.finish i) = some t → s.tracker.inFlight = t.tracker.inFlight + 1
  /-- A task that submits another one is in flight itself. -/
  parent : ∀ i t, s.step? (.recordChild i) = some t →
    ∃ e, l.jobs[i]? = some e ∧ l.hasFinished e = false
  /-- When a wait returns, nothing is queued or goes on in a job, and every task that was let in
  has its outcome, with all that were submitted on its account. -/
  quiet : ∀ r, s.tracker.result? = some r → s.queue = [] ∧ (∀ j ∈ s.jobs, j.stage = .leaving) ∧
    ∀ a ∈ l.accepted, ∀ b, Relation.ReflTransGen l.Submitted a b → l.hasFinished b

/-- **The count of tasks in flight is exact in every state of every run.** -/
theorem inFlight_exact {plan : Plan} {classifier : Classifier} {es : List Event} {s : Executor}
    (hrun : (Executor.init plan classifier).run? es = some s) :
    Exact (ofRun plan classifier es) s := by
  have ht := ties_of_run hrun
  have h := places_of_run hrun
  generalize ofRun plan classifier es = l at ht h
  have hsum := h.inFlight_add ht
  have hopen := h.length_open ht
  refine ⟨ht.queue, ht.jobs, ?_, h.nodup, fun e he => h.hasFinished_iff ht he, by omega, h.inFlight,
    h.nodup_finished ht, ?_, ?_, ?_, ?_⟩
  · exact Multiset.coe_eq_coe.mp (by simpa only [← Multiset.coe_add] using h.accepted)
  · intro c hc
    exact Multiset.mem_of_le (h.finished_le ht) (List.mem_map_of_mem hc)
  · intro i t hstep
    have hn := h.inFlight
    cases Step.of_step? hstep with
    | finish hs =>
      rw [hs, List.countP_append, List.countP_cons] at hn
      simp at hn ⊢
      omega
  · intro i t hstep
    cases Step.of_step? hstep with
    | childIn hs | childOut hs => exact h.open_of_cut ht hs rfl
  · intro r hr
    have hquiet := (Tracker.result?_eq_some_iff.mp hr).1
    obtain ⟨hqueue, hjobs⟩ := h.of_quiet hquiet
    have hall : ∀ e ∈ l.accepted, l.hasFinished e := by
      have hnone : (l.accepted.filter fun e => !l.hasFinished e) = [] := by
        rw [← List.length_eq_zero_iff]
        omega
      simpa using List.filter_eq_nil_iff.mp hnone
    refine ⟨hqueue, hjobs, ?_⟩
    intro a ha b hab
    rcases hab.cases_tail with rfl | ⟨c, -, hb, -⟩
    · exact hall _ ha
    · exact hall b hb

/-- A heavy task has submitted one child and is in flight with it. -/
theorem inFlight_exact_in_body : ∃ plan es s,
    (Executor.init plan Classifier.evaluator).run? es = some s ∧ s.tracker.inFlight = 2 ∧
      s.queue.length = 1 ∧ Exact (ofRun plan Classifier.evaluator es) s := by
  let child : Work := .task "child" .default none (.panicked none) []
  let parent : Work := .task "parent" .cpuHeavy none .ok [child]
  let es : List Event := [.ask parent, .record 0, .dequeue 0, .acquire 0, .resume 0, .begin 0,
    .askChild 0, .recordChild 0]
  exact ⟨.tieredPriority ⟨generalPool, 2⟩ 1, es, _, rfl, rfl, rfl, inFlight_exact rfl⟩

end Ledger

end PhaseExecutors
