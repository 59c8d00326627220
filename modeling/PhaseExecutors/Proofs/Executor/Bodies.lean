import PhaseExecutors.Proofs.Executor.Accounts

/-!
Which tasks have begun, and what the stage of a job says of its task.

Every task that was let in is queued, has yet to begin, was skipped, or has begun, and is only one
of these. An outcome is that of a body that began, or the task was skipped.
-/

namespace PhaseExecutors

open Executor (Event Step)

namespace Stage

/-- It is not decided yet whether the body begins. -/
def isFresh : Stage → Bool
  | .waiting | .called | .ready => true
  | _ => false

lemma isFresh_ofOutcome (o : Outcome) : (ofOutcome o).isFresh = false := by
  cases o <;> rfl

end Stage

/-- What is taken of a list, without one element and of this one. -/
lemma coe_filterMap_cut {α β : Type*} (f : α → Option β) (xs ys : List α) (x : α) :
    ((xs ++ x :: ys).filterMap f : Multiset β) = (xs ++ ys).filterMap f + (f x).toList := by
  rw [Multiset.coe_add, Multiset.coe_eq_coe]
  refine (List.perm_middle.filterMap f).trans ?_
  rw [List.filterMap_cons]
  cases f x with
  | none => simp
  | some y => exact (List.perm_append_singleton y _).symm

namespace Ledger

/-! ### Jobs with their entries -/

def pairs (l : Ledger) (s : Executor) : List (Entry × Job) := l.jobs.zip s.jobs

variable {l : Ledger} {s t : Executor}

/-- A job at a cut of the list is paired with its entry, and so is any job in its place. -/
lemma Ties.pairs_cut (h : Ties l s) {pre post : List Job} {j : Job}
    (hs : s.jobs = pre ++ j :: post) :
    ∃ xs e ys, l.jobs[pre.length]? = some e ∧ e.work = j.work ∧ l.pairs s = xs ++ (e, j) :: ys ∧
      (∀ j', l.jobs.zip (pre ++ j' :: post) = xs ++ (e, j') :: ys) ∧
      (l.jobs.eraseIdx pre.length).zip (pre ++ post) = xs ++ ys := by
  obtain ⟨pre', e, post', hl, he, -, -, hlen⟩ := h.exists_cut hs
  refine ⟨pre'.zip pre, e, post'.zip post, by simp [hl, ← hlen], he, ?_, ?_, ?_⟩
  · rw [pairs, hl, hs, List.zip_append hlen, List.zip_cons_cons]
  · intro j'
    rw [hl, List.zip_append hlen, List.zip_cons_cons]
  · rw [hl, ← hlen, Executor.eraseIdx_cut, List.zip_append hlen]

/-! ### The course of a task -/

section

variable (l) (plan : Plan) (classifier : Classifier) (e : Entry)

/-- The outcome is what the task came to: it was skipped, or its body began and ended so. -/
def Settles (o : Outcome) : Prop :=
  e ∈ l.skipped ∧ o = .skipped ∨ e ∈ l.begun ∧ o = e.work.outcome plan classifier

/-- The stage of a job is one that its task can be at. -/
def Explains : Stage → Prop
  | .waiting | .called | .ready | .leaving => True
  | .gated | .running .. => e ∈ l.begun
  | .failing f => e ∈ l.begun ∧ e.work.outcome plan classifier = .fatal f
  | .finishing o => l.Settles plan classifier e o

end

structure Bodies (l : Ledger) (s : Executor) : Prop where
  accepted : (l.queue : Multiset Entry) + among Stage.isFresh (l.pairs s) + l.skipped + l.begun =
    l.accepted
  jobs : ∀ x ∈ l.pairs s, l.Explains s.plan s.classifier x.1 x.2.stage
  finished : ∀ c ∈ l.finished, l.Settles s.plan s.classifier c.1 c.2

variable {plan : Plan} {classifier : Classifier} {e : Entry} {l' : Ledger}

lemma Settles.mono {o : Outcome} (h : l.Settles plan classifier e o)
    (hskipped : l.skipped ⊆ l'.skipped) (hbegun : l.begun ⊆ l'.begun) :
    l'.Settles plan classifier e o :=
  h.imp (fun hs => ⟨hskipped hs.1, hs.2⟩) fun hb => ⟨hbegun hb.1, hb.2⟩

lemma Explains.mono {stage : Stage} (h : l.Explains plan classifier e stage)
    (hskipped : l.skipped ⊆ l'.skipped) (hbegun : l.begun ⊆ l'.begun) :
    l'.Explains plan classifier e stage := by
  cases stage with
  | waiting | called | ready | leaving => trivial
  | gated | running => exact hbegun h
  | failing => exact ⟨hbegun h.1, h.2⟩
  | finishing => exact Settles.mono h hskipped hbegun

lemma explains_ofOutcome (h : e ∈ l.begun) :
    l.Explains plan classifier e (.ofOutcome (e.work.outcome plan classifier)) := by
  cases ho : e.work.outcome plan classifier with
  | completed | recoverable | skipped => exact Or.inr ⟨h, ho.symm⟩
  | fatal f => exact ⟨h, ho⟩

/-- A job that goes on changes nothing but its stage. -/
lemma Bodies.of_cut (h : Bodies l s) (ht : Ties l s) {pre post : List Job} {j j' : Job}
    (hs : s.jobs = pre ++ j :: post) (hjobs : t.jobs = pre ++ j' :: post)
    (hplan : t.plan = s.plan) (hclassifier : t.classifier = s.classifier)
    (hfresh : j'.stage.isFresh = j.stage.isFresh)
    (hexplains : ∀ e, e.work = j.work → l.Explains s.plan s.classifier e j.stage →
      l.Explains s.plan s.classifier e j'.stage) : Bodies l t := by
  obtain ⟨xs, e, ys, -, he, hpairs, hcut, -⟩ := ht.pairs_cut hs
  have hpairs' : l.pairs t = xs ++ (e, j') :: ys := by rw [pairs, hjobs, hcut]
  refine ⟨?_, ?_, ?_⟩
  · rw [hpairs', among_cut_eq hfresh, ← hpairs, h.accepted]
  · rw [hpairs', hplan, hclassifier]
    exact Executor.forall_mem_cut h.jobs hpairs
      (hexplains e he (h.jobs (e, j) (by simp [hpairs])))
  · rw [hplan, hclassifier]
    exact h.finished

/-- A step that leaves the jobs alone. -/
lemma Bodies.of_eq (h : Bodies l s) (hjobs : t.jobs = s.jobs) (hplan : t.plan = s.plan)
    (hclassifier : t.classifier = s.classifier) : Bodies l t := by
  have hpairs : l.pairs t = l.pairs s := by rw [pairs, pairs, hjobs]
  refine ⟨?_, ?_, ?_⟩
  · rw [hpairs, h.accepted]
  · rw [hpairs, hplan, hclassifier]
    exact h.jobs
  · rw [hplan, hclassifier]
    exact h.finished

/-- A new task goes to the end of the queue. -/
lemma Bodies.submit (h : Bodies l s) (parent : Option ℕ) (w : Work) :
    Bodies (l.submit parent w true) s := by
  refine ⟨?_, h.jobs, h.finished⟩
  simp only [Ledger.submit, if_true, ← Multiset.coe_add, ← h.accepted, pairs]
  abel

lemma Bodies.refuse (h : Bodies l s) (parent : Option ℕ) (w : Work) :
    Bodies (l.submit parent w false) s :=
  ⟨h.accepted, h.jobs, h.finished⟩

lemma Bodies.finish (h : Bodies l s) {e : Entry} {o : Outcome}
    (ho : l.Settles s.plan s.classifier e o) :
    Bodies { l with finished := l.finished ++ [(e, o)] } s :=
  ⟨h.accepted, h.jobs, Executor.forall_mem_snoc h.finished ho⟩

/-- Once it is decided whether a body begins, the task is on one of two lists. -/
lemma Bodies.decide (h : Bodies l s) (ht : Ties l s) {pre post : List Job} {r : Routed}
    {p : Bool} {stage : Stage} {e : Entry} (hs : s.jobs = pre ++ ⟨r, p, .ready⟩ :: post)
    (he : l.jobs[pre.length]? = some e) (hjobs : t.jobs = pre ++ ⟨r, p, stage⟩ :: post)
    (hplan : t.plan = s.plan) (hclassifier : t.classifier = s.classifier)
    (hfresh : stage.isFresh = false) {skipped begun : List Entry} (hnew : skipped ++ begun = [e])
    (hskipped : l'.skipped = l.skipped ++ skipped) (hbegun : l'.begun = l.begun ++ begun)
    (hl : l'.accepted = l.accepted ∧ l'.queue = l.queue ∧ l'.jobs = l.jobs ∧
      l'.finished = l.finished)
    (hexplains : l'.Explains s.plan s.classifier e stage) : Bodies l' t := by
  obtain ⟨haccepted, hqueue, hj, hfinished⟩ := hl
  obtain ⟨xs, e', ys, he', -, hpairs, hcut, -⟩ := ht.pairs_cut hs
  obtain rfl : e' = e := by simpa [he] using he'.symm
  have hsub : l.skipped ⊆ l'.skipped := hskipped ▸ List.subset_append_left _ _
  have hsub' : l.begun ⊆ l'.begun := hbegun ▸ List.subset_append_left _ _
  refine ⟨?_, ?_, ?_⟩
  · have hsum := h.accepted
    rw [hpairs, among_append, among_cons] at hsum
    have hone : (skipped : Multiset Entry) + begun = {e'} := by
      rw [Multiset.coe_add, hnew, Multiset.coe_singleton]
    rw [pairs, hj, hjobs, hcut, among_append, among_cons, hfresh, haccepted, ← hsum, hqueue,
      hskipped, hbegun]
    simp only [Stage.isFresh, if_true, Bool.false_eq_true, if_false, ← Multiset.coe_add,
      Multiset.coe_nil, Multiset.coe_singleton, ← hone]
    abel
  · rw [pairs, hj, hjobs, hcut, hplan, hclassifier]
    exact Executor.forall_mem_cut (fun x hx => (h.jobs x hx).mono hsub hsub') hpairs hexplains
  · rw [hplan, hclassifier, hfinished]
    exact fun c hc => (h.finished c hc).mono hsub hsub'

lemma Bodies.step (ht : Ties l s) (h : Bodies l s) {ev : Event} (hs : Step s ev t) :
    Bodies (l.step s ev) t := by
  cases hs with
  | ask | «open» => exact ⟨h.accepted, h.jobs, h.finished⟩
  | recordIn hs =>
    rw [step_record hs]
    refine Bodies.submit ?_ none _
    exact h.of_eq rfl rfl rfl
  | recordOut hs =>
    rw [step_record hs]
    refine Bodies.refuse ?_ none _
    exact h.of_eq rfl rfl rfl
  | childIn hs =>
    obtain ⟨e, he, -⟩ := ht.getElem? hs
    rw [step_recordChild he hs]
    refine Bodies.submit ?_ _ _
    exact h.of_cut ht hs rfl rfl rfl rfl fun _ _ h => h
  | childOut hs =>
    obtain ⟨e, he, -⟩ := ht.getElem? hs
    rw [step_recordChild he hs]
    refine Bodies.refuse ?_ _ _
    exact h.of_cut ht hs rfl rfl rfl rfl fun _ _ h => h
  | @dequeue _ _ r hs hw =>
    obtain ⟨pre', e, post', hl, -, -, -, hlen⟩ := ht.exists_queued hs
    rw [← hlen, step_dequeue hl]
    have hfresh : (if r.lane.limited then Stage.waiting else .ready).isFresh = true := by
      split <;> rfl
    have hexplains : l.Explains s.plan s.classifier e
        (if r.lane.limited then .waiting else .ready) := by
      split <;> trivial
    refine ⟨?_, ?_, h.finished⟩
    · rw [pairs, List.zip_append ht.length_jobs, List.zip_cons_cons, among_append, among_cons,
        hfresh, ← h.accepted, hl]
      simp only [if_true, pairs, ← Multiset.coe_add, ← Multiset.cons_coe, ← Multiset.singleton_add,
        Multiset.coe_nil, List.zip_nil_right, among, List.filter_nil, List.map_nil]
      abel
    · rw [pairs, List.zip_append ht.length_jobs]
      exact Executor.forall_mem_snoc h.jobs hexplains
  | skip hs hc =>
    obtain ⟨e, he, -⟩ := ht.getElem? hs
    rw [step_skip he hc]
    refine h.decide ht hs he rfl rfl rfl rfl (List.append_nil [e]) rfl (List.append_nil _).symm
      ⟨rfl, rfl, rfl, rfl⟩ ?_
    exact Or.inl ⟨List.mem_append_right _ List.mem_cons_self, rfl⟩
  | halt hs hc | start hs hc =>
    obtain ⟨e, he, -⟩ := ht.getElem? hs
    rw [step_begin he hc]
    refine h.decide ht hs he rfl rfl rfl rfl (List.nil_append [e]) (List.append_nil _).symm rfl
      ⟨rfl, rfl, rfl, rfl⟩ ?_
    exact List.mem_append_right _ List.mem_cons_self
  | @finish _ _ r p o hs =>
    obtain ⟨xs, e, ys, he, -, hpairs, -⟩ := ht.pairs_cut hs
    rw [step_finish he hs]
    refine Bodies.finish ?_ (h.jobs (e, ⟨r, p, .finishing o⟩) (by simp [hpairs]))
    exact h.of_cut ht hs rfl rfl rfl rfl fun _ _ _ => trivial
  | leave hs =>
    obtain ⟨pre', e, post', hl, -, -, -, hlen⟩ := ht.exists_cut hs
    obtain ⟨xs, e', ys, -, -, hpairs, -, hrest⟩ := ht.pairs_cut hs
    rw [hl, ← hlen, Executor.eraseIdx_cut] at hrest
    rw [← hlen, step_leave hl]
    refine ⟨?_, ?_, h.finished⟩
    · have hsum := h.accepted
      rw [hpairs, among_append, among_cons] at hsum
      rw [pairs, hrest, among_append]
      exact hsum
    · rw [pairs, hrest]
      exact Executor.forall_mem_rest h.jobs hpairs
  | acquire hs | giveUp hs | giveBack hs | resume hs =>
    exact h.of_cut ht hs rfl rfl rfl rfl fun _ _ _ => trivial
  | pass hs | askChild hs =>
    exact h.of_cut ht hs rfl rfl rfl rfl fun _ _ h => h
  | conclude hs =>
    refine h.of_cut ht hs rfl rfl rfl (Stage.isFresh_ofOutcome _) ?_
    intro e hwork hbegun
    rw [Job.work_mk] at hwork
    rw [← hwork]
    exact explains_ofOutcome hbegun
  | cancel hs =>
    refine h.of_cut ht hs rfl rfl rfl rfl ?_
    rintro e - ⟨hbegun, hfatal⟩
    exact Or.inr ⟨hbegun, hfatal.symm⟩

lemma bodies_of_run {es : List Event} (hrun : (Executor.init plan classifier).run? es = some s) :
    Bodies (ofRun plan classifier es) s := by
  refine run_induction (P := fun _ => Bodies) ?_ (fun ht h hs => h.step ht hs) hrun
  exact ⟨rfl, nofun, nofun⟩

/-- A task that is queued, or whose job has yet to decide, has not begun. -/
lemma Bodies.not_mem_begun (h : Bodies l s) (hp : Places l s)
    (he : e ∈ l.queue ∨ e ∈ among Stage.isFresh (l.pairs s)) : e ∉ l.begun := by
  have hnodup : Multiset.Nodup (l.accepted : Multiset Entry) := hp.nodup_accepted
  rw [← h.accepted, Multiset.nodup_add] at hnodup
  intro hbegun
  refine Multiset.disjoint_left.mp hnodup.2.2 ?_ hbegun
  simpa only [Multiset.mem_add, Multiset.mem_coe] using Or.inl he

/-- A fatal failure is recorded only for a task that began and failed so. -/
lemma Settles.of_fatal {f : TaskFailure} (h : l.Settles plan classifier e (.fatal f)) :
    e ∈ l.begun ∧ e.work.outcome plan classifier = .fatal f := by
  rcases h with ⟨-, hskipped⟩ | ⟨hbegun, hfatal⟩
  · cases hskipped
  · exact ⟨hbegun, hfatal.symm⟩

end Ledger

end PhaseExecutors
