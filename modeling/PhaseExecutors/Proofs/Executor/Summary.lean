import PhaseExecutors.Proofs.Executor.Accounts

/-!
The result of a wait accounts for all submissions, and success hides none that was dropped.

Submissions are dropped, and tasks skipped, only after the executor is stopped. From then on until
a fatal failure is recorded, the task that stopped the executor is itself in flight, so no wait
can return in between.
-/

namespace PhaseExecutors

open Executor (Event Step)

namespace Outcome

/-- Every outcome is of one of the four kinds. -/
lemma length_eq_kinds (os : List Outcome) :
    os.length = os.count .completed + (os.filterMap recoverable?).length + os.count .skipped +
      (os.filterMap fatal?).length := by
  induction os with
  | nil => rfl
  | cons o os ih =>
    cases o <;> simp [List.filterMap_cons, recoverable?, fatal?, ih] <;> omega

end Outcome

namespace Stage

/-- Jobs come to this stage only in an executor that is stopped. -/
def isStopped : Stage → Bool
  | .running _ (some false) | .finishing .skipped | .finishing (.fatal _) => true
  | _ => false

/-- The end of a body is not yet a stop: that comes with the next step. -/
lemma isStopped_ofOutcome (plan : Plan) (classifier : Classifier) (w : Work) :
    (ofOutcome (w.outcome plan classifier)).isStopped = false := by
  unfold Work.outcome
  split
  · rfl
  · split <;> rfl

/-- The job has stopped the executor and is about to record why. -/
def hasStopped : Stage → Bool
  | .finishing (.fatal _) => true
  | _ => false

end Stage

namespace Ledger

/-- The fatal failures that were recorded, in order. -/
def fatals (l : Ledger) : List TaskFailure := l.outcomes.filterMap Outcome.fatal?

/-! ### The tracker counts what the ledger lists -/

structure Tallies (l : Ledger) (s : Executor) : Prop where
  completed : s.tracker.summary.completed = l.outcomes.count .completed
  recoverable : s.tracker.summary.recoverable = l.outcomes.filterMap Outcome.recoverable?
  skipped : s.tracker.summary.skipped = l.refused.length + l.outcomes.count .skipped
  fatal : s.tracker.fatal = l.fatals.head?

variable {l l' : Ledger} {s t : Executor}

lemma Tallies.of_eq (h : Tallies l s) (hr : l'.refused = l.refused) (hf : l'.finished = l.finished)
    (hs : t.tracker.summary = s.tracker.summary) (hf' : t.tracker.fatal = s.tracker.fatal) :
    Tallies l' t := by
  have ho : l'.outcomes = l.outcomes := by rw [outcomes, outcomes, hf]
  refine ⟨?_, ?_, ?_, ?_⟩
  · rw [hs, ho, h.completed]
  · rw [hs, ho, h.recoverable]
  · rw [hs, ho, hr, h.skipped]
  · rw [hf', fatals, ho, h.fatal, fatals]

lemma Tallies.refuse (h : Tallies l s) (parent : Option ℕ) (w : Work)
    (ht : t.tracker = s.tracker.reject) : Tallies (l.submit parent w false) t := by
  refine ⟨?_, ?_, ?_, ?_⟩
  · rw [ht]
    exact h.completed
  · rw [ht]
    exact h.recoverable
  · have := h.skipped
    simp [ht, Tracker.reject, Ledger.submit, outcomes] at this ⊢
    omega
  · rw [ht]
    exact h.fatal

lemma Tallies.finish (h : Tallies l s) (e : Entry) (o : Outcome)
    (ht : t.tracker = s.tracker.finish o) :
    Tallies { l with finished := l.finished ++ [(e, o)] } t := by
  have ho : ({ l with finished := l.finished ++ [(e, o)] } : Ledger).outcomes =
      l.outcomes ++ [o] := by
    simp [outcomes]
  obtain ⟨hc, hr, hs, hf⟩ := h
  refine ⟨?_, ?_, ?_, ?_⟩
  · rw [ht, ho]
    cases o <;> simp [Tracker.finish, Tracker.record, Tracker.reject, hc]
  · rw [ht, ho]
    cases o <;> simp [Tracker.finish, Tracker.record, Tracker.reject, Outcome.recoverable?, hr]
  · rw [ht, ho]
    cases o <;> simp [Tracker.finish, Tracker.record, Tracker.reject, hs]
    omega
  · rw [fatals] at hf
    rw [ht, fatals, ho]
    cases o <;> simp [Tracker.finish, Tracker.record, Tracker.reject, Outcome.fatal?, hf]

lemma Tallies.step (ht : Ties l s) (h : Tallies l s) {ev : Event} (hs : Step s ev t) :
    Tallies (l.step s ev) t := by
  cases hs with
  | recordIn hs =>
    rw [step_record hs]
    exact h.of_eq rfl rfl rfl rfl
  | recordOut hs =>
    rw [step_record hs]
    exact h.refuse none _ rfl
  | childIn hs =>
    obtain ⟨e, he, -⟩ := ht.getElem? hs
    rw [step_recordChild he hs]
    exact h.of_eq rfl rfl rfl rfl
  | childOut hs =>
    obtain ⟨e, he, -⟩ := ht.getElem? hs
    rw [step_recordChild he hs]
    exact h.refuse _ _ rfl
  | dequeue hs =>
    obtain ⟨pre', e, post', hl, -, -, -, hlen⟩ := ht.exists_queued hs
    rw [← hlen, step_dequeue hl]
    exact h.of_eq rfl rfl rfl rfl
  | skip hs hc =>
    obtain ⟨e, he, -⟩ := ht.getElem? hs
    rw [step_skip he hc]
    exact h.of_eq rfl rfl rfl rfl
  | halt hs hc | start hs hc =>
    obtain ⟨e, he, -⟩ := ht.getElem? hs
    rw [step_begin he hc]
    exact h.of_eq rfl rfl rfl rfl
  | finish hs =>
    obtain ⟨e, he, -⟩ := ht.getElem? hs
    rw [step_finish he hs]
    exact h.finish e _ rfl
  | leave hs =>
    obtain ⟨pre', e, post', hl, -, -, -, hlen⟩ := ht.exists_cut hs
    rw [← hlen, step_leave hl]
    exact h.of_eq rfl rfl rfl rfl
  | ask | acquire | giveUp | giveBack | resume | pass | askChild | conclude | cancel | «open» =>
    exact h.of_eq rfl rfl rfl rfl

lemma tallies_of_run {plan : Plan} {classifier : Classifier} {es : List Event}
    (hrun : (Executor.init plan classifier).run? es = some s) :
    Tallies (ofRun plan classifier es) s := by
  refine run_induction (P := fun _ => Tallies) ?_ (fun ht h hs => h.step ht hs) hrun
  constructor <;> rfl

end Ledger

/-! ### Before and after the executor is stopped -/

namespace Executor

/-- No submission and no job has seen that the executor is stopped. -/
structure Unstopped (s : Executor) : Prop where
  tickets : ∀ ticket ∈ s.tickets, ticket.admitted = true
  jobs : ∀ j ∈ s.jobs, j.stage.isStopped = false

variable {s t : Executor}

lemma Unstopped.step (h : Unstopped s) {ev : Event} (hs : Step s ev t) (hc : t.cancelled = false) :
    Unstopped t := by
  obtain ⟨htickets, hjobs⟩ := h
  cases hs with
  | ask w => exact ⟨forall_mem_snoc htickets (by simpa using hc), hjobs⟩
  | recordIn hs | recordOut hs => exact ⟨forall_mem_rest htickets hs, hjobs⟩
  | dequeue hs => exact ⟨htickets, forall_mem_snoc hjobs (by simp only; split <;> rfl)⟩
  | skip hs hc' =>
    rw [hc'] at hc
    cases hc
  | askChild hs =>
    refine ⟨htickets, forall_mem_cut hjobs hs ?_⟩
    change s.cancelled = false at hc
    simp only [hc]
    rfl
  | conclude hs => exact ⟨htickets, forall_mem_cut hjobs hs (Stage.isStopped_ofOutcome _ _ _)⟩
  | cancel => cases hc
  | leave hs => exact ⟨htickets, forall_mem_rest hjobs hs⟩
  | «open» => exact ⟨htickets, hjobs⟩
  | acquire hs | giveUp hs | giveBack hs | resume hs | halt hs | start hs | pass hs | childIn hs
  | childOut hs | finish hs =>
    exact ⟨htickets, forall_mem_cut hjobs hs rfl⟩

/-- A fatal failure is recorded in a stopped executor, or a job is about to record one. -/
def StopKnown (s : Executor) : Prop :=
  s.cancelled = true → s.tracker.fatal = none → ∃ j ∈ s.jobs, j.stage.hasStopped = true

/-- Only the recording of a fatal failure takes the job away that is about to record it. -/
lemma StopKnown.step (h : StopKnown s) {ev : Event} (hs : Step s ev t) : StopKnown t := by
  intro hc hf
  cases hs with
  | ask | recordIn | recordOut | «open» => exact h hc hf
  | dequeue hs =>
    obtain ⟨j, hj, hj'⟩ := h hc hf
    exact ⟨j, List.mem_append_left _ hj, hj'⟩
  | cancel hs => exact ⟨_, List.mem_append_right _ List.mem_cons_self, rfl⟩
  | @finish pre post w p o hs =>
    cases o with
    | fatal f => simp [Tracker.finish, Tracker.record] at hf
    | completed | recoverable | skipped =>
      have hf' : s.tracker.fatal = none := by
        simpa [Tracker.finish, Tracker.record, Tracker.reject] using hf
      exact exists_mem_cut (h hc hf') hs Bool.false_ne_true
  | leave hs => exact exists_mem_rest (h hc hf) hs Bool.false_ne_true
  | acquire hs | giveUp hs | giveBack hs | resume hs | skip hs | halt hs | start hs | pass hs
  | askChild hs | childIn hs | childOut hs | conclude hs =>
    exact exists_mem_cut (h hc hf) hs Bool.false_ne_true

lemma Reachable.stopKnown {plan : Plan} {classifier : Classifier}
    (h : Reachable plan classifier s) : StopKnown s :=
  h.invariant (fun hc => by cases hc) fun h hs => h.step hs

end Executor

namespace Ledger

/-- No task was dropped or skipped, and none failed fatally. -/
structure Unstopped (l : Ledger) : Prop where
  refused : l.refused = []
  skipped : l.skipped = []
  outcomes : ∀ o ∈ l.outcomes, o ≠ .skipped ∧ o.fatal? = none

variable {l l' : Ledger} {s t : Executor}

lemma Unstopped.of_eq (h : Unstopped l) (hr : l'.refused = l.refused) (hs : l'.skipped = l.skipped)
    (hf : l'.finished = l.finished) : Unstopped l' := by
  refine ⟨by rw [hr, h.refused], by rw [hs, h.skipped], ?_⟩
  rw [Ledger.outcomes, hf]
  exact h.outcomes

lemma Unstopped.step (ht : Ties l s) (h : Unstopped l) (hu : s.Unstopped) {ev : Event}
    (hs : Step s ev t) (hc : t.cancelled = false) : Unstopped (l.step s ev) := by
  cases hs with
  | recordIn hs =>
    rw [step_record hs]
    exact h.of_eq rfl rfl rfl
  | recordOut hs => cases Executor.forall_mem_at hu.tickets hs
  | childIn hs =>
    obtain ⟨e, he, -⟩ := ht.getElem? hs
    rw [step_recordChild he hs]
    exact h.of_eq rfl rfl rfl
  | childOut hs => cases Executor.forall_mem_at hu.jobs hs
  | dequeue hs =>
    obtain ⟨pre', e, post', hl, -, -, -, hlen⟩ := ht.exists_queued hs
    rw [← hlen, step_dequeue hl]
    exact h.of_eq rfl rfl rfl
  | skip hs hc' =>
    rw [hc'] at hc
    cases hc
  | halt hs hc' | start hs hc' =>
    obtain ⟨e, he, -⟩ := ht.getElem? hs
    rw [step_begin he hc']
    exact h.of_eq rfl rfl rfl
  | @finish pre post w p o hs =>
    obtain ⟨e, he, -⟩ := ht.getElem? hs
    rw [step_finish he hs]
    have ho := Executor.forall_mem_at hu.jobs hs
    refine ⟨h.refused, h.skipped, ?_⟩
    rw [Ledger.outcomes, List.map_append]
    refine Executor.forall_mem_snoc h.outcomes ?_
    cases o <;> simp [Stage.isStopped, Outcome.fatal?] at ho ⊢
  | leave hs =>
    obtain ⟨pre', e, post', hl, -, -, -, hlen⟩ := ht.exists_cut hs
    rw [← hlen, step_leave hl]
    exact h.of_eq rfl rfl rfl
  | ask | acquire | giveUp | giveBack | resume | pass | askChild | conclude | cancel | «open» =>
    exact h.of_eq rfl rfl rfl

lemma unstopped_of_run {plan : Plan} {classifier : Classifier} {es : List Event}
    (hrun : (Executor.init plan classifier).run? es = some s) (hc : s.cancelled = false) :
    Unstopped (ofRun plan classifier es) ∧ s.Unstopped := by
  revert hc
  refine run_induction (P := fun _ l s => s.cancelled = false → Unstopped l ∧ s.Unstopped)
    ?_ ?_ hrun
  · intro _
    exact ⟨⟨rfl, rfl, nofun⟩, ⟨nofun, nofun⟩⟩
  · intro _ l s ev t ht h hs hc
    obtain ⟨hl, hu⟩ := h (hs.not_cancelled hc)
    exact ⟨hl.step ht hu hs hc, hu.step hs hc⟩

lemma Unstopped.fatals_eq_nil (h : Unstopped l) : l.fatals = [] :=
  List.filterMap_eq_nil_iff.mpr fun o ho => (h.outcomes o ho).2

lemma Unstopped.skipped_eq_zero (h : Unstopped l) (hs : Tallies l s) :
    s.tracker.summary.skipped = 0 := by
  have hcount : l.outcomes.count .skipped = 0 :=
    List.count_eq_zero.mpr fun hmem => (h.outcomes _ hmem).1 rfl
  rw [hs.skipped, h.refused, hcount]
  rfl

/-! ### Success -/

/-- A wait that succeeds finds an executor that was never stopped. -/
lemma not_cancelled_of_ok {plan : Plan} {classifier : Classifier} {es : List Event}
    (hrun : (Executor.init plan classifier).run? es = some s) (hq : s.tracker.inFlight = 0)
    (hf : s.tracker.fatal = none) : s.cancelled = false := by
  rw [← Bool.not_eq_true]
  intro hc
  obtain ⟨j, hj, hstop⟩ := (Executor.Reachable.init.of_run? hrun).stopKnown hc hf
  rw [((places_of_run hrun).of_quiet hq).2 j hj] at hstop
  cases hstop

/-- What was recorded is in flight, counted by the summary, or failed fatally. -/
lemma Tallies.total (h : Tallies l s)
    (hsum : s.tracker.inFlight + l.finished.length = l.accepted.length) :
    l.accepted.length + l.refused.length =
      s.tracker.inFlight + s.tracker.summary.completed + s.tracker.summary.recoverable.length +
        s.tracker.summary.skipped + l.fatals.length := by
  have hkinds := Outcome.length_eq_kinds l.outcomes
  have hlength : l.outcomes.length = l.finished.length := List.length_map _
  rw [h.completed, h.recoverable, h.skipped, fatals]
  omega

/-- **The result of a wait accounts for every recorded submission, and success hides none that was
dropped or skipped.** -/
theorem ok_hides_nothing {plan : Plan} {classifier : Classifier} {es : List Event} {s : Executor}
    (hrun : (Executor.init plan classifier).run? es = some s) :
    es.countP Event.isRecord =
        (ofRun plan classifier es).accepted.length + (ofRun plan classifier es).refused.length ∧
      es.countP Event.isRecord =
        s.tracker.inFlight + s.tracker.summary.completed + s.tracker.summary.recoverable.length +
          s.tracker.summary.skipped + (ofRun plan classifier es).fatals.length ∧
      ∀ summary, s.tracker.result? = some (.ok summary) →
        summary.skipped = 0 ∧ summary.ran = es.countP Event.isRecord := by
  have htallies := tallies_of_run hrun
  have hrecorded := (events_of_run hrun).2
  have htotal := htallies.total ((places_of_run hrun).inFlight_add (ties_of_run hrun))
  rw [hrecorded] at htotal
  refine ⟨hrecorded.symm, htotal, ?_⟩
  intro summary hres
  obtain ⟨hq, hok⟩ := Tracker.result?_eq_some_iff.mp hres
  obtain ⟨hnone, rfl⟩ := Tracker.outcome_eq_ok_iff.mp hok
  obtain ⟨hu, -⟩ := unstopped_of_run hrun (not_cancelled_of_ok hrun hq hnone)
  have hskipped := hu.skipped_eq_zero htallies
  refine ⟨hskipped, ?_⟩
  rw [htotal, hq, hskipped, hu.fatals_eq_nil, Summary.ran, List.length_nil]
  omega

/-- A recoverable failure and a success; then a wait returns. -/
theorem ok_hides_nothing_of_two : ∃ plan es s summary,
    (Executor.init plan Classifier.evaluator).run? es = some s ∧
      s.tracker.result? = some (.ok summary) ∧ es.countP Event.isRecord = 2 ∧
      summary.skipped = 0 ∧ summary.ran = 2 := by
  let failing : Work := .task "failing" .default none (.error .interrupted) []
  let fine : Work := .task "fine" .default none .ok []
  let es : List Event := [.ask failing, .ask fine, .record 1, .record 0, .dequeue 0, .dequeue 0,
    .begin 1, .begin 0, .conclude 0, .conclude 1, .finish 1, .finish 0, .leave 0]
  have hrun : (Executor.init (.single ⟨generalPool, 2⟩) .evaluator).run? es = some _ := rfl
  exact ⟨_, es, _, _, hrun, rfl, rfl, (ok_hides_nothing hrun).2.2 _ rfl⟩

end Ledger

end PhaseExecutors
