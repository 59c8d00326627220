import PhaseExecutors.Proofs.Executor.Bodies
import PhaseExecutors.Proofs.Executor.Summary

/-!
Which fatal failure a wait returns.

A task that fails fatally stops the executor and then records its failure. Another one may do both
in between, and the result is the failure that was recorded first. Its task is among those that had
stopped the executor by then; it is the first of these if no other one was as fast.
-/

namespace PhaseExecutors

open Executor (Event Step)

namespace Stage

/-- The failure that the job is about to record, after it has stopped the executor. -/
def pending? : Stage → Option TaskFailure
  | .finishing o => o.fatal?
  | _ => none

lemma pending?_eq_some_iff {stage : Stage} {f : TaskFailure} :
    stage.pending? = some f ↔ stage = .finishing (.fatal f) := by
  cases stage <;> simp [pending?, Outcome.fatal?_eq_some_iff]

lemma pending?_ofOutcome (plan : Plan) (classifier : Classifier) (w : Work) :
    (ofOutcome (w.outcome plan classifier)).pending? = none := by
  unfold Work.outcome
  split
  · rfl
  · split <;> rfl

end Stage

namespace Ledger

/-- The task that stops the executor with this step, and its failure. -/
def stopping? (l : Ledger) (s : Executor) : Event → Option (Entry × TaskFailure)
  | .cancel i =>
    match l.jobs[i]?, s.jobs[i]? with
    | some e, some ⟨_, _, .failing f⟩ => some (e, f)
    | _, _ => none
  | _ => none

/-- The tasks that stopped the executor, in the order in which they did. -/
def stops (plan : Plan) (classifier : Classifier) (es : List Event) : List (Entry × TaskFailure) :=
  trace stopping? empty (.init plan classifier) es

/-- The tasks whose fatal failures were recorded, in the order of the records. -/
def failed (l : Ledger) : List (Entry × TaskFailure) :=
  l.finished.filterMap fun c => c.2.fatal?.map (c.1, ·)

/-- Of jobs with their entries, those that have stopped the executor and are about to record it. -/
def pending (xs : List (Entry × Job)) : List (Entry × TaskFailure) :=
  xs.filterMap fun x => x.2.stage.pending?.map (x.1, ·)

variable {l l' : Ledger} {s t : Executor} {plan : Plan} {classifier : Classifier}
  {es : List Event}

/-! ### Every stop becomes a record -/

lemma pending_cut (xs ys : List (Entry × Job)) (e : Entry) (j : Job) :
    (pending (xs ++ (e, j) :: ys) : Multiset (Entry × TaskFailure)) =
      pending (xs ++ ys) + (j.stage.pending?.map (e, ·)).toList :=
  coe_filterMap_cut _ xs ys (e, j)

/-- A step that records no outcome, with the same failures pending. -/
lemma failed_of_eq (hf : l'.finished = l.finished)
    (hp : (pending (l'.pairs t) : Multiset (Entry × TaskFailure)) = pending (l.pairs s)) :
    (l'.failed + pending (l'.pairs t) : Multiset (Entry × TaskFailure)) =
      (l.failed + pending (l.pairs s) : Multiset (Entry × TaskFailure)) +
        (none : Option (Entry × TaskFailure)).toList := by
  rw [failed, hf, hp]
  exact (add_zero _).symm

/-- A job that goes on, with nothing pending before and after. -/
lemma failed_of_cut (ht : Ties l s) {pre post : List Job} {j j' : Job}
    (hs : s.jobs = pre ++ j :: post) (hjobs : t.jobs = pre ++ j' :: post)
    (hl : l'.jobs = l.jobs ∧ l'.finished = l.finished) (hj : j.stage.pending? = none)
    (hj' : j'.stage.pending? = none) :
    (l'.failed + pending (l'.pairs t) : Multiset (Entry × TaskFailure)) =
      (l.failed + pending (l.pairs s) : Multiset (Entry × TaskFailure)) +
        (none : Option (Entry × TaskFailure)).toList := by
  obtain ⟨xs, e, ys, -, -, hpairs, hcut, -⟩ := ht.pairs_cut hs
  refine failed_of_eq hl.2 ?_
  rw [hpairs, pairs, hl.1, hjobs, hcut, pending_cut, pending_cut, hj, hj']

/-- A step adds to what is recorded or pending only the task that stops the executor with it. -/
lemma failed_step (ht : Ties l s) {ev : Event} (hs : Step s ev t) :
    ((l.step s ev).failed + pending ((l.step s ev).pairs t) : Multiset (Entry × TaskFailure)) =
      (l.failed + pending (l.pairs s) : Multiset (Entry × TaskFailure)) +
        (stopping? l s ev).toList := by
  cases hs with
  | ask | «open» => exact failed_of_eq rfl rfl
  | recordIn hs | recordOut hs =>
    rw [step_record hs]
    exact failed_of_eq (finished_submit ..) (by rw [pairs, jobs_submit]; rfl)
  | @dequeue _ _ r hs hw =>
    obtain ⟨pre', e, post', hl, -, -, -, hlen⟩ := ht.exists_queued hs
    rw [← hlen, step_dequeue hl]
    have hnone : (if r.lane.limited then Stage.waiting else .ready).pending? = none := by
      split <;> rfl
    refine failed_of_eq rfl ?_
    rw [pairs, List.zip_append ht.length_jobs, List.zip_cons_cons, pending_cut, hnone]
    simp [pairs]
  | skip hs hc =>
    obtain ⟨e, he, -⟩ := ht.getElem? hs
    rw [step_skip he hc]
    exact failed_of_cut ht hs rfl ⟨rfl, rfl⟩ rfl rfl
  | halt hs hc | start hs hc =>
    obtain ⟨e, he, -⟩ := ht.getElem? hs
    rw [step_begin he hc]
    exact failed_of_cut ht hs rfl ⟨rfl, rfl⟩ rfl rfl
  | childIn hs | childOut hs =>
    obtain ⟨e, he, -⟩ := ht.getElem? hs
    rw [step_recordChild he hs]
    exact failed_of_cut ht hs rfl ⟨jobs_submit .., finished_submit ..⟩ rfl rfl
  | @cancel pre post w p f hs =>
    obtain ⟨xs, e, ys, he, -, hpairs, hcut, -⟩ := ht.pairs_cut hs
    have hnote : stopping? l s (.cancel pre.length) = some (e, f) := by simp [stopping?, he, hs]
    rw [hnote, hpairs, pairs]
    change (↑l.failed + ↑(pending (l.jobs.zip _)) : Multiset (Entry × TaskFailure)) = _
    rw [hcut, pending_cut, pending_cut, add_assoc]
    simp [Stage.pending?, Outcome.fatal?]
  | @finish pre post w p o hs =>
    obtain ⟨xs, e, ys, he, -, hpairs, hcut, -⟩ := ht.pairs_cut hs
    have hfailed : ({ l with finished := l.finished ++ [(e, o)] } : Ledger).failed =
        l.failed ++ (o.fatal?.map (e, ·)).toList := by
      rw [failed, List.filterMap_append, List.filterMap_cons, List.filterMap_nil]
      cases o.fatal? <;> rfl
    rw [step_finish he hs, hfailed, pairs, hcut, hpairs, pending_cut, pending_cut,
      ← Multiset.coe_add]
    simp only [Stage.pending?, stopping?, Option.map_none, Option.toList_none, Multiset.coe_nil]
    abel
  | leave hs =>
    obtain ⟨pre', e, post', hl, -, -, -, hlen⟩ := ht.exists_cut hs
    obtain ⟨xs, e', ys, -, -, hpairs, -, hrest⟩ := ht.pairs_cut hs
    rw [hl, ← hlen, Executor.eraseIdx_cut] at hrest
    rw [← hlen, step_leave hl]
    refine failed_of_eq rfl ?_
    rw [hpairs, pairs, hrest, pending_cut]
    exact (add_zero _).symm
  | acquire hs | giveUp hs | giveBack hs | resume hs | pass hs | askChild hs =>
    exact failed_of_cut ht hs rfl ⟨rfl, rfl⟩ rfl rfl
  | conclude hs =>
    exact failed_of_cut ht hs rfl ⟨rfl, rfl⟩ rfl (Stage.pending?_ofOutcome _ _ _)

/-- **Every task that stopped the executor has recorded its failure or is about to, and no other
task has a fatal failure.** -/
theorem failed_add_pending (hrun : (Executor.init plan classifier).run? es = some s) :
    ((ofRun plan classifier es).failed + pending ((ofRun plan classifier es).pairs s) :
      Multiset (Entry × TaskFailure)) = stops plan classifier es := by
  rw [← zero_add (stops plan classifier es : Multiset (Entry × TaskFailure))]
  exact add_trace
    (f := fun l s => (l.failed + pending (l.pairs s) : Multiset (Entry × TaskFailure)))
    (fun ht hs => failed_step ht hs) (.init plan classifier) hrun

lemma cancelled_step (ht : Ties l s) {ev : Event} (hs : Step s ev t) :
    t.cancelled = (s.cancelled || (stopping? l s ev).isSome) := by
  cases hs with
  | @cancel pre post w p f hs =>
    obtain ⟨e, he, -⟩ := ht.getElem? hs
    have hnote : stopping? l s (.cancel pre.length) = some (e, f) := by simp [stopping?, he, hs]
    rw [hnote, Option.isSome_some, Bool.or_true]
  | _ => exact (Bool.or_false _).symm

lemma cancelled_run (ht : Ties l s) (hrun : s.run? es = some t) :
    t.cancelled = true ↔ s.cancelled = true ∨ trace stopping? l s es ≠ [] := by
  induction es generalizing l s with
  | nil =>
    cases hrun
    simp [trace]
  | cons ev es ih =>
    obtain ⟨u, hs, hrun⟩ := Executor.run?_cons_eq_some_iff.mp hrun
    rw [ih (ht.step hs) hrun, cancelled_step ht hs, trace_cons hs]
    cases stopping? l s ev <;> simp

/-- The executor is stopped once some task has stopped it. -/
theorem cancelled_iff (hrun : (Executor.init plan classifier).run? es = some s) :
    s.cancelled = true ↔ stops plan classifier es ≠ [] := by
  rw [cancelled_run (.init plan classifier) hrun]
  exact or_iff_right Bool.false_ne_true

lemma mem_failed_iff {c : Entry × TaskFailure} :
    c ∈ l.failed ↔ (c.1, Outcome.fatal c.2) ∈ l.finished := by
  simp only [failed, List.mem_filterMap, Option.map_eq_some_iff, Outcome.fatal?_eq_some_iff]
  constructor
  · rintro ⟨⟨e, o⟩, hmem, f, rfl, rfl⟩
    exact hmem
  · intro hmem
    exact ⟨_, hmem, c.2, rfl, rfl⟩

/-- What stopped the executor are tasks that began and failed fatally. -/
lemma of_mem_stops (hrun : (Executor.init plan classifier).run? es = some s)
    {c : Entry × TaskFailure} (hc : c ∈ stops plan classifier es) :
    c.1 ∈ (ofRun plan classifier es).begun ∧ c.1.work.outcome plan classifier = .fatal c.2 := by
  have hbodies := bodies_of_run hrun
  obtain ⟨hplan, hclassifier⟩ := (Executor.Reachable.init.of_run? hrun).plan_eq
  rw [← Multiset.mem_coe, ← failed_add_pending hrun, Multiset.mem_add, Multiset.mem_coe,
    Multiset.mem_coe, mem_failed_iff, pending, List.mem_filterMap] at hc
  have hsettles : (ofRun plan classifier es).Settles s.plan s.classifier c.1 (.fatal c.2) := by
    rcases hc with hmem | ⟨⟨e, j⟩, hmem, hpending⟩
    · exact hbodies.finished _ hmem
    · obtain ⟨f, hstage, rfl⟩ := Option.map_eq_some_iff.mp hpending
      have hexplains := hbodies.jobs _ hmem
      rwa [Stage.pending?_eq_some_iff.mp hstage] at hexplains
  rw [hplan, hclassifier] at hsettles
  exact hsettles.of_fatal

lemma failed_extends (hrun : (Executor.init plan classifier).run? es = some s) (es' : List Event) :
    (ofRun plan classifier es).failed <+: (ofRun plan classifier (es ++ es')).failed := by
  rw [ofRun_append hrun]
  exact (extends_run _ _ _).finished.filterMap _

lemma stops_extends (hrun : (Executor.init plan classifier).run? es = some s) (es' : List Event) :
    stops plan classifier es <+: stops plan classifier (es ++ es') := by
  rw [stops, stops, trace_append hrun]
  exact List.prefix_append _ _

lemma head?_failed (l : Ledger) : l.failed.head?.map Prod.snd = l.fatals.head? := by
  rw [← List.head?_map, failed, fatals, outcomes, List.map_filterMap, List.filterMap_map]
  simp [Function.comp_def]

/-! ### The failure that is reported -/

/-- What is known of a failure that a wait returns, and of its task. -/
structure Reported (plan : Plan) (classifier : Classifier) (es : List Event) (f : TaskFailure)
    (e : Entry) : Prop where
  /-- It was the first to be recorded. -/
  first : (ofRun plan classifier es).failed.head? = some (e, f)
  cause : e ∈ (ofRun plan classifier es).begun ∧ e.work.outcome plan classifier = .fatal f
  /-- By now, all tasks that stopped the executor have recorded their failures. -/
  all : (ofRun plan classifier es).failed.Perm (stops plan classifier es)
  /-- The task had stopped the executor when the first failure was recorded. -/
  stopped : ∀ es₁ es₂, es = es₁ ++ es₂ → (ofRun plan classifier es₁).failed ≠ [] →
    (e, f) ∈ stops plan classifier es₁
  /-- If no other one had by then, it was the first to stop the executor. -/
  undisturbed : ∀ es₁ es₂ c, es = es₁ ++ es₂ → (ofRun plan classifier es₁).failed ≠ [] →
    stops plan classifier es₁ = [c] → (stops plan classifier es).head? = some (e, f)

/-- When nothing is in flight, no failure is pending. -/
lemma pending_of_quiet (hp : Places l s) (hq : s.tracker.inFlight = 0) :
    pending (l.pairs s) = [] := by
  rw [pending, List.filterMap_eq_nil_iff]
  rintro ⟨e, j⟩ hmem
  rw [(hp.of_quiet hq).2 j (List.of_mem_zip hmem).2]
  rfl

/-- **A wait that fails returns the failure that was recorded first.** Its task had stopped the
executor by then, and before all others unless several had. -/
theorem reported_of_run {f : TaskFailure}
    (hrun : (Executor.init plan classifier).run? es = some s)
    (hres : s.tracker.result? = some (.error f)) : ∃ e, Reported plan classifier es f e := by
  obtain ⟨hquiet, hout⟩ := Tracker.result?_eq_some_iff.mp hres
  obtain ⟨e, hfirst⟩ : ∃ e, (ofRun plan classifier es).failed.head? = some (e, f) := by
    have htallies := (tallies_of_run hrun).fatal
    rw [Tracker.outcome_eq_error_iff.mp hout, ← head?_failed] at htallies
    obtain ⟨⟨e, g⟩, hhead, rfl⟩ := Option.map_eq_some_iff.mp htallies.symm
    exact ⟨e, hhead⟩
  have hall : (ofRun plan classifier es).failed.Perm (stops plan classifier es) := by
    have h := failed_add_pending hrun
    rw [pending_of_quiet (places_of_run hrun) hquiet, Multiset.coe_nil, add_zero] at h
    exact Multiset.coe_eq_coe.mp h
  have hstopped : ∀ es₁ es₂, es = es₁ ++ es₂ → (ofRun plan classifier es₁).failed ≠ [] →
      (e, f) ∈ stops plan classifier es₁ := by
    rintro es₁ es₂ rfl hne
    obtain ⟨u, hrun₁, -⟩ := Executor.run?_append_eq_some_iff.mp hrun
    -- What is recorded first stays first.
    obtain ⟨rest, hrest⟩ := failed_extends hrun₁ es₂
    rw [← hrest, List.head?_append_of_ne_nil _ hne] at hfirst
    rw [← Multiset.mem_coe, ← failed_add_pending hrun₁]
    exact Multiset.mem_add.mpr (Or.inl (List.mem_of_mem_head? hfirst))
  refine ⟨e, hfirst, ?_, hall, hstopped, ?_⟩
  · exact of_mem_stops hrun (hall.mem_iff.mp (List.mem_of_mem_head? hfirst))
  · rintro es₁ es₂ c rfl hne hone
    have hmem := hstopped es₁ es₂ rfl hne
    obtain ⟨u, hrun₁, -⟩ := Executor.run?_append_eq_some_iff.mp hrun
    obtain ⟨rest, hrest⟩ := stops_extends hrun₁ es₂
    rw [hone, List.mem_singleton] at hmem
    rw [← hrest, hone, hmem]
    rfl

/-- Two tasks panic, and one has recorded its failure before the other ends. -/
theorem reported_of_two_panics : ∃ plan es s f e,
    (Executor.init plan Classifier.evaluator).run? es = some s ∧
      s.tracker.result? = some (.error f) ∧ (stops plan Classifier.evaluator es).length = 2 ∧
      Reported plan Classifier.evaluator es f e ∧
      (stops plan Classifier.evaluator es).head? = some (e, f) := by
  let slow : Work := .task "slow" .default none (.panicked none) []
  let fast : Work := .task "fast" .cpuHeavy none (.panicked none) []
  let f : TaskFailure := ⟨cpuHeavyPool, .panic, "task panicked"⟩
  let plan : Plan := .multiPool ⟨generalPool, 1⟩ ⟨cpuHeavyPool, 1⟩ none
  let es₁ : List Event := [.ask slow, .ask fast, .record 0, .record 0, .dequeue 0, .dequeue 0,
    .begin 0, .begin 1, .conclude 1, .cancel 1, .finish 1]
  let es₂ : List Event := [.conclude 0, .cancel 0, .finish 0]
  have hend : ((Executor.init plan .evaluator).run? (es₁ ++ es₂)).map
      (fun s => s.tracker.result?) = some (some (.error f)) := by decide +kernel
  obtain ⟨s, hrun, hres⟩ := Option.map_eq_some_iff.mp hend
  have hfailed : (ofRun plan .evaluator es₁).failed.length = 1 := by decide +kernel
  have hstops : (stops plan .evaluator es₁).length = 1 := by decide +kernel
  obtain ⟨c, hc⟩ := List.length_eq_one_iff.mp hstops
  obtain ⟨e, h⟩ := reported_of_run hrun hres
  have hfirst := h.undisturbed es₁ es₂ c rfl (List.ne_nil_of_length_eq_add_one hfailed) hc
  exact ⟨plan, es₁ ++ es₂, s, f, e, hrun, hres, by decide +kernel, h, hfirst⟩

/-- Two tasks fail fatally. The first one to stop the executor is overtaken before it records its
failure, and the failure of the other one is returned. -/
theorem reported_not_first_to_stop : ¬∀ plan classifier es s f, plan.start = .ok () →
    (Executor.init plan classifier).run? es = some s → s.tracker.result? = some (.error f) →
      ∃ e, (stops plan classifier es).head? = some (e, f) := by
  let first : Work := .task "first" .default none (.panicked (some "first")) []
  let second : Work := .task "second" .default none (.panicked (some "second")) []
  let plan : Plan := .single ⟨generalPool, 2⟩
  let es : List Event := [.ask first, .ask second, .record 0, .record 0, .dequeue 0, .dequeue 0,
    .begin 0, .begin 1, .conclude 0, .conclude 1, .cancel 0, .cancel 1, .finish 1, .finish 0]
  have hend : ((Executor.init plan .evaluator).run? es).map (fun s => s.tracker.result?) =
      some (some (.error ⟨generalPool, .panic, "second"⟩)) := by decide +kernel
  have hstops : ((stops plan .evaluator es).head?.map fun c => c.2.error.message) =
      some "first" := by decide +kernel
  intro h
  obtain ⟨s, hrun, hres⟩ := Option.map_eq_some_iff.mp hend
  obtain ⟨e, he⟩ := h plan .evaluator es s _ rfl hrun hres
  simp [he] at hstops

end Ledger

end PhaseExecutors
