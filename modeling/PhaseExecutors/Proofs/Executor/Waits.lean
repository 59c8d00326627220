import PhaseExecutors.Executor.Watched
import PhaseExecutors.Proofs.Executor.Summary

/-!
What the waits for one executor return, one after the other.

Each wait that is over tells the outcomes recorded up to its last look, and records are never taken
back. So a failure is final, and successful results only grow.
-/

namespace PhaseExecutors

open Executor (Step)
open Ledger (ofRun)

namespace Watched

/-- What a wait may return after another one. -/
def MayFollow : Except TaskFailure Summary → Except TaskFailure Summary → Prop
  | .error f, r => r = .error f
  | .ok s, .ok s' => s.completed ≤ s'.completed ∧ s.recoverable <+: s'.recoverable
  | .ok _, .error _ => True

/-- The result of a wait by the outcomes recorded before. -/
def Tells (past : List Outcome) : Except TaskFailure Summary → Prop
  | .error f => (past.filterMap Outcome.fatal?).head? = some f
  | .ok s => past.filterMap Outcome.fatal? = [] ∧ s.completed = past.count .completed ∧
      s.recoverable = past.filterMap Outcome.recoverable?

/-- The first fatal failure stays the first. -/
lemma head?_fatal_of_prefix {past past' : List Outcome} {f : TaskFailure} (h : past <+: past')
    (hf : (past.filterMap Outcome.fatal?).head? = some f) :
    (past'.filterMap Outcome.fatal?).head? = some f := by
  obtain ⟨rest, hrest⟩ := h.filterMap Outcome.fatal?
  rw [← hrest, List.head?_append, hf, Option.some_or]

lemma Tells.mayFollow {past past' : List Outcome} {r r' : Except TaskFailure Summary}
    (h : past <+: past') (hr : Tells past r) (hr' : Tells past' r') : MayFollow r r' := by
  cases r with
  | error f =>
    have hf := head?_fatal_of_prefix h hr
    cases r' with
    | error f' => exact congrArg _ (Option.some.inj (hr'.symm.trans hf))
    | ok s => simp [hr'.1] at hf
  | ok s =>
    cases r' with
    | error f => trivial
    | ok s' =>
      obtain ⟨-, hc, hrec⟩ := hr
      obtain ⟨-, hc', hrec'⟩ := hr'
      refine ⟨?_, ?_⟩
      · rw [hc, hc']
        exact h.sublist.count_le _
      · rw [hrec, hrec']
        exact h.filterMap _

variable {plan : Plan} {classifier : Classifier} {w t : Watched} {es : List Executor.Event}

/-- The step of the executor, if the event is one. -/
def Event.work? : Event → Option Executor.Event
  | .work e => some e
  | .arrive | .wake _ => none

lemma look_of_busy {i : ℕ} {place : Waiter → List Waiter}
    (h : w.executor.tracker.result? = none) :
    w.look i place = { w with waiters := place .parked } := by
  simp [look, Monitor.look, h]

lemma look_of_result {i : ℕ} {place : Waiter → List Waiter} {r : Except TaskFailure Summary}
    (h : w.executor.tracker.result? = some r) :
    w.look i place =
      { w with waiters := place (.returned r), returns := w.returns ++ [(i, r)] } := by
  simp [look, Monitor.look, h]

/-- A waiter looks again only while its wait is not over. -/
lemma eq_look_of_wake {i : ℕ} (hs : w.step? (.wake i) = some t) :
    t = w.look i (w.waiters.set i) ∧ ∃ x, w.waiters[i]? = some x ∧ ∀ r, x ≠ .returned r := by
  simp only [step?] at hs
  split at hs
  · next hi =>
    cases hs
    exact ⟨rfl, _, hi, by simp⟩
  · next hi =>
    cases hs
    exact ⟨rfl, _, hi, by simp⟩
  · cases hs

/-- What every step preserves, whatever happened before, is preserved by every run. -/
theorem run_induction {P : List Executor.Event → Watched → Prop}
    (step : ∀ {es w t e}, P es w → w.step? e = some t → P (es ++ e.work?.toList) t)
    {done : List Executor.Event} (h : P done w) {es : List Event} (hrun : w.run? es = some t) :
    P (done ++ es.filterMap Event.work?) t := by
  induction es generalizing done w with
  | nil =>
    cases hrun
    rwa [List.filterMap_nil, List.append_nil]
  | cons e es ih =>
    obtain ⟨u, hu, hrun⟩ := Option.bind_eq_some_iff.mp hrun
    have hcons : (e :: es).filterMap Event.work? = e.work?.toList ++ es.filterMap Event.work? := by
      rw [List.filterMap_cons]
      cases e.work? <;> rfl
    rw [hcons, ← List.append_assoc]
    exact ih (step h hu) hrun

/-- What holds after the steps `es` of the executor, with any waits in between. -/
structure History (plan : Plan) (classifier : Classifier) (es : List Executor.Event)
    (w : Watched) : Prop where
  run : (Executor.init plan classifier).run? es = some w.executor
  tells : ∀ x ∈ w.returns, ∃ past, past <+: (ofRun plan classifier es).outcomes ∧ Tells past x.2
  succeeds : w.returns.Pairwise fun x y => MayFollow x.2 y.2
  /-- The list of results has each wait that is over, and no other one. -/
  returned : ∀ i r, w.waiters[i]? = some (.returned r) ↔ (i, r) ∈ w.returns

namespace History

lemma init (plan : Plan) (classifier : Classifier) :
    History plan classifier [] (init plan classifier) :=
  ⟨rfl, nofun, .nil, by simp [Watched.init]⟩

/-- A notice is nothing to waits that are over. -/
lemma getElem?_notified (tracker : Tracker) (waiters : List Waiter) (e : Executor.Event) (i : ℕ)
    (r : Except TaskFailure Summary) :
    (notified tracker waiters e)[i]? = some (.returned r) ↔ waiters[i]? = some (.returned r) := by
  unfold notified
  split
  · split
    · rw [List.getElem?_map]
      rcases waiters[i]? with _ | (_ | _ | _) <;> simp [Waiter.notify]
    · rfl
  · rfl

/-- A step of the executor takes no record back. -/
lemma work (h : History plan classifier es w) {e : Executor.Event} {s : Executor}
    (hs : w.executor.step? e = some s) : History plan classifier (es ++ [e])
      { w with executor := s, waiters := notified s.tracker w.waiters e } where
  run := Executor.run?_append_eq_some_iff.mpr ⟨_, h.run, by rw [Executor.run?_cons, hs]; rfl⟩
  tells x hx := by
    obtain ⟨past, hpast, htells⟩ := h.tells x hx
    refine ⟨past, hpast.trans ?_, htells⟩
    rw [Ledger.ofRun_append h.run]
    exact (Ledger.extends_run _ _ _).finished.map _
  succeeds := h.succeeds
  returned i r := (getElem?_notified _ _ _ _ _).trans (h.returned i r)

lemma tells_outcomes (h : History plan classifier es w) {r : Except TaskFailure Summary}
    (hr : w.executor.tracker.result? = some r) : Tells (ofRun plan classifier es).outcomes r := by
  have htallies := Ledger.tallies_of_run h.run
  obtain ⟨-, hout⟩ := Tracker.result?_eq_some_iff.mp hr
  cases r with
  | error f =>
    rw [Tracker.outcome_eq_error_iff, htallies.fatal] at hout
    exact hout
  | ok s =>
    obtain ⟨hnone, rfl⟩ := Tracker.outcome_eq_ok_iff.mp hout
    refine ⟨?_, htallies.completed, htallies.recoverable⟩
    rw [htallies.fatal, Ledger.fatals, List.head?_eq_none_iff] at hnone
    exact hnone

/-- A look that ends a wait tells all records of its moment, and so no less than earlier ones. -/
lemma look (h : History plan classifier es w) {i : ℕ} {place : Waiter → List Waiter}
    (hold : ∀ r, (i, r) ∉ w.returns)
    (hplace : ∀ x j, (place x)[j]? = if i = j then some x else w.waiters[j]?) :
    History plan classifier es (w.look i place) := by
  cases hr : w.executor.tracker.result? with
  | none =>
    rw [look_of_busy hr]
    refine ⟨h.run, h.tells, h.succeeds, fun j r => ?_⟩
    rw [hplace, ← h.returned]
    split
    · next hij =>
      subst hij
      simpa [← h.returned] using hold r
    · rfl
  | some r =>
    have hnew := h.tells_outcomes hr
    rw [look_of_result hr]
    refine ⟨h.run, ?_, ?_, fun j r' => ?_⟩
    · exact Executor.forall_mem_snoc h.tells ⟨_, List.prefix_rfl, hnew⟩
    · refine List.pairwise_append.mpr ⟨h.succeeds, List.pairwise_singleton _ _, ?_⟩
      intro x hx y hy
      obtain rfl := List.mem_singleton.mp hy
      obtain ⟨past, hpast, htells⟩ := h.tells x hx
      exact htells.mayFollow hpast hnew
    · rw [hplace, List.mem_append, List.mem_singleton, ← h.returned]
      split
      · next hij =>
        subst hij
        rw [or_iff_right fun hmem => hold r' ((h.returned i r').mp hmem)]
        simp [eq_comm]
      · next hij => simp [Ne.symm hij]

lemma step (h : History plan classifier es w) {e : Event} (hs : w.step? e = some t) :
    History plan classifier (es ++ e.work?.toList) t := by
  cases e with
  | work e =>
    obtain ⟨s, hs', rfl⟩ := Option.map_eq_some_iff.mp hs
    exact h.work hs'
  | arrive =>
    cases hs
    rw [Event.work?, Option.toList_none, List.append_nil]
    refine h.look (fun r => ?_) fun x j => ?_
    · simp [← h.returned]
    · rw [List.getElem?_append]
      grind
  | wake i =>
    rw [Event.work?, Option.toList_none, List.append_nil]
    obtain ⟨rfl, x, hx, hwaits⟩ := eq_look_of_wake hs
    refine h.look (fun r => ?_) fun x' j => ?_
    · rw [← h.returned, hx, Option.some_inj]
      exact hwaits r
    · rw [List.getElem?_set, if_pos (List.getElem?_eq_some_iff.mp hx).1]

end History

/-- What the waits for an executor return in a run. -/
structure Successive (plan : Plan) (classifier : Classifier) (es : List Event) (w : Watched) :
    Prop where
  /-- Of any two waits that are over, the later one returns what may come after the earlier. -/
  succeeds : w.returns.Pairwise fun x y => MayFollow x.2 y.2
  /-- A failure is the one that was recorded first. -/
  failure : ∀ i f, (i, .error f) ∈ w.returns →
    (ofRun plan classifier (es.filterMap Event.work?)).fatals.head? = some f
  /-- A summary tells the outcomes up to some point, of which none was fatal, in their order. -/
  summary : ∀ i s, (i, .ok s) ∈ w.returns →
    ∃ past, past <+: (ofRun plan classifier (es.filterMap Event.work?)).outcomes ∧
      past.filterMap Outcome.fatal? = [] ∧ s.completed = past.count .completed ∧
        s.recoverable = past.filterMap Outcome.recoverable?
  /-- The results are those of the waits that are over. -/
  returned : ∀ i r, w.waiters[i]? = some (.returned r) ↔ (i, r) ∈ w.returns

/-- **A failure is final, and successful waits tell more and more.** -/
theorem successive_of_run {es : List Event} (hrun : (init plan classifier).run? es = some w) :
    Successive plan classifier es w := by
  have h := run_induction (P := History plan classifier) (fun h hs => h.step hs)
    (History.init plan classifier) hrun
  rw [List.nil_append] at h
  refine ⟨h.succeeds, fun i f hmem => ?_, fun i s hmem => h.tells _ hmem, h.returned⟩
  obtain ⟨past, hpast, htells⟩ := h.tells _ hmem
  exact head?_fatal_of_prefix hpast htells

/-- A wait parks over a recoverable failure; two more return when a panic has stopped the
executor, one of them after a further submission. -/
theorem successive_of_panic : ∃ plan es w f g,
    (init plan Classifier.evaluator).run? es = some w ∧
      w.returns = [(0, .ok ⟨0, [], 0⟩), (1, .ok ⟨1, [f], 0⟩), (2, .error g), (3, .error g)] ∧
      Successive plan Classifier.evaluator es w := by
  let fine : Work := .task "fine" .default none .ok []
  let failing : Work := .task "failing" .cpuHeavy none (.error .interrupted) []
  let panicking : Work := .task "panicking" .default none (.panicked none) []
  let turn (i : ℕ) : List Event := [.work (.begin i), .work (.conclude i), .work (.finish i)]
  let submit (w : Work) : List Event := [.work (.ask w), .work (.record 0), .work (.dequeue 0)]
  let es : List Event := List.flatten
    [[.arrive], submit fine, submit failing, [.arrive], turn 0, [.wake 1], turn 1,
      [.wake 1, .work (.leave 0)], submit panicking, [.arrive],
      [.work (.begin 1), .work (.conclude 1), .work (.cancel 1), .work (.finish 1), .wake 2],
      [.work (.ask fine), .work (.record 0), .arrive]]
  let f : TaskFailure := ⟨generalPool, .interrupted⟩
  let g : TaskFailure := ⟨generalPool, .panic, "task panicked"⟩
  have hend : ((init (.single ⟨generalPool, 2⟩) .evaluator).run? es).map Watched.returns =
      some [(0, .ok ⟨0, [], 0⟩), (1, .ok ⟨1, [f], 0⟩), (2, .error g), (3, .error g)] := by
    decide +kernel
  obtain ⟨w, hrun, hreturns⟩ := Option.map_eq_some_iff.mp hend
  exact ⟨_, es, w, f, g, hrun, hreturns, successive_of_run hrun⟩

end Watched

end PhaseExecutors
