import PhaseExecutors.Proofs.Executor.FirstFailure
import PhaseExecutors.Proofs.Executor.Rest
import PhaseExecutors.Proofs.Executor.Schedules

/-!
Fail-fast: what follows once an executor is stopped.

A submission is told whether the executor takes tasks before it is recorded, so some that were told
so come in after the stop. They are queued as any other task, and like all that have not begun by
then they can only leave as skipped.
-/

namespace PhaseExecutors

open Executor (Event Step)

/-! ### What submissions were told -/

/-- The work of a submission from outside, if it was told this answer. -/
def Ticket.told? (admitted : Bool) (ticket : Ticket) : Option Work :=
  if ticket.admitted = admitted then some ticket.work else none

/-- The child that a job is about to submit, if it was told this answer. -/
def Job.told? (admitted : Bool) (j : Job) : Option Work :=
  match j.stage with
  | .running (c :: _) (some answer) => if answer = admitted then some c else none
  | _ => none

namespace Job

variable (b : Bool) (r : Routed) (p : Bool)

lemma told?_running (todo : List Work) : told? b ⟨r, p, .running todo none⟩ = none := by
  cases todo <;> rfl

lemma told?_ofOutcome (o : Outcome) : told? b ⟨r, p, .ofOutcome o⟩ = none := by
  cases o <;> rfl

end Job

namespace Executor

/-- The submissions under way that were told this answer. -/
def told (admitted : Bool) (s : Executor) : Multiset Work :=
  s.tickets.filterMap (Ticket.told? admitted) + s.jobs.filterMap (Job.told? admitted)

/-- The submission that asks with this step whether the executor takes tasks. -/
def asking? (s : Executor) : Event → Option Work
  | .ask w => some w
  | .askChild i =>
    match s.jobs[i]? with
    | some ⟨_, _, .running (c :: _) none⟩ => some c
    | _ => none
  | _ => none

end Executor

namespace Ledger

/-- The submissions that were recorded after this answer. -/
def answered (admitted : Bool) (l : Ledger) : Multiset Work :=
  if admitted then l.accepted.map Entry.work else l.refused

/-- The submission that is told this answer with a step. -/
def telling? (admitted : Bool) (_ : Ledger) (s : Executor) (ev : Event) : Option Work :=
  if s.cancelled = admitted then none else s.asking? ev

variable {l l' : Ledger} {s t : Executor} {plan : Plan} {classifier : Classifier} {b : Bool}

lemma answered_submit (l : Ledger) (parent : Option ℕ) (w : Work) (admitted : Bool) :
    (l.submit parent w admitted).answered b =
      l.answered b + (Ticket.told? b ⟨w, admitted⟩).toList := by
  cases admitted <;> cases b <;> simp [submit, answered, Ticket.told?, ← Multiset.coe_add]

lemma told_cut {pre post : List Job} {j j' : Job} (hs : s.jobs = pre ++ j :: post)
    (hjobs : t.jobs = pre ++ j' :: post) (htickets : t.tickets = s.tickets) :
    t.told b + (j.told? b).toList = s.told b + (j'.told? b).toList := by
  rw [Executor.told, Executor.told, htickets, hs, hjobs, coe_filterMap_cut, coe_filterMap_cut]
  abel

/-- The submission of a child moves from its job to the records. -/
lemma told_child {pre post : List Job} {r : Routed} {c : Work} {p admitted : Bool}
    {todo : List Work} (hs : s.jobs = pre ++ ⟨r, p, .running (c :: todo) (some admitted)⟩ :: post)
    (hjobs : t.jobs = pre ++ ⟨r, p, .running todo none⟩ :: post)
    (htickets : t.tickets = s.tickets) :
    t.told b + (Ticket.told? b ⟨c, admitted⟩).toList = s.told b := by
  have hcut := told_cut (b := b) hs hjobs htickets
  rw [Job.told?_running] at hcut
  exact hcut.trans (add_zero _)

/-- A step at which no submission asks or is recorded. -/
lemma told_of_eq {ev : Event} (htold : t.told b = s.told b)
    (hl : l'.accepted = l.accepted ∧ l'.refused = l.refused) (hev : s.asking? ev = none) :
    t.told b + l'.answered b = s.told b + l.answered b + (telling? b l s ev).toList := by
  rw [htold, answered, hl.1, hl.2, telling?, hev, ite_self]
  exact (add_zero _).symm

lemma told_of_cut {ev : Event} {pre post : List Job} {j j' : Job} (hs : s.jobs = pre ++ j :: post)
    (hjobs : t.jobs = pre ++ j' :: post) (htickets : t.tickets = s.tickets)
    (hj : j.told? b = none) (hj' : j'.told? b = none)
    (hl : l'.accepted = l.accepted ∧ l'.refused = l.refused) (hev : s.asking? ev = none) :
    t.told b + l'.answered b = s.told b + l.answered b + (telling? b l s ev).toList := by
  refine told_of_eq ?_ hl hev
  simpa [hj, hj'] using told_cut (b := b) hs hjobs htickets

/-- Every submission that was told an answer is recorded with it or under way. -/
lemma told_step (ht : Ties l s) {ev : Event} (hs : Step s ev t) :
    t.told b + (l.step s ev).answered b = s.told b + l.answered b + (telling? b l s ev).toList := by
  cases hs with
  | ask w =>
    have htelling : telling? b l s (.ask w) = Ticket.told? b ⟨w, !s.cancelled⟩ := by
      cases hc : s.cancelled <;> cases b <;> simp [telling?, Executor.asking?, Ticket.told?, hc]
    change Executor.told b { s with tickets := s.tickets ++ [⟨w, !s.cancelled⟩] } + l.answered b = _
    rw [htelling, Executor.told, Executor.told, coe_filterMap_cut, List.append_nil]
    abel
  | recordIn hs | recordOut hs =>
    rw [step_record hs, answered_submit, Executor.told, Executor.told, hs, coe_filterMap_cut]
    simp only [telling?, Executor.asking?, ite_self, Option.toList_none, Multiset.coe_nil]
    abel
  | @askChild pre post r c p todo hs =>
    have htelling : telling? b l s (.askChild pre.length) =
        Job.told? b ⟨r, p, .running (c :: todo) (some !s.cancelled)⟩ := by
      cases hc : s.cancelled <;> cases b <;> simp [telling?, Executor.asking?, Job.told?, hc, hs]
    have hcut := told_cut (b := b) hs
      (t := { s with jobs := pre ++ ⟨r, p, .running (c :: todo) (some !s.cancelled)⟩ :: post })
      rfl rfl
    rw [htelling, add_right_comm, ← hcut, Job.told?_running]
    exact congrArg (· + l.answered b) (add_zero _).symm
  | childIn hs | childOut hs =>
    obtain ⟨e, he, -⟩ := ht.getElem? hs
    rw [step_recordChild he hs, answered_submit, add_comm (l.answered b), ← add_assoc]
    simp only [telling?, Executor.asking?, ite_self]
    refine (congrArg (· + l.answered b) ?_).trans (add_zero _).symm
    exact told_child hs rfl rfl
  | @dequeue _ _ r hs =>
    obtain ⟨pre', e, post', hl, -, -, -, hlen⟩ := ht.exists_queued hs
    rw [← hlen, step_dequeue hl]
    refine told_of_eq ?_ ⟨rfl, rfl⟩ rfl
    rw [Executor.told, Executor.told, coe_filterMap_cut, List.append_nil]
    cases r.lane.limited <;> simp [Job.told?]
  | skip hs hc =>
    obtain ⟨e, he, -⟩ := ht.getElem? hs
    rw [step_skip he hc]
    exact told_of_cut hs rfl rfl rfl rfl ⟨rfl, rfl⟩ rfl
  | halt hs hc =>
    obtain ⟨e, he, -⟩ := ht.getElem? hs
    rw [step_begin he hc]
    exact told_of_cut hs rfl rfl rfl rfl ⟨rfl, rfl⟩ rfl
  | start hs hc =>
    obtain ⟨e, he, -⟩ := ht.getElem? hs
    rw [step_begin he hc]
    exact told_of_cut hs rfl rfl rfl (Job.told?_running ..) ⟨rfl, rfl⟩ rfl
  | pass hs => exact told_of_cut hs rfl rfl rfl (Job.told?_running ..) ⟨rfl, rfl⟩ rfl
  | conclude hs => exact told_of_cut hs rfl rfl rfl (Job.told?_ofOutcome ..) ⟨rfl, rfl⟩ rfl
  | finish hs =>
    obtain ⟨e, he, -⟩ := ht.getElem? hs
    rw [step_finish he hs]
    exact told_of_cut hs rfl rfl rfl rfl ⟨rfl, rfl⟩ rfl
  | leave hs =>
    obtain ⟨pre', e, post', hl, -, -, -, hlen⟩ := ht.exists_cut hs
    rw [← hlen, step_leave hl]
    refine told_of_eq ?_ ⟨rfl, rfl⟩ rfl
    rw [Executor.told, Executor.told, hs, coe_filterMap_cut]
    exact congrArg _ (add_zero _).symm
  | «open» => exact told_of_eq rfl ⟨rfl, rfl⟩ rfl
  | acquire hs | giveUp hs | giveBack hs | resume hs | cancel hs =>
    exact told_of_cut hs rfl rfl rfl rfl ⟨rfl, rfl⟩ rfl

/-- The submissions that ask in the course of a run whether the executor takes tasks. -/
def checks (l : Ledger) (s : Executor) (es : List Event) : List Work :=
  trace (fun _ s ev => s.asking? ev) l s es

variable {es es' : List Event}

/-- A stopped executor tells everyone that asks that it takes no tasks. -/
lemma trace_telling (hc : s.cancelled = true) (hrun : s.run? es = some t) :
    trace (telling? b) l s es = if b then [] else checks l s es := by
  induction es generalizing l s with
  | nil => cases b <;> rfl
  | cons ev es ih =>
    obtain ⟨u, hs, hrun⟩ := Executor.run?_cons_eq_some_iff.mp hrun
    rw [checks, trace_cons hs, trace_cons hs, ih (hs.cancelled_mono hc) hrun]
    cases b <;> simp [telling?, checks, hc]

/-- From now on, no submission is let in that was not told so before. -/
lemma told_run (ht : Ties l s) (hc : s.cancelled = true) (hrun : s.run? es = some t) :
    t.told true + (l.run s es).answered true = s.told true + l.answered true ∧
      t.told false + (l.run s es).answered false =
        s.told false + l.answered false + (checks l s es : Multiset Work) := by
  have htold : ∀ b, t.told b + (l.run s es).answered b =
      s.told b + l.answered b + (trace (telling? b) l s es : Multiset Work) := fun b =>
    add_trace (f := fun l s => s.told b + l.answered b) (fun ht hs => told_step ht hs) ht hrun
  refine ⟨?_, ?_⟩
  · rw [htold, trace_telling hc hrun]
    exact add_zero _
  · rw [htold, trace_telling hc hrun]
    rfl

/-- A stopped executor begins no body. -/
lemma begun_step (l : Ledger) (hc : s.cancelled = true) (ev : Event) :
    (l.step s ev).begun = l.begun := by
  cases ev with
  | record i | recordChild i =>
    simp only [step]
    split
    · exact begun_submit ..
    · rfl
  | «begin» i =>
    simp only [step, hc, if_true]
    split <;> rfl
  | dequeue i | finish i | leave i =>
    simp only [step]
    split <;> rfl
  | ask | acquire | giveUp | resume | pass | askChild | conclude | cancel | «open» => rfl

lemma refused_step (l : Ledger) (s : Executor) {ev : Event} (h : ev.isRecord = false) :
    (l.step s ev).refused = l.refused := by
  cases ev with
  | record | recordChild => cases h
  | «begin» i =>
    simp only [step]
    split
    · split <;> rfl
    · rfl
  | dequeue i | finish i | leave i =>
    simp only [step]
    split <;> rfl
  | ask | acquire | giveUp | resume | pass | askChild | conclude | cancel | «open» => rfl

/-- A submission that is dropped counts as skipped, and that is all. -/
lemma refuse_step (ht : Ties l s) {ev : Event} (hs : Step s ev t)
    (hrefused : (l.step s ev).refused ≠ l.refused) :
    t.tracker = s.tracker.reject ∧ t.tracker.inFlight = s.tracker.inFlight ∧ t.queue = s.queue := by
  cases hs with
  | recordOut | childOut => exact ⟨rfl, rfl, rfl⟩
  | recordIn hs => exact absurd (by rw [step_record hs]; rfl) hrefused
  | childIn hs =>
    obtain ⟨e, he, -⟩ := ht.getElem? hs
    exact absurd (by rw [step_recordChild he hs]; rfl) hrefused
  | _ => exact absurd (refused_step l s rfl) hrefused

end Ledger

/-! ### What a stopped executor can still do -/

/-- One tracker has recorded these outcomes after another one, skipped tasks aside. -/
structure Tracker.Adds (a b : Tracker) (os : List Outcome) : Prop where
  completed : b.summary.completed = a.summary.completed + os.count .completed
  recoverable : b.summary.recoverable = a.summary.recoverable ++ os.filterMap Outcome.recoverable?
  fatal : b.fatal = a.fatal.or (os.filterMap Outcome.fatal?).head?

namespace Ledger

/-- The task has yet to begin: it is queued, its job has yet to decide, or it comes in later. -/
def Unbegun (l : Ledger) (s : Executor) (e : Entry) : Prop :=
  e ∈ l.queue ∨ e ∈ among Stage.isFresh (l.pairs s) ∨ e ∉ l.accepted

/-- How a run goes on from a stopped executor. -/
structure Aftermath (plan : Plan) (classifier : Classifier) (l : Ledger) (s : Executor)
    (es : List Event) (t : Executor) : Prop where
  cancelled : t.cancelled = true
  /-- No further body begins, and the bodies that run have begun before. -/
  begun : (l.run s es).begun = l.begun
  inBody : ∀ x ∈ (l.run s es).pairs t, x.2.stage.inBody = true → x.1 ∈ l.begun
  /-- A task that has yet to begin never does, and it can leave only as skipped. -/
  skipped : ∀ e, l.Unbegun s e → e ∉ (l.run s es).begun ∧
    (∀ o, (e, o) ∈ (l.run s es).finished → o = .skipped) ∧
      (e ∈ (l.run s es).left → (e, .skipped) ∈ (l.run s es).finished)
  /-- Only submissions that were told so before are let in. -/
  admitted : t.told true + (l.run s es).accepted.map Entry.work =
    s.told true + l.accepted.map Entry.work
  /-- All that ask from now on are dropped, or are about to be. -/
  dropped : t.told false + (l.run s es).refused = s.told false + l.refused + checks l s es
  /-- To be dropped changes nothing in the queue and the count of tasks in flight. -/
  refused : ∀ ev u, t.step? ev = some u →
    ((l.run s es).step t ev).refused ≠ (l.run s es).refused →
      u.tracker = t.tracker.reject ∧ u.tracker.inFlight = t.tracker.inFlight ∧ u.queue = t.queue
  /-- What is recorded beyond skipped tasks is how bodies ended that had begun. -/
  outcomes : ∃ new, (l.run s es).finished = l.finished ++ new ∧
    (∀ c ∈ new, c.2 ≠ .skipped → c.1 ∈ l.begun ∧ c.1 ∉ l.finished.map Prod.fst ∧
      c.2 = c.1.work.outcome plan classifier) ∧
    s.tracker.Adds t.tracker (new.map Prod.snd) ∧
    t.tracker.inFlight + new.length + l.accepted.length =
      s.tracker.inFlight + (l.run s es).accepted.length

lemma Bodies.not_mem_begun_of_unbegun (h : Bodies l s) (hp : Places l s) {e : Entry}
    (he : l.Unbegun s e) : e ∉ l.begun := by
  rcases he with hqueue | hfresh | hnew
  · exact h.not_mem_begun hp (Or.inl hqueue)
  · exact h.not_mem_begun hp (Or.inr hfresh)
  · intro hbegun
    refine hnew ?_
    rw [← Multiset.mem_coe, ← h.accepted]
    exact Multiset.mem_add.mpr (Or.inr hbegun)

variable {l l' : Ledger} {s t : Executor} {plan : Plan} {classifier : Classifier}
  {es es' : List Event}

lemma Tallies.adds (h : Tallies l s) (h' : Tallies l' t) {new : List (Entry × Outcome)}
    (hf : l'.finished = l.finished ++ new) : s.tracker.Adds t.tracker (new.map Prod.snd) := by
  have ho : l'.outcomes = l.outcomes ++ new.map Prod.snd := by
    rw [outcomes, outcomes, hf, List.map_append]
  refine ⟨?_, ?_, ?_⟩
  · rw [h'.completed, h.completed, ho, List.count_append]
  · rw [h'.recoverable, h.recoverable, ho, List.filterMap_append]
  · rw [h'.fatal, h.fatal, fatals, fatals, ho, List.filterMap_append, List.head?_append]

lemma Explains.of_inBody {e : Entry} {stage : Stage} (h : l.Explains plan classifier e stage)
    (hbody : stage.inBody = true) : e ∈ l.begun := by
  cases stage with
  | gated | running => exact h
  | _ => cases hbody

/-- Outcomes come only for tasks without one, and they are those of bodies that began. -/
lemma Bodies.of_new (h : Bodies l s) (hp : Places l s) (ht : Ties l s)
    {old new : List (Entry × Outcome)} (hf : l.finished = old ++ new) {c : Entry × Outcome}
    (hc : c ∈ new) (hskipped : c.2 ≠ .skipped) :
    c.1 ∈ l.begun ∧ c.1 ∉ old.map Prod.fst ∧ c.2 = c.1.work.outcome s.plan s.classifier := by
  have hnodup := hp.nodup_finished ht
  rw [hf, List.map_append, List.nodup_append] at hnodup
  have hsettles := h.finished c (by simp [hf, hc])
  have hbegun := hsettles.resolve_left fun hs => hskipped hs.2
  refine ⟨hbegun.1, ?_, hbegun.2⟩
  intro hold
  obtain ⟨c', hc', heq⟩ := List.mem_map.mp hold
  exact hnodup.2.2 c'.1.number (List.mem_map_of_mem hc') c.1.number
    (List.mem_map_of_mem hc) (congrArg Entry.number heq)

lemma begun_run (hc : s.cancelled = true) (hrun : s.run? es = some t) :
    (l.run s es).begun = l.begun ∧ t.cancelled = true := by
  induction es generalizing l s with
  | nil =>
    cases hrun
    exact ⟨rfl, hc⟩
  | cons ev es ih =>
    obtain ⟨u, hs, hrun⟩ := Executor.run?_cons_eq_some_iff.mp hrun
    rw [run_cons hs, ← begun_step l hc ev]
    exact ih (hs.cancelled_mono hc) hrun

theorem aftermath_of_run (hrun : (Executor.init plan classifier).run? es = some s)
    (hc : s.cancelled = true) (hrun' : s.run? es' = some t) :
    Aftermath plan classifier (ofRun plan classifier es) s es' t := by
  have hall : (Executor.init plan classifier).run? (es ++ es') = some t :=
    Executor.run?_append_eq_some_iff.mpr ⟨s, hrun, hrun'⟩
  have hledger : (ofRun plan classifier es).run s es' = ofRun plan classifier (es ++ es') :=
    (ofRun_append hrun).symm
  have ht := ties_of_run hrun
  have hp := places_of_run hrun
  have ht' := ties_of_run hall
  have hp' := places_of_run hall
  have hb' := bodies_of_run hall
  obtain ⟨hplan, hclassifier⟩ := (Executor.Reachable.init.of_run? hall).plan_eq
  obtain ⟨hbegun, hc'⟩ := begun_run (l := ofRun plan classifier es) hc hrun'
  obtain ⟨hadmitted, hdropped⟩ := told_run ht hc hrun'
  obtain ⟨new, hnew⟩ := (extends_run (ofRun plan classifier es) s es').finished
  refine ⟨hc', hbegun, ?_, ?_, hadmitted, hdropped, ?_, new, hnew.symm, ?_, ?_, ?_⟩
  · intro x hx hbody
    rw [← hbegun, hledger]
    rw [hledger] at hx
    exact (hb'.jobs x hx).of_inBody hbody
  · intro e he
    have hnot := (bodies_of_run hrun).not_mem_begun_of_unbegun hp he
    rw [← hbegun, hledger] at hnot
    rw [hledger]
    refine ⟨hnot, ?_⟩
    have hskipped : ∀ o, (e, o) ∈ (ofRun plan classifier (es ++ es')).finished → o = .skipped :=
      fun o ho => ((hb'.finished _ ho).resolve_right fun h => hnot h.1).2
    refine ⟨hskipped, ?_⟩
    intro hleft
    have hmem : e ∈ (ofRun plan classifier (es ++ es')).finished.map Prod.fst := by
      rw [← Multiset.mem_coe, hp'.finished]
      exact Multiset.mem_add.mpr (Or.inr hleft)
    obtain ⟨⟨_, o⟩, ho, rfl⟩ := List.mem_map.mp hmem
    rwa [hskipped o ho] at ho
  · intro ev u hu hrefused
    rw [hledger] at hrefused
    exact refuse_step ht' (Step.of_step? hu) hrefused
  · intro c hc hskipped
    have := hb'.of_new hp' ht' (hledger ▸ hnew.symm) hc hskipped
    rwa [← hledger, hbegun, hplan, hclassifier] at this
  · exact (tallies_of_run hrun).adds (tallies_of_run hall) (hledger ▸ hnew.symm)
  · have hsum := hp.inFlight_add ht
    have hsum' := hp'.inFlight_add ht'
    have hlength := congrArg List.length hnew
    rw [List.length_append, hledger] at hlength
    rw [hledger]
    omega

/-! ### Fail-fast -/

/-- How a stopped executor comes to rest. -/
structure Rests (l : Ledger) (s : Executor) : Prop where
  /-- It cannot go on by itself forever. -/
  bounded : ∀ es t, s.run? es = some t → (∀ ev ∈ es, ev.isOwn = true) →
    es.length + t.load ≤ s.load
  /-- It can go on without a permit while something is left, unless a body waits at its gate. -/
  goesOn : s.GatesOpen → ¬s.AtRest →
    ∃ ev t, s.step? ev = some t ∧ ev.isOwn = true ∧ ev.takesPermit = false
  /-- Once the gates are open, everything can leave, and no permit is needed for that. -/
  drains : ∃ (gates : List ℕ) (es : List Event) (t : Executor),
    s.run? (gates.map .open ++ es) = some t ∧
    (∀ ev ∈ es, ev.isOwn = true ∧ ev.takesPermit = false) ∧ t.AtRest ∧ t.tracker.inFlight = 0 ∧
    ∀ e, e ∈ l.queue ∨ e ∈ among Stage.isFresh (l.pairs s) →
      (e, .skipped) ∈ (l.run s (gates.map .open ++ es)).finished

structure FailFast (plan : Plan) (classifier : Classifier) (es : List Event) (s : Executor) :
    Prop where
  /-- A body that began has ended in an error that is fatal, and its task stopped the executor. -/
  cause : s.cancelled = true → ∃ e ∈ (ofRun plan classifier es).begun, ∃ err,
    e.work.ending.error? = some err ∧ classifier err = .fatal ∧
      (e, ⟨(plan.route e.work.kind).name, err⟩) ∈ stops plan classifier es
  /-- Where a fatal failure is recorded, or something was skipped, the executor is stopped. -/
  stopped : s.tracker.fatal ≠ none ∨ 0 < s.tracker.summary.skipped → s.cancelled = true
  after : s.cancelled = true → ∀ es' t, s.run? es' = some t →
    Aftermath plan classifier (ofRun plan classifier es) s es' t
  /-- A job that has yet to begin can leave by itself once it has a worker. -/
  leaves : s.cancelled = true → ∀ pre post r p stage, s.jobs = pre ++ ⟨r, p, stage⟩ :: post →
    stage.isFresh = true → stage.holdsWorker = true ∨ s.hasWorker r.lane = true →
      s.run? (Executor.wayOut pre.length stage) = some (s.leaveSkipped pre post p)
  /-- So can a task of the queue. -/
  leavesQueue : s.cancelled = true → ∀ pre post r, s.queue = pre ++ r :: post →
    s.hasWorker r.lane = true →
      s.run? (.dequeue pre.length :: Executor.wayOut s.jobs.length
          (if r.lane.limited then .waiting else .ready)) =
        some { s with queue := pre ++ post, tracker := s.tracker.finish .skipped }
  rests : s.cancelled = true → plan.start = .ok () → Rests (ofRun plan classifier es) s

/-- At rest, everything that was let in has left. -/
lemma left_of_atRest (hp : Places l s) (ht : Ties l s) (h : s.AtRest) :
    s.tracker.inFlight = 0 ∧ ∀ e ∈ l.accepted, e ∈ l.left := by
  have hqueue : l.queue = [] := by
    have := ht.queue
    rwa [h.queue, List.map_nil, List.map_eq_nil_iff] at this
  have hjobs : l.jobs = [] := by
    have := ht.jobs
    rwa [h.jobs, List.map_nil, List.map_eq_nil_iff] at this
  refine ⟨?_, ?_⟩
  · rw [hp.inFlight, h.queue, h.jobs]
    rfl
  · intro e he
    rw [← Multiset.mem_coe, ← hp.accepted, hqueue, hjobs] at he
    simpa using he

/-- A task of the queue or of a job that has yet to decide is one that was let in. -/
lemma Bodies.mem_accepted (h : Bodies l s) {e : Entry}
    (he : e ∈ l.queue ∨ e ∈ among Stage.isFresh (l.pairs s)) : e ∈ l.accepted := by
  rw [← Multiset.mem_coe, ← h.accepted]
  simp only [Multiset.mem_add, Multiset.mem_coe]
  exact Or.inl (Or.inl he)

lemma rests_of_run (hrun : (Executor.init plan classifier).run? es = some s)
    (hc : s.cancelled = true) (hstart : plan.start = .ok ()) :
    Rests (ofRun plan classifier es) s := by
  have hreach := Executor.Reachable.init.of_run? hrun
  refine ⟨fun es t h hown => Executor.run_load hc h hown, ?_, ?_⟩
  · intro hopen hleft
    obtain ⟨ev, t, hs, hown, hpermit⟩ := Executor.exists_step hreach hstart hc hopen hleft
    exact ⟨ev, t, hs.step?_eq, hown, hpermit⟩
  · -- First the gates of all bodies are opened, and then nothing else is in the way.
    let gates := s.jobs.filterMap fun j => j.work.gate
    have hgates := Executor.run_open s gates
    have hopen : Executor.GatesOpen { s with opened := gates.reverse ++ s.opened } := by
      intro j hj _ gate hg
      exact List.mem_append_left _ (List.mem_reverse.mpr (List.mem_filterMap.mpr ⟨j, hj, hg⟩))
    obtain ⟨es', t, hrun', hrest, hes'⟩ :=
      Executor.exists_rest (hreach.of_run? hgates) hstart hc hopen
    have hdrain : s.run? (gates.map .open ++ es') = some t :=
      Executor.run?_append_eq_some_iff.mpr ⟨_, hgates, hrun'⟩
    have hall : (Executor.init plan classifier).run? (es ++ (gates.map .open ++ es')) = some t :=
      Executor.run?_append_eq_some_iff.mpr ⟨s, hrun, hdrain⟩
    obtain ⟨hquiet, hleft⟩ := left_of_atRest (places_of_run hall) (ties_of_run hall) hrest
    refine ⟨gates, es', t, hdrain, hes', hrest, hquiet, ?_⟩
    intro e he
    have hafter := (aftermath_of_run hrun hc hdrain).skipped e (by unfold Unbegun; tauto)
    refine hafter.2.2 ?_
    have hextends := extends_run (ofRun plan classifier es) s (gates.map .open ++ es')
    rw [← ofRun_append hrun] at hextends ⊢
    exact hleft e (hextends.accepted.subset ((bodies_of_run hrun).mem_accepted he))

/-- **A stopped executor stays so, begins nothing, lets in nothing new and skips what has yet to
begin, and only a body that failed fatally can have stopped it.** -/
theorem failFast_of_run (hrun : (Executor.init plan classifier).run? es = some s) :
    FailFast plan classifier es s := by
  refine ⟨?_, ?_, fun hc es' t => aftermath_of_run hrun hc, ?_, ?_, rests_of_run hrun⟩
  · intro hc
    obtain ⟨⟨e, f⟩, hmem⟩ := List.exists_mem_of_ne_nil _ ((cancelled_iff hrun).mp hc)
    obtain ⟨hbegun, hfatal⟩ := of_mem_stops hrun hmem
    dsimp only at hbegun hfatal
    obtain ⟨hfailure, hk⟩ := Work.outcome_eq_fatal_iff.mp hfatal
    obtain ⟨err, herr, rfl⟩ := Option.map_eq_some_iff.mp hfailure
    exact ⟨e, hbegun, err, herr, hk, hmem⟩
  · intro h
    rw [← Bool.not_eq_false]
    intro hc
    obtain ⟨hu, -⟩ := unstopped_of_run hrun hc
    have htallies := tallies_of_run hrun
    rcases h with hfatal | hskipped
    · rw [htallies.fatal, hu.fatals_eq_nil] at hfatal
      exact hfatal rfl
    · rw [hu.skipped_eq_zero htallies] at hskipped
      exact Nat.lt_irrefl _ hskipped
  · intro hc pre post r p stage hs hfresh hw
    exact Executor.run_wayOut hc hs hfresh hw
  · intro hc pre post r hs hw
    exact Executor.run_wayOut_queued hc hs hw

/-- A heavy task panics with the only permit, when one waits for it, one is queued and one has been
told that it comes in. -/
theorem failFast_of_panic : ∃ plan es s, plan.start = .ok () ∧
    (Executor.init plan Classifier.evaluator).run? es = some s ∧
      (s.cancelled, s.freePermits, s.tickets.length, s.queue.length, s.jobs.length) =
        (true, 0, 1, 1, 2) ∧
      FailFast plan Classifier.evaluator es s := by
  let panicking : Work := .task "panicking" .cpuHeavy none (.panicked none) []
  let waiting : Work := .task "waiting" .cpuHeavy none .ok []
  let queued : Work := .task "queued" .default none .ok []
  let late : Work := .task "late" .default none .ok []
  let plan : Plan := .tieredPriority ⟨generalPool, 2⟩ 1
  let es : List Event := [.ask panicking, .ask waiting, .ask queued, .ask late, .record 0,
    .record 0, .record 0, .dequeue 0, .dequeue 0, .acquire 0, .resume 0, .begin 0, .conclude 0,
    .cancel 0]
  have hend : ((Executor.init plan .evaluator).run? es).map
      (fun s => (s.cancelled, s.freePermits, s.tickets.length, s.queue.length, s.jobs.length)) =
    some (true, 0, 1, 1, 2) := by decide +kernel
  have hsized : (Plan.tieredPriority ⟨generalPool, 2⟩ 1).WellSized :=
    ⟨by decide, by decide, by rintro _ _ ⟨⟩; decide⟩
  have hstart : plan.start = .ok () := hsized.start_eq_ok_iff.mpr (by decide)
  obtain ⟨s, hrun, hs⟩ := Option.map_eq_some_iff.mp hend
  exact ⟨plan, es, s, hstart, hrun, hs, failFast_of_run hrun⟩

end Ledger

end PhaseExecutors
