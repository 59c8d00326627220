import PhaseExecutors.Executor.Schedule
import PhaseExecutors.Proofs.Executor.Rest
import PhaseExecutors.Proofs.Executor.Permits
import PhaseExecutors.Proofs.Executor.Schedules

/-!
A wait for a forest without gates returns.

What is left of the forest bounds the steps that are left, whichever are taken. As long as something
is left, some step is possible: a job that waits for a permit in vain has only jobs that hold one to
wait for, and those have workers.
-/

namespace PhaseExecutors

open Executor (Event)

namespace Work

lemma weightAll_eq_sum (ws : List Work) : weightAll ws = (ws.map fun w => w.weight + 3).sum := by
  induction ws with
  | nil => simp [weightAll]
  | cons w ws ih => rw [weightAll, ih, List.map_cons, List.sum_cons]

lemma weight_eq (w : Work) : w.weight = weightAll w.children + 10 := by
  cases w
  rw [weight]
  rfl

end Work

/-! ### The cost of what is left -/

/-- More than the steps that a job can still take, and the tasks that it submits. -/
def Job.cost (j : Job) : ℕ :=
  match j.stage with
  | .waiting => Work.weightAll j.work.children + 9
  | .called => Work.weightAll j.work.children + if j.permit then 8 else 7
  | .ready => Work.weightAll j.work.children + 6
  | .gated => Work.weightAll j.work.children + 5
  | .running todo none => Work.weightAll todo + 4
  | .running todo (some _) => Work.weightAll todo + 3
  | .failing _ => 3
  | .finishing _ => 2
  | .leaving => 1

namespace Executor

def cost (s : Executor) : ℕ :=
  (s.tickets.map fun t => t.work.weight + 1).sum + (s.queue.map fun r => r.work.weight).sum +
    (s.jobs.map Job.cost).sum

variable {s t : Executor} {ev : Event}

lemma cost_lt_of_cut {pre post : List Job} {j j' : Job} (hs : s.jobs = pre ++ j :: post)
    (hjobs : t.jobs = pre ++ j' :: post) (htickets : t.tickets = s.tickets)
    (hqueue : t.queue = s.queue) (hj : j'.cost < j.cost) : t.cost < s.cost := by
  rw [cost, cost, hjobs, hs, htickets, hqueue, sum_cut, sum_cut _ _ _ j]
  omega

/-- Each step of the executor makes what is left cheaper. -/
lemma Step.cost_lt (h : Step s ev t) (hown : ev.isOwn = true) : t.cost < s.cost := by
  cases h with
  | ask | «open» => cases hown
  | recordIn hs =>
    rw [cost, cost, hs, sum_cut]
    simp
    omega
  | recordOut hs =>
    rw [cost, cost, hs, sum_cut]
    simp
  | @dequeue _ _ r hs hw =>
    have hj : Job.cost ⟨r, false, if r.lane.limited then .waiting else .ready⟩ <
        r.work.weight := by
      rw [Work.weight_eq]
      split <;> simp [Job.cost]
    simp only [cost, hs, List.map_append, List.map_cons, List.map_nil, List.sum_append,
      List.sum_cons, List.sum_nil]
    omega
  | @giveUp _ _ r p hs =>
    refine cost_lt_of_cut hs rfl rfl rfl ?_
    cases p <;> simp [Job.cost]
  | @resume _ _ r p hs =>
    refine cost_lt_of_cut hs rfl rfl rfl ?_
    cases p <;> simp [Job.cost]
  | acquire hs | giveBack hs | skip hs | halt hs | start hs | pass hs | askChild hs | cancel hs
  | finish hs => exact cost_lt_of_cut hs rfl rfl rfl (by simp [Job.cost])
  | childIn hs =>
    rw [cost, cost, hs, sum_cut, sum_cut]
    simp [Job.cost, Work.weightAll]
    omega
  | childOut hs =>
    refine cost_lt_of_cut hs rfl rfl rfl ?_
    simp [Job.cost, Work.weightAll]
    omega
  | @conclude _ _ r p hs =>
    refine cost_lt_of_cut hs rfl rfl rfl ?_
    cases r.work.outcome s.plan s.classifier <;> simp [Job.cost, Stage.ofOutcome]
  | leave hs =>
    rw [cost, cost, hs, sum_cut]
    exact Nat.lt_succ_self _

lemma Step.cost_ask {w : Work} (h : Step s (.ask w) t) : t.cost = s.cost + w.weight + 1 := by
  cases h
  simp [cost]
  omega

/-! ### A forest that is under way -/

/-- A run in which trees of a forest are submitted, and the executor takes its steps. -/
structure Underway (plan : Plan) (classifier : Classifier) (roots : List Work) (es : List Event)
    (s : Executor) : Prop where
  run : (init plan classifier).run? es = some s
  asked : ∃ rest, (es.filterMap Event.asked? ++ rest).Perm roots
  inside : ∀ ev ∈ es, ev.isOwn = true ∨ ∃ w, ev = .ask w

/-- The cost bounds the steps that a run takes, if that of the trees it submits is added. -/
lemma run_cost {es : List Event} (hrun : s.run? es = some t)
    (hinside : ∀ ev ∈ es, ev.isOwn = true ∨ ∃ w, ev = .ask w) :
    es.length + t.cost ≤ s.cost + Work.weightAll (es.filterMap Event.asked?) := by
  induction es generalizing s with
  | nil =>
    cases hrun
    simp [Work.weightAll]
  | cons ev es ih =>
    obtain ⟨u, hs, hrun⟩ := run?_cons_eq_some_iff.mp hrun
    have hle := ih hrun fun ev' h => hinside ev' (List.mem_cons_of_mem _ h)
    rw [List.length_cons]
    rcases hinside ev List.mem_cons_self with hown | ⟨w, rfl⟩
    · have hnone : ev.asked? = none := by cases ev <;> first | rfl | cases hown
      have hlt := hs.cost_lt hown
      rw [List.filterMap_cons_none hnone]
      omega
    · have hsome : (Event.ask w).asked? = some w := rfl
      have hu := hs.cost_ask
      rw [List.filterMap_cons_some hsome, Work.weightAll]
      omega

namespace Underway

variable {plan : Plan} {classifier : Classifier} {roots : List Work} {es : List Event}

lemma reachable (h : Underway plan classifier roots es s) : Reachable plan classifier s :=
  Reachable.init.of_run? h.run

lemma length_le (h : Underway plan classifier roots es s) :
    es.length ≤ Work.weightAll roots := by
  obtain ⟨rest, hperm⟩ := h.asked
  have hcost := run_cost h.run h.inside
  have hinit : (init plan classifier).cost = 0 := rfl
  have hsum : Work.weightAll roots =
      Work.weightAll (es.filterMap Event.asked?) + Work.weightAll rest := by
    simp only [Work.weightAll_eq_sum]
    rw [← (hperm.map _).sum_eq, List.map_append, List.sum_append]
  omega

/-- A body that waits at its gate has begun, so it is the body of a task of the forest. -/
lemma gatesOpen (h : Underway plan classifier roots es s)
    (hungated : ∀ w ∈ Work.tasksAll roots, w.gate = none) : s.GatesOpen := by
  intro j hj hgated gate hg
  obtain ⟨pre, post, hs⟩ := List.append_of_mem hj
  obtain ⟨xs, e, ys, -, hework, hpairs, -⟩ := (Ledger.ties_of_run h.run).pairs_cut hs
  have hbegun : e ∈ (Ledger.ofRun plan classifier es).begun := by
    have hexplains := (Ledger.bodies_of_run h.run).jobs (e, j) (by simp [hpairs])
    rwa [hgated] at hexplains
  obtain ⟨rest, hperm⟩ := h.asked
  have hmem : e.work ∈ Work.forest roots := by
    rw [← Work.forest_perm hperm, Work.forest_append, ← (Ledger.events_of_run h.run).1,
      ← (Ledger.course_of_run h.run).tasks]
    simp only [Multiset.mem_add]
    exact Or.inl (Or.inr (Or.inr (List.mem_map_of_mem hbegun)))
  rw [← hework, hungated _ hmem] at hg
  cases hg

/-- A job that waits for a permit has no permit, so if all jobs wait, all permits are free. -/
lemma freePermits_pos (h : Underway plan classifier roots es s) (hstart : plan.start = .ok ())
    (hjobs : s.jobs ≠ []) (hwaiting : ∀ j ∈ s.jobs, j.stage = .waiting) : 0 < s.freePermits := by
  have hpermits := h.reachable.permits
  have hnone : s.jobs.countP Job.permit = 0 := by
    rw [List.countP_eq_zero]
    intro j hj
    rw [((hpermits.jobs j hj).waiting (hwaiting j hj)).2]
    exact Bool.false_ne_true
  have htotal := hpermits.total
  rw [hnone, Nat.add_zero, h.reachable.plan_eq.1] at htotal
  obtain ⟨j, hj⟩ := List.exists_mem_of_ne_nil _ hjobs
  have hneeds := ((hpermits.jobs j hj).waiting (hwaiting j hj)).1
  rw [h.reachable.onLanes.jobs j hj, h.reachable.plan_eq.1] at hneeds
  rw [htotal]
  cases plan with
  | single | multiPool => cases hneeds
  | tieredPriority pool capacity =>
    have hzero : capacity ≠ 0 := by
      rintro rfl
      cases hstart
    exact UInt64.pos_iff_ne_zero.mpr hzero

/-- As long as something is left, the executor has a step to take. -/
lemma exists_step (h : Underway plan classifier roots es s) (hstart : plan.start = .ok ())
    (hungated : ∀ w ∈ Work.tasksAll roots, w.gate = none) (hleft : ¬s.AtRest) :
    ∃ ev t, ev.isOwn = true ∧ Underway plan classifier roots (es ++ [ev]) t := by
  have hstep : ∃ ev t, Step s ev t ∧ ev.isOwn = true := by
    rcases exists_step_or_waiting h.reachable hstart (h.gatesOpen hungated) hleft with
      ⟨ev, t, hs, hown, -⟩ | ⟨hjobs, hwaiting⟩
    · exact ⟨ev, t, hs, hown⟩
    · have hfree := h.freePermits_pos hstart hjobs hwaiting
      obtain ⟨⟨r, p, stage⟩, js, hs⟩ := List.exists_cons_of_ne_nil hjobs
      obtain rfl : stage = .waiting := hwaiting ⟨r, p, stage⟩ (by simp [hs])
      rw [← List.nil_append (_ :: js)] at hs
      exact ⟨_, _, .acquire hs hfree, rfl⟩
  obtain ⟨ev, t, hs, hown⟩ := hstep
  have hnone : ev.asked? = none := by cases ev <;> first | rfl | cases hown
  refine ⟨ev, t, hown, ?_, ?_, ?_⟩
  · rw [run?_append, h.run, Option.bind_some, hs.run?_cons, run?_nil]
  · simpa [List.filterMap_append, hnone] using h.asked
  · exact forall_mem_snoc h.inside (Or.inl hown)

/-- A tree that is left can be submitted at any time. -/
lemma ask (h : Underway plan classifier roots es s) {w : Work} {rest : List Work}
    (hperm : (es.filterMap Event.asked? ++ w :: rest).Perm roots) :
    ∃ t, Underway plan classifier roots (es ++ [.ask w]) t := by
  have hrun : (init plan classifier).run? (es ++ [.ask w]) = s.step? (.ask w) := by
    rw [run?_append, h.run, Option.bind_some, run?_cons, (Step.ask w).step?_eq]
    rfl
  refine ⟨_, hrun, ⟨rest, ?_⟩, forall_mem_snoc h.inside (Or.inr ⟨w, rfl⟩)⟩
  simpa [List.filterMap_append, Event.asked?] using hperm

/-- Once all trees were submitted and nothing is left, the run has come to its end. -/
lemma ended (h : Underway plan classifier roots es s)
    (hall : (es.filterMap Event.asked?).Perm roots) (hrest : s.AtRest) :
    Ended plan classifier roots es s := by
  refine ⟨h.run, hall, hrest.tickets, ?_⟩
  rw [(Ledger.places_of_run h.run).inFlight, hrest.queue, hrest.jobs]
  rfl

/-- Any way to begin leads to an end. -/
lemma exists_ended (h : Underway plan classifier roots es s) (hstart : plan.start = .ok ())
    (hungated : ∀ w ∈ Work.tasksAll roots, w.gate = none) :
    ∃ es' t, Ended plan classifier roots (es ++ es') t := by
  induction hn : Work.weightAll roots - es.length using Nat.strong_induction_on
    generalizing es s with
  | _ n ih =>
    subst hn
    -- One step more, and the rest by induction.
    have goOn : ∀ {ev : Event} {t : Executor}, Underway plan classifier roots (es ++ [ev]) t →
        ∃ es' t, Ended plan classifier roots (es ++ es') t := by
      intro ev t ht
      have hle := ht.length_le
      rw [List.length_append, List.length_singleton] at hle
      obtain ⟨es', t', h'⟩ := ih _ (by rw [List.length_append, List.length_singleton]; omega) ht rfl
      exact ⟨ev :: es', t', by rwa [List.append_assoc] at h'⟩
    by_cases hrest : s.AtRest
    · obtain ⟨_ | ⟨w, rest⟩, hperm⟩ := h.asked
      · rw [List.append_nil] at hperm
        exact ⟨[], s, by rw [List.append_nil]; exact h.ended hperm hrest⟩
      · obtain ⟨t, ht⟩ := h.ask hperm
        exact goOn ht
    · obtain ⟨ev, t, -, ht⟩ := h.exists_step hstart hungated hrest
      exact goOn ht

end Underway

/-- A wait for a forest returns, whichever steps are taken and in which order the trees come. -/
structure Returns (plan : Plan) (classifier : Classifier) (roots : List Work) : Prop where
  bounded : ∀ es s, Underway plan classifier roots es s → es.length ≤ Work.weightAll roots
  /-- There is a step to take until nothing is left. -/
  goesOn : ∀ es s, Underway plan classifier roots es s → ¬s.AtRest →
    ∃ ev t, ev.isOwn = true ∧ Underway plan classifier roots (es ++ [ev]) t
  asks : ∀ es s w rest, Underway plan classifier roots es s →
    (es.filterMap Event.asked? ++ w :: rest).Perm roots →
      ∃ t, Underway plan classifier roots (es ++ [.ask w]) t
  rests : ∀ es s, Underway plan classifier roots es s → (es.filterMap Event.asked?).Perm roots →
    s.AtRest → Ended plan classifier roots es s
  ends : ∀ es s, Underway plan classifier roots es s →
    ∃ es' t, Ended plan classifier roots (es ++ es') t

/-- **A wait for a forest without gates returns.** -/
theorem returns_of_ungated {plan : Plan} {classifier : Classifier} {roots : List Work}
    (hstart : plan.start = .ok ()) (hungated : ∀ w ∈ Work.tasksAll roots, w.gate = none) :
    Returns plan classifier roots where
  bounded _ _ h := h.length_le
  goesOn _ _ h := h.exists_step hstart hungated
  asks _ _ _ _ h := h.ask
  rests _ _ h := h.ended
  ends _ _ h := h.exists_ended hstart hungated

end Executor

end PhaseExecutors
