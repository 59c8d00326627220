import PhaseExecutors.Proofs.Executor.Bodies
import PhaseExecutors.Proofs.Plan.Start

/-!
A stopped executor comes to rest.

Each of its own steps takes some of the load away, so it cannot go on forever. As long as there is
load and no body waits at a closed gate, it can go on, and needs no permit for that. A task that has
yet to begin can also leave by steps of its own, as soon as a worker is free.
-/

namespace PhaseExecutors

namespace Executor.Event

/-- The step is one of the executor, and nobody outside is needed for it. -/
def isOwn : Event → Bool
  | .ask _ | .open _ => false
  | _ => true

/-- The step takes a permit of the heavy lane. -/
def takesPermit : Event → Bool
  | .acquire _ => true
  | _ => false

end Executor.Event

namespace Plan

lemma pool_mem_pools (plan : Plan) (role : Role) : plan.pool role ∈ plan.pools := by
  cases plan with
  | single | tieredPriority => exact List.mem_singleton_self _
  | multiPool general heavy execution =>
    cases role <;> cases execution <;> simp [pool, pools]

/-- Every pool of a plan that starts has a thread. -/
lemma pool_pos {plan : Plan} (h : plan.start = .ok ()) (role : Role) :
    0 < (plan.pool role).parallelism.toNat := by
  have hpool := startPools_eq_ok_iff.mp (startPools_of_start h) _ (plan.pool_mem_pools role)
  have hrange := PoolSpec.inRange_iff.mp (PoolSpec.start_eq_ok_iff.mp hpool).1
  exact hrange.1

end Plan

/-! ### The load of a stopped executor -/

/-- More than the steps that come of a submission under way. -/
def Ticket.load (ticket : Ticket) : ℕ := if ticket.admitted then 8 else 1

/-- The steps that a job can still take. A child that is let in is one more task in the queue, and
one that is asked for from now on is not let in. -/
def Job.load (j : Job) : ℕ :=
  match j.stage with
  | .waiting => 6
  | .called => if j.permit then 5 else 4
  | .ready => 3
  | .gated => 2 * j.work.children.length + 5
  | .running todo none => 2 * todo.length + 4
  | .running todo (some true) => 2 * todo.length + 10
  | .running todo (some false) => 2 * todo.length + 3
  | .failing _ => 3
  | .finishing _ => 2
  | .leaving => 1

namespace Executor

open Event (isOwn takesPermit)

def load (s : Executor) : ℕ :=
  (s.tickets.map Ticket.load).sum + 7 * s.queue.length + (s.jobs.map Job.load).sum

lemma sum_cut {α : Type*} (f : α → ℕ) (pre post : List α) (x : α) :
    ((pre ++ x :: post).map f).sum = ((pre ++ post).map f).sum + f x := by
  simp
  omega

variable {s t : Executor} {ev : Event}

lemma load_lt_of_cut {pre post : List Job} {j j' : Job} (hs : s.jobs = pre ++ j :: post)
    (hjobs : t.jobs = pre ++ j' :: post) (htickets : t.tickets = s.tickets)
    (hqueue : t.queue = s.queue) (hj : j'.load < j.load) : t.load < s.load := by
  rw [load, load, hjobs, hs, htickets, hqueue, sum_cut, sum_cut _ _ _ j]
  omega

/-- Each step of a stopped executor takes some of its load away. -/
lemma Step.load_lt (h : Step s ev t) (hc : s.cancelled = true) (hown : ev.isOwn = true) :
    t.load < s.load := by
  cases h with
  | ask | «open» => cases hown
  | recordIn hs | recordOut hs =>
    rw [load, load, hs, sum_cut]
    simp [Ticket.load]
    try omega
  | @dequeue _ _ r hs hw =>
    have hj : Job.load ⟨r, false, if r.lane.limited then .waiting else .ready⟩ ≤ 6 := by
      split <;> simp [Job.load]
    simp only [load, hs, List.map_append, List.map_cons, List.map_nil, List.sum_append,
      List.sum_cons, List.sum_nil, List.length_append, List.length_cons]
    omega
  | acquire hs => exact load_lt_of_cut hs rfl rfl rfl (by simp [Job.load])
  | @giveUp _ _ r p hs =>
    refine load_lt_of_cut hs rfl rfl rfl ?_
    cases p <;> simp [Job.load]
  | giveBack hs => exact load_lt_of_cut hs rfl rfl rfl (by simp [Job.load])
  | @resume _ _ r p hs =>
    refine load_lt_of_cut hs rfl rfl rfl ?_
    cases p <;> simp [Job.load]
  | skip hs => exact load_lt_of_cut hs rfl rfl rfl (by simp [Job.load])
  | halt hs hc' | start hs hc' =>
    rw [hc] at hc'
    cases hc'
  | pass hs => exact load_lt_of_cut hs rfl rfl rfl (Nat.lt_succ_self _)
  | askChild hs =>
    refine load_lt_of_cut hs rfl rfl rfl ?_
    simp only [hc]
    exact Nat.lt_succ_self _
  | childIn hs =>
    rw [load, load, hs, sum_cut, sum_cut]
    simp [Job.load]
    omega
  | childOut hs =>
    refine load_lt_of_cut hs rfl rfl rfl ?_
    simp [Job.load]
    omega
  | @conclude _ _ r p hs =>
    refine load_lt_of_cut hs rfl rfl rfl ?_
    cases r.work.outcome s.plan s.classifier <;> simp [Job.load, Stage.ofOutcome]
  | cancel hs | finish hs => exact load_lt_of_cut hs rfl rfl rfl (by simp [Job.load])
  | leave hs =>
    rw [load, load, hs, sum_cut]
    exact Nat.lt_succ_self _

/-- The load bounds the steps that the executor takes by itself. -/
theorem run_load (hc : s.cancelled = true) {es : List Event} (hrun : s.run? es = some t)
    (hown : ∀ ev ∈ es, ev.isOwn = true) : es.length + t.load ≤ s.load := by
  induction es generalizing s with
  | nil =>
    cases hrun
    simp
  | cons ev es ih =>
    obtain ⟨u, hs, hrun⟩ := run?_cons_eq_some_iff.mp hrun
    have hlt := hs.load_lt hc (hown ev List.mem_cons_self)
    have hle := ih (hs.cancelled_mono hc) hrun fun ev' h => hown ev' (List.mem_cons_of_mem _ h)
    rw [List.length_cons]
    omega

end Executor

/-! ### A stopped executor goes on -/

/-- A job waits at a gate only if it has one, and is asked about a child only if it has one. -/
def Job.Sound (j : Job) : Prop :=
  match j.stage with
  | .gated => ∃ gate, j.work.gate = some gate
  | .running [] admitted => admitted = none
  | _ => True

lemma Job.sound_running (r : Routed) (p : Bool) (todo : List Work) :
    Job.Sound ⟨r, p, .running todo none⟩ := by
  cases todo <;> trivial

namespace Executor

variable {s t : Executor} {plan : Plan} {classifier : Classifier}

lemma Reachable.sound (h : Reachable plan classifier s) : ∀ j ∈ s.jobs, j.Sound := by
  refine h.invariant (P := fun s => ∀ j ∈ s.jobs, j.Sound) nofun ?_
  intro s t ev h hs
  cases hs with
  | ask | recordIn | recordOut | «open» => exact h
  | @dequeue _ _ r => exact forall_mem_snoc h (by cases r.lane.limited <;> trivial)
  | halt hs hc hg => exact forall_mem_cut h hs ⟨_, hg⟩
  | start hs | pass hs | childIn hs | childOut hs =>
    exact forall_mem_cut h hs (Job.sound_running _ _ _)
  | @conclude _ _ r _ hs =>
    refine forall_mem_cut h hs ?_
    cases r.work.outcome s.plan s.classifier <;> trivial
  | leave hs => exact forall_mem_rest h hs
  | acquire hs | giveUp hs | giveBack hs | resume hs | skip hs | askChild hs | cancel hs
  | finish hs =>
    exact forall_mem_cut h hs trivial

/-- Nothing is under way, queued or in a job. -/
structure AtRest (s : Executor) : Prop where
  tickets : s.tickets = []
  queue : s.queue = []
  jobs : s.jobs = []

/-- No body waits at a gate that is closed. -/
def GatesOpen (s : Executor) : Prop :=
  ∀ j ∈ s.jobs, j.stage = .gated → ∀ gate, j.work.gate = some gate → gate ∈ s.opened

/-- A job that holds a worker can take a step, unless it waits at a closed gate. -/
lemma exists_step_of_working (hsound : ∀ j ∈ s.jobs, j.Sound) (hopen : s.GatesOpen) {j : Job}
    (hj : j ∈ s.jobs) (hw : j.stage.holdsWorker = true) :
    ∃ ev t, Step s ev t ∧ ev.isOwn = true ∧ ev.takesPermit = false := by
  have hjsound := hsound j hj
  have hgate := hopen j hj
  obtain ⟨pre, post, hs⟩ := List.append_of_mem hj
  obtain ⟨r, p, stage⟩ := j
  cases stage with
  | waiting | called => cases hw
  | ready =>
    cases hc : s.cancelled with
    | true => exact ⟨_, _, .skip hs hc, rfl, rfl⟩
    | false =>
      cases hg : r.work.gate with
      | none => exact ⟨_, _, .start hs hc hg, rfl, rfl⟩
      | some gate => exact ⟨_, _, .halt hs hc hg, rfl, rfl⟩
  | gated =>
    obtain ⟨gate, hg⟩ := hjsound
    exact ⟨_, _, .pass hs hg (hgate rfl gate hg), rfl, rfl⟩
  | running todo admitted =>
    match todo, admitted with
    | [], none => exact ⟨_, _, .conclude hs, rfl, rfl⟩
    | [], some _ => cases hjsound
    | _ :: _, none => exact ⟨_, _, .askChild hs, rfl, rfl⟩
    | _ :: _, some true => exact ⟨_, _, .childIn hs, rfl, rfl⟩
    | _ :: _, some false => exact ⟨_, _, .childOut hs, rfl, rfl⟩
  | failing => exact ⟨_, _, .cancel hs, rfl, rfl⟩
  | finishing => exact ⟨_, _, .finish hs, rfl, rfl⟩
  | leaving => exact ⟨_, _, .leave hs, rfl, rfl⟩

/-- Where no job holds a worker, there is one on every lane. -/
lemma hasWorker_of_idle (hstart : s.plan.start = .ok ())
    (hidle : ∀ j ∈ s.jobs, j.stage.holdsWorker = false) (lane : Lane) :
    s.hasWorker lane = true := by
  have hbusy : s.busy lane.role = 0 := by
    rw [busy, List.countP_eq_zero]
    intro j hj
    rw [hidle j hj]
    exact Bool.false_ne_true
  rw [hasWorker, hbusy, decide_eq_true_eq]
  exact Plan.pool_pos hstart lane.role

/-- As long as something is left, an executor can go on by itself and without a permit, unless all
that its jobs do is wait for permits. -/
lemma exists_step_or_waiting (hreach : Reachable plan classifier s) (hstart : plan.start = .ok ())
    (hopen : s.GatesOpen) (hleft : ¬s.AtRest) :
    (∃ ev t, Step s ev t ∧ ev.isOwn = true ∧ ev.takesPermit = false) ∨
      s.jobs ≠ [] ∧ ∀ j ∈ s.jobs, j.stage = .waiting := by
  rw [← hreach.plan_eq.1] at hstart
  by_cases hworking : ∃ j ∈ s.jobs, j.stage.holdsWorker = true
  · obtain ⟨j, hj, hw⟩ := hworking
    exact Or.inl (exists_step_of_working hreach.sound hopen hj hw)
  have hidle : ∀ j ∈ s.jobs, j.stage.holdsWorker = false := by
    intro j hj
    rw [← Bool.not_eq_true]
    exact fun hw => hworking ⟨j, hj, hw⟩
  have hworker := hasWorker_of_idle hstart hidle
  by_cases hcalled : ∃ j ∈ s.jobs, j.stage = .called
  · obtain ⟨⟨r, p, _⟩, hj, rfl⟩ := hcalled
    obtain ⟨pre, post, hs⟩ := List.append_of_mem hj
    exact Or.inl ⟨_, _, .resume hs (hworker _), rfl, rfl⟩
  have hwaiting : ∀ j ∈ s.jobs, j.stage = .waiting := by
    intro j hj
    have hjidle := hidle j hj
    cases hstage : j.stage with
    | waiting => rfl
    | called => exact absurd ⟨j, hj, hstage⟩ hcalled
    | _ => rw [hstage] at hjidle; cases hjidle
  cases hjobs : s.jobs with
  | cons j js => exact Or.inr ⟨List.cons_ne_nil _ _, hjobs ▸ hwaiting⟩
  | nil =>
    left
    cases hqueue : s.queue with
    | cons r queue =>
      rw [← List.nil_append (r :: queue)] at hqueue
      exact ⟨_, _, .dequeue hqueue (hworker _), rfl, rfl⟩
    | nil =>
      cases htickets : s.tickets with
      | nil => exact absurd ⟨htickets, hqueue, hjobs⟩ hleft
      | cons ticket tickets =>
        obtain ⟨w, admitted⟩ := ticket
        rw [← List.nil_append (_ :: tickets)] at htickets
        cases admitted with
        | true => exact ⟨_, _, .recordIn htickets, rfl, rfl⟩
        | false => exact ⟨_, _, .recordOut htickets, rfl, rfl⟩

/-- **As long as something is left, a stopped executor can go on by itself, and without a permit.**
-/
theorem exists_step (hreach : Reachable plan classifier s) (hstart : plan.start = .ok ())
    (hc : s.cancelled = true) (hopen : s.GatesOpen) (hleft : ¬s.AtRest) :
    ∃ ev t, Step s ev t ∧ ev.isOwn = true ∧ ev.takesPermit = false := by
  rcases exists_step_or_waiting hreach hstart hopen hleft with hstep | ⟨hjobs, hwaiting⟩
  · exact hstep
  · obtain ⟨⟨r, p, stage⟩, js, hs⟩ := List.exists_cons_of_ne_nil hjobs
    obtain rfl : stage = .waiting := hwaiting ⟨r, p, stage⟩ (by simp [hs])
    rw [← List.nil_append (_ :: js)] at hs
    exact ⟨_, _, .giveUp hs hc, rfl, rfl⟩

/-- A stopped executor lets no more bodies come to gates. -/
lemma GatesOpen.step {ev : Event} (h : s.GatesOpen) (hc : s.cancelled = true) (hs : Step s ev t) :
    t.GatesOpen := by
  cases hs with
  | ask | recordIn | recordOut => exact h
  | dequeue hs => exact forall_mem_snoc h (by split <;> exact nofun)
  | halt hs hc' =>
    rw [hc] at hc'
    cases hc'
  | @conclude _ _ r _ hs =>
    refine forall_mem_cut h hs ?_
    cases r.work.outcome s.plan s.classifier <;> exact nofun
  | leave hs => exact forall_mem_rest h hs
  | «open» => exact fun j hj hgated gate hg => List.mem_cons_of_mem _ (h j hj hgated gate hg)
  | acquire hs | giveUp hs | giveBack hs | resume hs | skip hs | start hs | pass hs | askChild hs
  | childIn hs | childOut hs | cancel hs | finish hs =>
    exact forall_mem_cut h hs nofun

lemma run_open (s : Executor) (gates : List ℕ) :
    s.run? (gates.map .open) = some { s with opened := gates.reverse ++ s.opened } := by
  induction gates generalizing s with
  | nil => rfl
  | cons gate gates ih =>
    rw [List.map_cons, (Step.open gate).run?_cons, ih]
    simp

/-- Nothing but the gates of bodies that began before keeps a stopped executor from its rest. -/
theorem exists_rest (hreach : Reachable plan classifier s) (hstart : plan.start = .ok ())
    (hc : s.cancelled = true) (hopen : s.GatesOpen) : ∃ es t, s.run? es = some t ∧ t.AtRest ∧
      ∀ ev ∈ es, ev.isOwn = true ∧ ev.takesPermit = false := by
  induction hn : s.load using Nat.strong_induction_on generalizing s with
  | _ n ih =>
    subst hn
    by_cases hrest : s.AtRest
    · exact ⟨[], s, rfl, hrest, nofun⟩
    obtain ⟨ev, u, hs, hown, hpermit⟩ := exists_step hreach hstart hc hopen hrest
    obtain ⟨es, t, hrun, ht, hes⟩ := ih _ (hs.load_lt hc hown) (hreach.step hs.step?_eq)
      (hs.cancelled_mono hc) (hopen.step hc hs) rfl
    refine ⟨ev :: es, t, by rw [hs.run?_cons, hrun], ht, ?_⟩
    exact List.forall_mem_cons.mpr ⟨⟨hown, hpermit⟩, hes⟩

/-! ### A task leaves by itself -/

/-- A job without a body to end left as skipped. -/
def leaveSkipped (s : Executor) (pre post : List Job) (permit : Bool) : Executor :=
  { s with
    tracker := s.tracker.finish .skipped
    jobs := pre ++ post
    freePermits := s.freePermits + (if permit then 1 else 0) }

/-- The steps by which a job leaves a stopped executor before its body begins. -/
def wayOut (i : ℕ) : Stage → List Event
  | .waiting => [.giveUp i, .resume i, .begin i, .finish i, .leave i]
  | .called => [.resume i, .begin i, .finish i, .leave i]
  | _ => [.begin i, .finish i, .leave i]

section

variable {pre post : List Job} {r : Routed} {p : Bool} {stage : Stage}

lemma hasWorker_of_cut {j j' : Job} (hs : s.jobs = pre ++ j :: post)
    (hjobs : t.jobs = pre ++ j' :: post) (hplan : t.plan = s.plan)
    (hj : j.stage.holdsWorker = false) (hj' : j'.stage.holdsWorker = false) (lane : Lane) :
    t.hasWorker lane = s.hasWorker lane := by
  simp [hasWorker, busy, hs, hjobs, hplan, hj, hj']

lemma run_wayOut_ready (hc : s.cancelled = true) (hs : s.jobs = pre ++ ⟨r, p, .ready⟩ :: post) :
    s.run? (wayOut pre.length .ready) = some (s.leaveSkipped pre post p) := by
  change s.run? [.begin pre.length, .finish pre.length, .leave pre.length] = _
  rw [(Step.skip hs hc).run?_cons, (Step.finish rfl).run?_cons, (Step.leave rfl).run?_cons]
  rfl

lemma run_wayOut_called (hc : s.cancelled = true) (hs : s.jobs = pre ++ ⟨r, p, .called⟩ :: post)
    (hw : s.hasWorker r.lane = true) :
    s.run? (wayOut pre.length .called) = some (s.leaveSkipped pre post p) := by
  rw [wayOut, (Step.resume hs hw).run?_cons]
  exact run_wayOut_ready (s := { s with jobs := pre ++ ⟨r, p, .ready⟩ :: post }) hc rfl

/-- **A job whose body has yet to begin leaves a stopped executor by itself**, once it has a worker,
and whether or not a permit is free. -/
theorem run_wayOut (hc : s.cancelled = true) (hs : s.jobs = pre ++ ⟨r, p, stage⟩ :: post)
    (hfresh : stage.isFresh = true) (hw : stage.holdsWorker = true ∨ s.hasWorker r.lane = true) :
    s.run? (wayOut pre.length stage) = some (s.leaveSkipped pre post p) := by
  cases stage with
  | ready => exact run_wayOut_ready hc hs
  | called => exact run_wayOut_called hc hs (hw.resolve_left Bool.false_ne_true)
  | waiting =>
    have hworker := hasWorker_of_cut (t := { s with jobs := pre ++ ⟨r, p, .called⟩ :: post }) hs rfl
      rfl rfl rfl r.lane
    rw [hw.resolve_left Bool.false_ne_true] at hworker
    rw [wayOut, (Step.giveUp hs hc).run?_cons]
    exact run_wayOut_called (s := { s with jobs := pre ++ ⟨r, p, .called⟩ :: post }) hc rfl hworker
  | _ => cases hfresh

/-- The same from the queue. -/
theorem run_wayOut_queued {pre post : List Routed} (hc : s.cancelled = true)
    (hs : s.queue = pre ++ r :: post) (hw : s.hasWorker r.lane = true) :
    s.run? (.dequeue pre.length ::
        wayOut s.jobs.length (if r.lane.limited then .waiting else .ready)) =
      some { s with queue := pre ++ post, tracker := s.tracker.finish .skipped } := by
  have hstep := Step.dequeue hs hw
  generalize hstage : (if r.lane.limited then Stage.waiting else .ready) = stage at *
  have hjobs : s.jobs ++ [⟨r, false, stage⟩] = s.jobs ++ ⟨r, false, stage⟩ :: [] := rfl
  have hout := run_wayOut
    (s := { s with queue := pre ++ post, jobs := s.jobs ++ [⟨r, false, stage⟩] }) hc hjobs ?_ ?_
  · rw [hstep.run?_cons, hout]
    simp [leaveSkipped]
  · subst hstage
    split <;> rfl
  · subst hstage
    split
    · refine Or.inr ?_
      rw [hasWorker, decide_eq_true_eq] at hw ⊢
      simpa [busy, Stage.holdsWorker] using hw
    · exact Or.inl rfl

end

end Executor

end PhaseExecutors
