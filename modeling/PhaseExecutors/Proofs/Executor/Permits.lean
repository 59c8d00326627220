import PhaseExecutors.Proofs.Executor.Steps

/-!
The heavy lane: never more heavy bodies than permits.

A job of a heavy task may go on without a permit only once the executor is stopped, and a stopped
executor begins no body. So each heavy body that runs has a permit, and what remains is that jobs
give back what they took.
-/

namespace PhaseExecutors

namespace Stage

/-- A job can be here without a body that began. -/
def isIdle : Stage → Bool
  | .called | .ready | .finishing .skipped | .leaving => true
  | _ => false

lemma isIdle_of_inBody {stage : Stage} (h : stage.inBody = true) : stage.isIdle = false := by
  cases stage <;> first | rfl | cases h

lemma ofOutcome_ne_waiting (o : Outcome) : ofOutcome o ≠ .waiting := by
  cases o <;> exact nofun

end Stage

/-- How a job may stand with the permits of its lane, by whether the executor is stopped. -/
structure Job.Permitted (cancelled : Bool) (j : Job) : Prop where
  /-- Only jobs of a limited lane take a permit. -/
  needed : j.permit = true → j.task.lane.limited = true
  waiting : j.stage = .waiting → j.task.lane.limited = true ∧ j.permit = false
  /-- A job that needs a permit and has none waits for it, or sees that it need not run. -/
  missing : j.task.lane.limited = true → j.permit = false →
    j.stage = .waiting ∨ cancelled = true ∧ j.stage.isIdle = true

namespace Job.Permitted

variable {cancelled p : Bool} {r : Routed} {stage stage' : Stage}

lemma stop {j : Job} (h : j.Permitted cancelled) : j.Permitted true := by
  refine ⟨h.needed, h.waiting, ?_⟩
  intro hneeds hp
  exact (h.missing hneeds hp).imp_right fun hidle => ⟨rfl, hidle.2⟩

/-- A job goes from stage to stage; without a permit it keeps out of its body. -/
lemma goOn (h : Job.Permitted cancelled ⟨r, p, stage⟩) (hstage : stage ≠ .waiting)
    (hstage' : stage' ≠ .waiting)
    (hidle : cancelled = true → stage.isIdle = true → stage'.isIdle = true) :
    Job.Permitted cancelled ⟨r, p, stage'⟩ := by
  refine ⟨h.needed, fun hwait => absurd hwait hstage', ?_⟩
  intro hneeds hp
  rcases h.missing hneeds hp with hwait | ⟨hc, hi⟩
  · exact absurd hwait hstage
  · exact Or.inr ⟨hc, hidle hc hi⟩

end Job.Permitted

namespace Executor

/-- The permits of the plan are free or held by jobs. -/
structure Permits (s : Executor) : Prop where
  total : s.freePermits + s.jobs.countP Job.permit = s.plan.permits
  jobs : ∀ j ∈ s.jobs, j.Permitted s.cancelled

variable {s t : Executor}

/-- A job that goes on with the permit that it has, or has not. -/
lemma Permits.of_cut (h : Permits s) {pre post : List Job} {r : Routed} {p : Bool}
    {stage stage' : Stage} (hs : s.jobs = pre ++ ⟨r, p, stage⟩ :: post)
    (ht : t.jobs = pre ++ ⟨r, p, stage'⟩ :: post)
    (hfree : t.freePermits = s.freePermits) (hplan : t.plan = s.plan)
    (hc : t.cancelled = s.cancelled) (hj : Job.Permitted s.cancelled ⟨r, p, stage'⟩) :
    Permits t := by
  refine ⟨?_, ?_⟩
  · rw [hfree, hplan, ← h.total, hs, ht]
    simp [List.countP_cons]
  · rw [ht, hc]
    exact forall_mem_cut h.jobs hs hj

lemma Permits.step (h : Permits s) {ev : Event} (hs : Step s ev t) : Permits t := by
  have htotal := h.total
  cases hs with
  | ask | recordIn | recordOut | «open» => exact ⟨h.total, h.jobs⟩
  | @dequeue _ _ r hs hw =>
    refine ⟨by simpa [List.countP_cons] using htotal, forall_mem_snoc h.jobs ⟨nofun, ?_, ?_⟩⟩
    · intro hwait
      cases hlimited : r.lane.limited
      · simp [hlimited] at hwait
      · exact ⟨rfl, rfl⟩
    · intro hlimited _
      exact Or.inl (if_pos hlimited)
  | acquire hs hp =>
    have hj := forall_mem_at h.jobs hs
    obtain ⟨hlimited, rfl⟩ := hj.waiting rfl
    refine ⟨?_, forall_mem_cut h.jobs hs ⟨fun _ => hlimited, nofun, nofun⟩⟩
    simp [hs] at htotal ⊢
    omega
  | giveUp hs hc =>
    have hj := forall_mem_at h.jobs hs
    exact h.of_cut hs rfl rfl rfl rfl ⟨hj.needed, nofun, fun _ _ => Or.inr ⟨hc, rfl⟩⟩
  | giveBack hs hc =>
    refine ⟨?_, forall_mem_cut h.jobs hs ⟨nofun, nofun, fun _ _ => Or.inr ⟨hc, rfl⟩⟩⟩
    simp [hs] at htotal ⊢
    omega
  | resume hs | skip hs | finish hs =>
    have hj := forall_mem_at h.jobs hs
    exact h.of_cut hs rfl rfl rfl rfl (hj.goOn nofun nofun fun _ _ => rfl)
  | halt hs hc | start hs hc =>
    -- A job that begins its body is not idle, so here it counts that the executor runs.
    have hj := forall_mem_at h.jobs hs
    refine h.of_cut hs rfl rfl rfl rfl (hj.goOn nofun nofun ?_)
    rw [hc]
    exact nofun
  | pass hs | askChild hs | childIn hs | childOut hs =>
    have hj := forall_mem_at h.jobs hs
    exact h.of_cut hs rfl rfl rfl rfl (hj.goOn nofun nofun nofun)
  | conclude hs =>
    have hj := forall_mem_at h.jobs hs
    exact h.of_cut hs rfl rfl rfl rfl (hj.goOn nofun (Stage.ofOutcome_ne_waiting _) nofun)
  | cancel hs =>
    refine ⟨by simpa [hs, List.countP_cons] using htotal, ?_⟩
    have hj := (forall_mem_at h.jobs hs).stop
    exact forall_mem_cut (fun j hj => (h.jobs j hj).stop) hs (hj.goOn nofun nofun nofun)
  | @leave _ _ _ p hs =>
    refine ⟨?_, forall_mem_rest h.jobs hs⟩
    cases p <;> simp [hs] at htotal ⊢ <;> omega

lemma Reachable.permits {plan : Plan} {classifier : Classifier} (h : Reachable plan classifier s) :
    Permits s :=
  h.invariant ⟨rfl, nofun⟩ fun h hs => h.step hs

/-! ### The lane of a tiered plan -/

/-- What the lane of heavy tasks guarantees at a moment. -/
structure HeavyLane (capacity : ℕ) (s : Executor) : Prop where
  /-- No more heavy bodies run than the lane has permits. -/
  cap : (s.jobs.countP fun j => j.work.kind == .cpuHeavy && j.stage.inBody) ≤ capacity
  held : ∀ j ∈ s.jobs, j.work.kind = .cpuHeavy → j.stage.inBody = true → j.permit = true
  /-- A heavy job goes on without a permit only if the executor is stopped, and then never to its
  body. In particular, one whose body has ended still has its permit. -/
  missing : ∀ j ∈ s.jobs, j.work.kind = .cpuHeavy → j.permit = false →
    j.stage = .waiting ∨ s.cancelled = true ∧ j.stage.isIdle = true
  /-- If it begins, it is skipped. -/
  skipped : ∀ i j t, s.jobs[i]? = some j → j.work.kind = .cpuHeavy → j.permit = false →
    s.step? (.begin i) = some t →
      t.ran = s.ran ∧ t.jobs = s.jobs.set i { j with stage := .finishing .skipped }
  /-- No permit is lost, and none is made. -/
  permits : s.freePermits + s.jobs.countP Job.permit = capacity
  heavy : ∀ j ∈ s.jobs, j.permit = true → j.work.kind = .cpuHeavy

lemma needsPermit_tieredPriority {pool : PoolSpec} {capacity : Size} {kind : TaskKind} :
    (Plan.tieredPriority pool capacity).needsPermit kind = true ↔ kind = .cpuHeavy := by
  cases kind <;> simp [Plan.needsPermit]

lemma Permits.held (h : Permits s) {j : Job} (hj : j ∈ s.jobs)
    (hlimited : j.task.lane.limited = true) (hbody : j.stage.inBody = true) : j.permit = true := by
  rw [← Bool.not_eq_false]
  intro hp
  rcases (h.jobs j hj).missing hlimited hp with hwait | ⟨-, hidle⟩
  · rw [hwait] at hbody
    cases hbody
  · rw [Stage.isIdle_of_inBody hbody] at hidle
    cases hidle

/-- The bodies of a limited lane are at most as many as the permits that are held. -/
lemma Permits.cap (h : Permits s) :
    (s.jobs.countP fun j => j.task.lane.limited && j.stage.inBody) ≤ s.plan.permits := by
  calc (s.jobs.countP fun j => j.task.lane.limited && j.stage.inBody)
      ≤ s.jobs.countP Job.permit := by
        refine List.countP_mono_left fun j hj hbody => ?_
        rw [Bool.and_eq_true] at hbody
        exact h.held hj hbody.1 hbody.2
    _ ≤ s.freePermits + s.jobs.countP Job.permit := Nat.le_add_left _ _
    _ = s.plan.permits := h.total

/-- **At most as many heavy bodies run as the lane has permits, each with one, and permits are
neither lost nor made.** -/
theorem heavyLane_of_reachable {pool : PoolSpec} {capacity : Size} {classifier : Classifier}
    {s : Executor} (hs : Reachable (.tieredPriority pool capacity) classifier s) :
    HeavyLane capacity.toNat s := by
  have h := hs.permits
  have hplan := hs.plan_eq.1
  have hlimited : ∀ j ∈ s.jobs, j.task.lane.limited = true ↔ j.work.kind = .cpuHeavy := by
    intro j hj
    rw [hs.onLanes.jobs j hj, hplan]
    exact needsPermit_tieredPriority
  have hpermits : s.plan.permits = capacity.toNat := by rw [hplan]; rfl
  refine ⟨?_, ?_, ?_, ?_, ?_, ?_⟩
  · rw [← hpermits]
    refine Nat.le_trans (List.countP_mono_left fun j hj hbody => ?_) h.cap
    rw [Bool.and_eq_true, beq_iff_eq] at hbody
    rw [(hlimited j hj).mpr hbody.1, hbody.2, Bool.and_self]
  · intro j hj hheavy hbody
    exact h.held hj ((hlimited j hj).mpr hheavy) hbody
  · intro j hj hheavy hp
    exact (h.jobs j hj).missing ((hlimited j hj).mpr hheavy) hp
  · intro i j t hi hheavy hp hstep
    obtain ⟨pre, post, hjobs, rfl⟩ := exists_cut hi
    have hready : j.stage = .ready := by
      simp only [step?, hi] at hstep
      split at hstep
      · assumption
      · cases hstep
    have hc : s.cancelled = true := by
      have hneeds := (forall_mem_at hlimited hjobs).mpr hheavy
      rcases (forall_mem_at h.jobs hjobs).missing hneeds hp with hwait | ⟨hc, -⟩
      · rw [hready] at hwait
        cases hwait
      · exact hc
    simp only [step?, hi, hready, hc, if_true, Option.some.injEq] at hstep
    subst hstep
    exact ⟨rfl, rfl⟩
  · rw [h.total, hpermits]
  · intro j hj hp
    exact (hlimited j hj).mp ((h.jobs j hj).needed hp)

/-- A heavy task panics with the only permit, and another one gives up its wait. -/
theorem heavyLane_after_panic : ∃ plan s, plan = .tieredPriority ⟨generalPool, 2⟩ 1 ∧
    Reachable plan Classifier.evaluator s ∧ s.jobs.map Job.permit = [true, false] ∧
      s.cancelled = true ∧ HeavyLane 1 s := by
  let panicking : Work := .task "panicking" .cpuHeavy none (.panicked none) []
  let waiting : Work := .task "waiting" .cpuHeavy none .ok []
  let es : List Event := [.ask panicking, .ask waiting, .record 0, .record 0, .dequeue 0,
    .dequeue 0, .acquire 0, .resume 0, .begin 0, .conclude 0, .cancel 0, .giveUp 1, .resume 1]
  have hrun : (init (.tieredPriority ⟨generalPool, 2⟩ 1) .evaluator).run? es = some _ := rfl
  have hs := Reachable.init.of_run? hrun
  exact ⟨_, _, rfl, hs, rfl, rfl, heavyLane_of_reachable hs⟩

end Executor

end PhaseExecutors
