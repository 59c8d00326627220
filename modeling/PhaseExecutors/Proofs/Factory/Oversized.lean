import PhaseExecutors.Executor.Step
import PhaseExecutors.Proofs.Plan.Start

/-!
Sizes that are too large end in a build error, which names the first pool that is too large.

There is one way out of this. A line of the log states the threads of a plan in all, and their sum
is taken before any pool is looked at. Where the log shows that line and no size can count the
threads, the program stops.
-/

namespace PhaseExecutors

namespace Factory

/-- The builder that starts the pools of a plan. -/
def poolBuilder (classifier : Classifier) : Builder Executor := fun _ plan =>
  plan.start.map fun _ => .init plan classifier

/-- The answer to a request for the executor of a phase. -/
def answer (f : Factory) (kept : Level) (phase : Phase) : Except ExecutorError Executor :=
  (f.executorFor kept (poolBuilder f.classifier) phase).1

/-- The log shows a line about the plan, and the threads that it states are no size. -/
def Miscounts (kept : Level) (plan : Plan) : Prop :=
  kept.shows .debug = true ∧ Size.bound ≤ plan.threads

variable {f : Factory} {kept : Level} {phase : Phase} {plan : Plan}

lemma announce_of_miscounts (h : Miscounts kept plan) :
    announce kept phase plan = .error .threadsOverflow := by
  have hnone : plan.totalThreads? = none := if_neg (Nat.not_lt.mpr h.2)
  simp only [announce, h.1, if_true, hnone]

lemma announce_of_not_miscounts (phase : Phase) (h : ¬Miscounts kept plan) :
    ∃ log, announce kept phase plan = .ok log := by
  unfold announce
  cases hshows : kept.shows .debug with
  | false => exact ⟨_, rfl⟩
  | true =>
    have hlt : plan.threads < Size.bound := Nat.not_le.mp fun hle => h ⟨hshows, hle⟩
    have hsome : plan.totalThreads? = some (UInt64.ofNat plan.threads) := if_pos hlt
    simp only [if_true, hsome]
    exact ⟨_, rfl⟩

lemma answer_of_unmet {e : UnmetPrecondition} (h : f.planFor phase = .error e) :
    f.answer kept phase = .error (.unmet e) := by
  simp only [answer, executorFor, h]

lemma answer_of_miscounts (h : f.planFor phase = .ok plan) (hm : Miscounts kept plan) :
    f.answer kept phase = .error .threadsOverflow := by
  simp only [answer, executorFor, h, announce_of_miscounts hm]

lemma answer_of_not_miscounts (h : f.planFor phase = .ok plan) (hm : ¬Miscounts kept plan) :
    f.answer kept phase = plan.start.map fun _ => .init plan f.classifier := by
  obtain ⟨log, hlog⟩ := announce_of_not_miscounts phase hm
  simp only [answer, executorFor, h, hlog, poolBuilder]

/-- What becomes of a request for the executor of a phase, by the snapshot in force. -/
structure Answers (f : Factory) (kept : Level) (phase : Phase) : Prop where
  /-- A phase whose sizes are missing is refused. -/
  unmet : (∃ e, f.answer kept phase = .error (.unmet e)) ↔
    ∃ field ∈ phase.needs, f.snapshot.field field = 0
  /-- If a pool has too many threads, the first such pool is reported. -/
  tooLarge : ∀ plan, f.planFor phase = .ok plan → ¬Miscounts kept plan →
    ∀ pre p post, plan.pools = pre ++ p :: post →
      (∀ q ∈ pre, q.parallelism ≤ maxPoolParallelism) → maxPoolParallelism < p.parallelism →
        f.answer kept phase = .error (.build ⟨p.name, .parallelism p.parallelism⟩)
  /-- Otherwise there is an executor, and its threads can be counted. -/
  started : ∀ plan, f.planFor phase = .ok plan →
    (∀ p ∈ plan.pools, p.parallelism ≤ maxPoolParallelism) →
      f.answer kept phase = .ok (.init plan f.classifier) ∧ (plan.totalThreads?).isSome
  /-- The program stops only over the line of the log, and then always. -/
  defect : (∃ e, f.answer kept phase = .error e ∧ e.isDefect = true) ↔
    ∃ plan, f.planFor phase = .ok plan ∧ Miscounts kept plan

/-- A plan with a pool that is too large is refused on account of the first one. -/
lemma answer_of_first (h : f.planFor phase = .ok plan) (hm : ¬Miscounts kept plan)
    {pre post : List PoolSpec} {p : PoolSpec} (hpools : plan.pools = pre ++ p :: post)
    (hpre : ∀ q ∈ pre, q.parallelism ≤ maxPoolParallelism)
    (hp : maxPoolParallelism < p.parallelism) :
    f.answer kept phase = .error (.build ⟨p.name, .parallelism p.parallelism⟩) := by
  have hsized := (Plan.forPhase_eq_ok_iff.mp h).wellSized
  rw [answer_of_not_miscounts h hm, hsized.start_of_first hpools hpre hp]
  rfl

lemma answer_of_small (h : f.planFor phase = .ok plan)
    (hsmall : ∀ p ∈ plan.pools, p.parallelism ≤ maxPoolParallelism) :
    f.answer kept phase = .ok (.init plan f.classifier) := by
  have hsized := (Plan.forPhase_eq_ok_iff.mp h).wellSized
  have hm : ¬Miscounts kept plan := fun hm =>
    Nat.not_lt.mpr hm.2 (Plan.threads_lt hsmall)
  rw [answer_of_not_miscounts h hm, hsized.start_eq_ok_iff.mpr hsmall]
  rfl

/-- The ways in which a request can end. -/
lemma answer_cases (f : Factory) (kept : Level) (phase : Phase) :
    (∃ e, f.planFor phase = .error e ∧ f.answer kept phase = .error (.unmet e)) ∨
      ∃ plan, f.planFor phase = .ok plan ∧
        (Miscounts kept plan ∧ f.answer kept phase = .error .threadsOverflow ∨
          ¬Miscounts kept plan ∧ ((∃ e, f.answer kept phase = .error (.build e)) ∨
            ∃ s, f.answer kept phase = .ok s)) := by
  cases h : f.planFor phase with
  | error e => exact Or.inl ⟨e, rfl, answer_of_unmet h⟩
  | ok plan =>
    refine Or.inr ⟨plan, rfl, ?_⟩
    by_cases hm : Miscounts kept plan
    · exact Or.inl ⟨hm, answer_of_miscounts h hm⟩
    · refine Or.inr ⟨hm, ?_⟩
      by_cases hsmall : ∀ p ∈ plan.pools, p.parallelism ≤ maxPoolParallelism
      · exact Or.inr ⟨_, answer_of_small h hsmall⟩
      · obtain ⟨pre, p, post, hpools, hpre, hp⟩ := exists_first hsmall
        exact Or.inl ⟨_, answer_of_first h hm hpools hpre (UInt64.not_le.mp hp)⟩

/-- **A size that is too large is reported with its pool, unless the log counts the threads
first.** -/
theorem answers_of_any_sizes (f : Factory) (kept : Level) (phase : Phase) :
    Answers f kept phase := by
  have hcases := answer_cases f kept phase
  refine ⟨?_, ?_, ?_, ?_⟩
  · rw [← Plan.exists_forPhase_eq_error_iff]
    constructor
    · rintro ⟨e, he⟩
      rcases hcases with ⟨e', h, -⟩ | ⟨plan, -, ⟨-, h⟩ | ⟨-, ⟨e', h⟩ | ⟨s, h⟩⟩⟩
      · exact ⟨e', h⟩
      all_goals rw [he] at h; cases h
    · rintro ⟨e, he⟩
      exact ⟨e, answer_of_unmet he⟩
  · intro plan h hm pre p post hpools hpre hp
    exact answer_of_first h hm hpools hpre hp
  · intro plan h hsmall
    refine ⟨answer_of_small h hsmall, ?_⟩
    rw [Plan.totalThreads?, Size.ofNat?_eq_some (Plan.threads_lt hsmall)]
    rfl
  · constructor
    · rintro ⟨e, he, hdefect⟩
      rcases hcases with ⟨e', -, h⟩ | ⟨plan, hplan, ⟨hm, -⟩ | ⟨-, ⟨e', h⟩ | ⟨s, h⟩⟩⟩
      · rw [he] at h
        cases h
        cases hdefect
      · exact ⟨plan, hplan, hm⟩
      · rw [he] at h
        cases h
        cases hdefect
      · rw [he] at h
        cases h
    · rintro ⟨plan, hplan, hm⟩
      exact ⟨_, answer_of_miscounts hplan hm, rfl⟩

/-- With the lines about plans shown, an analysis pool of the largest size and one heavy thread stop
the program before the pool is refused. -/
theorem defect_of_largest_size : ∃ f : Factory, ∃ plan p, f.planFor .analysis = .ok plan ∧
    plan.pools.head? = some p ∧ maxPoolParallelism < p.parallelism ∧
      f.answer .debug .analysis = .error .threadsOverflow ∧
      f.answer .info .analysis = .error (.build ⟨p.name, .parallelism p.parallelism⟩) :=
  ⟨.ofSettings (.initial (.make Size.top 1 1 1 false)), _, _, rfl, rfl, by decide, rfl, rfl⟩

end Factory

end PhaseExecutors
