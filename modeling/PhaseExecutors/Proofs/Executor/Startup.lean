import PhaseExecutors.Executor.Step
import PhaseExecutors.Proofs.Plan.Start

/-!
What the start of an executor comes to, for any plan.

An empty heavy lane is refused before any pool starts, and then the first pool of a bad size is
refused. Two things nobody looks at, and either of them stops the program: a pool with a name that
no thread can bear, and a heavy lane that is wider than permits can be counted.
-/

namespace PhaseExecutors

namespace PoolSpec

/-- No pool is started with so many threads. -/
def BadSize (p : PoolSpec) : Prop := p.parallelism = 0 ∨ maxPoolParallelism < p.parallelism

/-- Threads can go by the name of the pool. -/
def Nameable (p : PoolSpec) : Prop := '\x00' ∉ p.name.toList

def Sound (p : PoolSpec) : Prop := ¬p.BadSize ∧ p.Nameable

variable {p : PoolSpec}

lemma inRange_eq_false_iff : p.inRange = false ↔ p.BadSize := by
  rw [← Bool.not_eq_true, inRange_iff, BadSize, not_and_or, UInt64.pos_iff_ne_zero, not_not,
    UInt64.not_le]

lemma sound_iff : p.Sound ↔ p.start = .ok () := by
  rw [start_eq_ok_iff, Sound, Nameable, ← inRange_eq_false_iff, Bool.not_eq_false]

lemma start_of_not_nameable (hsize : ¬p.BadSize) (hname : ¬p.Nameable) :
    p.start = .error (.nulInName (p.name ++ "-0")) := by
  rw [← inRange_eq_false_iff, Bool.not_eq_false] at hsize
  rw [Nameable, not_not] at hname
  simp [start, hsize, hname]

end PoolSpec

namespace Plan

/-- The plan has a lane that admits no heavy task. -/
def HasEmptyLane (plan : Plan) : Prop := ∃ pool, plan = .tieredPriority pool 0

/-- The plan has a lane for more heavy tasks than there can be permits. -/
def HasWideLane (plan : Plan) : Prop :=
  ∃ pool capacity, plan = .tieredPriority pool capacity ∧ maxPermits < capacity

/-- What the start of a plan comes to. -/
inductive Verdict (plan : Plan) : Except ExecutorError Unit → Prop
  | emptyLane {pool : PoolSpec} (h : plan = .tieredPriority pool 0) :
      Verdict plan (.error (.build ⟨pool.name, .emptyHeavyLane⟩))
  | badSize {pre post : List PoolSpec} {p : PoolSpec} (hlane : ¬plan.HasEmptyLane)
      (h : plan.pools = pre ++ p :: post) (hpre : ∀ q ∈ pre, q.Sound) (hp : p.BadSize) :
      Verdict plan (.error (.build ⟨p.name, .parallelism p.parallelism⟩))
  | badName {pre post : List PoolSpec} {p : PoolSpec} (hlane : ¬plan.HasEmptyLane)
      (h : plan.pools = pre ++ p :: post) (hpre : ∀ q ∈ pre, q.Sound) (hsize : ¬p.BadSize)
      (hname : ¬p.Nameable) : Verdict plan (.error (.nulInName (p.name ++ "-0")))
  | wideLane (hlane : ¬plan.HasEmptyLane) (h : ∀ p ∈ plan.pools, p.Sound)
      (hwide : plan.HasWideLane) : Verdict plan (.error .tooManyPermits)
  | started (hlane : ¬plan.HasEmptyLane) (h : ∀ p ∈ plan.pools, p.Sound)
      (hwide : ¬plan.HasWideLane) : Verdict plan (.ok ())

variable {plan : Plan}

/-- Without an empty lane, the pools come first and the permits last. -/
lemma start_of_not_hasEmptyLane (hlane : ¬plan.HasEmptyLane) :
    (plan.HasWideLane ∧ plan.start = startPools plan.pools >>= fun _ => .error .tooManyPermits) ∨
      ¬plan.HasWideLane ∧ plan.start = startPools plan.pools := by
  cases plan with
  | single | multiPool => exact .inr ⟨by simp [HasWideLane], rfl⟩
  | tieredPriority pool capacity =>
    have hzero : capacity ≠ 0 := by
      rintro rfl
      exact hlane ⟨pool, rfl⟩
    by_cases hwide : maxPermits < capacity
    · refine .inl ⟨⟨pool, capacity, rfl, hwide⟩, ?_⟩
      simp only [start, hzero, if_false, hwide, if_true]
      rfl
    · refine .inr ⟨by rintro ⟨_, _, ⟨⟩, h⟩; exact hwide h, ?_⟩
      simp only [start, hzero, if_false, hwide]
      cases startPools (tieredPriority pool capacity).pools <;> rfl

/-- A pool that does not start ends the start of the plan. -/
lemma start_of_first (hlane : ¬plan.HasEmptyLane) {pre post : List PoolSpec} {p : PoolSpec}
    {e : ExecutorError} (h : plan.pools = pre ++ p :: post) (hpre : ∀ q ∈ pre, q.Sound)
    (hp : p.start = .error e) : plan.start = .error e := by
  have hpools : startPools plan.pools = .error e := by
    rw [h]
    exact startPools_of_first (fun q hq => PoolSpec.sound_iff.mp (hpre q hq)) hp
  rcases start_of_not_hasEmptyLane hlane with ⟨-, hstart⟩ | ⟨-, hstart⟩
  · rw [hstart, hpools]
    rfl
  · rw [hstart, hpools]

lemma Verdict.start_eq {r : Except ExecutorError Unit} (h : Verdict plan r) : plan.start = r := by
  cases h with
  | emptyLane h =>
    subst h
    rfl
  | badSize hlane h hpre hp =>
    exact start_of_first hlane h hpre
      (PoolSpec.start_of_not_inRange (PoolSpec.inRange_eq_false_iff.mpr hp))
  | badName hlane h hpre hsize hname =>
    exact start_of_first hlane h hpre (PoolSpec.start_of_not_nameable hsize hname)
  | wideLane hlane h hwide =>
    have hpools := startPools_eq_ok_iff.mpr fun p hp => PoolSpec.sound_iff.mp (h p hp)
    rcases start_of_not_hasEmptyLane hlane with ⟨-, hstart⟩ | ⟨hnarrow, -⟩
    · rw [hstart, hpools]
      rfl
    · exact absurd hwide hnarrow
  | started hlane h hwide =>
    have hpools := startPools_eq_ok_iff.mpr fun p hp => PoolSpec.sound_iff.mp (h p hp)
    rcases start_of_not_hasEmptyLane hlane with ⟨hwide', -⟩ | ⟨-, hstart⟩
    · exact absurd hwide' hwide
    · rw [hstart, hpools]

lemma exists_verdict (plan : Plan) : ∃ r, Verdict plan r := by
  by_cases hlane : plan.HasEmptyLane
  · obtain ⟨pool, h⟩ := hlane
    exact ⟨_, .emptyLane h⟩
  by_cases hall : ∀ p ∈ plan.pools, p.Sound
  · by_cases hwide : plan.HasWideLane
    · exact ⟨_, .wideLane hlane hall hwide⟩
    · exact ⟨_, .started hlane hall hwide⟩
  · obtain ⟨pre, p, post, h, hpre, hp⟩ := exists_first hall
    by_cases hsize : p.BadSize
    · exact ⟨_, .badSize hlane h hpre hsize⟩
    · exact ⟨_, .badName hlane h hpre hsize fun hname => hp ⟨hsize, hname⟩⟩

end Plan

namespace Executor

open Plan (Verdict)

variable {plan : Plan} {classifier : Classifier}

/-- The roles of a plan stand for its pools, in the order of the plan. -/
lemma poolNames_init (plan : Plan) (classifier : Classifier) :
    (init plan classifier).poolNames = plan.pools.map PoolSpec.name := by
  rcases plan with pool | ⟨pool, capacity⟩ | ⟨general, heavy, _ | execution⟩ <;> rfl

/-- What becomes of the start of an executor on a plan. -/
structure Startup (plan : Plan) (classifier : Classifier) : Prop where
  /-- It is refused on account of an empty lane, or of the size of the first pool that is not
  sound, and of nothing else. -/
  refused : (∃ e, start plan classifier = .error (.build e)) ↔
    plan.HasEmptyLane ∨ ∃ pre p post, plan.pools = pre ++ p :: post ∧ (∀ q ∈ pre, q.Sound) ∧
      p.BadSize
  emptyLane : ∀ pool, plan = .tieredPriority pool 0 →
    start plan classifier = .error (.build ⟨pool.name, .emptyHeavyLane⟩)
  badSize : ¬plan.HasEmptyLane → ∀ pre p post, plan.pools = pre ++ p :: post →
    (∀ q ∈ pre, q.Sound) → p.BadSize →
      start plan classifier = .error (.build ⟨p.name, .parallelism p.parallelism⟩)
  /-- The program stops over a name after pools that are sound, or over a lane whose pool is. -/
  defect : (∃ e, start plan classifier = .error e ∧ e.isDefect = true) ↔
    ¬plan.HasEmptyLane ∧
      ((∃ pre p post, plan.pools = pre ++ p :: post ∧ (∀ q ∈ pre, q.Sound) ∧ ¬p.BadSize ∧
          ¬p.Nameable) ∨
        (∀ p ∈ plan.pools, p.Sound) ∧ plan.HasWideLane)
  /-- Otherwise there is an executor. -/
  started : (∃ s, start plan classifier = .ok s) ↔
    (∀ p ∈ plan.pools, p.Sound) ∧ ¬plan.HasEmptyLane ∧ ¬plan.HasWideLane
  /-- It has the pools of the plan in their order, and their threads can be counted. -/
  executor : ∀ s, start plan classifier = .ok s → s = init plan classifier ∧
    s.poolNames = plan.pools.map PoolSpec.name ∧
      ∃ n, plan.totalThreads? = some n ∧ n.toNat = plan.threads
  /-- Where names and lane are beyond doubt, the sizes and an empty lane decide alone. -/
  decided : (∀ p ∈ plan.pools, p.Nameable) → ¬plan.HasWideLane →
    ((∃ e, start plan classifier = .error (.build e)) ↔
        plan.HasEmptyLane ∨ ∃ p ∈ plan.pools, p.BadSize) ∧
      ((∃ e, start plan classifier = .error (.build e)) ∨ ∃ s, start plan classifier = .ok s)

lemma start_eq {r : Except ExecutorError Unit} (h : Verdict plan r) (classifier : Classifier) :
    start plan classifier = r.map fun _ => init plan classifier := by
  rw [start, h.start_eq]

lemma exists_build_iff : (∃ e, start plan classifier = .error (.build e)) ↔
    plan.HasEmptyLane ∨ ∃ pre p post, plan.pools = pre ++ p :: post ∧ (∀ q ∈ pre, q.Sound) ∧
      p.BadSize := by
  constructor
  · rintro ⟨e, he⟩
    obtain ⟨r, hr⟩ := Plan.exists_verdict plan
    rw [start_eq hr] at he
    cases hr with
    | emptyLane h => exact .inl ⟨_, h⟩
    | badSize _ h hpre hp => exact .inr ⟨_, _, _, h, hpre, hp⟩
    | _ => cases he
  · rintro (⟨pool, h⟩ | ⟨pre, p, post, h, hpre, hp⟩)
    · exact ⟨_, start_eq (.emptyLane h) classifier⟩
    · by_cases hlane : plan.HasEmptyLane
      · obtain ⟨pool, h⟩ := hlane
        exact ⟨_, start_eq (.emptyLane h) classifier⟩
      · exact ⟨_, start_eq (.badSize hlane h hpre hp) classifier⟩

lemma exists_defect_iff : (∃ e, start plan classifier = .error e ∧ e.isDefect = true) ↔
    ¬plan.HasEmptyLane ∧
      ((∃ pre p post, plan.pools = pre ++ p :: post ∧ (∀ q ∈ pre, q.Sound) ∧ ¬p.BadSize ∧
          ¬p.Nameable) ∨
        (∀ p ∈ plan.pools, p.Sound) ∧ plan.HasWideLane) := by
  constructor
  · rintro ⟨e, he, hdefect⟩
    obtain ⟨r, hr⟩ := Plan.exists_verdict plan
    rw [start_eq hr] at he
    cases hr with
    | badName hlane h hpre hsize hname => exact ⟨hlane, .inl ⟨_, _, _, h, hpre, hsize, hname⟩⟩
    | wideLane hlane h hwide => exact ⟨hlane, .inr ⟨h, hwide⟩⟩
    | started => cases he
    | emptyLane | badSize =>
      cases he
      cases hdefect
  · rintro ⟨hlane, ⟨pre, p, post, h, hpre, hsize, hname⟩ | ⟨h, hwide⟩⟩
    · exact ⟨_, start_eq (.badName hlane h hpre hsize hname) classifier, rfl⟩
    · exact ⟨_, start_eq (.wideLane hlane h hwide) classifier, rfl⟩

lemma start_eq_ok_iff {s : Executor} : start plan classifier = .ok s ↔
    ((∀ p ∈ plan.pools, p.Sound) ∧ ¬plan.HasEmptyLane ∧ ¬plan.HasWideLane) ∧
      s = init plan classifier := by
  constructor
  · intro hs
    obtain ⟨r, hr⟩ := Plan.exists_verdict plan
    rw [start_eq hr] at hs
    cases hr with
    | started hlane h hwide =>
      cases hs
      exact ⟨⟨h, hlane, hwide⟩, rfl⟩
    | _ => cases hs
  · rintro ⟨⟨h, hlane, hwide⟩, rfl⟩
    exact start_eq (.started hlane h hwide) classifier

/-- A plan that is neither refused nor started has a bad name or a wide lane. -/
lemma decided_of_nameable (hnames : ∀ p ∈ plan.pools, p.Nameable) (hwide : ¬plan.HasWideLane) :
    ((∃ e, start plan classifier = .error (.build e)) ↔
        plan.HasEmptyLane ∨ ∃ p ∈ plan.pools, p.BadSize) ∧
      ((∃ e, start plan classifier = .error (.build e)) ∨ ∃ s, start plan classifier = .ok s) := by
  obtain ⟨r, hr⟩ := Plan.exists_verdict plan
  rw [start_eq hr]
  cases hr with
  | emptyLane h => exact ⟨iff_of_true ⟨_, rfl⟩ (.inl ⟨_, h⟩), .inl ⟨_, rfl⟩⟩
  | badSize _ h _ hp => exact ⟨iff_of_true ⟨_, rfl⟩ (.inr ⟨_, by simp [h], hp⟩), .inl ⟨_, rfl⟩⟩
  | badName _ h _ _ hname => exact absurd (hnames _ (by simp [h])) hname
  | wideLane _ _ hwide' => exact absurd hwide' hwide
  | started hlane h =>
    refine ⟨iff_of_false nofun ?_, .inr ⟨_, rfl⟩⟩
    rintro (hempty | ⟨p, hp, hsize⟩)
    · exact hlane hempty
    · exact (h p hp).1 hsize

/-- **Every plan starts, is refused on account of its first bad pool, or stops the program.** -/
theorem startup_of_any_plan (plan : Plan) (classifier : Classifier) :
    Startup plan classifier := by
  refine ⟨exists_build_iff, ?_, ?_, exists_defect_iff, ?_, ?_, decided_of_nameable⟩
  · intro pool h
    exact start_eq (.emptyLane h) classifier
  · intro hlane pre p post h hpre hp
    exact start_eq (.badSize hlane h hpre hp) classifier
  · simp only [start_eq_ok_iff, exists_and_left, exists_eq, and_true]
  · intro s hs
    obtain ⟨⟨h, -, -⟩, rfl⟩ := start_eq_ok_iff.mp hs
    have hlt := Plan.threads_lt fun p hp => UInt64.not_lt.mp fun hlarge => (h p hp).1 (.inr hlarge)
    exact ⟨rfl, poolNames_init plan classifier, _, Size.ofNat?_eq_some hlt,
      UInt64.toNat_ofNat_of_lt' hlt⟩

/-- A pool of two threads with a lane for more heavy tasks than there can be permits. -/
theorem defect_of_wide_lane :
    let plan : Plan := .tieredPriority ⟨generalPool, 2⟩ (maxPermits + 1)
    (∀ p ∈ plan.pools, p.Sound) ∧ ¬plan.HasEmptyLane ∧
      start plan .evaluator = .error .tooManyPermits ∧
      ExecutorError.tooManyPermits.isDefect = true := by
  intro plan
  have hsound : ∀ p ∈ plan.pools, p.Sound := by
    have hp : PoolSpec.Sound ⟨generalPool, 2⟩ := PoolSpec.sound_iff.mpr (by decide)
    simpa [plan, Plan.pools] using hp
  have hlane : ¬plan.HasEmptyLane := by
    rintro ⟨pool, h⟩
    have hzero : maxPermits + 1 = 0 := (Plan.tieredPriority.inj h).2
    exact absurd hzero (by decide)
  have hwide : plan.HasWideLane := ⟨_, _, rfl, by decide⟩
  exact ⟨hsound, hlane, start_eq (.wideLane hlane hsound hwide) _, rfl⟩

end Executor

end PhaseExecutors
