import Mathlib.Data.List.Basic
import PhaseExecutors.Executor.Start

/-!
Which plans start.

The pools of a plan start in order, so an error names the first pool that does not start. The plan
of a phase leaves little that can go wrong: its pools have threads and known names, and a lane for
heavy tasks is no wider than its pool. Only a pool of too many threads is refused.
-/

namespace PhaseExecutors

/-- Where not all elements are alike, there is a first one that differs. -/
lemma exists_first {α : Type*} {P : α → Prop} {xs : List α} (h : ¬∀ x ∈ xs, P x) :
    ∃ pre x post, xs = pre ++ x :: post ∧ (∀ y ∈ pre, P y) ∧ ¬P x := by
  induction xs with
  | nil => exact absurd nofun h
  | cons x xs ih =>
    by_cases hx : P x
    · have hxs : ¬∀ y ∈ xs, P y := fun hall => h (List.forall_mem_cons.mpr ⟨hx, hall⟩)
      obtain ⟨pre, y, post, rfl, hpre, hy⟩ := ih hxs
      exact ⟨x :: pre, y, post, rfl, List.forall_mem_cons.mpr ⟨hx, hpre⟩, hy⟩
    · exact ⟨[], x, xs, rfl, nofun, hx⟩

namespace PoolSpec

lemma inRange_iff {p : PoolSpec} :
    p.inRange = true ↔ 0 < p.parallelism ∧ p.parallelism ≤ maxPoolParallelism := by
  simp [inRange]

lemma start_eq_ok_iff {p : PoolSpec} :
    p.start = .ok () ↔ p.inRange = true ∧ '\x00' ∉ p.name.toList := by
  unfold start
  cases p.inRange <;> simp

lemma start_of_not_inRange {p : PoolSpec} (h : p.inRange = false) :
    p.start = .error (.build ⟨p.name, .parallelism p.parallelism⟩) := by
  simp [start, h]

end PoolSpec

namespace Plan

lemma startPools_cons (p : PoolSpec) (ps : List PoolSpec) :
    startPools (p :: ps) = p.start >>= fun _ => startPools ps := rfl

lemma startPools_eq_ok_iff {ps : List PoolSpec} :
    startPools ps = .ok () ↔ ∀ p ∈ ps, p.start = .ok () := by
  induction ps with
  | nil => simp [startPools]
  | cons p ps ih =>
    rw [startPools_cons, List.forall_mem_cons, ← ih]
    cases p.start <;> simp [bind, Except.bind]

/-- The pools in front of the first one that does not start are started in vain. -/
lemma startPools_of_first {pre post : List PoolSpec} {p : PoolSpec} {e : ExecutorError}
    (hpre : ∀ q ∈ pre, q.start = .ok ()) (hp : p.start = .error e) :
    startPools (pre ++ p :: post) = .error e := by
  induction pre with
  | nil =>
    rw [List.nil_append, startPools_cons, hp]
    rfl
  | cons q pre ih =>
    rw [List.forall_mem_cons] at hpre
    rw [List.cons_append, startPools_cons, hpre.1]
    exact ih hpre.2

/-! ### Plans of phases -/

lemma startPools_of_start {plan : Plan} (h : plan.start = .ok ()) :
    startPools plan.pools = .ok () := by
  cases plan with
  | single | multiPool => exact h
  | tieredPriority pool capacity =>
    cases hpools : startPools (tieredPriority pool capacity).pools with
    | ok => rfl
    | error e =>
      simp only [start, hpools] at h
      split at h <;> cases h

end Plan

/-- The sizes without which a phase gets no plan. -/
def Phase.needs : Phase → List SnapshotField
  | .analysis => [.analysisParallelism]
  | .execution => [.executionParallelism]
  | .merged => [.analysisParallelism, .executionParallelism, .cpuHeavyPoolSize]

namespace Plan

/-- What holds of every plan that is made for a phase, however large the sizes of the snapshot. -/
structure WellSized (plan : Plan) : Prop where
  threads : ∀ p ∈ plan.pools, 0 < p.parallelism
  names : ∀ p ∈ plan.pools, p.name ∈ [generalPool, cpuHeavyPool, executionPool]
  lane : ∀ pool capacity, plan = .tieredPriority pool capacity →
    0 < capacity ∧ capacity ≤ pool.parallelism

variable {s : Snapshot} {phase : Phase} {plan : Plan}

lemma require_eq_ok (field : SnapshotField) (h : 0 < s.field field) :
    s.require phase field = .ok (s.field field) :=
  if_neg (UInt64.pos_iff_ne_zero.mp h)

lemma require_eq_error {field : SnapshotField} (h : s.field field = 0) :
    s.require phase field = .error ⟨phase, field, s⟩ :=
  if_pos h

lemma pos_of_require {field : SnapshotField} {n : Size} (h : s.require phase field = .ok n) :
    0 < s.field field := by
  rw [UInt64.pos_iff_ne_zero]
  intro hzero
  rw [require_eq_error hzero] at h
  cases h

/-- The plan of a phase by what the snapshot has. -/
inductive Planned (s : Snapshot) : Phase → Plan → Prop
  | shared (ha : 0 < s.analysisParallelism) (hh : s.cpuHeavyPoolSize = 0) :
      Planned s .analysis (.single ⟨generalPool, s.analysisParallelism⟩)
  | lane (ha : 0 < s.analysisParallelism) (hh : 0 < s.cpuHeavyPoolSize)
      (hp : s.usePrioritization = true) :
      Planned s .analysis
        (.tieredPriority ⟨generalPool, s.analysisParallelism⟩ s.cpuHeavyPoolSize)
  | apart (ha : 0 < s.analysisParallelism) (hh : 0 < s.cpuHeavyPoolSize)
      (hp : s.usePrioritization = false) :
      Planned s .analysis
        (.multiPool ⟨generalPool, s.analysisParallelism⟩ ⟨cpuHeavyPool, s.cpuHeavyPoolSize⟩ none)
  | execution (he : 0 < s.executionParallelism) :
      Planned s .execution (.single ⟨generalPool, s.executionParallelism⟩)
  | merged (ha : 0 < s.analysisParallelism) (he : 0 < s.executionParallelism)
      (hh : 0 < s.cpuHeavyPoolSize) :
      Planned s .merged
        (.multiPool ⟨generalPool, s.analysisParallelism⟩ ⟨cpuHeavyPool, s.cpuHeavyPoolSize⟩
          (some ⟨executionPool, s.executionParallelism⟩))

lemma Planned.forPhase_eq (h : Planned s phase plan) : forPhase phase s = .ok plan := by
  cases h with
  | shared ha hh =>
    simp only [forPhase, forAnalysis, require_eq_ok .analysisParallelism ha, hh]
    rfl
  | lane ha hh hp | apart ha hh hp =>
    simp only [forPhase, forAnalysis, require_eq_ok .analysisParallelism ha, hh, hp]
    rfl
  | execution he =>
    simp only [forPhase, forExecution, require_eq_ok .executionParallelism he]
    rfl
  | merged ha he hh =>
    simp only [forPhase, forMerged, require_eq_ok .analysisParallelism ha,
      require_eq_ok .executionParallelism he,
      require_eq_ok .cpuHeavyPoolSize hh]
    rfl

/-- A phase gets a plan if no size that it needs is zero. -/
lemma exists_planned (h : ∀ field ∈ phase.needs, 0 < s.field field) :
    ∃ plan, Planned s phase plan := by
  cases phase with
  | analysis =>
    have ha : 0 < s.analysisParallelism := h .analysisParallelism (by decide)
    by_cases hh : s.cpuHeavyPoolSize = 0
    · exact ⟨_, .shared ha hh⟩
    · have hh : 0 < s.cpuHeavyPoolSize := UInt64.pos_iff_ne_zero.mpr hh
      cases hp : s.usePrioritization with
      | false => exact ⟨_, .apart ha hh hp⟩
      | true => exact ⟨_, .lane ha hh hp⟩
  | execution => exact ⟨_, .execution (h .executionParallelism (by decide))⟩
  | merged =>
    exact ⟨_, .merged (h .analysisParallelism (by decide)) (h .executionParallelism (by decide))
      (h .cpuHeavyPoolSize (by decide))⟩

lemma pos_of_forPhase (h : forPhase phase s = .ok plan) :
    ∀ field ∈ phase.needs, 0 < s.field field := by
  cases phase with
  | analysis =>
    cases ha : s.require .analysis .analysisParallelism with
    | error e =>
      simp only [forPhase, forAnalysis, ha] at h
      cases h
    | ok n => simpa [Phase.needs] using pos_of_require ha
  | execution =>
    cases he : s.require .execution .executionParallelism with
    | error e =>
      simp only [forPhase, forExecution, he] at h
      cases h
    | ok n => simpa [Phase.needs] using pos_of_require he
  | merged =>
    simp only [forPhase, forMerged] at h
    cases ha : s.require .merged .analysisParallelism with
    | error e => rw [ha] at h; cases h
    | ok n =>
      cases he : s.require .merged .executionParallelism with
      | error e => rw [ha, he] at h; cases h
      | ok n' =>
        cases hh : s.require .merged .cpuHeavyPoolSize with
        | error e => rw [ha, he, hh] at h; cases h
        | ok n'' =>
          simpa [Phase.needs] using ⟨pos_of_require ha, pos_of_require he, pos_of_require hh⟩

theorem forPhase_eq_ok_iff : forPhase phase s = .ok plan ↔ Planned s phase plan := by
  refine ⟨?_, Planned.forPhase_eq⟩
  intro h
  obtain ⟨plan', h'⟩ := exists_planned (pos_of_forPhase h)
  have heq := h'.forPhase_eq
  rw [h] at heq
  cases heq
  exact h'

/-- A phase is refused exactly if a size that it needs is zero. -/
lemma exists_forPhase_eq_error_iff :
    (∃ e, forPhase phase s = .error e) ↔ ∃ field ∈ phase.needs, s.field field = 0 := by
  constructor
  · rintro ⟨e, he⟩
    by_contra hall
    have hpos : ∀ field ∈ phase.needs, 0 < s.field field := fun field hfield =>
      UInt64.pos_iff_ne_zero.mpr fun hzero => hall ⟨field, hfield, hzero⟩
    obtain ⟨plan, hplan⟩ := exists_planned hpos
    rw [hplan.forPhase_eq] at he
    cases he
  · rintro ⟨field, hfield, hzero⟩
    cases h : forPhase phase s with
    | error e => exact ⟨e, rfl⟩
    | ok plan =>
      have hpos := pos_of_forPhase h field hfield
      rw [hzero] at hpos
      exact absurd hpos (by decide)

lemma Planned.wellSized (h : Planned s phase plan) : plan.WellSized := by
  cases h with
  | shared ha | execution ha =>
    exact ⟨by simpa [pools] using ha, by simp [pools], nofun⟩
  | lane ha hh hp =>
    refine ⟨by simpa [pools] using ha, by simp [pools], ?_⟩
    rintro _ _ ⟨⟩
    exact ⟨hh, s.heavy_le hp⟩
  | apart ha hh =>
    exact ⟨by simpa [pools] using ⟨ha, hh⟩, by simp [pools], nofun⟩
  | merged ha he hh =>
    exact ⟨by simpa [pools] using ⟨ha, hh, he⟩, by simp [pools], nofun⟩

lemma Planned.pools_le (h : Planned s phase plan) {n : Size} (ha : s.analysisParallelism ≤ n)
    (he : s.executionParallelism ≤ n) (hh : s.cpuHeavyPoolSize ≤ n) :
    ∀ p ∈ plan.pools, p.parallelism ≤ n := by
  cases h <;> simp [pools, ha, he, hh]

/-! ### Starting a plan of a phase -/

namespace WellSized

lemma not_mem_nul (h : plan.WellSized) {p : PoolSpec} (hp : p ∈ plan.pools) :
    '\x00' ∉ p.name.toList := by
  have hnames : ∀ name ∈ [generalPool, cpuHeavyPool, executionPool], '\x00' ∉ name.toList := by
    decide
  exact hnames _ (h.names p hp)

lemma pool_start_eq_ok_iff (h : plan.WellSized) {p : PoolSpec} (hp : p ∈ plan.pools) :
    p.start = .ok () ↔ p.parallelism ≤ maxPoolParallelism := by
  rw [PoolSpec.start_eq_ok_iff, PoolSpec.inRange_iff, and_iff_left (h.not_mem_nul hp),
    and_iff_right (h.threads p hp)]

/-- The lane is no wider than its pool, so a pool that starts leaves no capacity to refuse. -/
lemma start_eq (h : plan.WellSized) : plan.start = startPools plan.pools := by
  cases plan with
  | single | multiPool => rfl
  | tieredPriority pool capacity =>
    obtain ⟨hpos, hle⟩ := h.lane pool capacity rfl
    have hzero : capacity ≠ 0 := UInt64.pos_iff_ne_zero.mp hpos
    cases hpools : startPools (tieredPriority pool capacity).pools with
    | error e => simp only [start, hzero, if_false, hpools]; rfl
    | ok =>
      have hpool := startPools_eq_ok_iff.mp hpools pool List.mem_cons_self
      rw [h.pool_start_eq_ok_iff List.mem_cons_self] at hpool
      have hmany : ¬maxPermits < capacity := by
        rw [UInt64.not_lt]
        exact UInt64.le_trans hle (UInt64.le_trans hpool (by decide))
      simp only [start, hzero, if_false, hpools, hmany]
      rfl

lemma start_eq_ok_iff (h : plan.WellSized) :
    plan.start = .ok () ↔ ∀ p ∈ plan.pools, p.parallelism ≤ maxPoolParallelism := by
  rw [h.start_eq, startPools_eq_ok_iff]
  exact forall₂_congr fun p hp => h.pool_start_eq_ok_iff hp

/-- The error names the first pool that is too large. -/
lemma start_of_first (h : plan.WellSized) {pre post : List PoolSpec} {p : PoolSpec}
    (hpools : plan.pools = pre ++ p :: post)
    (hpre : ∀ q ∈ pre, q.parallelism ≤ maxPoolParallelism)
    (hp : maxPoolParallelism < p.parallelism) :
    plan.start = .error (.build ⟨p.name, .parallelism p.parallelism⟩) := by
  rw [h.start_eq, hpools]
  refine startPools_of_first ?_ (PoolSpec.start_of_not_inRange ?_)
  · intro q hq
    exact (h.pool_start_eq_ok_iff (by simp [hpools, hq])).mpr (hpre q hq)
  · rw [← Bool.not_eq_true, PoolSpec.inRange_iff]
    exact fun hrange => UInt64.not_lt.mpr hrange.2 hp

end WellSized

/-- Pools that can start have far fewer threads in all than a size can count. -/
lemma threads_lt (h : ∀ p ∈ plan.pools, p.parallelism ≤ maxPoolParallelism) :
    plan.threads < Size.bound := by
  have hsum : ∀ ps : List PoolSpec, (∀ p ∈ ps, p.parallelism ≤ maxPoolParallelism) →
      ps.foldr (fun p n => p.parallelism.toNat + n) 0 ≤ ps.length * maxPoolParallelism.toNat := by
    intro ps
    induction ps with
    | nil => simp
    | cons p ps ih =>
      intro hps
      rw [List.forall_mem_cons, UInt64.le_iff_toNat_le] at hps
      rw [List.foldr_cons, List.length_cons, Nat.succ_mul, Nat.add_comm]
      exact Nat.add_le_add (ih hps.2) hps.1
  have hlength : plan.pools.length ≤ 3 := by
    rcases plan with _ | _ | ⟨_, _, _ | _⟩ <;> simp [pools]
  calc plan.threads ≤ plan.pools.length * maxPoolParallelism.toNat := hsum _ h
    _ ≤ 3 * maxPoolParallelism.toNat := Nat.mul_le_mul_right _ hlength
    _ < Size.bound := by decide

end Plan

end PhaseExecutors
