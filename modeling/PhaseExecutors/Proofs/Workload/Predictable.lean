import PhaseExecutors.Proofs.Executor.Progress
import PhaseExecutors.Workload

/-!
What becomes of a synthetic workload does not depend on the schedule.

A workload without a root that is told to fail has as many tasks as expected, all of which end well.
Otherwise that root is the only task that can stop the executor, so the failure is its own, no
matter how many of the other tasks ran.
-/

namespace PhaseExecutors

namespace Work

lemma tasksAll_eq_flatMap (ws : List Work) : tasksAll ws = ws.flatMap tasks := by
  induction ws with
  | nil => rw [tasksAll, List.flatMap_nil]
  | cons w ws ih => rw [tasksAll, ih, List.flatMap_cons]

end Work

namespace Workload

variable {w : Workload} {i : ℕ}

/-- The tasks of a workload in which no root fails. -/
def total (w : Workload) : ℕ := w.tasks.toNat * (w.fanOut.toNat + 1)

/-- Saturation on the way to the product does not show in a saturated product. -/
lemma expectedTasks_toNat (w : Workload) : w.expectedTasks.toNat = min w.total Size.top.toNat := by
  rw [expectedTasks, Size.satMul, Size.satAdd, Size.toNat_clamp, Size.toNat_clamp, total]
  change min (_ * min (_ + 1) _) _ = _
  rcases Nat.le_total (w.fanOut.toNat + 1) Size.top.toNat with h | h
  · rw [Nat.min_eq_left h]
  · rw [Nat.min_eq_right h]
    rcases Nat.eq_zero_or_pos w.tasks.toNat with hzero | hpos
    · simp [hzero]
    · rw [Nat.min_eq_right (Nat.le_mul_of_pos_left _ hpos),
        Nat.min_eq_right (h.trans (Nat.le_mul_of_pos_left _ hpos))]

/-! ### The trees of a workload -/

/-- A root that is told to fail is one of the workload. -/
def Fails (w : Workload) (i : ℕ) : Prop := w.failAt.map UInt64.toNat = some i ∧ i < w.tasks.toNat

def child (w : Workload) (i : ℕ) : Work := .task s!"child of {i}" w.childKind none .ok []

lemma kind_root (w : Workload) (i : ℕ) : (w.root i).kind = w.kindOf i := by
  unfold root
  split <;> rfl

lemma root_of_not_fails (h : ¬w.Fails i) (hi : i < w.tasks.toNat) :
    w.root i = .task s!"root {i}" (w.kindOf i) none .ok
      (List.replicate w.fanOut.toNat (w.child i)) :=
  if_neg fun hfail => h ⟨hfail, hi⟩

lemma tasksAll_replicate_child (w : Workload) (i n : ℕ) :
    Work.tasksAll (List.replicate n (w.child i)) = List.replicate n (w.child i) := by
  have hchild : (w.child i).tasks = [w.child i] := by rw [child, Work.tasks, Work.tasksAll]
  induction n with
  | zero => rw [List.replicate_zero, Work.tasksAll]
  | succ n ih => rw [List.replicate_succ, Work.tasksAll, ih, hchild, List.singleton_append]

lemma tasks_root_of_not_fails (h : ¬w.Fails i) (hi : i < w.tasks.toNat) :
    (w.root i).tasks = w.root i :: List.replicate w.fanOut.toNat (w.child i) := by
  rw [Work.tasks_eq, root_of_not_fails h hi, Work.children, tasksAll_replicate_child]

lemma tasks_root_of_fails (h : w.Fails i) : (w.root i).tasks = [w.root i] := by
  rw [Work.tasks_eq, root, if_pos h.1, Work.children, Work.tasksAll]

lemma mem_tasksAll_roots {v : Work} (hv : v ∈ Work.tasksAll w.roots) :
    ∃ i < w.tasks.toNat, v = w.root i ∨ v = w.child i := by
  rw [Work.tasksAll_eq_flatMap, roots, List.flatMap_map, List.mem_flatMap] at hv
  obtain ⟨i, hi, hv⟩ := hv
  rw [List.mem_range] at hi
  refine ⟨i, hi, ?_⟩
  by_cases h : w.Fails i
  · rw [tasks_root_of_fails h, List.mem_singleton] at hv
    exact Or.inl hv
  · rw [tasks_root_of_not_fails h hi, List.mem_cons] at hv
    exact hv.imp_right List.eq_of_mem_replicate

lemma gate_of_mem {v : Work} (hv : v ∈ Work.tasksAll w.roots) : v.gate = none := by
  obtain ⟨i, -, rfl | rfl⟩ := mem_tasksAll_roots hv
  · unfold root
    split <;> rfl
  · rfl

/-- Only the root that is told to fail has an error. -/
lemma error_of_mem {v : Work} {e : TaskError} (hv : v ∈ Work.tasksAll w.roots)
    (he : v.ending.error? = some e) :
    ∃ i, w.Fails i ∧ v.kind = w.kindOf i ∧ e = failure i := by
  obtain ⟨i, hi, rfl | rfl⟩ := mem_tasksAll_roots hv
  · by_cases h : w.Fails i
    · refine ⟨i, h, w.kind_root i, ?_⟩
      rw [root, if_pos h.1] at he
      exact (Option.some.inj he).symm
    · rw [root_of_not_fails h hi] at he
      cases he
  · cases he

/-- Every so many roots are cpu-heavy, the first of them at the end of the first stretch. -/
lemma countP_kindOf (w : Workload) (n : ℕ) :
    ((List.range n).countP fun i => w.kindOf i = .cpuHeavy) = n / w.heavyEvery.toNat := by
  have hiff : ∀ i, w.kindOf i = .cpuHeavy ↔ w.heavyEvery.toNat ∣ i + 1 := by
    intro i
    rw [kindOf, Nat.dvd_iff_mod_eq_zero]
    by_cases hzero : w.heavyEvery.toNat = 0
    · simp [hzero]
    · simp [Nat.pos_of_ne_zero hzero]
  induction n with
  | zero => simp
  | succ n ih =>
    rw [List.range_succ, List.countP_append, ih, Nat.succ_div, List.countP_singleton]
    simp only [decide_eq_true_eq, hiff]

/-- The tasks by their kinds: the roots, and so many children for each of them. -/
lemma countP_tasksAll (h : ∀ i, ¬w.Fails i) (p : TaskKind → Bool) :
    ((Work.tasksAll w.roots).countP fun v => p v.kind) =
      ((List.range w.tasks.toNat).countP fun i => p (w.kindOf i)) +
        w.tasks.toNat * if p w.childKind then w.fanOut.toNat else 0 := by
  have hroot : ∀ i < w.tasks.toNat, ((w.root i).tasks.countP fun v => p v.kind) =
      (if p (w.kindOf i) then 1 else 0) + if p w.childKind then w.fanOut.toNat else 0 := by
    intro i hi
    rw [tasks_root_of_not_fails (h i) hi, List.countP_cons, kind_root, List.countP_replicate]
    exact Nat.add_comm _ _
  rw [Work.tasksAll_eq_flatMap, roots, List.flatMap_map]
  -- The number of roots so far is bounded for the sake of `hroot`.
  have hcount : ∀ n ≤ w.tasks.toNat,
      (((List.range n).flatMap fun i => (w.root i).tasks).countP fun v => p v.kind) =
        ((List.range n).countP fun i => p (w.kindOf i)) +
          n * if p w.childKind then w.fanOut.toNat else 0 := by
    intro n hn
    induction n with
    | zero => simp
    | succ n ih =>
      rw [List.range_succ, List.flatMap_append, List.countP_append, ih (Nat.le_of_succ_le hn),
        List.flatMap_singleton, hroot n hn, List.countP_append, List.countP_singleton,
        Nat.succ_mul]
      omega
  exact hcount _ (Nat.le_refl _)

/-! ### Pools of a workload -/

/-- In a plan of several pools, the cpu-heavy tasks have theirs for themselves. -/
lemma route_name_eq_cpuHeavyPool_iff {s : Snapshot} {phase : Phase} {plan : Plan}
    (h : Plan.Planned s phase plan) {general heavy : PoolSpec} {execution : Option PoolSpec}
    (hplan : plan = .multiPool general heavy execution) (kind : TaskKind) :
    (plan.route kind).name = cpuHeavyPool ↔ kind = .cpuHeavy := by
  cases h with
  | shared | lane | execution => cases hplan
  | apart | merged =>
    cases kind <;>
      simp [Plan.route, Plan.role, Plan.pool, generalPool, cpuHeavyPool, executionPool]

/-- In the merged phase, so do the execution tasks. -/
lemma route_name_eq_executionPool_iff {s : Snapshot} {plan : Plan}
    (h : Plan.Planned s .merged plan) (kind : TaskKind) :
    (plan.route kind).name = executionPool ↔ kind = .execution := by
  cases h with
  | merged =>
    cases kind <;>
      simp [Plan.route, Plan.role, Plan.pool, generalPool, cpuHeavyPool, executionPool]

lemma childKindOf_ne_cpuHeavy (phase : Phase) : childKindOf phase ≠ .cpuHeavy := by
  cases phase <;> exact nofun

/-! ### Runs -/

/-- What a workload comes to on an executor for a phase. -/
structure RunsAs (w : Workload) (phase : Phase) (plan : Plan) : Prop where
  returns : Executor.Returns plan .evaluator w.roots
  /-- Without a root that fails, all tasks complete, each in the pool of its kind. -/
  succeeds : (∀ i, w.failAt = some i → w.tasks ≤ i) →
    w.tasks.toNat * (w.fanOut.toNat + 1) < Size.bound →
    ∀ es s, Executor.Ended plan .evaluator w.roots es s → ∃ summary,
      s.tracker.result? = some (.ok summary) ∧
      summary.completed = w.tasks.toNat * (w.fanOut.toNat + 1) ∧
      summary.completed = w.expectedTasks.toNat ∧
      summary.recoverable = [] ∧ summary.skipped = 0 ∧
      (∀ general heavy execution, plan = .multiPool general heavy execution →
        (s.ran.countP fun x => x.2 = cpuHeavyPool) = w.tasks.toNat / w.heavyEvery.toNat) ∧
      (phase = .merged →
        (s.ran.countP fun x => x.2 = executionPool) = w.tasks.toNat * w.fanOut.toNat)
  /-- With one, its error is the result, charged to the pool of its kind. -/
  fails : ∀ i, w.failAt = some i → i < w.tasks →
    ∀ es s, Executor.Ended plan .evaluator w.roots es s →
      s.tracker.result? = some (.error ⟨(plan.route (w.kindOf i.toNat)).name,
        ⟨.internal, s!"synthetic failure in task {i.toNat}"⟩⟩)

/-- What can be told of a workload for a phase in advance. -/
structure Predictable (w : Workload) (phase : Phase) : Prop where
  expected : w.expectedTasks.toNat = min (w.tasks.toNat * (w.fanOut.toNat + 1)) Size.top.toNat
  heavy : (w.roots.countP fun r => r.kind = .cpuHeavy) = w.tasks.toNat / w.heavyEvery.toNat
  runs : ∀ snapshot plan, Plan.forPhase phase snapshot = .ok plan → plan.start = .ok () →
    w.RunsAs phase plan

section

variable {plan : Plan} {phase : Phase} {snapshot : Snapshot} {es : List Executor.Event}
  {s : Executor}

lemma not_failsFatally (h : ∀ i, ¬w.Fails i) {v : Work} (hv : v ∈ Work.tasksAll w.roots) :
    ¬v.FailsFatally .evaluator := by
  rintro ⟨e, he, -⟩
  obtain ⟨i, hi, -⟩ := error_of_mem hv he
  exact h i hi

/-- The bodies that ran in a pool to which exactly the tasks of one kind are routed. -/
lemma countP_ran (h : ∀ i, ¬w.Fails i)
    (hran : s.ran.Perm ((Work.tasksAll w.roots).map fun v => (v.label, (plan.route v.kind).name)))
    {pool : String} {kind : TaskKind}
    (hpool : ∀ k, (plan.route k).name = pool ↔ k = kind) :
    (s.ran.countP fun x => x.2 = pool) =
      ((List.range w.tasks.toNat).countP fun i => w.kindOf i = kind) +
        w.tasks.toNat * if w.childKind = kind then w.fanOut.toNat else 0 := by
  have hcount := countP_tasksAll h fun k => k = kind
  simp only [decide_eq_true_eq] at hcount
  rw [hran.countP_eq, List.countP_map, ← hcount]
  refine List.countP_congr fun v _ => ?_
  simp [hpool]

lemma succeeds_of_ended (h : ∀ i, ¬w.Fails i)
    (hended : Executor.Ended plan .evaluator w.roots es s) :
    ∃ summary, s.tracker.result? = some (.ok summary) ∧ summary.completed = w.total ∧
      summary.recoverable = [] ∧ summary.skipped = 0 ∧
      s.ran.Perm ((Work.tasksAll w.roots).map fun v => (v.label, (plan.route v.kind).name)) := by
  have hall : ∀ v ∈ Work.tasksAll w.roots, v.ending.error? = none := by
    intro v hv
    rw [Option.eq_none_iff_forall_ne_some]
    intro e he
    obtain ⟨i, hi, -⟩ := error_of_mem hv he
    exact h i hi
  obtain ⟨summary, hresult, -, hran, hcompleted, hrecoverable, hskipped⟩ :=
    hended.settled.succeeds fun v hv => not_failsFatally h hv
  refine ⟨summary, hresult, ?_, ?_, hskipped, hran⟩
  · have htotal := countP_tasksAll h fun _ => true
    rw [hcompleted, total, Nat.mul_succ, Nat.add_comm]
    simp only [List.countP_true, List.length_range, if_true] at htotal
    rw [← htotal, List.countP_eq_length]
    intro v hv
    simpa using Ending.error?_eq_none_iff.mp (hall v hv)
  · have hnil : (Work.tasksAll w.roots).filterMap (Work.failure? plan) = [] := by
      rw [List.filterMap_eq_nil_iff]
      intro v hv
      rw [Work.failure?, hall v hv]
      rfl
    rw [hnil] at hrecoverable
    exact hrecoverable.eq_nil

lemma fails_of_ended (h : w.Fails i) (hended : Executor.Ended plan .evaluator w.roots es s) :
    s.tracker.result? = some (.error ⟨(plan.route (w.kindOf i)).name, failure i⟩) := by
  have hroot : w.root i ∈ Work.tasksAll w.roots := by
    rw [Work.tasksAll_eq_flatMap, roots, List.flatMap_map, List.mem_flatMap]
    exact ⟨i, List.mem_range.mpr h.2, by simp [tasks_root_of_fails h]⟩
  have hfatal : (w.root i).FailsFatally .evaluator := by
    refine ⟨failure i, ?_, rfl⟩
    rw [root, if_pos h.1]
    rfl
  obtain ⟨f, hf⟩ := hended.settled.fails.mpr ⟨_, hroot, hfatal⟩
  -- The failure is that of some task, and there is but one that fails.
  obtain ⟨v, hv, he, -, hpool⟩ := hended.settled.failure f hf
  obtain ⟨j, hj, hkind, herror⟩ := error_of_mem hv he
  obtain rfl : i = j := Option.some.inj (h.1.symm.trans hj.1)
  rw [hf, ← hkind, ← hpool, ← herror]

end

/-- **Synthetic workloads are predictable.** -/
theorem predictable_ofPhase (phase : Phase) (tasks heavyEvery fanOut : Size)
    (failAt : Option Size) :
    Predictable { ofPhase phase tasks with heavyEvery, fanOut, failAt } phase := by
  generalize hw : { ofPhase phase tasks with heavyEvery, fanOut, failAt } = w
  have hchild : w.childKind = childKindOf phase := by rw [← hw]; rfl
  refine ⟨w.expectedTasks_toNat, ?_, ?_⟩
  · rw [roots, List.countP_map, ← w.countP_kindOf]
    exact List.countP_congr fun i _ => by simp [kind_root]
  intro snapshot plan hplan hstart
  have hplanned := Plan.forPhase_eq_ok_iff.mp hplan
  refine ⟨Executor.returns_of_ungated hstart fun v hv => gate_of_mem hv, ?_, ?_⟩
  · intro hfailAt hfits es s hended
    have hsound : ∀ i, ¬w.Fails i := by
      rintro _ ⟨hmap, hlt⟩
      obtain ⟨i, hi, rfl⟩ := Option.map_eq_some_iff.mp hmap
      exact Nat.not_le.mpr hlt (UInt64.le_iff_toNat_le.mp (hfailAt i hi))
    obtain ⟨summary, hresult, hcompleted, hrecoverable, hskipped, hran⟩ :=
      succeeds_of_ended hsound hended
    have htop : Size.top.toNat = Size.bound - 1 := rfl
    refine ⟨summary, hresult, hcompleted, ?_, hrecoverable, hskipped, ?_, ?_⟩
    · rw [hcompleted, expectedTasks_toNat, Nat.min_eq_left]
      rw [total]
      omega
    · intro general heavy execution hmulti
      rw [countP_ran hsound hran (route_name_eq_cpuHeavyPool_iff hplanned hmulti), countP_kindOf,
        if_neg (hchild ▸ childKindOf_ne_cpuHeavy phase), Nat.mul_zero, Nat.add_zero]
    · rintro rfl
      have hexecution : w.childKind = .execution := hchild
      have hnone : ((List.range w.tasks.toNat).countP fun i => w.kindOf i = .execution) = 0 := by
        rw [List.countP_eq_zero]
        intro i _
        rw [kindOf]
        split <;> simp
      rw [countP_ran hsound hran (route_name_eq_executionPool_iff hplanned), hnone,
        if_pos hexecution, Nat.zero_add]
  · intro i hi hlt es s hended
    exact fails_of_ended ⟨by rw [hi]; rfl, hlt⟩ hended

/-- Five roots with two children each on three pools; the second and the fourth root are heavy. -/
theorem predictable_of_five_roots : ∃ plan summary es s,
    let w : Workload := { ofPhase .merged 5 with heavyEvery := 2, fanOut := 2 }
    Plan.forPhase .merged .forTesting = .ok plan ∧ plan.start = .ok () ∧
      Executor.Ended plan .evaluator w.roots es s ∧ s.tracker.result? = some (.ok summary) ∧
      summary.completed = 15 ∧ (s.ran.countP fun x => x.2 = cpuHeavyPool) = 2 ∧
      (s.ran.countP fun x => x.2 = executionPool) = 10 := by
  have hruns := (predictable_ofPhase .merged 5 2 2 none).runs .forTesting _ rfl rfl
  obtain ⟨es, s, hended⟩ := hruns.returns.ends [] _ ⟨rfl, ⟨_, .rfl⟩, nofun⟩
  obtain ⟨summary, hresult, hcompleted, -, -, -, hheavy, hexecution⟩ :=
    hruns.succeeds nofun (by decide) _ _ hended
  exact ⟨_, summary, _, s, rfl, rfl, hended, hresult, hcompleted, hheavy _ _ _ rfl, hexecution rfl⟩

end Workload

end PhaseExecutors
