import PhaseExecutors.Factory
import PhaseExecutors.Proofs.Plan.Start
import PhaseExecutors.Proofs.Settings.Publication

/-!
Which plan a phase gets, by the sizes that a command asks for.

The rules speak of the sizes as they are asked for, but a plan is made of those of the snapshot, in
which prioritized heavy work is cut down to the threads of the analysis. Without such threads this
leaves nothing of it. The rules hold all the same, since a phase with heavy work looks at the
threads of the analysis first.
-/

namespace PhaseExecutors

/-- The sizes that a command asks for. -/
structure Request where
  threads : Size
  jobs : Size
  heavy : Size
  prioritize : Bool

namespace Request

/-- What some groups ask for; a group that is absent asks for nothing. -/
def ofGroups (loading : Option LoadingOptions) (build : Option BuildOptions)
    (analysis : Option AnalysisOptions) : Request where
  threads := (loading.map LoadingOptions.threads).getD 0
  jobs := (build.map BuildOptions.jobs).getD 0
  heavy := (analysis.map AnalysisOptions.cpuHeavyPoolSize).getD 0
  prioritize := (analysis.map AnalysisOptions.usePrioritization).getD false

/-- The heavy threads that there are; prioritized ones belong to the analysis. -/
def heavyThreads (r : Request) : Size := if r.prioritize then min r.heavy r.threads else r.heavy

/-- The plan that the rules give to a phase, or the first size that is missing. -/
def choice (r : Request) : Phase → Except SnapshotField Plan
  | .analysis =>
    if r.threads = 0 then .error .analysisParallelism
    else if r.heavy = 0 then .ok (.single ⟨generalPool, r.threads⟩)
    else if r.prioritize then
      .ok (.tieredPriority ⟨generalPool, r.threads⟩ (min r.heavy r.threads))
    else .ok (.multiPool ⟨generalPool, r.threads⟩ ⟨cpuHeavyPool, r.heavy⟩ none)
  | .execution =>
    if r.jobs = 0 then .error .executionParallelism else .ok (.single ⟨generalPool, r.jobs⟩)
  | .merged =>
    if r.threads = 0 then .error .analysisParallelism
    else if r.jobs = 0 then .error .executionParallelism
    else if r.heavy = 0 then .error .cpuHeavyPoolSize
    else
      .ok (.multiPool ⟨generalPool, r.threads⟩ ⟨cpuHeavyPool, r.heavyThreads⟩
        (some ⟨executionPool, r.jobs⟩))

/-- The threads of all pools of a phase. A lane has none of its own. -/
def threadsOf (r : Request) : Phase → ℕ
  | .analysis => r.threads.toNat + if r.prioritize then 0 else r.heavy.toNat
  | .execution => r.jobs.toNat
  | .merged => r.threads.toNat + r.heavyThreads.toNat + r.jobs.toNat

/-- A snapshot has the sizes that were asked for. -/
structure InForce (r : Request) (s : Snapshot) : Prop where
  threads : s.analysisParallelism = r.threads
  jobs : s.executionParallelism = r.jobs
  heavy : s.cpuHeavyPoolSize = r.heavyThreads
  prioritize : s.usePrioritization = r.prioritize

variable {r : Request} {s : Snapshot}

lemma clampHeavy_eq (r : Request) :
    Snapshot.clampHeavy r.threads r.heavy r.prioritize = r.heavyThreads := by
  unfold heavyThreads
  cases r.prioritize with
  | false => exact Snapshot.clampHeavy_false _ _
  | true => exact Snapshot.clampHeavy_true _ _

/-- With threads for the analysis, cutting heavy work down leaves some of it. -/
lemma heavyThreads_eq_zero_iff (h : r.threads ≠ 0) : r.heavyThreads = 0 ↔ r.heavy = 0 := by
  rw [← clampHeavy_eq, Snapshot.clampHeavy_eq_zero_iff (UInt64.pos_iff_ne_zero.mpr h)]

lemma inForce_resolve (loading : Option LoadingOptions) (build : Option BuildOptions)
    (package : Option PackageOptions) (analysis : Option AnalysisOptions) :
    (ofGroups loading build analysis).InForce (.resolve loading build package analysis) :=
  ⟨rfl, rfl, clampHeavy_eq (ofGroups loading build analysis), rfl⟩

namespace InForce

variable (h : r.InForce s)

include h

lemma forAnalysis_eq : Plan.forAnalysis s =
    (r.choice .analysis).mapError fun field => ⟨.analysis, field, s⟩ := by
  simp only [Plan.forAnalysis, Snapshot.require, Snapshot.field, h.threads, h.heavy, h.prioritize,
    choice, UInt64.pos_iff_ne_zero]
  by_cases ht : r.threads = 0
  · simp only [ht, if_true]
    rfl
  have hzero := heavyThreads_eq_zero_iff ht
  by_cases hh : r.heavy = 0
  · simp only [ht, hh, hzero, if_true, if_false, ne_eq, not_true]
    rfl
  simp only [ht, hh, hzero, if_true, if_false, ne_eq, not_false_eq_true]
  cases hp : r.prioritize <;> simp only [heavyThreads, hp] <;> rfl

lemma forExecution_eq : Plan.forExecution s =
    (r.choice .execution).mapError fun field => ⟨.execution, field, s⟩ := by
  simp only [Plan.forExecution, Snapshot.require, Snapshot.field, h.jobs, choice]
  by_cases hj : r.jobs = 0 <;> simp only [hj, if_true, if_false] <;> rfl

/-- The threads of the analysis are looked at first, so a cut that leaves nothing goes unseen. -/
lemma forMerged_eq : Plan.forMerged s =
    (r.choice .merged).mapError fun field => ⟨.merged, field, s⟩ := by
  simp only [Plan.forMerged, Snapshot.require, Snapshot.field, h.threads, h.jobs, h.heavy, choice]
  by_cases ht : r.threads = 0
  · simp only [ht, if_true]
    rfl
  by_cases hj : r.jobs = 0
  · simp only [ht, hj, if_true, if_false]
    rfl
  have hzero := heavyThreads_eq_zero_iff ht
  by_cases hh : r.heavy = 0
  · simp only [ht, hj, hh, hzero, if_true, if_false]
    rfl
  · simp only [ht, hj, hh, hzero, if_false]
    rfl

lemma forPhase_eq (phase : Phase) : Plan.forPhase phase s =
    (r.choice phase).mapError fun field => ⟨phase, field, s⟩ := by
  cases phase with
  | analysis => exact h.forAnalysis_eq
  | execution => exact h.forExecution_eq
  | merged => exact h.forMerged_eq

end InForce

lemma threads_of_choice {phase : Phase} {plan : Plan} (h : r.choice phase = .ok plan) :
    plan.threads = r.threadsOf phase := by
  cases phase with
  | analysis =>
    simp only [choice] at h
    split_ifs at h with ht hh hp <;> cases h <;>
      simp [Plan.threads, Plan.pools, threadsOf, *]
  | execution =>
    simp only [choice] at h
    split_ifs at h
    cases h
    simp [Plan.threads, Plan.pools, threadsOf]
  | merged =>
    simp only [choice] at h
    split_ifs at h
    cases h
    simp [Plan.threads, Plan.pools, threadsOf, Nat.add_assoc]

end Request

namespace Factory

/-- What a phase gets for the sizes that are asked for. -/
structure Selected (r : Request) (f : Factory) (phase : Phase) : Prop where
  /-- It is the plan of the rules. An error tells the phase, the first size that is missing, and
  the snapshot in force. -/
  plan : f.planFor phase = (r.choice phase).mapError fun field => ⟨phase, field, f.snapshot⟩
  snapshot : r.InForce f.snapshot
  threads : ∀ plan, f.planFor phase = .ok plan →
    plan.totalThreads? = Size.ofNat? (r.threadsOf phase)

lemma snapshot_refresh (f : Factory) (p : Provider) : (f.refresh p).1.snapshot = p.snapshot := by
  change (f.settings.refresh p).1.current = _
  rw [Settings.refresh_fst]
  rfl

/-- **Plans follow the sizes that are asked for.** -/
theorem selected_of_refresh (f : Factory) (p : Provider) (phase : Phase) :
    Selected (.ofGroups p.answers.loading p.answers.build p.answers.analysis) (f.refresh p).1
      phase := by
  have hforce := Request.inForce_resolve p.answers.loading p.answers.build p.answers.package
    p.answers.analysis
  change Request.InForce _ p.snapshot at hforce
  rw [← snapshot_refresh f] at hforce
  generalize Request.ofGroups _ _ _ = r at hforce ⊢
  have hplan : (f.refresh p).1.planFor phase = _ := hforce.forPhase_eq phase
  refine ⟨hplan, hforce, ?_⟩
  intro plan hok
  rw [hplan] at hok
  cases hchoice : r.choice phase with
  | error field => simp [hchoice, Except.mapError] at hok
  | ok plan' =>
    rw [hchoice] at hok
    cases hok
    rw [Plan.totalThreads?, Request.threads_of_choice hchoice]

end Factory

end PhaseExecutors
