import PhaseExecutors.Config.Validation
import PhaseExecutors.Proofs.Plan.Start

/-!
A valid configuration is one that can be built.

Validation looks at the counts as they are written and as they resolve; what a phase needs is looked
at again in the snapshot that a refresh makes of them, in the plan, and when the pools start. None
of the later looks finds anything but a section that is absent.
-/

namespace PhaseExecutors

namespace ThreadCount

/-- A count that is not written as zero resolves to some thread on every host. -/
lemma resolve_pos {count : ThreadCount} {host : Size} (h : count.isZero = false) :
    0 < count.resolve host := by
  cases count with
  | fixed n => exact UInt64.pos_iff_ne_zero.mpr (by simpa [isZero, resolve] using h)
  | hostCpus factor minus =>
    rw [resolve, UInt64.lt_iff_toNat_lt, UInt64.toNat_max]
    exact Nat.lt_of_lt_of_le Nat.one_pos (Nat.le_max_right _ _)

end ThreadCount

namespace Config

variable {c : Config} {host : Size}

lemma validate_eq_ok_iff : c.validate host = .ok () ↔
    (∀ e ∈ c.neededCounts, e.2.isZero = false) ∧
      ∀ e ∈ c.counts, e.2.resolve host ≤ maxPoolParallelism := by
  unfold validate
  split
  · next key count hfind =>
    have hzero := List.find?_some hfind
    refine iff_of_false nofun fun hall => ?_
    rw [hall.1 _ (List.mem_of_find?_eq_some hfind)] at hzero
    cases hzero
  · next hnone =>
    have hneeded : ∀ e ∈ c.neededCounts, e.2.isZero = false := by
      simpa using List.find?_eq_none.mp hnone
    split
    · next key count hfind =>
      have hlarge := List.find?_some hfind
      refine iff_of_false nofun fun hall => ?_
      exact UInt64.not_lt.mpr (hall.2 _ (List.mem_of_find?_eq_some hfind)) (by simpa using hlarge)
    · next hnone' =>
      have hcounts : ∀ e ∈ c.counts, e.2.resolve host ≤ maxPoolParallelism := by
        simpa using List.find?_eq_none.mp hnone'
      exact iff_of_true rfl ⟨hneeded, hcounts⟩

/-- What validation tells of the sections that are present. -/
structure InBounds (c : Config) (host : Size) : Prop where
  loading : ∀ s ∈ c.loading,
    0 < s.threads.resolve host ∧ s.threads.resolve host ≤ maxPoolParallelism
  build : ∀ s ∈ c.build, 0 < s.jobs.resolve host ∧ s.jobs.resolve host ≤ maxPoolParallelism
  analysis : ∀ s ∈ c.analysis, s.cpuHeavyPoolSize.resolve host ≤ maxPoolParallelism

lemma inBounds_of_validate (h : c.validate host = .ok ()) : c.InBounds host := by
  obtain ⟨hneeded, hcounts⟩ := validate_eq_ok_iff.mp h
  refine ⟨?_, ?_, ?_⟩
  · intro s hs
    have hs' : c.loading = some s := hs
    exact ⟨ThreadCount.resolve_pos (hneeded ("loading.threads", _) (by simp [neededCounts, hs'])),
      hcounts ("loading.threads", _) (by simp [counts, neededCounts, hs'])⟩
  · intro s hs
    have hs' : c.build = some s := hs
    exact ⟨ThreadCount.resolve_pos (hneeded ("build.jobs", _) (by simp [neededCounts, hs'])),
      hcounts ("build.jobs", _) (by simp [counts, neededCounts, hs'])⟩
  · intro s hs
    have hs' : c.analysis = some s := hs
    exact hcounts ("analysis.cpu_heavy_pool_size", _) (by simp [counts, hs'])

/-- The configuration has no section, or no size, for something that the phase needs. -/
def Lacks (c : Config) (host : Size) : Phase → Prop
  | .analysis => c.loading = none
  | .execution => c.build = none
  | .merged => c.loading = none ∨ c.build = none ∨
    ∀ s ∈ c.analysis, s.cpuHeavyPoolSize.resolve host = 0

/-- The snapshot that a configuration puts in force. -/
def snapshot (c : Config) (host : Size) : Snapshot :=
  .resolve (c.loading.map fun s => ⟨s.threads.resolve host⟩)
    (c.build.map fun s => ⟨s.jobs.resolve host⟩)
    (c.package.map fun s => ⟨s.globbingThreads.resolve host⟩)
    (c.analysis.map fun s => ⟨s.cpuHeavyPoolSize.resolve host, s.usePrioritization⟩)

lemma snapshot_refresh (f : Factory) (c : Config) (host : Size) :
    (f.refresh (c.options host)).1.snapshot = c.snapshot host := by
  rcases c with ⟨_ | l, _ | b, _ | p, _ | a⟩ <;> rfl

lemma InBounds.fields_le (h : c.InBounds host) :
    (c.snapshot host).analysisParallelism ≤ maxPoolParallelism ∧
      (c.snapshot host).executionParallelism ≤ maxPoolParallelism ∧
      (c.snapshot host).cpuHeavyPoolSize ≤ maxPoolParallelism := by
  refine ⟨?_, ?_, ?_⟩
  · cases hl : c.loading with
    | none => simp [snapshot, Snapshot.resolve, Snapshot.make, hl]
    | some s => simpa [snapshot, Snapshot.resolve, Snapshot.make, hl] using (h.loading s hl).2
  · cases hb : c.build with
    | none => simp [snapshot, Snapshot.resolve, Snapshot.make, hb]
    | some s => simpa [snapshot, Snapshot.resolve, Snapshot.make, hb] using (h.build s hb).2
  · refine UInt64.le_trans Snapshot.clampHeavy_le_heavy ?_
    cases ha : c.analysis with
    | none => simp
    | some s => simpa using h.analysis s ha

lemma InBounds.analysisParallelism_eq_zero_iff (h : c.InBounds host) :
    (c.snapshot host).analysisParallelism = 0 ↔ c.loading = none := by
  cases hl : c.loading with
  | none => simp [snapshot, Snapshot.resolve, Snapshot.make, hl]
  | some s =>
    have hpos := UInt64.pos_iff_ne_zero.mp (h.loading s hl).1
    simpa [snapshot, Snapshot.resolve, Snapshot.make, hl] using hpos

lemma InBounds.executionParallelism_eq_zero_iff (h : c.InBounds host) :
    (c.snapshot host).executionParallelism = 0 ↔ c.build = none := by
  cases hb : c.build with
  | none => simp [snapshot, Snapshot.resolve, Snapshot.make, hb]
  | some s =>
    have hpos := UInt64.pos_iff_ne_zero.mp (h.build s hb).1
    simpa [snapshot, Snapshot.resolve, Snapshot.make, hb] using hpos

/-- With threads for the analysis, clamping does not make the cpu-heavy size zero. -/
lemma cpuHeavyPoolSize_eq_zero_iff (h : (c.snapshot host).analysisParallelism ≠ 0) :
    (c.snapshot host).cpuHeavyPoolSize = 0 ↔
      ∀ s ∈ c.analysis, s.cpuHeavyPoolSize.resolve host = 0 := by
  refine (Snapshot.clampHeavy_eq_zero_iff (UInt64.pos_iff_ne_zero.mpr h)).trans ?_
  cases c.analysis <;> simp

/-- A phase needs a size that is zero exactly if the configuration lacks something for it. -/
lemma InBounds.exists_zero_iff (h : c.InBounds host) (phase : Phase) :
    (∃ field ∈ phase.needs, (c.snapshot host).field field = 0) ↔ c.Lacks host phase := by
  cases phase with
  | analysis => simpa [Phase.needs, Snapshot.field, Lacks] using h.analysisParallelism_eq_zero_iff
  | execution => simpa [Phase.needs, Snapshot.field, Lacks] using h.executionParallelism_eq_zero_iff
  | merged =>
    simp only [Phase.needs, Snapshot.field, Lacks, List.mem_cons, List.not_mem_nil, or_false,
      exists_eq_or_imp, exists_eq_left, h.executionParallelism_eq_zero_iff]
    rw [← h.analysisParallelism_eq_zero_iff]
    refine or_congr_right' fun hanalysis => or_congr_right ?_
    exact cpuHeavyPoolSize_eq_zero_iff hanalysis

/-- What a phase comes to once the options of a configuration are in force. -/
structure Builds (c : Config) (host : Size) (f : Factory) (phase : Phase) : Prop where
  /-- A phase is refused exactly if something is missing for it. -/
  refused : (∃ e, f.planFor phase = .error e) ↔ c.Lacks host phase
  /-- Its pools have at least one thread and at most as many as are allowed, -/
  pools : ∀ plan, f.planFor phase = .ok plan →
    ∀ p ∈ plan.pools, 0 < p.parallelism ∧ p.parallelism ≤ maxPoolParallelism
  /-- a lane for heavy tasks is at most as wide as its pool, -/
  lane : ∀ pool capacity, f.planFor phase = .ok (.tieredPriority pool capacity) →
    0 < capacity ∧ capacity ≤ pool.parallelism
  /-- the threads in all are a size, -/
  threads : ∀ plan, f.planFor phase = .ok plan →
    ∃ n, plan.totalThreads? = some n ∧ n.toNat = plan.threads
  /-- and all pools start. -/
  started : ∀ plan, f.planFor phase = .ok plan → plan.start = .ok ()

/-- **Every phase of a valid configuration can be built, or lacks a section.** -/
theorem builds_of_validate (h : c.validate host = .ok ()) (f : Factory) (phase : Phase) :
    Builds c host (f.refresh (c.options host)).1 phase := by
  have hbounds := inBounds_of_validate h
  obtain ⟨hanalysis, hexecution, hheavy⟩ := hbounds.fields_le
  have hsnapshot := snapshot_refresh f c host
  generalize (f.refresh (c.options host)).1 = f' at hsnapshot
  have hplanned : ∀ plan, f'.planFor phase = .ok plan →
      plan.WellSized ∧ ∀ p ∈ plan.pools, p.parallelism ≤ maxPoolParallelism := by
    intro plan hplan
    rw [Factory.planFor, hsnapshot, Plan.forPhase_eq_ok_iff] at hplan
    exact ⟨hplan.wellSized, hplan.pools_le hanalysis hexecution hheavy⟩
  refine ⟨?_, ?_, ?_, ?_, ?_⟩
  · rw [Factory.planFor, hsnapshot, Plan.exists_forPhase_eq_error_iff, hbounds.exists_zero_iff]
  · intro plan hplan p hp
    obtain ⟨hsized, hle⟩ := hplanned plan hplan
    exact ⟨hsized.threads p hp, hle p hp⟩
  · intro pool capacity hplan
    exact (hplanned _ hplan).1.lane pool capacity rfl
  · intro plan hplan
    have hlt := Plan.threads_lt (hplanned plan hplan).2
    exact ⟨_, Size.ofNat?_eq_some hlt, UInt64.toNat_ofNat_of_lt' hlt⟩
  · intro plan hplan
    obtain ⟨hsized, hle⟩ := hplanned plan hplan
    exact hsized.start_eq_ok_iff.mpr hle

/-- Three sections with more heavy threads than the analysis has, which the lane is cut down to. -/
theorem builds_of_three_sections : ∃ c : Config, ∃ host f plan,
    c.validate host = .ok () ∧ Factory.planFor f .analysis = .ok plan ∧
      plan = .tieredPriority ⟨generalPool, 2⟩ 2 ∧ ∀ phase, Builds c host f phase :=
  let c : Config :=
    { loading := some ⟨.fixed 2⟩
      build := some ⟨.fixed 4096⟩
      analysis := some ⟨.fixed 7, true⟩ }
  have hvalid : c.validate 8 = .ok () := by decide
  ⟨c, 8, _, _, hvalid, by decide, rfl, builds_of_validate hvalid (.ofSettings (.initial .inert))⟩

end Config

end PhaseExecutors
