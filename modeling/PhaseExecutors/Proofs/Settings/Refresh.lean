import PhaseExecutors.Proofs.Settings.Publication

/-!
A refresh heeds the answers that are groups of the id asked for, and reports everything else.

The report that the cpu-heavy size had to give way compares two numbers after the fact. It appears
exactly where the snapshot has cut the size down, and what it names is the analysis parallelism.
-/

namespace PhaseExecutors

namespace Provider

/-- The answers that are groups of the id asked for. -/
def heeded (p : Provider) : Provider := fun id => (p id).filter fun g => g.id = id

/-- The other answers: the id of the group, and the id asked for. -/
def mistaken (p : Provider) : List (GroupId × GroupId) :=
  GroupId.all.filterMap fun id => ((p id).filter fun g => g.id ≠ id).map fun g => (g.id, id)

/-- The threads of the analysis. -/
def analysisThreads (p : Provider) : Size :=
  (((p.heeded .loadingPhaseThreads).bind OptionGroup.loading?).map LoadingOptions.threads).getD 0

/-- Prioritized work is to have more threads than the analysis, in which it runs. -/
def Overreaches (p : Provider) (o : AnalysisOptions) : Prop :=
  p .analysis = some (.analysis o) ∧ o.usePrioritization = true ∧
    p.analysisThreads < o.cpuHeavyPoolSize

/-- Heeding an answer loses no options: those of another group are none of the id. -/
lemma answers_eq (p : Provider) :
    p.answers =
      { loading := (p.heeded .loadingPhaseThreads).bind OptionGroup.loading?
        build := (p.heeded .buildRequest).bind OptionGroup.build?
        package := (p.heeded .package).bind OptionGroup.package?
        analysis := (p.heeded .analysis).bind OptionGroup.analysis? } := by
  have heard {α : Type} (id : GroupId) (f : OptionGroup → Option α)
      (hf : ∀ g, g.id ≠ id → f g = none) : (p id).bind f = (p.heeded id).bind f := by
    unfold heeded
    cases p id with
    | none => rfl
    | some g =>
      by_cases hg : g.id = id
      · rw [Option.filter_some_pos (by simpa using hg)]
      · rw [Option.filter_some_neg (by simpa using hg), Option.bind_some, hf g hg, Option.bind_none]
  simp only [Provider.answers, Answers.mk.injEq]
  refine ⟨heard _ _ ?_, heard _ _ ?_, heard _ _ ?_, heard _ _ ?_⟩ <;>
    rintro (_ | _ | _ | _) hg <;> first | rfl | exact absurd rfl hg

lemma analysis_answers_eq_some_iff {p : Provider} {o : AnalysisOptions} :
    p.answers.analysis = some o ↔ p .analysis = some (.analysis o) := by
  simp only [Provider.answers, Option.bind_eq_some_iff]
  constructor
  · rintro ⟨_ | _ | _ | _, hg, ⟨⟩⟩
    exact hg
  · exact fun h => ⟨_, h, rfl⟩

lemma analysisParallelism_snapshot (p : Provider) :
    p.snapshot.analysisParallelism = p.analysisThreads := by
  rw [Provider.snapshot, answers_eq]
  rfl

end Provider

namespace Answers

/-- An answer is reported if it is a group of another id. -/
lemma hear_snd (a : Answers) (asked : GroupId) (answer : Option OptionGroup) :
    (a.hear asked answer).2 =
      ((answer.filter fun g => g.id ≠ asked).map fun g => mismatch g.id asked).toList := by
  cases asked <;> rcases answer with _ | (_ | _ | _ | _) <;> rfl

/-- The reports come in the order of the questions. -/
lemma gather_snd (p : Provider) (a : Answers) (ids : List GroupId) :
    (gather p a ids).2 =
      ids.filterMap fun id => ((p id).filter fun g => g.id ≠ id).map fun g => mismatch g.id id := by
  induction ids generalizing a with
  | nil => rfl
  | cons id ids ih =>
    have hcons : (gather p a (id :: ids)).2 =
        (a.hear id (p id)).2 ++ (gather p (a.hear id (p id)).1 ids).2 := rfl
    rw [hcons, hear_snd, ih, List.filterMap_cons]
    cases (p id).filter fun g => g.id ≠ id <;> rfl

/-- The report is made if the size was cut down, and then to the analysis parallelism. -/
lemma clampNote_resolve (a : Answers) :
    a.clampNote a.resolve =
      match a.analysis with
      | none => []
      | some o =>
        if o.usePrioritization = true ∧ a.resolve.analysisParallelism < o.cpuHeavyPoolSize then
          [⟨.info, s!"Prioritized analysis: cpu_heavy_pool_size {o.cpuHeavyPoolSize.toNat} " ++
            s!"reduced to analysis_parallelism {a.resolve.analysisParallelism.toNat}"⟩]
        else [] := by
  unfold clampNote
  cases ha : a.analysis with
  | none => rfl
  | some o =>
    have hheavy : a.resolve.cpuHeavyPoolSize =
        Snapshot.clampHeavy a.resolve.analysisParallelism o.cpuHeavyPoolSize
          o.usePrioritization := by
      simp only [resolve, ha]
      rfl
    simp only [hheavy, eq_comm (a := o.cpuHeavyPoolSize), Snapshot.clampHeavy_eq_heavy_iff]
    by_cases h : o.usePrioritization = true ∧
        a.resolve.analysisParallelism < o.cpuHeavyPoolSize
    · simp only [h, and_self, not_true, if_false, if_true, Snapshot.clampHeavy]
    · simp only [h, not_false_eq_true, if_true, if_false]

end Answers

namespace Settings

/-- The lines about a cpu-heavy size that has to give way. -/
def clampLines (p : Provider) : Log :=
  match (p.heeded .analysis).bind OptionGroup.analysis? with
  | none => []
  | some o =>
    if o.usePrioritization = true ∧ p.analysisThreads < o.cpuHeavyPoolSize then
      [⟨.info, s!"Prioritized analysis: cpu_heavy_pool_size {o.cpuHeavyPoolSize.toNat} " ++
        s!"reduced to analysis_parallelism {p.analysisThreads.toNat}"⟩]
    else []

/-- What a refresh comes to, whatever the provider answers. -/
structure Refreshed (s : Settings) (p : Provider) : Prop where
  version : (s.refresh p).1.version = s.version + 1
  /-- The snapshot in force is resolved from the answers that are heeded, -/
  snapshot : (s.refresh p).1.current = .resolve
    ((p.heeded .loadingPhaseThreads).bind OptionGroup.loading?)
    ((p.heeded .buildRequest).bind OptionGroup.build?)
    ((p.heeded .package).bind OptionGroup.package?)
    ((p.heeded .analysis).bind OptionGroup.analysis?)
  /-- with the threads of the analysis, -/
  threads : (s.refresh p).1.current.analysisParallelism = p.analysisThreads
  /-- and has nothing to do with the one before. -/
  memoryless : ∀ s' : Settings, (s'.refresh p).1.current = (s.refresh p).1.current
  log : (s.refresh p).2 =
    (p.mistaken.map fun (actual, asked) =>
      ⟨.warn, s!"Options provider returned group '{actual.name}' for '{asked.name}'; " ++
        "treating it as absent"⟩) ++
    clampLines p ++
    [⟨.debug, s!"Refreshed parallelism settings (version {s.version + 1}): " ++
      (s.refresh p).1.current.toText⟩]
  /-- A line tells that the size gave way exactly if it was asked for beyond the analysis. -/
  clamped : (∃ line ∈ (s.refresh p).2, line.level = .info) ↔ ∃ o, p.Overreaches o

lemma refresh_snd (s : Settings) (p : Provider) :
    (s.refresh p).2 = (Answers.gather p {} GroupId.all).2 ++ p.answers.clampNote p.snapshot ++
      [(s.refresh p).1.refreshNote] := by
  rw [refresh_fst, Provider.snapshot, ← Answers.gather_all]
  rfl

lemma clampNote_answers (p : Provider) : p.answers.clampNote p.snapshot = clampLines p := by
  have hanalysis : p.answers.analysis = (p.heeded .analysis).bind OptionGroup.analysis? := by
    rw [Provider.answers_eq]
  rw [Provider.snapshot, Answers.clampNote_resolve, hanalysis, ← Provider.snapshot,
    Provider.analysisParallelism_snapshot, clampLines]

/-- The lines about the cpu-heavy size are there if it gave way, and are all on one level. -/
lemma exists_mem_clampLines_iff {p : Provider} :
    (∃ line ∈ clampLines p, line.level = .info) ↔ ∃ o, p.Overreaches o := by
  have hanalysis : (p.heeded .analysis).bind OptionGroup.analysis? = p.answers.analysis := by
    rw [Provider.answers_eq]
  simp only [clampLines, hanalysis, Provider.Overreaches, ← Provider.analysis_answers_eq_some_iff]
  cases p.answers.analysis with
  | none => simp
  | some o =>
    by_cases h : o.usePrioritization = true ∧ p.analysisThreads < o.cpuHeavyPoolSize <;> simp [h]

/-- **A refresh depends on the answers that are groups of the id asked for, and reports the other
ones and a cpu-heavy size that has to give way.** -/
theorem refreshed_of_any_provider (s : Settings) (p : Provider) : Refreshed s p := by
  have hlog : (s.refresh p).2 =
      (p.mistaken.map fun (actual, asked) =>
        ⟨.warn, s!"Options provider returned group '{actual.name}' for '{asked.name}'; " ++
          "treating it as absent"⟩) ++
      clampLines p ++
      [⟨.debug, s!"Refreshed parallelism settings (version {s.version + 1}): " ++
        (s.refresh p).1.current.toText⟩] := by
    rw [refresh_snd, Answers.gather_snd, clampNote_answers, Provider.mistaken, List.map_filterMap]
    simp only [Option.map_map]
    rfl
  refine ⟨?_, ?_, ?_, ?_, hlog, ?_⟩
  · rw [refresh_fst]
    rfl
  · rw [refresh_fst]
    change p.snapshot = _
    rw [Provider.snapshot, Provider.answers_eq]
    rfl
  · rw [refresh_fst]
    exact p.analysisParallelism_snapshot
  · intro s'
    rw [refresh_fst, refresh_fst]
    rfl
  · rw [hlog]
    simp [or_and_right, exists_or, exists_mem_clampLines_iff]

end Settings

end PhaseExecutors
