import PhaseExecutors.Proofs.Config.Sources

/-!
The highest source that sets a key decides it.

From the highest to the lowest there are the overrides, the variables of the environment, the file
that the caller names, the project file and the global file. Each key is decided on its own: by the
first of them that sets it, or by its default if its section is there all the same. A section is
there if one of the sources has it, with or without keys.
-/

namespace PhaseExecutors

open PartialConfig

variable {α σ τ : Type}

/-! ### Ranked settings -/

/-- The first value that is set, or the default. -/
def firstSet (values : List (Option α)) (default : α) : α := (values.findSome? id).getD default

/-- A section is there if a source has it, and made of what those sources set that have it. -/
def rankedSection (sections : List (Option σ)) (make : List σ → τ) : Option τ :=
  match sections.reduceOption with
  | [] => none
  | present => some (make present)

/-- The configuration that settings make, the highest first: section by section, and key by key. -/
def Config.ofRanked (ps : List PartialConfig) : Config where
  loading := rankedSection (ps.map (·.loading)) fun threads => ⟨firstSet threads .auto⟩
  build := rankedSection (ps.map (·.build)) fun jobs => ⟨firstSet jobs .auto⟩
  package := rankedSection (ps.map (·.package)) fun globbing => ⟨firstSet globbing (.fixed 100)⟩
  analysis := rankedSection (ps.map (·.analysis)) fun parts =>
    ⟨firstSet (parts.map (·.cpuHeavyPoolSize)) (.fixed 0),
      firstSet (parts.map (·.usePrioritization)) false⟩

lemma foldr_or (values : List (Option α)) : values.foldr Option.or none = values.findSome? id := by
  induction values with
  | nil => rfl
  | cons value values ih =>
    rw [List.foldr_cons, ih, List.findSome?_cons]
    cases value with
    | none => rfl
    | some a => rfl

lemma foldr_merge {f : σ → σ → σ} {unit : σ} (hunit : ∀ a, f a unit = a) (make : σ → τ)
    (sections : List (Option σ)) :
    (sections.foldr (Option.merge f) none).map make =
      rankedSection sections fun present => make (present.foldr f unit) := by
  have hfold : sections.foldr (Option.merge f) none =
      rankedSection sections fun present => present.foldr f unit := by
    induction sections with
    | nil => rfl
    | cons part sections ih =>
      rw [List.foldr_cons, ih]
      cases part with
      | none =>
        rw [Option.merge_none_left, rankedSection, rankedSection, List.reduceOption_cons_of_none]
      | some a =>
        rw [rankedSection, rankedSection, List.reduceOption_cons_of_some]
        cases sections.reduceOption with
        | nil => exact congrArg some (hunit a).symm
        | cons b present => rfl
  rw [hfold]
  unfold rankedSection
  split
  · rfl
  · rfl

lemma foldr_analysis (parts : List PartialAnalysis) :
    parts.foldr PartialAnalysis.onto {} =
      ⟨(parts.map (·.cpuHeavyPoolSize)).findSome? id,
        (parts.map (·.usePrioritization)).findSome? id⟩ := by
  rw [← foldr_or, ← foldr_or]
  induction parts with
  | nil => rfl
  | cons part parts ih =>
    rw [List.foldr_cons, ih]
    rfl

lemma foldr_sections (ps : List PartialConfig) :
    ps.foldr onto {} =
      { loading := (ps.map (·.loading)).foldr (Option.merge Option.or) none
        build := (ps.map (·.build)).foldr (Option.merge Option.or) none
        package := (ps.map (·.package)).foldr (Option.merge Option.or) none
        analysis := (ps.map (·.analysis)).foldr (Option.merge PartialAnalysis.onto) none } := by
  induction ps with
  | nil => rfl
  | cons p ps ih =>
    rw [List.foldr_cons, ih]
    rfl

/-- Settings on top of each other are completed as the ranked settings are. -/
lemma complete_foldr (ps : List PartialConfig) :
    (ps.foldr onto {}).complete = Config.ofRanked ps := by
  have hor (a : Option ThreadCount) : a.or none = a := Option.or_none
  have honto (a : PartialAnalysis) : a.onto {} = a := by simp [PartialAnalysis.onto]
  rw [foldr_sections]
  simp only [complete, Config.ofRanked, firstSet, foldr_merge hor, foldr_merge honto, foldr_or,
    foldr_analysis]

namespace Config

variable {s : Site} {explicit : Option String} {o : Overrides} {p : SourceSettings}

/-- **Each key has the value of the highest source that sets it.** -/
theorem load_of_sourcesGive (h : s.SourcesGive explicit o p) :
    load s explicit o = .ok (ofRanked p.ranked) := by
  rw [load_eq_complete h, complete_foldr]

/-- A place with a file of every kind, in the home on record; the hidden project file is not even a
document. Two variables set one key. -/
def crowdedSite : Site where
  files :=
    { files := [
        (["root", ".config", "phasepool", "config.toml"],
          "[loading]\nthreads = \"2\"\n\n[package]\n"),
        (["work", "phasepool.toml"], "[build]\njobs = \"auto\"\n\n[analysis]\n"),
        (["work", ".phasepool.toml"], "["),
        (["more.toml"], "[analysis]\nuse_prioritization = true\n")] }
  directory := "/work"
  environment := [("phasepool_loading__threads", "3"), ("HOME", ""),
    ("PHASEPOOL_LOADING__THREADS", "8"), ("PHASEPOOL_BUILD__JOBS", "7")]
  home := some "/root"

/-- What the files, the variables and an override for the jobs set there. -/
def crowdedSettings : SourceSettings where
  overrides := { build := some (some (.fixed 5)) }
  environment := [{ loading := some (some (.fixed 3)) }, { loading := some (some (.fixed 8)) },
    { build := some (some (.fixed 7)) }]
  explicit := { analysis := some ⟨none, some true⟩ }
  project := { build := some (some .auto), analysis := some ⟨none, none⟩ }
  global := { loading := some (some (.fixed 2)), package := some none }

lemma crowdedSite_global : crowdedSite.GlobalGives crowdedSettings.global := by
  have hpath : crowdedSite.globalPath? = some "/root/.config/phasepool/config.toml" := by
    decide +kernel
  have hfile : crowdedSite.findFile? "/root/.config/phasepool/config.toml" = some
      ("/root/.config/phasepool/config.toml", "[loading]\nthreads = \"2\"\n\n[package]\n") := by
    decide +kernel
  have hplain : Toml.IsPlain (.text "2") := .text (List.all_iff_forall_prop.mp (by decide))
  have hdocument : Toml.IsDocument [("loading", [("threads", .text "2")]), ("package", [])] :=
    ⟨by decide, by decide, List.forall_mem_cons.mpr
      ⟨Toml.isLines_singleton (by decide) hplain, List.forall_mem_singleton.mpr Toml.isLines_nil⟩⟩
  have hthreads : ThreadCount.decode (.text "2") = .ok (.fixed 2) := by decide +kernel
  refine .found hpath (by decide +kernel) (.found hfile
    (Toml.read?_of_write hdocument (by decide +kernel))
    ⟨⟨_, rfl⟩, ?_, .absent rfl, ?_, .absent rfl⟩)
  · exact .present rfl (keyGives_some.mpr ⟨_, rfl, hthreads⟩)
  · exact .present rfl (keyGives_none.mpr rfl)

lemma crowdedSite_project : crowdedSite.ProjectGives crowdedSettings.project := by
  have hfile : crowdedSite.findFile? "phasepool.toml" =
      some ("/work/phasepool.toml", "[build]\njobs = \"auto\"\n\n[analysis]\n") := by decide +kernel
  have hplain : Toml.IsPlain (.text "auto") := .text (List.all_iff_forall_prop.mp (by decide))
  have hdocument : Toml.IsDocument [("build", [("jobs", .text "auto")]), ("analysis", [])] :=
    ⟨by decide, by decide, List.forall_mem_cons.mpr
      ⟨Toml.isLines_singleton (by decide) hplain, List.forall_mem_singleton.mpr Toml.isLines_nil⟩⟩
  have hjobs : ThreadCount.decode (.text "auto") = .ok .auto := by decide +kernel
  refine .plain (by decide +kernel) (.found hfile
    (Toml.read?_of_write hdocument (by decide +kernel))
    ⟨⟨_, rfl⟩, .absent rfl, ?_, .absent rfl, ?_⟩)
  · exact .present rfl (keyGives_some.mpr ⟨_, rfl, hjobs⟩)
  · exact .present rfl ⟨keyGives_none.mpr rfl, keyGives_none.mpr rfl⟩

lemma crowdedSite_explicit :
    crowdedSite.ExplicitGives (some "more.toml") crowdedSettings.explicit := by
  have hfile : crowdedSite.findFile? "more.toml" =
      some ("/more.toml", "[analysis]\nuse_prioritization = true\n") := by decide +kernel
  have hdocument : Toml.IsDocument [("analysis", [("use_prioritization", .bool true)])] :=
    ⟨by decide, by decide, List.forall_mem_singleton.mpr
      (Toml.isLines_singleton (by decide) (.bool true))⟩
  refine .named (.found hfile (Toml.read?_of_write hdocument (by decide +kernel))
    ⟨⟨_, rfl⟩, .absent rfl, .absent rfl, .absent rfl, ?_⟩)
  exact .present rfl ⟨keyGives_none.mpr rfl, keyGives_some.mpr ⟨_, rfl, rfl⟩⟩

lemma crowdedSite_environment : List.Forall₂ EnvironmentLayer.VariableGives
    (EnvironmentLayer.ofInterest crowdedSite.environment) crowdedSettings.environment := by
  have hinterest : EnvironmentLayer.ofInterest crowdedSite.environment =
      [("phasepool_loading__threads", "3"), ("PHASEPOOL_LOADING__THREADS", "8"),
        ("PHASEPOOL_BUILD__JOBS", "7")] := by decide +kernel
  rw [hinterest]
  refine .cons ?_ (.cons ?_ (.cons ?_ .nil))
  · exact EnvironmentLayer.variableGives_of_read (k := .threads) (by decide +kernel)
      (by decide +kernel)
  · exact EnvironmentLayer.variableGives_of_read (k := .threads) (by decide +kernel)
      (by decide +kernel)
  · exact EnvironmentLayer.variableGives_of_read (k := .jobs) (by decide +kernel)
      (by decide +kernel)

/-- The settings of all sources meet; one file is found in the directory above. -/
theorem load_crowdedSite :
    crowdedSite.SourcesGive (some "more.toml") { jobs := some (.fixed 5) } crowdedSettings ∧
      load crowdedSite (some "more.toml") { jobs := some (.fixed 5) } =
        .ok { loading := some ⟨.fixed 8⟩, build := some ⟨.fixed 5⟩, package := some ⟨.fixed 100⟩,
              analysis := some ⟨.fixed 0, true⟩ } := by
  have hjobs : (ThreadCount.fixed 5).IsWritable :=
    ⟨fun n hn => by cases hn; decide, by decide +kernel⟩
  have hsources : crowdedSite.SourcesGive (some "more.toml") { jobs := some (.fixed 5) }
      crowdedSettings :=
    ⟨List.forall_mem_singleton.mpr hjobs, rfl, crowdedSite_environment, crowdedSite_explicit,
      crowdedSite_project, crowdedSite_global⟩
  exact ⟨hsources, load_of_sourcesGive hsources⟩

end Config

end PhaseExecutors
