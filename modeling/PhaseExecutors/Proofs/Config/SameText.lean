import PhaseExecutors.CommandLine.Transcript
import PhaseExecutors.Proofs.Config.Sources
import PhaseExecutors.Proofs.Config.VariableName

/-!
A text means the same count in every source.

The command line reads the text, writes the count into a document and reads it from there; a file
hands the text over as it is; the environment looks first whether the value is something other than
text. All three end with the count of the text, and a load in which nothing else is set has the
section of the key, the count under the key, and defaults elsewhere.
-/

namespace PhaseExecutors

open CommandLine PartialConfig

namespace CountKey

/-- The variable of the key, such as `PHASEPOOL_BUILD__JOBS`. -/
def variableName (k : CountKey) : String :=
  "PHASEPOOL_" ++ k.sectionName.toUpper ++ "__" ++ k.name.toUpper

/-- The invocation with the text for the key. -/
def give (text : String) (i : Invocation) : CountKey → Invocation
  | .threads => { i with loadingPhaseThreads := some text }
  | .jobs => { i with jobs := some text }
  | .globbingThreads => { i with globbingThreads := some text }
  | .cpuHeavyPoolSize => { i with cpuHeavyPoolSize := some text }

/-- The override of the key alone. -/
def override (count : ThreadCount) : CountKey → Overrides
  | .threads => { loadingPhaseThreads := some count }
  | .jobs => { jobs := some count }
  | .globbingThreads => { globbingThreads := some count }
  | .cpuHeavyPoolSize => { cpuHeavyPoolSize := some count }

/-- The configuration of the key's section, with the count under the key. -/
def only (count : ThreadCount) : CountKey → Config
  | .threads => { loading := some ⟨count⟩ }
  | .jobs => { build := some ⟨count⟩ }
  | .globbingThreads => { package := some ⟨count⟩ }
  | .cpuHeavyPoolSize => { analysis := some { cpuHeavyPoolSize := count } }

variable {k : CountKey} {count : ThreadCount} {v : Value}

lemma complete_settings (k : CountKey) : (k.settings count).complete = k.only count := by
  cases k <;> rfl

lemma settings_override (k : CountKey) : (k.override count).settings = k.settings count := by
  cases k <;> simp [override, Overrides.settings, settings]

lemma counts_override (k : CountKey) : (k.override count).counts = [count] := by
  cases k <;> rfl

/-- The section and the key, as they stand in the name of the variable. -/
def upperNames (k : CountKey) : List (List Char) :=
  [k.sectionName.toUpper.toList, k.name.toUpper.toList]

lemma variableName_eq (k : CountKey) : k.variableName =
    String.ofList (EnvironmentLayer.nameStart ++ ['_', '_'].intercalate k.upperNames) := by
  rw [← String.toList_inj, String.toList_ofList, variableName, String.toList_append,
    String.toList_append, String.toList_append, upperNames, List.intercalate_cons_cons,
    List.intercalate_singleton, List.append_assoc, List.append_assoc, List.append_assoc]
  rfl

lemma keysOf?_variableName (k : CountKey) :
    EnvironmentLayer.keysOf? k.variableName = some [k.sectionName, k.name] := by
  have hnames : ∀ part ∈ k.upperNames, EnvironmentLayer.IsKeyName part :=
    List.all_iff_forall_prop.mp (by cases k <;> decide +kernel)
  have hlower : k.upperNames.map (fun part => String.ofList (part.map Char.toLower)) =
      [k.sectionName, k.name] := by
    cases k <;> decide +kernel
  have hne : k.upperNames ≠ [] := List.cons_ne_nil _ _
  rw [variableName_eq, EnvironmentLayer.spellsKeys_keysOf?.spells (by decide) hne hnames, hlower]

end CountKey

/-! ### Places with one setting -/

/-- The invocation sets no key. -/
structure CommandLine.Invocation.IsSilent (i : Invocation) : Prop where
  threads : i.loadingPhaseThreads = none
  jobs : i.jobs = none
  globbingThreads : i.globbingThreads = none
  cpuHeavyPoolSize : i.cpuHeavyPoolSize = none
  prioritize : i.prioritize = none

namespace Site

variable {s : Site} {place : String} {named : Option String} {v : Value} {p : PartialConfig}

/-- The files are missing, or set nothing. -/
structure FilesSilent (s : Site) (named : Option String) : Prop where
  explicit : s.ExplicitGives named {}
  project : s.ProjectGives {}
  global : s.GlobalGives {}

/-- No variable has a name of interest. -/
def VariablesSilent (s : Site) : Prop := EnvironmentLayer.ofInterest s.environment = []

/-- A file is found at the path and holds the document. -/
def FileHolds (s : Site) (path : String) (v : Value) : Prop :=
  ∃ place content, s.findFile? path = some (place, content) ∧ Toml.read? content = some v

/-- One file holds the document: the one that the caller names, the project file or the global one.
The others are missing, or set nothing. -/
inductive OneFileHolds (s : Site) (v : Value) : Option String → Prop
  | explicit {path} (hfile : s.FileHolds path v) (hproject : s.ProjectGives {})
    (hglobal : s.GlobalGives {}) : OneFileHolds s v (some path)
  | project {path named} (hpath : s.projectPath? = some path) (hfile : s.FileHolds path v)
    (hexplicit : s.ExplicitGives named {}) (hglobal : s.GlobalGives {}) : OneFileHolds s v named
  | global {path named} (hpath : s.globalPath? = some path) (hexists : s.exists? path = true)
    (hfile : s.FileHolds path v) (hexplicit : s.ExplicitGives named {})
    (hproject : s.ProjectGives {}) : OneFileHolds s v named

lemma FileHolds.gives (h : s.FileHolds place v) (hv : Gives v p) : s.FileGives place p := by
  obtain ⟨place, content, hfind, hread⟩ := h
  exact .found hfind hread hv

lemma projectGives_of_projectPath? (h : s.projectPath? = some place) (hfile : s.FileGives place p) :
    s.ProjectGives p := by
  unfold projectPath? projectFiles at h
  cases hplain : s.exists? "phasepool.toml" with
  | true =>
    rw [List.find?_cons_of_pos hplain] at h
    cases h
    exact .plain hplain hfile
  | false =>
    rw [List.find?_cons_of_neg (by simp [hplain])] at h
    cases hhidden : s.exists? ".phasepool.toml" with
    | true =>
      rw [List.find?_cons_of_pos hhidden] at h
      cases h
      exact .hidden hplain hhidden hfile
    | false =>
      rw [List.find?_cons_of_neg (by simp [hhidden])] at h
      cases h

/-- A load from files alone. -/
lemma load_of_files {e q g : PartialConfig} (hvariables : s.VariablesSilent)
    (hexplicit : s.ExplicitGives named e) (hproject : s.ProjectGives q)
    (hglobal : s.GlobalGives g) :
    Config.load s named {} = .ok (e.onto (q.onto g)).complete := by
  have hsources : s.SourcesGive named {} { explicit := e, project := q, global := g } := by
    refine ⟨nofun, rfl, ?_, hexplicit, hproject, hglobal⟩
    rw [hvariables]
    exact .nil
  have hload := Config.load_eq_complete hsources
  simpa only [SourceSettings.ranked, List.reverse_nil, List.nil_append, List.cons_append,
    List.foldr_cons, List.foldr_nil, empty_onto, onto_empty] using hload

lemma load_of_oneFileHolds (h : s.OneFileHolds v named) (hv : Gives v p)
    (hvariables : s.VariablesSilent) : Config.load s named {} = .ok p.complete := by
  cases h with
  | explicit hfile hproject hglobal =>
    rw [load_of_files hvariables (.named (hfile.gives hv)) hproject hglobal, onto_empty, onto_empty]
  | project hpath hfile hexplicit hglobal =>
    rw [load_of_files hvariables hexplicit (projectGives_of_projectPath? hpath (hfile.gives hv))
      hglobal, onto_empty, empty_onto]
  | global hpath hexists hfile hexplicit hproject =>
    rw [load_of_files hvariables hexplicit hproject (.found hpath hexists (hfile.gives hv)),
      empty_onto, empty_onto]

end Site

namespace CountKey

variable {k : CountKey} {count : ThreadCount} {text : String} {s : Site} {named : Option String}

lemma overrides_give {i : Invocation} (h : i.IsSilent) (hread : ThreadCount.read text = .ok count) :
    (k.give text i).overrides = .ok (k.override count) := by
  obtain ⟨hthreads, hjobs, hglobbing, hsize, hprioritize⟩ := h
  have hcount (parameter : Parameter) :
      Invocation.count parameter (some text) = .ok (some count) := by
    rw [Invocation.count, hread]
    rfl
  have hnone (parameter : Parameter) : Invocation.count parameter none = .ok none := rfl
  unfold Invocation.overrides
  cases k with
  | threads =>
    simp only [give, hcount, hjobs, hglobbing, hsize, hprioritize, hnone]
    rfl
  | jobs =>
    simp only [give, hcount, hthreads, hglobbing, hsize, hprioritize, hnone]
    rfl
  | globbingThreads =>
    simp only [give, hcount, hthreads, hjobs, hsize, hprioritize, hnone]
    rfl
  | cpuHeavyPoolSize =>
    simp only [give, hcount, hthreads, hjobs, hglobbing, hprioritize, hnone]
    rfl

lemma load_override (hcount : count.IsWritable) (hfiles : s.FilesSilent named)
    (hvariables : s.VariablesSilent) :
    Config.load s named (k.override count) = .ok (k.only count) := by
  have hsources : s.SourcesGive named (k.override count) { overrides := k.settings count } := by
    refine ⟨?_, (settings_override k).symm, ?_, hfiles.explicit, hfiles.project, hfiles.global⟩
    · rw [counts_override]
      exact List.forall_mem_singleton.mpr hcount
    · rw [hvariables]
      exact .nil
  have hload := Config.load_eq_complete hsources
  simpa only [SourceSettings.ranked, List.reverse_nil, List.nil_append, List.cons_append,
    List.foldr_cons, List.foldr_nil, empty_onto, onto_empty, complete_settings] using hload

lemma load_variable (hread : ThreadCount.read text = .ok count) (hfiles : s.FilesSilent named)
    (hvariable : EnvironmentLayer.ofInterest s.environment = [(k.variableName, text)]) :
    Config.load s named {} = .ok (k.only count) := by
  have hgives := EnvironmentLayer.variableGives_of_read (keysOf?_variableName k) hread
  have hsources : s.SourcesGive named {} { environment := [k.settings count] } := by
    refine ⟨nofun, rfl, ?_, hfiles.explicit, hfiles.project, hfiles.global⟩
    rw [hvariable]
    exact .cons hgives .nil
  have hload := Config.load_eq_complete hsources
  simpa only [SourceSettings.ranked, List.reverse_singleton, List.nil_append, List.cons_append,
    List.foldr_cons, List.foldr_nil, empty_onto, onto_empty, complete_settings] using hload

/-- What a text for a key stands for, whichever source it comes from. -/
structure MeansEverywhere (k : CountKey) (text : String) (count : ThreadCount) : Prop where
  /-- Given on the command line it is read as the override of the key, and loaded, -/
  commandLine : ∀ (i : Invocation) (s : Site) (named : Option String), i.IsSilent →
    s.FilesSilent named → s.VariablesSilent → (k.give text i).overrides = .ok (k.override count) ∧
      Config.load s named (k.override count) = .ok (k.only count)
  /-- so it is as a string in a file, -/
  file : ∀ (s : Site) (named : Option String), s.OneFileHolds (k.document (.text text)) named →
    s.VariablesSilent → Config.load s named {} = .ok (k.only count)
  /-- and as the value of the variable of the key. -/
  environment : ∀ (s : Site) (named : Option String), s.FilesSilent named →
    EnvironmentLayer.ofInterest s.environment = [(k.variableName, text)] →
      Config.load s named {} = .ok (k.only count)
  /-- A fixed count may be a number in a file as well. -/
  number : ∀ (n : Size), count = .fixed n → ∀ (s : Site) (named : Option String),
    s.OneFileHolds (k.document (.signed (Int64.ofInt n.toNat))) named → s.VariablesSilent →
      Config.load s named {} = .ok (k.only count)

/-- **An accepted text means the same in every source.** -/
theorem meansEverywhere_of_read (k : CountKey) (hread : ThreadCount.read text = .ok count)
    (hsmall : ∀ n, count = .fixed n → n.toNat < Size.signedBound) :
    k.MeansEverywhere text count := by
  have hcount : count.IsWritable :=
    ⟨hsmall, ThreadCount.read_toText_of_expressible (ThreadCount.expressible_of_read hread)⟩
  have htext : ThreadCount.decode (.text text) = .ok count := by
    rw [ThreadCount.decode, hread]
  refine ⟨fun i s named hi hfiles hvariables => ?_, fun s named hfile hvariables => ?_,
    fun s named hfiles hvariable => load_variable hread hfiles hvariable, ?_⟩
  · exact ⟨overrides_give hi hread, load_override hcount hfiles hvariables⟩
  · rw [Site.load_of_oneFileHolds hfile (gives_document htext) hvariables, complete_settings]
  · rintro n rfl s named hfile hvariables
    have hnumber := ThreadCount.decode_signed (hsmall n rfl)
    rw [UInt64.ofNat_toNat] at hnumber
    rw [Site.load_of_oneFileHolds hfile (gives_document hnumber) hvariables, complete_settings]

/-- A place where a text with blanks in it, in a variable, is all that a load finds. -/
def blanksSite : Site where
  files := ⟨[], []⟩
  directory := "/"
  environment :=
    [("PHASEPOOL_PACKAGE__GLOBBING_THREADS", " HOST_CPUS * 1.50"), ("HOME", "/home/user")]

theorem meansEverywhere_of_blanks :
    ThreadCount.read " HOST_CPUS * 1.50" =
        .ok (.hostCpus ⟨false, 0x3ff8000000000000, by decide⟩ 0) ∧
      CountKey.globbingThreads.MeansEverywhere " HOST_CPUS * 1.50"
        (.hostCpus ⟨false, 0x3ff8000000000000, by decide⟩ 0) ∧
      Config.load blanksSite none {} =
        .ok { package := some ⟨.hostCpus ⟨false, 0x3ff8000000000000, by decide⟩ 0⟩ } := by
  have hread : ThreadCount.read " HOST_CPUS * 1.50" =
      .ok (.hostCpus ⟨false, 0x3ff8000000000000, by decide⟩ 0) := by decide +kernel
  have hmeans := meansEverywhere_of_read .globbingThreads hread nofun
  refine ⟨hread, hmeans, hmeans.environment _ none ⟨.unnamed, ?_, ?_⟩ (by decide +kernel)⟩
  · exact .missing (by decide +kernel) (by decide +kernel)
  · refine .missing fun path hpath => ?_
    have hglobal : blanksSite.globalPath? = some "/home/user/.config/phasepool/config.toml" := by
      decide +kernel
    obtain rfl : _ = path := Option.some.inj (hglobal.symm.trans hpath)
    decide +kernel

end CountKey

end PhaseExecutors
