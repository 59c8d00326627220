import PhaseExecutors.Config.Basic
import PhaseExecutors.Proofs.Config.Merge
import PhaseExecutors.Proofs.Value.Records

/-!
Partial configurations: what one source sets.

A source may have some of the sections, and a section some of its keys. Three things are shown of a
document that gives a partial configuration: it still does as a layer, on top of another layer it
gives the two partial configurations on top of each other, and decoding it fills the keys that are
open with their defaults. Each is shown of a key first, then of a section, then of the whole.
-/

namespace PhaseExecutors

open Layer (IsMerge WellFormed)

/-- What a source sets in the analysis section. -/
structure PartialAnalysis where
  cpuHeavyPoolSize : Option ThreadCount := none
  usePrioritization : Option Bool := none
deriving DecidableEq

/-- What a source sets. A section that the source lacks is `none`, one that leaves its key open is
`some none`. -/
structure PartialConfig where
  loading : Option (Option ThreadCount) := none
  build : Option (Option ThreadCount) := none
  package : Option (Option ThreadCount) := none
  analysis : Option PartialAnalysis := none
deriving DecidableEq

/-- The upper settings, and below them those that they leave open. -/
def PartialAnalysis.onto (upper lower : PartialAnalysis) : PartialAnalysis :=
  ⟨upper.cpuHeavyPoolSize.or lower.cpuHeavyPoolSize,
    upper.usePrioritization.or lower.usePrioritization⟩

namespace PartialConfig

variable {α σ τ : Type} {decode : Decoder α} {key name : String} {entries : List (String × Value)}
  {keys : Value → σ → Prop} {f : σ → σ → σ} {surplus : Surplus}

def onto (upper lower : PartialConfig) : PartialConfig where
  loading := upper.loading.merge Option.or lower.loading
  build := upper.build.merge Option.or lower.build
  package := upper.package.merge Option.or lower.package
  analysis := upper.analysis.merge PartialAnalysis.onto lower.analysis

/-- The configuration of the settings alone: keys that they leave open have their defaults. -/
def complete (p : PartialConfig) : Config where
  loading := p.loading.map fun threads => ⟨threads.getD .auto⟩
  build := p.build.map fun jobs => ⟨jobs.getD .auto⟩
  package := p.package.map fun globbingThreads => ⟨globbingThreads.getD (.fixed 100)⟩
  analysis := p.analysis.map fun a =>
    ⟨a.cpuHeavyPoolSize.getD (.fixed 0), a.usePrioritization.getD false⟩

/-! ### Documents -/

/-- What a table has under a key: a value of its type, or nothing. -/
def KeyGives (decode : Decoder α) (key : String) (v : Value) (a : Option α) : Prop :=
  (v.get? key).map decode = a.map Except.ok

/-- What a table has as a section: a table with those keys, or nothing. -/
inductive SectionGives (keys : Value → σ → Prop) (name : String) (v : Value) : Option σ → Prop
  | absent (h : v.get? name = none) : SectionGives keys name v none
  | present {entries a} (h : v.get? name = some (.table entries))
    (hkeys : keys (.table entries) a) : SectionGives keys name v (some a)

structure AnalysisGives (v : Value) (a : PartialAnalysis) : Prop where
  size : KeyGives ThreadCount.decode "cpu_heavy_pool_size" v a.cpuHeavyPoolSize
  prioritize : KeyGives Decode.bool "use_prioritization" v a.usePrioritization

/-- A table gives the settings: its sections are tables and its keys have their types. Keys that are
not listed may hold anything. -/
structure TableGives (v : Value) (p : PartialConfig) : Prop where
  loading : SectionGives (KeyGives ThreadCount.decode "threads") "loading" v p.loading
  build : SectionGives (KeyGives ThreadCount.decode "jobs") "build" v p.build
  package : SectionGives (KeyGives ThreadCount.decode "globbing_threads") "package" v p.package
  analysis : SectionGives AnalysisGives "analysis" v p.analysis

/-- A document gives the settings. -/
def Gives (v : Value) (p : PartialConfig) : Prop := (∃ entries, v = .table entries) ∧ TableGives v p

/-- The value of a key is no table. -/
def IsScalar (decode : Decoder α) : Prop := ∀ entries a, decode (.table entries) ≠ .ok a

lemma isScalar_count : IsScalar ThreadCount.decode := fun _ _ h => nomatch h

lemma isScalar_bool : IsScalar Decode.bool := fun _ _ h => nomatch h

lemma keyGives_none {v : Value} : KeyGives decode key v none ↔ v.get? key = none :=
  Option.map_eq_none_iff

lemma keyGives_some {v : Value} {a : α} :
    KeyGives decode key v (some a) ↔ ∃ w, v.get? key = some w ∧ decode w = .ok a :=
  Option.map_eq_some_iff

/-! ### Documents as layers -/

/-- What a table gives is kept when the table becomes a layer. -/
def Kept (keys : Value → σ → Prop) : Prop :=
  ∀ origin entries a, keys (.table entries) a →
    keys (Layer.ofValue origin (.table entries)).toValue a

lemma get?_layer (origin : Origin) (v : Value) :
    (Layer.ofValue origin v).toValue.get? key =
      (v.get? key).map fun w => (Layer.ofValue origin w).toValue := by
  rw [(Layer.wellFormed_ofValue origin v).get?_toValue, Layer.get?_ofValue, Option.map_map]
  rfl

lemma kept_key (hdecode : IsScalar decode) : Kept (KeyGives decode key) := by
  intro origin entries a h
  cases a with
  | none =>
    rw [keyGives_none] at h ⊢
    rw [get?_layer, h]
    rfl
  | some a =>
    rw [keyGives_some] at h ⊢
    obtain ⟨w, hw, ha⟩ := h
    have hleaf : (Layer.ofValue origin w).toValue = w := by
      cases w with
      | table entries => exact absurd ha (hdecode entries a)
      | _ => rfl
    refine ⟨w, ?_, ha⟩
    rw [get?_layer, hw, Option.map_some, hleaf]

lemma kept_section (hkeys : Kept keys) : Kept (SectionGives keys name) := by
  intro origin entries a h
  cases h with
  | absent h => exact .absent (by rw [get?_layer, h, Option.map_none])
  | @present entries a h h' =>
    refine .present ?_ (hkeys origin entries a h')
    rw [get?_layer, h]
    rfl

lemma kept_analysis : Kept AnalysisGives := fun origin entries _ h =>
  ⟨kept_key isScalar_count origin entries _ h.size,
    kept_key isScalar_bool origin entries _ h.prioritize⟩

lemma kept_table : Kept TableGives := fun origin entries _ h =>
  ⟨kept_section (kept_key isScalar_count) origin entries _ h.loading,
    kept_section (kept_key isScalar_count) origin entries _ h.build,
    kept_section (kept_key isScalar_count) origin entries _ h.package,
    kept_section kept_analysis origin entries _ h.analysis⟩

/-! ### Layers on top of each other -/

section Merging

variable {m : Layer → Layer → Layer}

/-- What two tables give on top of each other. -/
def Merges (m : Layer → Layer → Layer) (keys : Value → σ → Prop) (f : σ → σ → σ) : Prop :=
  ∀ {origin origin' below above a b}, WellFormed (.table origin below) →
    WellFormed (.table origin' above) → keys (Layer.table origin below).toValue a →
      keys (Layer.table origin' above).toValue b →
        keys (m (.table origin below) (.table origin' above)).toValue (f b a)

lemma merges_key (hm : IsMerge m) (hdecode : IsScalar decode) :
    Merges m (KeyGives decode key) Option.or := by
  intro origin origin' below above a b hbelow habove ha hb
  unfold KeyGives at ha hb ⊢
  rw [hbelow.get?_toValue] at ha
  rw [habove.get?_toValue] at hb
  rw [(hm.wellFormed hbelow habove).get?_toValue, hm.get?_table hbelow habove]
  cases hupper : (Layer.table origin' above).get? key with
  | none =>
    rw [hupper] at hb
    cases b with
    | none => rwa [Option.merge_none_left]
    | some b => cases hb
  | some upper =>
    rw [hupper] at hb
    cases b with
    | none => cases hb
    | some b =>
      have hok : decode upper.toValue = .ok b := Option.some.inj hb
      -- a leaf hides what is below it
      cases upper with
      | table origin'' entries => exact absurd hok (hdecode _ b)
      | leaf origin'' v =>
        cases (Layer.table origin below).get? key with
        | none => exact hb
        | some lower =>
          rw [Option.merge_some_some, hm.replaces]
          exact hb

/-- A section of a layer is a table in the layer too. -/
lemma exists_section {layer : Layer} (h : layer.WellFormed)
    (hname : layer.toValue.get? name = some (.table entries)) :
    ∃ origin parts, layer.get? name = some (.table origin parts) ∧
      WellFormed (.table origin parts) ∧ (Layer.table origin parts).toValue = .table entries := by
  rw [h.get?_toValue] at hname
  obtain ⟨part, hpart, hvalue⟩ := Option.map_eq_some_iff.mp hname
  have hwell := h.of_get? hpart
  cases part with
  | table origin parts => exact ⟨origin, parts, hpart, hwell, hvalue⟩
  | leaf origin v =>
    cases hwell with
    | leaf hleaf => exact absurd hvalue (hleaf entries)

lemma get?_eq_none_of_absent {layer : Layer} (h : layer.WellFormed)
    (hname : layer.toValue.get? name = none) : layer.get? name = none := by
  rw [h.get?_toValue] at hname
  exact Option.map_eq_none_iff.mp hname

lemma merges_section (hm : IsMerge m) (hkeys : Merges m keys f) :
    Merges m (SectionGives keys name) (Option.merge f) := by
  intro origin origin' below above a b hbelow habove ha hb
  have hvalue := (hm.wellFormed hbelow habove).get?_toValue name
  rw [hm.get?_table hbelow habove] at hvalue
  cases hb with
  | absent hb =>
    rw [get?_eq_none_of_absent habove hb] at hvalue
    cases ha with
    | absent ha =>
      rw [get?_eq_none_of_absent hbelow ha] at hvalue
      exact .absent hvalue
    | present ha ha' =>
      obtain ⟨_, parts, hlower, -, hentries⟩ := exists_section hbelow ha
      rw [hlower] at hvalue
      exact .present (hvalue.trans (congrArg some hentries)) ha'
  | present hb hb' =>
    obtain ⟨_, parts, hupper, hwell, hentries⟩ := exists_section habove hb
    rw [hupper] at hvalue
    cases ha with
    | absent ha =>
      rw [get?_eq_none_of_absent hbelow ha] at hvalue
      exact .present (hvalue.trans (congrArg some hentries)) hb'
    | present ha ha' =>
      obtain ⟨_, parts', hlower, hwell', hentries'⟩ := exists_section hbelow ha
      rw [← hentries] at hb'
      rw [← hentries'] at ha'
      have hjoined := hkeys hwell' hwell ha' hb'
      obtain ⟨joined, heq, -⟩ := hm.joins hwell' hwell
      rw [hlower, Option.merge_some_some, heq] at hvalue
      rw [heq] at hjoined
      exact .present hvalue hjoined

lemma merges_analysis (hm : IsMerge m) : Merges m AnalysisGives PartialAnalysis.onto :=
  fun hbelow habove ha hb => ⟨merges_key hm isScalar_count hbelow habove ha.size hb.size,
    merges_key hm isScalar_bool hbelow habove ha.prioritize hb.prioritize⟩

lemma merges_table (hm : IsMerge m) : Merges m TableGives onto := fun hbelow habove ha hb =>
  have hcount {key : String} : Merges m (KeyGives ThreadCount.decode key) Option.or :=
    merges_key hm isScalar_count
  ⟨merges_section hm hcount hbelow habove ha.loading hb.loading,
    merges_section hm hcount hbelow habove ha.build hb.build,
    merges_section hm hcount hbelow habove ha.package hb.package,
    merges_section hm (merges_analysis hm) hbelow habove ha.analysis hb.analysis⟩

end Merging

/-! ### Decoding -/

/-- What a table gives is what decoding makes of it. -/
def Decodes (keys : Value → σ → Prop) (decode : Decoder τ) (make : σ → τ) : Prop :=
  ∀ {entries a}, keys (.table entries) a → decode (.table entries) = .ok (make a)

lemma getD_of_keyGives (type : RecordType) {a : Option α} (d : α)
    (h : KeyGives decode key (.table entries) a) :
    (fieldsOf type entries).getD key decode d = .ok (a.getD d) := by
  cases a with
  | none => exact getD_of_lookup?_eq_none type d decode (keyGives_none.mp h)
  | some a =>
    obtain ⟨v, hv, hok⟩ := keyGives_some.mp h
    exact getD_of_lookup? type d hv hok

lemma getD_of_sectionGives (type : RecordType) {decode : Decoder τ} {make : σ → τ} {a : Option σ}
    (hkeys : Decodes keys decode make) (h : SectionGives keys name (.table entries) a) :
    (fieldsOf type entries).getD name (Decode.optional decode) none = .ok (a.map make) := by
  cases h with
  | absent h => exact getD_of_keyGives type none (keyGives_none.mpr h)
  | present h h' =>
    refine getD_of_keyGives type (a := some (some (make _))) none (keyGives_some.mpr ⟨_, h, ?_⟩)
    rw [Decode.optional, hkeys h']
    · rfl
    · nofun

/-- A record of one field. -/
lemma decodes_one (surplus : Surplus) (type : RecordType) {decode : Decoder α} {make : α → τ}
    (d : α) {a : Option α} (h : KeyGives decode key (.table entries) a) :
    (fieldsOf type entries).finish surplus
      (((fieldsOf type entries).getD key decode d).map make) = .ok (make (a.getD d)) := by
  rw [getD_of_keyGives type d h]
  exact finish_ok surplus type _

lemma decodes_loading : Decodes (KeyGives ThreadCount.decode "threads")
    (LoadingSection.decode surplus) fun threads => ⟨threads.getD .auto⟩ :=
  fun h => decodes_one surplus LoadingSection.type ThreadCount.auto h

lemma decodes_build : Decodes (KeyGives ThreadCount.decode "jobs")
    (BuildSection.decode surplus) fun jobs => ⟨jobs.getD .auto⟩ :=
  fun h => decodes_one surplus BuildSection.type ThreadCount.auto h

lemma decodes_package : Decodes (KeyGives ThreadCount.decode "globbing_threads")
    (PackageSection.decode surplus) fun globbingThreads => ⟨globbingThreads.getD (.fixed 100)⟩ :=
  fun h => decodes_one surplus PackageSection.type (ThreadCount.fixed 100) h

lemma decodes_analysis : Decodes AnalysisGives (AnalysisSection.decode surplus) fun a =>
    ⟨a.cpuHeavyPoolSize.getD (.fixed 0), a.usePrioritization.getD false⟩ := by
  intro entries a h
  have hsize := getD_of_keyGives AnalysisSection.type (ThreadCount.fixed 0) h.size
  have hprioritize := getD_of_keyGives AnalysisSection.type false h.prioritize
  have hdecode : AnalysisSection.decode surplus (.table entries) =
      (fieldsOf AnalysisSection.type entries).finish surplus
        ((((fieldsOf AnalysisSection.type entries).getD "cpu_heavy_pool_size" ThreadCount.decode
          (.fixed 0)).map AnalysisSection.mk).apply
            ((fieldsOf AnalysisSection.type entries).getD "use_prioritization" Decode.bool
              false)) := rfl
  rw [hdecode, hsize, hprioritize]
  exact finish_ok surplus _ _

/-- **A document that gives settings is decoded to them, with the defaults for what they leave
open.** -/
theorem decode_of_gives {v : Value} {p : PartialConfig} (h : Gives v p) :
    Config.decode surplus v = .ok p.complete := by
  obtain ⟨⟨entries, rfl⟩, hloading, hbuild, hpackage, hanalysis⟩ := h
  have hdecode : Config.decode surplus (.table entries) =
      (fieldsOf Config.type entries).finish surplus
        ((((((fieldsOf Config.type entries).getD "loading"
            (Decode.optional (LoadingSection.decode surplus)) none).map Config.mk).apply
          ((fieldsOf Config.type entries).getD "build"
            (Decode.optional (BuildSection.decode surplus)) none)).apply
          ((fieldsOf Config.type entries).getD "package"
            (Decode.optional (PackageSection.decode surplus)) none)).apply
          ((fieldsOf Config.type entries).getD "analysis"
            (Decode.optional (AnalysisSection.decode surplus)) none)) := rfl
  rw [hdecode, getD_of_sectionGives _ decodes_loading hloading,
    getD_of_sectionGives _ decodes_build hbuild, getD_of_sectionGives _ decodes_package hpackage,
    getD_of_sectionGives _ decodes_analysis hanalysis]
  exact finish_ok surplus _ _

end PartialConfig

end PhaseExecutors
