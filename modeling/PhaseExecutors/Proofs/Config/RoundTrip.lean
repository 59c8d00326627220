import PhaseExecutors.Config.Validation
import PhaseExecutors.Proofs.Config.Sources
import PhaseExecutors.Proofs.Toml.Writing
import PhaseExecutors.Proofs.Value.JsonText

/-!
Configurations that are written and read.

A configuration is written as the sections that it has, each with all its keys, and a count in one
of two forms. Reading undoes this whatever becomes of the order of the sections and of the sign of
the counts on the way, as long as each count is read as the one that was written.
-/

namespace PhaseExecutors

lemma Toml.isExact_ofSections {sections : List Toml.Section}
    (h : ∀ v ∈ Toml.values sections, Json.IsExact v) : Json.IsExact (Toml.ofSections sections) := by
  refine .table (List.forall_mem_map.mpr fun s hs => .table ?_)
  exact Toml.forall_values.mp h s hs

namespace ThreadCount

variable {count : ThreadCount}

lemma sorted_toValue (count : ThreadCount) : Json.sorted count.toValue = count.toValue := by
  cases count <;> rfl

lemma isExact_toValue (count : ThreadCount) : Json.IsExact count.toValue := by
  cases count with
  | fixed n => exact .unsigned n
  | hostCpus factor minus => exact .text _

/-- A count cannot be written if it is fixed and too large. -/
lemma plain_toValue_eq_error {e : Toml.WriteError} : Toml.plain count.toValue = .error e ↔
    ∃ n, count = .fixed n ∧ Size.signedBound ≤ n.toNat ∧ e = .outOfRange n := by
  constructor
  · intro h
    cases count with
    | hostCpus factor minus => cases h
    | fixed n =>
      rw [toValue, Toml.plain] at h
      split at h
      · cases h
      · next hn =>
        cases h
        exact ⟨n, rfl, Nat.le_of_not_lt hn, rfl⟩
  · rintro ⟨n, rfl, hn, rfl⟩
    exact if_neg (Nat.not_lt.mpr hn)

end ThreadCount

namespace Config

open PartialConfig

variable {σ τ : Type} {c : Config} {f : ThreadCount → Value} {v : Value}

/-! ### Sections -/

/-- The row of a section, if it is present. -/
def row (name : String) (entries : σ → List (String × Value)) (s? : Option σ) :
    List Toml.Section :=
  (s?.map fun s => (name, entries s)).toList

section Entries

variable (f : ThreadCount → Value)

/-- The entries of a section, each count in the given form. -/
def loadingEntries (s : LoadingSection) : List (String × Value) := [("threads", f s.threads)]

def buildEntries (s : BuildSection) : List (String × Value) := [("jobs", f s.jobs)]

def packageEntries (s : PackageSection) : List (String × Value) :=
  [("globbing_threads", f s.globbingThreads)]

def analysisEntries (s : AnalysisSection) : List (String × Value) :=
  [("cpu_heavy_pool_size", f s.cpuHeavyPoolSize), ("use_prioritization", .bool s.usePrioritization)]

/-- The sections that are present, in the order in which they are written. -/
def rows (c : Config) : List Toml.Section :=
  row "loading" (loadingEntries f) c.loading ++ row "build" (buildEntries f) c.build ++
    row "package" (packageEntries f) c.package ++ row "analysis" (analysisEntries f) c.analysis

end Entries

lemma entry_eq_row (name : String) (entries : σ → List (String × Value)) (s? : Option σ) :
    entry name (fun s => .table (entries s)) s? =
      (row name entries s?).map fun s => (s.1, .table s.2) := by
  cases s? <;> rfl

lemma toValue_eq (c : Config) : c.toValue = Toml.ofSections (c.rows ThreadCount.toValue) := by
  simp only [Toml.ofSections, rows, List.map_append, ← entry_eq_row]
  rfl

lemma signedSections_row (name : String) (entries : σ → List (String × Value)) (s? : Option σ) :
    Toml.signedSections (row name entries s?) =
      row name (fun s => Toml.signedEntries (entries s)) s? := by
  cases s? <;> rfl

lemma signedSections_rows (c : Config) :
    Toml.signedSections (c.rows f) = c.rows fun count => Toml.signed (f count) := by
  have hrow := @signedSections_row
  unfold Toml.signedSections at hrow ⊢
  simp only [rows, List.map_append, hrow]
  rfl

lemma forall_mem_row {name : String} {entries : σ → List (String × Value)} {s? : Option σ}
    {p : Toml.Section → Prop} :
    (∀ x ∈ row name entries s?, p x) ↔ ∀ s ∈ s?, p (name, entries s) := by
  cases s? <;> simp [row]

lemma keys_row (name : String) (entries : σ → List (String × Value)) (s? : Option σ) :
    ((row name entries s?).map Prod.fst).Sublist [name] := by
  cases s? with
  | none => exact List.nil_sublist _
  | some s => exact List.Sublist.refl _

lemma forall_counts (p : ThreadCount → Prop) :
    (∀ e ∈ c.counts, p e.2) ↔ (∀ s ∈ c.loading, p s.threads) ∧ (∀ s ∈ c.build, p s.jobs) ∧
      (∀ s ∈ c.package, p s.globbingThreads) ∧ ∀ s ∈ c.analysis, p s.cpuHeavyPoolSize := by
  simp only [counts, neededCounts, List.forall_mem_append, Option.mem_toList,
    Option.map_eq_some_iff, Option.mem_def, forall_exists_index, and_imp,
    forall_apply_eq_imp_iff₂, and_assoc]

/-- The values of the sections are the counts and one truth value. -/
lemma forall_values_rows {p : Value → Prop} :
    (∀ v ∈ Toml.values (c.rows f), p v) ↔
      (∀ e ∈ c.counts, p (f e.2)) ∧ ∀ s ∈ c.analysis, p (.bool s.usePrioritization) := by
  rw [Toml.forall_values, forall_counts fun count => p (f count)]
  simp only [rows, List.forall_mem_append, forall_mem_row]
  simp only [loadingEntries, buildEntries, packageEntries, analysisEntries, List.forall_mem_cons]
  grind

lemma keys_rows (f : ThreadCount → Value) (c : Config) :
    ((c.rows f).map Prod.fst).Sublist ["loading", "build", "package", "analysis"] := by
  simp only [rows, List.map_append]
  exact (((keys_row _ _ _).append (keys_row _ _ _)).append (keys_row _ _ _)).append
    (keys_row _ _ _)

/-- The document is one that can be read back, if the form of the counts is one of it. -/
lemma isDocument_rows (h : ∀ e ∈ c.counts, Toml.IsPlain (f e.2)) :
    Toml.IsDocument (c.rows f) := by
  refine Toml.isDocument_of_sublist (keys_rows f c) (by decide) (by decide) ?_
  obtain ⟨hloading, hbuild, hpackage, hanalysis⟩ :=
    (forall_counts fun count => Toml.IsPlain (f count)).mp h
  simp only [rows, List.forall_mem_append, forall_mem_row]
  refine ⟨⟨⟨fun s hs => ?_, fun s hs => ?_⟩, fun s hs => ?_⟩, fun s hs => ?_⟩
  · exact Toml.isLines_singleton (by decide) (hloading s hs)
  · exact Toml.isLines_singleton (by decide) (hbuild s hs)
  · exact Toml.isLines_singleton (by decide) (hpackage s hs)
  · refine Toml.isLines_of_sublist
      (List.Sublist.refl ["cpu_heavy_pool_size", "use_prioritization"]) (by decide) (by decide) ?_
    exact List.forall_mem_cons.mpr ⟨hanalysis s hs, List.forall_mem_singleton.mpr (.bool _)⟩

/-! ### Documents -/

/-- A document has the sections of a configuration, in any order, each count in the given form. -/
structure Holds (v : Value) (f : ThreadCount → Value) (c : Config) : Prop where
  isTable : ∃ entries, v = .table entries
  loading : v.get? "loading" = c.loading.map fun s => .table (loadingEntries f s)
  build : v.get? "build" = c.build.map fun s => .table (buildEntries f s)
  package : v.get? "package" = c.package.map fun s => .table (packageEntries f s)
  analysis : v.get? "analysis" = c.analysis.map fun s => .table (analysisEntries f s)

lemma lookup?_row (name key : String) (entries : σ → List (String × Value)) (s? : Option σ) :
    Value.lookup? key ((row name entries s?).map fun s => (s.1, Value.table s.2)) =
      if name = key then s?.map fun s => .table (entries s) else none := by
  cases s? with
  | none => simp [row]
  | some s => rfl

lemma holds_rows (f : ThreadCount → Value) (c : Config) :
    Holds (Toml.ofSections (c.rows f)) f c := by
  refine ⟨⟨_, rfl⟩, ?_, ?_, ?_, ?_⟩
  all_goals
    change Value.lookup? _ ((c.rows f).map _) = _
    simp [rows, Value.lookup?_append, lookup?_row]

lemma get?_sorted_rows {name : String} {entries : σ → List (String × Value)} {s? : Option σ}
    (hdistinct : ((c.rows f).map Prod.fst).Nodup)
    (hrow : (Toml.ofSections (c.rows f)).get? name = s?.map fun s => .table (entries s))
    (hentries : ∀ s, Json.sorted (.table (entries s)) = .table (entries s)) :
    (Json.sorted (Toml.ofSections (c.rows f))).get? name =
      s?.map fun s => .table (entries s) := by
  have hkeys : (((c.rows f).map fun s => (s.1, Value.table s.2)).map Prod.fst).Nodup := by
    rwa [List.map_map]
  rw [Toml.ofSections, Json.get?_sorted hkeys, ← Toml.ofSections, hrow, Option.map_map]
  exact Option.map_congr fun s _ => hentries s

/-- Sorting moves sections only, if the keys in each ascend. -/
lemma holds_sorted (hf : ∀ count, Json.sorted (f count) = f count) (c : Config) :
    Holds (Json.sorted (Toml.ofSections (c.rows f))) f c := by
  have hrows := holds_rows f c
  have hdistinct : ((c.rows f).map Prod.fst).Nodup := (keys_rows f c).nodup (by decide)
  have hone : ∀ (key : String) (count : ThreadCount),
      Json.sorted (.table [(key, f count)]) = .table [(key, f count)] := fun key count =>
    Json.sorted_table (List.pairwise_singleton _ _) (List.forall_mem_singleton.mpr (hf count))
  have hkeys : "cpu_heavy_pool_size" < "use_prioritization" := by decide
  refine ⟨⟨_, rfl⟩, ?_, ?_, ?_, ?_⟩
  · exact get?_sorted_rows hdistinct hrows.loading fun s => hone _ _
  · exact get?_sorted_rows hdistinct hrows.build fun s => hone _ _
  · exact get?_sorted_rows hdistinct hrows.package fun s => hone _ _
  · exact get?_sorted_rows hdistinct hrows.analysis fun s =>
      Json.sorted_table (List.pairwise_pair.mpr hkeys)
        (List.forall_mem_cons.mpr ⟨hf _, List.forall_mem_singleton.mpr rfl⟩)

/-! ### What a document gives -/

/-- The settings of a configuration: every key of a section that is present is set. -/
def settings (c : Config) : PartialConfig where
  loading := c.loading.map fun s => some s.threads
  build := c.build.map fun s => some s.jobs
  package := c.package.map fun s => some s.globbingThreads
  analysis := c.analysis.map fun s => ⟨some s.cpuHeavyPoolSize, some s.usePrioritization⟩

lemma complete_settings (c : Config) : c.settings.complete = c := by
  obtain ⟨loading, build, package, analysis⟩ := c
  simp [settings, complete, Function.comp_def]

lemma sectionGives_map {name : String} {entries : σ → List (String × Value)} {s? : Option σ}
    {keys : Value → τ → Prop} {a : σ → τ} (hv : v.get? name = s?.map fun s => .table (entries s))
    (hkeys : ∀ s ∈ s?, keys (.table (entries s)) (a s)) : SectionGives keys name v (s?.map a) := by
  cases s? with
  | none => exact .absent hv
  | some s => exact .present hv (hkeys s rfl)

lemma Holds.gives (h : Holds v f c)
    (hf : ∀ e ∈ c.counts, ThreadCount.decode (f e.2) = .ok e.2) : Gives v c.settings := by
  obtain ⟨hloading, hbuild, hpackage, hanalysis⟩ :=
    (forall_counts fun count => ThreadCount.decode (f count) = .ok count).mp hf
  refine ⟨h.isTable, ?_, ?_, ?_, ?_⟩
  · exact sectionGives_map h.loading fun s hs => keyGives_some.mpr ⟨_, rfl, hloading s hs⟩
  · exact sectionGives_map h.build fun s hs => keyGives_some.mpr ⟨_, rfl, hbuild s hs⟩
  · exact sectionGives_map h.package fun s hs => keyGives_some.mpr ⟨_, rfl, hpackage s hs⟩
  · exact sectionGives_map h.analysis fun s hs =>
      ⟨keyGives_some.mpr ⟨_, rfl, hanalysis s hs⟩, keyGives_some.mpr ⟨_, rfl, rfl⟩⟩

/-- A document is read as the configuration whose sections it has. -/
lemma Holds.decode (h : Holds v f c)
    (hf : ∀ e ∈ c.counts, ThreadCount.decode (f e.2) = .ok e.2) (surplus : Surplus) :
    Config.decode surplus v = .ok c := by
  rw [decode_of_gives (h.gives hf), complete_settings]

/-! ### Round trips -/

/-- The counts of a configuration can be expressed as texts. -/
def IsExpressible (c : Config) : Prop := ∀ e ∈ c.counts, e.2.Expressible

/-- A fixed count of the configuration is too large for a signed word. -/
def ExceedsSigned (c : Config) (n : Size) : Prop :=
  .fixed n ∈ c.counts.map Prod.snd ∧ Size.signedBound ≤ n.toNat

/-- What becomes of a configuration that is written and read. -/
structure RoundTrips (c : Config) : Prop where
  /-- Its value has the sections that are present, and each of them has all its keys. -/
  sections : Holds c.toValue ThreadCount.toValue c
  /-- If its counts can be expressed, it is read back from its value, -/
  value : c.IsExpressible → ∀ surplus, Config.decode surplus c.toValue = .ok c
  /-- from the text of its value on one line, -/
  json : c.IsExpressible → ∃ v, Json.read? (Json.compact c.toValue) = some v ∧
    ∀ surplus, Config.decode surplus v = .ok c
  /-- and, if no fixed count is too large, from the text in sections. -/
  toml : c.IsExpressible → (∀ n, ¬c.ExceedsSigned n) →
    ∃ text v, Toml.write c.toValue = .ok text ∧ Toml.readDated? text = some v ∧
      ∀ surplus, Config.decode surplus v = .ok c
  /-- A fixed count that is too large makes that text impossible, -/
  tooLarge : ∀ n, c.ExceedsSigned n → ∃ e, Toml.write c.toValue = .error e
  /-- and nothing else does. -/
  cause : ∀ e, Toml.write c.toValue = .error e → ∃ n, c.ExceedsSigned n ∧ e = .outOfRange n

lemma exists_text_of_isExpressible (h : c.IsExpressible) :
    ∃ v, Json.read? (Json.compact c.toValue) = some v ∧
      ∀ surplus, Config.decode surplus v = .ok c := by
  have hexact : Json.IsExact (Toml.ofSections (c.rows ThreadCount.toValue)) :=
    Toml.isExact_ofSections <| forall_values_rows.mpr
      ⟨fun e _ => e.2.isExact_toValue, fun s _ => .bool _⟩
  have hholds := holds_sorted ThreadCount.sorted_toValue c
  rw [toValue_eq]
  exact ⟨_, Json.isFaithful_compact.readsBack hexact,
    hholds.decode fun e he => ThreadCount.decode_toValue (h e he)⟩

lemma exists_sections_of_isExpressible (h : c.IsExpressible) (hsigned : ∀ n, ¬c.ExceedsSigned n) :
    ∃ text v, Toml.write c.toValue = .ok text ∧ Toml.readDated? text = some v ∧
      ∀ surplus, Config.decode surplus v = .ok c := by
  have hcounts : ∀ e ∈ c.counts, e.2.IsSigned := by
    intro e he n hcount
    exact Nat.lt_of_not_le fun hn => hsigned n ⟨hcount ▸ List.mem_map_of_mem he, hn⟩
  have hwritable : ∀ v ∈ Toml.values (c.rows ThreadCount.toValue), Toml.IsWritable v :=
    forall_values_rows.mpr
      ⟨fun e he => (hcounts e he).isWritable, fun s _ => .bool _⟩
  have hdocument : Toml.IsDocument (Toml.signedSections (c.rows ThreadCount.toValue)) := by
    rw [signedSections_rows]
    exact isDocument_rows fun e he => (hcounts e he).isWritable.isPlain
  obtain ⟨text, hwrite, hread⟩ := Toml.isFaithful_readDated?.readsBack_signed hdocument hwritable
  rw [signedSections_rows] at hread
  rw [toValue_eq]
  exact ⟨text, _, hwrite, hread, (holds_rows _ c).decode fun e he =>
    (hcounts e he).decode_signed (h e he)⟩

lemma exists_error_of_exceedsSigned {n : Size} (h : c.ExceedsSigned n) :
    ∃ e, Toml.write c.toValue = .error e := by
  have hgathers := Toml.isFaithful_readDated?.fails (c.rows ThreadCount.toValue)
  rw [← toValue_eq] at hgathers
  cases hwrite : Toml.write c.toValue with
  | error e => exact ⟨e, rfl⟩
  | ok text =>
    rw [hwrite] at hgathers
    cases hgathers with
    | ok hall =>
      obtain ⟨entry, hentry, hcount⟩ := List.mem_map.mp h.1
      have hvalue : entry.2.toValue ∈ Toml.values (c.rows ThreadCount.toValue) :=
        (forall_values_rows.mp fun _ hv => hv).1 entry hentry
      obtain ⟨text, htext⟩ := hall _ (List.mem_map_of_mem hvalue)
      rw [ThreadCount.plain_toValue_eq_error.mpr ⟨n, hcount, h.2, rfl⟩] at htext
      cases htext

lemma exists_exceedsSigned_of_error {e : Toml.WriteError} (h : Toml.write c.toValue = .error e) :
    ∃ n, c.ExceedsSigned n ∧ e = .outOfRange n := by
  have hgathers := Toml.isFaithful_readDated?.fails (c.rows ThreadCount.toValue)
  rw [← toValue_eq, h] at hgathers
  cases hgathers with
  | error hmem =>
    obtain ⟨v, hv, hplain⟩ := List.mem_map.mp hmem
    revert v
    refine forall_values_rows.mpr ⟨fun entry hentry hplain => ?_, nofun⟩
    obtain ⟨n, hcount, hn, rfl⟩ := ThreadCount.plain_toValue_eq_error.mp hplain
    exact ⟨n, ⟨hcount ▸ List.mem_map_of_mem hentry, hn⟩, rfl⟩

/-- **A configuration is read back as it was written.** A section that is absent stays absent, and
one that is present stays present, also with nothing but defaults in it. -/
theorem roundTrips (c : Config) : c.RoundTrips := by
  have hsections : Holds c.toValue ThreadCount.toValue c := by
    rw [toValue_eq]
    exact holds_rows ThreadCount.toValue c
  exact {
    sections := hsections
    value := fun h => hsections.decode fun e he => ThreadCount.decode_toValue (h e he)
    json := exists_text_of_isExpressible
    toml := exists_sections_of_isExpressible
    tooLarge := fun _ => exists_error_of_exceedsSigned
    cause := fun _ => exists_exceedsSigned_of_error }

/-- Sections of defaults are read back, and a count of 2 ^ 63 is not written. -/
theorem roundTrips_of_defaults :
    (∃ text v, Toml.write (toValue ⟨some {}, none, some {}, some {}⟩) = .ok text ∧
      Toml.readDated? text = some v ∧
        ∀ surplus, decode surplus v = .ok ⟨some {}, none, some {}, some {}⟩) ∧
      ∃ e, Toml.write (toValue ⟨none, some ⟨.fixed 0x8000000000000000⟩, none, none⟩) =
        .error e := by
  have hcounts : IsExpressible ⟨some {}, none, some {}, some {}⟩ := by
    refine (forall_counts ThreadCount.Expressible).mpr ⟨?_, nofun, ?_, ?_⟩
    · rintro s ⟨⟩
      exact ⟨by decide, Or.inl rfl⟩
    · rintro s ⟨⟩
      exact trivial
    · rintro s ⟨⟩
      exact trivial
  have hsmall : ∀ n : Size, .fixed n ∈ [ThreadCount.auto, .fixed 100, .fixed 0] →
      n.toNat < Size.signedBound := by
    intro n hn
    have hcases : n = 100 ∨ n = 0 := by simpa [ThreadCount.auto] using hn
    rcases hcases with rfl | rfl <;> decide
  exact ⟨(roundTrips ⟨some {}, none, some {}, some {}⟩).toml hcounts
      fun n hn => Nat.not_le.mpr (hsmall n hn.1) hn.2,
    (roundTrips ⟨none, some ⟨.fixed 0x8000000000000000⟩, none, none⟩).tooLarge _
      ⟨List.mem_cons_self, by decide⟩⟩

end Config

end PhaseExecutors
