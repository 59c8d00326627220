import PhaseExecutors.Proofs.Config.Sources

/-!
Overrides are written without loss, or not at all.

A fixed count that is too large has no text, and the first one is named. Any other overrides have a
text that is read as the document of exactly the overridden keys, so a load gives their
configuration if each count is one that a text can express. The text of another count stands in the
document all the same; it still stands there in the merged layer, and since no document is read
with a bad text under the key of a count, the load fails.
-/

namespace PhaseExecutors

open PartialConfig

/-! ### Documents that are read -/

section Reading

variable {α β : Type} {decode : Decoder α} {key : String} {entries : List (String × Value)}
  {surplus : Surplus} {type : RecordType}

/-- The part has no fault. -/
def Part.IsRead (p : Part α) : Prop := ∃ a, p = .ok a

lemma Part.isRead_ok (a : α) : Part.IsRead (.ok a) := ⟨a, rfl⟩

lemma Part.not_isRead_error (e : ℕ × DecodeError) : ¬Part.IsRead (.error e : Part α) := by
  rintro ⟨a, h⟩
  cases h

lemma Part.isRead_map {f : α → β} {p : Part α} : (p.map f).IsRead ↔ p.IsRead := by
  cases p with
  | error e => exact iff_of_false (not_isRead_error e) (not_isRead_error e)
  | ok a => exact iff_of_true (isRead_ok (f a)) (isRead_ok a)

lemma Part.isRead_apply {f : Part (α → β)} {p : Part α} :
    (f.apply p).IsRead ↔ f.IsRead ∧ p.IsRead := by
  cases f with
  | error e =>
    refine iff_of_false ?_ fun h => not_isRead_error e h.1
    cases p with
    | ok a => exact not_isRead_error e
    | error e' =>
      -- the fault that is read first remains
      by_cases hfirst : e.1 ≤ e'.1
      · rw [Part.apply_error_of_le hfirst]
        exact not_isRead_error e
      · rw [Part.apply_error_of_not_le hfirst]
        exact not_isRead_error e'
  | ok g =>
    cases p with
    | error e => exact iff_of_false (not_isRead_error e) fun h => not_isRead_error e h.2
    | ok a => exact iff_of_true (isRead_ok (g a)) ⟨isRead_ok g, isRead_ok a⟩

/-- A value of the type of the decoder. -/
def Accepts (decode : Decoder α) (v : Value) : Prop := ∃ a, decode v = .ok a

lemma isRead_decodeAt {place : ℕ} {given : Given} :
    (Fields.decodeAt decode place given).IsRead ↔ Accepts decode given.value := by
  rw [Fields.decodeAt, Accepts]
  cases decode given.value with
  | error e => exact iff_of_false (Part.not_isRead_error _) (by simp)
  | ok a => exact iff_of_true (Part.isRead_ok a) ⟨a, rfl⟩

lemma isRead_getD {d : α} : ((fieldsOf type entries).getD key decode d).IsRead ↔
    ∀ v, Value.lookup? key entries = some v → Accepts decode v := by
  have hfind := find?_fieldsOf type key entries
  rw [Fields.getD, Part.isRead_map, Fields.get?, ← hfind]
  cases (fieldsOf type entries).find? key with
  | none => exact iff_of_true (Part.isRead_ok none) (by simp)
  | some found =>
    obtain ⟨place, given⟩ := found
    rw [Part.isRead_map, isRead_decodeAt]
    simp only [Option.map_some, Option.some.injEq, forall_eq']

lemma isRead_of_finish {p : Part α} {a : α}
    (h : (fieldsOf type entries).finish surplus p = .ok a) : p.IsRead := by
  cases p with
  | error e => cases h
  | ok a => exact ⟨a, rfl⟩

/-- A section is a table, so it is no missing one. -/
lemma accepts_optional : Accepts (Decode.optional decode) (.table entries) ↔
    Accepts decode (.table entries) := by
  have hoptional : Decode.optional decode (.table entries) = (decode (.table entries)).map some :=
    rfl
  rw [Accepts, hoptional, Accepts]
  cases decode (.table entries) with
  | error e => exact iff_of_false (by simp [Except.map]) (by simp)
  | ok a => exact iff_of_true ⟨some a, rfl⟩ ⟨a, rfl⟩

/-- What a document that is read has under the key of a count is a count. -/
lemma accepts_of_decode {c : Config} {k : CountKey} {parts : List (String × Value)} {v : Value}
    (h : Config.decode surplus (.table entries) = .ok c)
    (hsection : Value.lookup? k.sectionName entries = some (.table parts))
    (hkey : Value.lookup? k.name parts = some v) : Accepts ThreadCount.decode v := by
  have hread := isRead_of_finish h
  simp only [Part.isRead_apply, Part.isRead_map, and_assoc] at hread
  obtain ⟨hloading, hbuild, hpackage, hanalysis⟩ := hread
  cases k with
  | threads =>
    obtain ⟨s, hs⟩ := accepts_optional.mp (isRead_getD.mp hloading _ hsection)
    exact isRead_getD.mp (Part.isRead_map.mp (isRead_of_finish hs)) v hkey
  | jobs =>
    obtain ⟨s, hs⟩ := accepts_optional.mp (isRead_getD.mp hbuild _ hsection)
    exact isRead_getD.mp (Part.isRead_map.mp (isRead_of_finish hs)) v hkey
  | globbingThreads =>
    obtain ⟨s, hs⟩ := accepts_optional.mp (isRead_getD.mp hpackage _ hsection)
    exact isRead_getD.mp (Part.isRead_map.mp (isRead_of_finish hs)) v hkey
  | cpuHeavyPoolSize =>
    obtain ⟨s, hs⟩ := accepts_optional.mp (isRead_getD.mp hanalysis _ hsection)
    have hsize := (Part.isRead_apply.mp (isRead_of_finish hs)).1
    exact isRead_getD.mp (Part.isRead_map.mp hsize) v hkey

end Reading

/-! ### Texts under the keys of counts -/

/-- A document has the text under the key. -/
def HasText (k : CountKey) (v : Value) (text : String) : Prop :=
  SectionGives (KeyGives Decode.text k.name) k.sectionName v (some (some text))

section HasText

variable {k : CountKey} {v : Value} {text : String} {surplus : Surplus}

lemma isScalar_text : IsScalar Decode.text := fun _ _ h => nomatch h

/-- The text stands in the layer of the document as well, also if it is merged. -/
lemma HasText.mergeAll (h : HasText k v text) (origin : Origin) :
    HasText k (Layer.mergeAll [.ofValue origin v]).toValue text := by
  have hkept : Kept (SectionGives (KeyGives Decode.text k.name) k.sectionName) :=
    kept_section (kept_key isScalar_text)
  have hmerges : Merges Layer.merge (SectionGives (KeyGives Decode.text k.name) k.sectionName)
      (Option.merge Option.or) :=
    merges_section Layer.isMerge_merge (merges_key Layer.isMerge_merge isScalar_text)
  cases v with
  | table entries =>
    exact hmerges (.empty .overrides) (Layer.wellFormed_ofValue origin (.table entries))
      (.absent rfl) (hkept origin entries _ h)
  | _ => nomatch h

lemma eq_of_text {s : String} (h : Decode.text v = .ok s) : v = .text s := by
  cases v with
  | text s' =>
    cases h
    rfl
  | _ => cases h

lemma exists_read_of_accepts (h : Accepts ThreadCount.decode (.text text)) :
    ∃ count, ThreadCount.read text = .ok count := by
  obtain ⟨count, hcount⟩ := h
  rw [ThreadCount.decode] at hcount
  cases hread : ThreadCount.read text with
  | ok count => exact ⟨count, rfl⟩
  | error e =>
    rw [hread] at hcount
    cases hcount

/-- A document is not read if the text is none of a count. -/
lemma HasText.exists_read {c : Config} (h : HasText k v text)
    (hdecode : Config.decode surplus v = .ok c) : ∃ count, ThreadCount.read text = .ok count := by
  cases h with
  | present hsection hkey =>
    obtain ⟨w, hw, htext⟩ := keyGives_some.mp hkey
    rw [eq_of_text htext] at hw
    cases v with
    | table entries => exact exists_read_of_accepts (accepts_of_decode hdecode hsection hw)
    | _ => cases hsection

end HasText

/-! ### What becomes of overrides -/

namespace Overrides

variable {o : Overrides} {k : CountKey} {count : ThreadCount} {n : Size} {e : OverrideTooLarge}

/-- The configuration of the overrides alone: a section is there if one of its keys is. -/
def config (o : Overrides) : Config where
  loading := o.loadingPhaseThreads.map fun threads => ⟨threads⟩
  build := o.jobs.map fun jobs => ⟨jobs⟩
  package := o.globbingThreads.map fun globbingThreads => ⟨globbingThreads⟩
  analysis :=
    let default : AnalysisSection := {}
    if o.cpuHeavyPoolSize.isSome ∨ o.usePrioritization.isSome then
      some ⟨o.cpuHeavyPoolSize.getD default.cpuHeavyPoolSize,
        o.usePrioritization.getD default.usePrioritization⟩
    else none

lemma complete_settings (o : Overrides) : o.settings.complete = o.config := by
  obtain ⟨threads, jobs, globbing, size, prioritize⟩ := o
  rcases size with _ | count <;> rcases prioritize with _ | b <;>
    simp [settings, complete, config, Function.comp_def]

lemma not_isEmpty (h : o.count? k = some count) : ¬o.isEmpty = true := by
  intro hempty
  obtain rfl : o = {} := eq_of_beq hempty
  cases k <;> cases h

/-- Writing fails as the first count that is too large. -/
lemma toToml_eq_error_iff : o.toToml = .error e ↔ CountKey.all.findSome? o.tooLarge? = some e := by
  rw [toToml, document_eq]
  cases CountKey.all.findSome? o.tooLarge? with
  | none => exact iff_of_false (by rintro ⟨⟩) (by simp)
  | some e' =>
    rw [Option.some.injEq]
    exact (Except.error.injEq e' e).to_iff

/-- The first count that is too large, with what stands before it. -/
lemma exists_exceeds_of_error (h : o.toToml = .error e) :
    ∃ k n pre post, CountKey.all = pre ++ k :: post ∧
      (∀ k' ∈ pre, ∀ n', ¬o.Exceeds k' n') ∧ o.Exceeds k n ∧ e = ⟨k.path, n⟩ := by
  rw [toToml_eq_error_iff, List.findSome?_eq_some_iff] at h
  obtain ⟨pre, k, post, hall, hk, hpre⟩ := h
  obtain ⟨n, hn, he⟩ := tooLarge?_eq_some_iff.mp hk
  exact ⟨k, n, pre, post, hall, fun k' hk' => tooLarge?_eq_none_iff.mp (hpre k' hk'), hn, he⟩

lemma exists_error_of_exceeds (h : o.Exceeds k n) : ∃ e, o.toToml = .error e := by
  have hk : (o.tooLarge? k).isSome := Option.isSome_iff_exists.mpr
    ⟨_, tooLarge?_eq_some_iff.mpr ⟨n, h, rfl⟩⟩
  have hsome := List.findSome?_isSome_iff.mpr ⟨k, k.mem_all, hk⟩
  obtain ⟨e, he⟩ := Option.isSome_iff_exists.mp hsome
  exact ⟨e, toToml_eq_error_iff.mpr he⟩

/-! #### The load -/

lemma loadOverrides_of_error (h : o.toToml = .error e) :
    Config.loadOverrides o = .error (.tooLarge e) := by
  obtain ⟨k, n, -, -, -, -, hn, -⟩ := exists_exceeds_of_error h
  have hlayers : o.layers = .error (.tooLarge e) := by
    rw [layers, if_neg (not_isEmpty hn.1), h]
  rw [Config.loadOverrides, Config.assemble, hlayers]
  rfl

lemma loadOverrides_of_layers {layers : List Layer} (h : o.layers = .ok layers) :
    Config.loadOverrides o = Config.ofLayers layers := by
  rw [Config.loadOverrides, Config.assemble, h]
  rfl

lemma loadOverrides_of_expressible (h : ∀ count ∈ o.counts, count.IsSigned)
    (hcounts : ∀ count ∈ o.counts, count.Expressible) :
    Config.loadOverrides o = .ok o.config := by
  obtain ⟨layers, hlayers, hstacks⟩ := exists_layers (o := o) fun count hcount =>
    ⟨h count hcount, ThreadCount.read_toText_of_expressible (hcounts count hcount)⟩
  rw [loadOverrides_of_layers hlayers, Config.ofLayers_of_stacks hstacks, List.foldr_cons,
    List.foldr_nil, onto_empty, complete_settings]

/-- The entry of its count comes first in a section. -/
lemma exists_sectionEntries (h : o.count? k = some count) :
    ∃ rest, o.sectionEntries k = (k.name, Toml.signed count.toValue) :: rest := by
  have hentries : o.countEntries k = [(k.name, Toml.signed count.toValue)] := by
    rw [countEntries, h]
    rfl
  cases k with
  | threads | jobs | globbingThreads => exact ⟨[], hentries⟩
  | cpuHeavyPoolSize => exact ⟨o.switchEntry, by rw [sectionEntries, hentries]; rfl⟩

/-- A count that no text can express is written as a text all the same. -/
lemma hasText_sections (h : o.count? k = some count) (hcount : ¬count.Expressible) :
    HasText k (Toml.ofSections o.sections) count.toText := by
  obtain ⟨rest, hrest⟩ := exists_sectionEntries h
  have hget := o.get?_sections k
  rw [hrest] at hget
  refine .present hget (keyGives_some.mpr ⟨_, if_pos rfl, ?_⟩)
  cases count with
  | fixed n => exact absurd trivial hcount
  | hostCpus factor minus => rfl

lemma exists_badValue (h : ∀ count ∈ o.counts, count.IsSigned) (hk : o.count? k = some count)
    (hcount : ¬count.Expressible) : ∃ e, Config.loadOverrides o = .error (.badValue e) := by
  have hlayers := layers_of_isSigned (not_isEmpty hk) h
  have htext := (hasText_sections hk hcount).mergeAll .overrides
  rw [loadOverrides_of_layers hlayers, Config.ofLayers]
  cases hdecode : Config.decode .ignored
      (Layer.mergeAll [.ofValue .overrides (Toml.ofSections o.sections)]).toValue with
  | error e => exact ⟨_, rfl⟩
  | ok c =>
    obtain ⟨other, hread⟩ := htext.exists_read hdecode
    obtain ⟨e, herror⟩ := ThreadCount.exists_error_of_not_expressible hcount
    rw [herror] at hread
    cases hread

/-- What becomes of overrides that are written out and loaded. -/
structure Lossless (o : Overrides) : Prop where
  /-- They cannot be written exactly if a fixed count is too large for a signed word. -/
  refused : (∃ e, o.toToml = .error e) ↔ ∃ k n, o.Exceeds k n
  /-- The message then names the first such key and its count, -/
  named : ∀ e, o.toToml = .error e → ∃ k n pre post, CountKey.all = pre ++ k :: post ∧
    (∀ k' ∈ pre, ∀ n', ¬o.Exceeds k' n') ∧ o.Exceeds k n ∧
      e.message = s!"override {k.path} = {n.toNat} is too large"
  /-- and a load fails with it. -/
  unloaded : ∀ e, o.toToml = .error e → Config.loadOverrides o = .error (.tooLarge e)
  /-- Otherwise, if texts can express all counts, a load gives what is overridden and no more. -/
  loaded : (∀ k n, ¬o.Exceeds k n) → (∀ k count, o.count? k = some count → count.Expressible) →
    Config.loadOverrides o = .ok o.config
  /-- With any other count a load fails, whatever else is overridden. -/
  unread : ∀ k count, o.count? k = some count → ¬count.Expressible →
    ∃ e, Config.loadOverrides o = .error e

/-- **Overrides are loaded as they are, or the load fails.** -/
theorem lossless (o : Overrides) : o.Lossless := by
  have hrefused : (∃ e, o.toToml = .error e) ↔ ∃ k n, o.Exceeds k n := by
    constructor
    · rintro ⟨e, h⟩
      obtain ⟨k, n, -, -, -, -, hn, -⟩ := exists_exceeds_of_error h
      exact ⟨k, n, hn⟩
    · rintro ⟨k, n, hn⟩
      exact exists_error_of_exceeds hn
  refine ⟨hrefused, fun e h => ?_, fun e h => loadOverrides_of_error h, fun hfits hcounts => ?_,
    fun k count hk hcount => ?_⟩
  · obtain ⟨k, n, pre, post, hall, hpre, hn, rfl⟩ := exists_exceeds_of_error h
    exact ⟨k, n, pre, post, hall, hpre, hn, rfl⟩
  · refine loadOverrides_of_expressible (isSigned_iff.mpr hfits) fun count hcount => ?_
    obtain ⟨k, hk⟩ := mem_counts.mp hcount
    exact hcounts k count hk
  · by_cases hfits : ∀ k n, ¬o.Exceeds k n
    · obtain ⟨e, he⟩ := exists_badValue (isSigned_iff.mpr hfits) hk hcount
      exact ⟨_, he⟩
    · -- a count that is too large is met before anything is read
      push Not at hfits
      obtain ⟨e, he⟩ := hrefused.mpr hfits
      exact ⟨_, loadOverrides_of_error he⟩

/-- Of two counts that are too large the message names the first. -/
example :
    (toToml
      { loadingPhaseThreads := some (.fixed 0x7fffffffffffffff)
        jobs := some (.fixed 0x8000000000000000)
        cpuHeavyPoolSize := some (.fixed Size.top) }).mapError OverrideTooLarge.message =
      .error "override build.jobs = 9223372036854775808 is too large" := by decide +kernel

end Overrides

end PhaseExecutors
