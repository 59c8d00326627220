import Mathlib.Data.List.Nodup
import Mathlib.Data.List.ReduceOption
import PhaseExecutors.Config.Loader
import PhaseExecutors.Proofs.Config.CountText
import PhaseExecutors.Proofs.Config.Partial
import PhaseExecutors.Proofs.Config.VariableText
import PhaseExecutors.Proofs.Toml.Writing

/-!
What each source of a configuration sets.

Each source becomes a row of layers, and a row of layers puts its settings on top of whatever is
below: a file is one layer, the environment one for every variable, and the overrides are written
out as a document and read again before they are a layer.
-/

namespace PhaseExecutors

open Layer (WellFormed)

/-! ### Rows of layers -/

namespace PartialConfig

variable {p q : PartialConfig} {layer lower upper : Layer} {layers : List Layer}
  {ps : List PartialConfig} {v : Value}

/-- A layer gives the settings. -/
structure LayerGives (layer : Layer) (p : PartialConfig) : Prop where
  wellFormed : layer.WellFormed
  gives : Gives layer.toValue p

lemma gives_empty : Gives (.table []) {} :=
  ⟨⟨[], rfl⟩, .absent rfl, .absent rfl, .absent rfl, .absent rfl⟩

lemma layerGives_ofValue (origin : Origin) (h : Gives v p) : LayerGives (.ofValue origin v) p := by
  refine ⟨Layer.wellFormed_ofValue origin v, ?_⟩
  obtain ⟨⟨entries, rfl⟩, htable⟩ := h
  exact ⟨⟨_, rfl⟩, kept_table origin entries p htable⟩

lemma layerGives_merge {m : Layer → Layer → Layer} (hm : Layer.IsMerge m)
    (hlower : LayerGives lower p) (hupper : LayerGives upper q) :
    LayerGives (m lower upper) (q.onto p) := by
  refine ⟨hm.wellFormed hlower.wellFormed hupper.wellFormed, ?_⟩
  obtain ⟨hlower, ⟨below, hbelow⟩, hp⟩ := hlower
  obtain ⟨hupper, ⟨above, habove⟩, hq⟩ := hupper
  cases hlower with
  | leaf h => exact absurd hbelow (h below)
  | table hsorted hall =>
    cases hupper with
    | leaf h => exact absurd habove (h above)
    | table hsorted' hall' =>
      have hgives := merges_table hm (.table hsorted hall) (.table hsorted' hall') hp hq
      obtain ⟨entries, heq, -⟩ := hm.joins (.table hsorted hall) (.table hsorted' hall')
      rw [heq] at hgives ⊢
      exact ⟨⟨_, rfl⟩, hgives⟩

lemma empty_onto (p : PartialConfig) : ({} : PartialConfig).onto p = p := by
  simp [onto]

lemma onto_empty (p : PartialConfig) : p.onto {} = p := by
  simp [onto]

lemma onto_assoc (p q r : PartialConfig) : (p.onto q).onto r = p.onto (q.onto r) := by
  have hor : Std.Associative (Option.or (α := ThreadCount)) := ⟨fun _ _ _ => Option.or_assoc⟩
  have honto : Std.Associative PartialAnalysis.onto :=
    ⟨fun a b c => by simp only [PartialAnalysis.onto, Option.or_assoc]⟩
  have hkey := (Option.associative_merge (Option.or (α := ThreadCount))).assoc
  have hanalysis := (Option.associative_merge PartialAnalysis.onto).assoc
  simp only [onto, hkey, hanalysis]

lemma foldr_onto (ps : List PartialConfig) (p : PartialConfig) :
    (ps.foldr onto {}).onto p = ps.foldr onto p := by
  induction ps with
  | nil => exact empty_onto p
  | cons q ps ih => rw [List.foldr_cons, onto_assoc, ih, List.foldr_cons]

/-- On top of any layer, the layers give the settings on top of what it gives. The lowest layer
comes first, and the highest settings. -/
def Stacks (layers : List Layer) (ps : List PartialConfig) : Prop :=
  ∀ base p, LayerGives base p → LayerGives (layers.foldl Layer.merge base) (ps.foldr onto p)

lemma stacks_nil : Stacks [] [] := fun _ _ h => h

/-- A source that is missing sets nothing. -/
lemma stacks_missing : Stacks [] [{}] := fun _ p h => by
  rwa [List.foldr_cons, List.foldr_nil, empty_onto]

lemma stacks_one (h : LayerGives layer p) : Stacks [layer] [p] :=
  fun _ _ hbase => layerGives_merge Layer.isMerge_merge hbase h

lemma Stacks.append {layers' : List Layer} {ps' : List PartialConfig} (h : Stacks layers ps)
    (h' : Stacks layers' ps') : Stacks (layers ++ layers') (ps' ++ ps) := by
  intro base p hbase
  rw [List.foldl_append, List.foldr_append]
  exact h' _ _ (h base p hbase)

/-- A row may be merged before it comes on top of what is below. -/
lemma Stacks.merged (h : Stacks layers ps) (origin : Origin) :
    Stacks [layers.foldl Layer.merge (.table origin [])] ps := by
  intro base p hbase
  have hrow := h (.table origin []) {} ⟨WellFormed.empty origin, gives_empty⟩
  have hmerged := layerGives_merge Layer.isMerge_merge hbase hrow
  rwa [foldr_onto] at hmerged

end PartialConfig

open PartialConfig

/-! ### Files -/

namespace Site

variable {s : Site} {path : String} {p : PartialConfig}

/-- What a file sets that is looked for at a path: nothing if it is not found, otherwise what its
document gives. -/
inductive FileGives (s : Site) (path : String) : PartialConfig → Prop
  | missing (h : s.findFile? path = none) : FileGives s path {}
  | found {place content v p} (h : s.findFile? path = some (place, content))
    (hread : Toml.read? content = some v) (hgives : Gives v p) : FileGives s path p

lemma exists_fileLayer (h : s.FileGives path p) :
    ∃ layers, s.fileLayer path = .ok layers ∧ Stacks layers [p] := by
  cases h with
  | missing h => exact ⟨[], by rw [fileLayer, h], stacks_missing⟩
  | @found place content v _ h hread hgives =>
    refine ⟨[.ofValue (.file (PathText.shown s.directory place)) v], ?_,
      stacks_one (layerGives_ofValue _ hgives)⟩
    simp only [fileLayer, h, hread]

/-- Files that are found below others. -/
lemma fileLayers_append {paths paths' : List String} {layers layers' : List Layer}
    (h : s.fileLayers paths = .ok layers) (h' : s.fileLayers paths' = .ok layers') :
    s.fileLayers (paths ++ paths') = .ok (layers ++ layers') := by
  induction paths generalizing layers with
  | nil =>
    cases h
    exact h'
  | cons path paths ih =>
    rw [fileLayers] at h
    rw [List.cons_append, fileLayers]
    cases hfile : s.fileLayer path with
    | error e =>
      rw [hfile] at h
      cases h
    | ok first =>
      rw [hfile] at h
      cases hrest : s.fileLayers paths with
      | error e =>
        rw [hrest] at h
        cases h
      | ok rest =>
        rw [hrest] at h
        cases h
        rw [ih hrest, List.append_assoc]
        rfl

lemma exists_fileLayers_singleton (h : s.FileGives path p) :
    ∃ layers, s.fileLayers [path] = .ok layers ∧ Stacks layers [p] := by
  obtain ⟨layers, hlayers, hstacks⟩ := exists_fileLayer h
  refine ⟨layers, ?_, hstacks⟩
  rw [fileLayers, hlayers, fileLayers]
  exact congrArg Except.ok (List.append_nil layers)

end Site

/-! ### The environment -/

namespace EnvironmentLayer

variable {entries : List (String × String)} {ps : List PartialConfig}

/-- The variables whose names spell keys. -/
def ofInterest (entries : List (String × String)) : List (String × String) :=
  entries.filter fun e => (keysOf? e.1).isSome

/-- What a variable sets at the keys that its name spells. -/
def VariableGives (e : String × String) (p : PartialConfig) : Prop :=
  ∃ keys, keysOf? e.1 = some keys ∧ Gives (nest (valueOf e.2) keys) p

lemma filterMap_ofInterest (entries : List (String × String)) :
    entries.filterMap (fun e => ofVariable? e.1 e.2) =
      (ofInterest entries).filterMap fun e => ofVariable? e.1 e.2 := by
  unfold ofInterest
  induction entries with
  | nil => rfl
  | cons e entries ih =>
    cases hkeys : keysOf? e.1 with
    | none =>
      rw [List.filter_cons_of_neg (by simp [hkeys]),
        List.filterMap_cons_none (by rw [ofVariable?, hkeys, Option.map_none]), ih]
    | some keys =>
      rw [List.filter_cons_of_pos (by simp [hkeys]), List.filterMap_cons, List.filterMap_cons, ih]

lemma stacks_filterMap (h : List.Forall₂ VariableGives entries ps) :
    Stacks (entries.filterMap fun e => ofVariable? e.1 e.2) ps.reverse := by
  induction h with
  | nil => exact stacks_nil
  | @cons e p entries ps he _ ih =>
    obtain ⟨keys, hkeys, hgives⟩ := he
    rw [List.reverse_cons, List.filterMap_cons_some (by rw [ofVariable?, hkeys, Option.map_some])]
    exact (stacks_one (layerGives_ofValue .environment hgives)).append ih

/-- The variables are on top of each other, the last one highest. -/
lemma stacks_ofVariables (h : List.Forall₂ VariableGives (ofInterest entries) ps) :
    Stacks [ofVariables entries] ps.reverse := by
  have hrow := stacks_filterMap h
  rw [← filterMap_ofInterest] at hrow
  exact hrow.merged .environment

end EnvironmentLayer

/-! ### Counts and their keys -/

/-- A key that holds a thread count. -/
inductive CountKey
  | threads
  | jobs
  | globbingThreads
  | cpuHeavyPoolSize
deriving DecidableEq, Repr

namespace CountKey

def sectionName : CountKey → String
  | .threads => "loading"
  | .jobs => "build"
  | .globbingThreads => "package"
  | .cpuHeavyPoolSize => "analysis"

def name : CountKey → String
  | .threads => "threads"
  | .jobs => "jobs"
  | .globbingThreads => "globbing_threads"
  | .cpuHeavyPoolSize => "cpu_heavy_pool_size"

/-- The key with its section, as messages name it. -/
def path (k : CountKey) : String := k.sectionName ++ "." ++ k.name

/-- All keys, in the order in which overrides are written. -/
def all : List CountKey := [.threads, .jobs, .globbingThreads, .cpuHeavyPoolSize]

lemma mem_all (k : CountKey) : k ∈ all := by
  cases k <;> decide

/-- The document with nothing but the key. -/
def document (k : CountKey) (v : Value) : Value := .table [(k.sectionName, .table [(k.name, v)])]

/-- What a source sets that has nothing but the key. -/
def settings (count : ThreadCount) : CountKey → PartialConfig
  | .threads => { loading := some (some count) }
  | .jobs => { build := some (some count) }
  | .globbingThreads => { package := some (some count) }
  | .cpuHeavyPoolSize => { analysis := some ⟨some count, none⟩ }

variable {k : CountKey} {count : ThreadCount} {v : Value}

lemma gives_document (h : ThreadCount.decode v = .ok count) :
    Gives (k.document v) (k.settings count) := by
  have hkey : KeyGives ThreadCount.decode k.name (.table [(k.name, v)]) (some count) :=
    keyGives_some.mpr ⟨v, if_pos rfl, h⟩
  cases k with
  | threads => exact ⟨⟨_, rfl⟩, .present rfl hkey, .absent rfl, .absent rfl, .absent rfl⟩
  | jobs => exact ⟨⟨_, rfl⟩, .absent rfl, .present rfl hkey, .absent rfl, .absent rfl⟩
  | globbingThreads => exact ⟨⟨_, rfl⟩, .absent rfl, .absent rfl, .present rfl hkey, .absent rfl⟩
  | cpuHeavyPoolSize =>
    exact ⟨⟨_, rfl⟩, .absent rfl, .absent rfl, .absent rfl,
      .present rfl ⟨hkey, keyGives_none.mpr rfl⟩⟩

end CountKey

/-- A variable sets a key if its name spells the key and its text is read as a count. -/
lemma EnvironmentLayer.variableGives_of_read {k : CountKey} {count : ThreadCount}
    {name text : String} (hkeys : keysOf? name = some [k.sectionName, k.name])
    (hread : ThreadCount.read text = .ok count) :
    VariableGives (name, text) (k.settings count) :=
  ⟨_, hkeys, CountKey.gives_document (readsValues_valueOf.decode hread)⟩

namespace ThreadCount

variable {count : ThreadCount}

/-- A count that may be an override: a fixed one has a signed word, and the text of any other is
read back. -/
def IsWritable (count : ThreadCount) : Prop :=
  (∀ n, count = .fixed n → n.toNat < Size.signedBound) ∧ read count.toText = .ok count

/-- A signed word can hold the count, if it is fixed. -/
def IsSigned (count : ThreadCount) : Prop := ∀ n, count = .fixed n → n.toNat < Size.signedBound

lemma decode_signed {n : Nat} (h : n < Size.signedBound) :
    decode (.signed (Int64.ofInt n)) = .ok (.fixed (UInt64.ofNat n)) := by
  rw [decode, Size.toInt_ofInt_natCast h, if_neg (by omega), Int.toNat_natCast]

lemma decode_toValue (h : count.Expressible) : decode count.toValue = .ok count := by
  cases count with
  | fixed n => rfl
  | hostCpus factor minus =>
    change decode (.text (hostCpus factor minus).toText) = _
    rw [decode, read_toText_of_expressible h]

lemma IsSigned.isWritable (h : count.IsSigned) : Toml.IsWritable count.toValue := by
  cases count with
  | fixed n => exact .number (h n rfl)
  | hostCpus factor minus =>
    refine .text fun c hc => ?_
    rw [toList_toText] at hc
    exact isPrintable_of_mem_render hc

/-- The sign that a fixed count gets on the way is not seen. -/
lemma IsSigned.decode_signed (h : count.IsSigned) (hcount : count.Expressible) :
    decode (Toml.signed count.toValue) = .ok count := by
  cases count with
  | fixed n => exact (ThreadCount.decode_signed (h n rfl)).trans (by rw [UInt64.ofNat_toNat])
  | hostCpus factor minus => exact decode_toValue hcount

lemma IsWritable.decode (h : count.IsWritable) :
    ThreadCount.decode (Toml.signed count.toValue) = .ok count :=
  IsSigned.decode_signed h.1 (expressible_of_read h.2)

end ThreadCount

/-! ### Overrides -/

namespace Overrides

variable {o : Overrides}

/-- The counts that are overridden. -/
def counts (o : Overrides) : List ThreadCount :=
  [o.loadingPhaseThreads, o.jobs, o.globbingThreads, o.cpuHeavyPoolSize].reduceOption

/-- The count of a key, if it is overridden. -/
def count? (o : Overrides) : CountKey → Option ThreadCount
  | .threads => o.loadingPhaseThreads
  | .jobs => o.jobs
  | .globbingThreads => o.globbingThreads
  | .cpuHeavyPoolSize => o.cpuHeavyPoolSize

lemma mem_counts {count : ThreadCount} : count ∈ o.counts ↔ ∃ k, o.count? k = some count := by
  simp only [counts, List.reduceOption_mem_iff, List.mem_cons, List.not_mem_nil, or_false]
  constructor
  · rintro (h | h | h | h)
    · exact ⟨.threads, h.symm⟩
    · exact ⟨.jobs, h.symm⟩
    · exact ⟨.globbingThreads, h.symm⟩
    · exact ⟨.cpuHeavyPoolSize, h.symm⟩
  · rintro ⟨k, h⟩
    cases k with
    | threads => exact .inl h.symm
    | jobs => exact .inr (.inl h.symm)
    | globbingThreads => exact .inr (.inr (.inl h.symm))
    | cpuHeavyPoolSize => exact .inr (.inr (.inr h.symm))

/-- What the overrides set: a section is there if one of its keys is. -/
def settings (o : Overrides) : PartialConfig where
  loading := o.loadingPhaseThreads.map some
  build := o.jobs.map some
  package := o.globbingThreads.map some
  analysis := if o.cpuHeavyPoolSize = none ∧ o.usePrioritization = none then none
    else some ⟨o.cpuHeavyPoolSize, o.usePrioritization⟩

/-! #### The document -/

variable {name key : String} {k : CountKey} {entries : List (String × Value)}

/-- The entry of a count, if it is overridden. -/
def countEntries (o : Overrides) (k : CountKey) : List (String × Value) :=
  ((o.count? k).map fun count => (k.name, Toml.signed count.toValue)).toList

/-- The entry of the only key that is no count. -/
def switchEntry (o : Overrides) : List (String × Value) :=
  match o.usePrioritization with
  | none => []
  | some b => [("use_prioritization", .bool b)]

/-- The entries of the section that has the key. -/
def sectionEntries (o : Overrides) (k : CountKey) : List (String × Value) :=
  match k with
  | .cpuHeavyPoolSize => o.countEntries k ++ o.switchEntry
  | _ => o.countEntries k

/-- The rows of a document for a section, which is left out if it has no entries. -/
def row (name : String) (entries : List (String × Value)) : List Toml.Section :=
  match entries with
  | [] => []
  | entries => [(name, entries)]

/-- The rows of the document that the overrides are written as, sorted by key. -/
def sections (o : Overrides) : List Toml.Section :=
  [CountKey.cpuHeavyPoolSize, .jobs, .threads, .globbingThreads].flatMap fun k =>
    row k.sectionName (o.sectionEntries k)

/-- The key has a fixed count that is too large for a signed word. -/
def Exceeds (o : Overrides) (k : CountKey) (n : Size) : Prop :=
  o.count? k = some (.fixed n) ∧ Size.signedBound ≤ n.toNat

lemma isSigned_iff : (∀ count ∈ o.counts, count.IsSigned) ↔ ∀ k n, ¬o.Exceeds k n := by
  constructor
  · rintro h k n ⟨hcount, hn⟩
    exact absurd (h _ (mem_counts.mpr ⟨k, hcount⟩) n rfl) (Nat.not_lt.mpr hn)
  · rintro h count hcount n rfl
    obtain ⟨k, hk⟩ := mem_counts.mp hcount
    exact Nat.lt_of_not_le fun hn => h k n ⟨hk, hn⟩

/-- The fault of a count that is too large. -/
def tooLarge? (o : Overrides) (k : CountKey) : Option OverrideTooLarge :=
  match o.count? k with
  | some (.fixed n) => if n.toNat < Size.signedBound then none else some ⟨k.path, n⟩
  | _ => none

lemma tooLarge?_eq_some_iff {e : OverrideTooLarge} :
    o.tooLarge? k = some e ↔ ∃ n, o.Exceeds k n ∧ e = ⟨k.path, n⟩ := by
  unfold tooLarge? Exceeds
  split
  · next n hcount =>
    rw [hcount, ite_eq_iff]
    simp only [Option.some.injEq, ThreadCount.fixed.injEq, reduceCtorEq, and_false, false_or,
      Nat.not_lt, and_assoc, ↓existsAndEq, true_and, eq_comm]
  · next hne => exact ⟨nofun, fun ⟨n, hn, _⟩ => absurd hn.1 (hne n)⟩

lemma tooLarge?_eq_none_iff : o.tooLarge? k = none ↔ ∀ n, ¬o.Exceeds k n := by
  rw [Option.eq_none_iff_forall_ne_some]
  simp only [ne_eq, tooLarge?_eq_some_iff, not_exists, not_and]
  constructor
  · exact fun h n hn => h _ n hn rfl
  · exact fun h e n hn _ => h n hn

/-- An override has the value that any configuration has for the count, but with a sign. -/
lemma countEntry_eq (o : Overrides) (k : CountKey) :
    countEntry k.sectionName k.name (o.count? k) =
      match o.tooLarge? k with
      | some e => .error e
      | none => .ok (o.countEntries k) := by
  unfold countEntries tooLarge?
  cases o.count? k with
  | none => rfl
  | some count =>
    cases count with
    | hostCpus factor minus => rfl
    | fixed n =>
      dsimp only
      rw [countEntry, countValue]
      split
      · rfl
      · rfl

lemma sectionEntry_eq (name : String) (entries : List (String × Value)) :
    sectionEntry name entries = (row name entries).map fun s => (s.1, .table s.2) := by
  cases entries with
  | nil => rfl
  | cons e entries => rfl

/-- The first count that is too large makes the writing fail. -/
lemma document_eq (o : Overrides) : o.document =
    match CountKey.all.findSome? o.tooLarge? with
    | some e => .error e
    | none => .ok (Toml.ofSections o.sections) := by
  have hthreads := countEntry_eq o .threads
  have hjobs := countEntry_eq o .jobs
  have hglobbing := countEntry_eq o .globbingThreads
  have hsize := countEntry_eq o .cpuHeavyPoolSize
  simp only [CountKey.sectionName, CountKey.name, count?] at hthreads hjobs hglobbing hsize
  have hrows : sectionEntry "analysis" (o.sectionEntries .cpuHeavyPoolSize) ++
      sectionEntry "build" (o.sectionEntries .jobs) ++
      sectionEntry "loading" (o.sectionEntries .threads) ++
      sectionEntry "package" (o.sectionEntries .globbingThreads) =
        o.sections.map fun s => (s.1, .table s.2) := by
    simp only [sectionEntry_eq, ← List.map_append, sections, List.flatMap_cons, List.flatMap_nil,
      List.append_nil, List.append_assoc]
    rfl
  rw [document, hthreads, hjobs, hglobbing, hsize, CountKey.all]
  simp only [List.findSome?_cons, List.findSome?_nil]
  cases o.tooLarge? .threads with
  | some e => rfl
  | none =>
    cases o.tooLarge? .jobs with
    | some e => rfl
    | none =>
      cases o.tooLarge? .globbingThreads with
      | some e => rfl
      | none =>
        cases o.tooLarge? .cpuHeavyPoolSize with
        | some e => rfl
        | none => exact congrArg (fun rows => Except.ok (Value.table rows)) hrows

lemma keys_row (name : String) (entries : List (String × Value)) :
    ((row name entries).map Prod.fst).Sublist [name] := by
  cases entries with
  | nil => exact List.nil_sublist _
  | cons e entries => exact List.Sublist.refl _

lemma eq_of_mem_row {s : Toml.Section} (h : s ∈ row name entries) : s.2 = entries := by
  cases entries with
  | nil => cases h
  | cons e entries => exact congrArg Prod.snd (List.mem_singleton.mp h)

lemma keys_countEntries (o : Overrides) (k : CountKey) :
    ((o.countEntries k).map Prod.fst).Sublist [k.name] := by
  unfold countEntries
  cases o.count? k with
  | none => exact List.nil_sublist _
  | some count => exact List.Sublist.refl _

lemma isPlain_countEntries (h : ∀ count ∈ o.counts, count.IsSigned) (k : CountKey) :
    ∀ e ∈ o.countEntries k, Toml.IsPlain e.2 := by
  unfold countEntries
  cases hcount : o.count? k with
  | none => nofun
  | some count =>
    exact List.forall_mem_singleton.mpr (h count (mem_counts.mpr ⟨k, hcount⟩)).isWritable.isPlain

lemma isLines_sectionEntries (h : ∀ count ∈ o.counts, count.IsSigned) (k : CountKey) :
    Toml.IsLines (o.sectionEntries k) := by
  have hkeys := o.keys_countEntries k
  have hplain := isPlain_countEntries h k
  cases k with
  | threads | jobs | globbingThreads =>
    exact Toml.isLines_of_sublist hkeys (by decide) (by decide) hplain
  | cpuHeavyPoolSize =>
    have hkeys' : (o.switchEntry.map Prod.fst).Sublist ["use_prioritization"] := by
      unfold switchEntry
      split
      · exact List.nil_sublist _
      · exact List.Sublist.refl _
    have hplain' : ∀ e ∈ o.switchEntry, Toml.IsPlain e.2 := by
      unfold switchEntry
      split
      · nofun
      · exact List.forall_mem_singleton.mpr (.bool _)
    have hnames : ((o.sectionEntries .cpuHeavyPoolSize).map Prod.fst).Sublist
        ["cpu_heavy_pool_size", "use_prioritization"] := by
      rw [sectionEntries, List.map_append]
      exact hkeys.append hkeys'
    exact Toml.isLines_of_sublist hnames (by decide) (by decide)
      (List.forall_mem_append.mpr ⟨hplain, hplain'⟩)

lemma isDocument_sections (h : ∀ count ∈ o.counts, count.IsSigned) :
    Toml.IsDocument o.sections := by
  have hkeys : (o.sections.map Prod.fst).Sublist ["analysis", "build", "loading", "package"] := by
    simp only [sections, List.flatMap_cons, List.flatMap_nil, List.append_nil, List.map_append]
    exact (keys_row _ _).append ((keys_row _ _).append ((keys_row _ _).append (keys_row _ _)))
  refine Toml.isDocument_of_sublist hkeys (by decide) (by decide) fun s hs => ?_
  obtain ⟨k, -, hs⟩ := List.mem_flatMap.mp hs
  exact eq_of_mem_row hs ▸ isLines_sectionEntries h k

/-- What the document has under the key of a section. -/
def part? (entries : List (String × Value)) : Option Value :=
  match entries with
  | [] => none
  | entries => some (.table entries)

lemma lookup?_row (name key : String) (entries : List (String × Value)) :
    Value.lookup? key ((row name entries).map fun s => (s.1, Value.table s.2)) =
      if name = key then part? entries else none := by
  cases entries with
  | nil => simp [row, part?]
  | cons e entries => rfl

lemma get?_sections (o : Overrides) (k : CountKey) :
    (Toml.ofSections o.sections).get? k.sectionName = part? (o.sectionEntries k) := by
  change Value.lookup? k.sectionName (o.sections.map _) = _
  simp only [sections, List.flatMap_cons, List.flatMap_nil, List.append_nil, List.map_append,
    Value.lookup?_append, lookup?_row]
  cases k <;> simp [CountKey.sectionName]

/-- A section that has no key but that of its count. -/
lemma sectionGives_count (hk : o.sectionEntries k = o.countEntries k)
    (h : ∀ count ∈ o.count? k, count.IsWritable) :
    SectionGives (KeyGives ThreadCount.decode k.name) k.sectionName (Toml.ofSections o.sections)
      ((o.count? k).map some) := by
  have hget := o.get?_sections k
  rw [hk, countEntries] at hget
  cases hcount : o.count? k with
  | none =>
    rw [hcount] at hget
    exact .absent hget
  | some count =>
    rw [hcount] at hget
    exact .present hget (keyGives_some.mpr ⟨_, if_pos rfl, (h count hcount).decode⟩)

lemma sectionGives_analysis (h : ∀ count ∈ o.cpuHeavyPoolSize, count.IsWritable) :
    SectionGives AnalysisGives "analysis" (Toml.ofSections o.sections) o.settings.analysis := by
  have hget := o.get?_sections .cpuHeavyPoolSize
  simp only [sectionEntries, countEntries, count?, switchEntry] at hget
  unfold settings
  cases hsize : o.cpuHeavyPoolSize with
  | none =>
    cases hswitch : o.usePrioritization with
    | none =>
      rw [hsize, hswitch] at hget
      exact .absent hget
    | some b =>
      rw [hsize, hswitch] at hget
      exact .present hget ⟨keyGives_none.mpr rfl, keyGives_some.mpr ⟨_, rfl, rfl⟩⟩
  | some count =>
    have hdecode := (h count hsize).decode
    cases hswitch : o.usePrioritization with
    | none =>
      rw [hsize, hswitch] at hget
      exact .present hget ⟨keyGives_some.mpr ⟨_, rfl, hdecode⟩, keyGives_none.mpr rfl⟩
    | some b =>
      rw [hsize, hswitch] at hget
      exact .present hget ⟨keyGives_some.mpr ⟨_, rfl, hdecode⟩, keyGives_some.mpr ⟨_, rfl, rfl⟩⟩

lemma gives_sections (h : ∀ count ∈ o.counts, count.IsWritable) :
    Gives (Toml.ofSections o.sections) o.settings := by
  have hcount (k : CountKey) : ∀ count ∈ o.count? k, count.IsWritable :=
    fun count hcount => h count (mem_counts.mpr ⟨k, hcount⟩)
  exact ⟨⟨_, rfl⟩, sectionGives_count (k := .threads) rfl (hcount _),
    sectionGives_count (k := .jobs) rfl (hcount _),
    sectionGives_count (k := .globbingThreads) rfl (hcount _),
    sectionGives_analysis (hcount .cpuHeavyPoolSize)⟩

/-! #### The layer -/

/-- No count is too large, so there is a text, and it is read as the document. -/
lemma exists_text (h : ∀ count ∈ o.counts, count.IsSigned) :
    ∃ text, o.toToml = .ok text ∧ Toml.read? text = some (Toml.ofSections o.sections) := by
  have hnone : CountKey.all.findSome? o.tooLarge? = none :=
    List.findSome?_eq_none_iff.mpr fun k _ => tooLarge?_eq_none_iff.mpr (isSigned_iff.mp h k)
  obtain ⟨text, hwrite, hread⟩ := Toml.isFaithful_read?.readsBack (isDocument_sections h)
  refine ⟨text, ?_, hread⟩
  rw [toToml, document_eq, hnone]
  change Except.ok ((Toml.write (Toml.ofSections o.sections)).toOption.getD "") = _
  rw [hwrite]
  rfl

lemma layers_of_isSigned (hempty : ¬o.isEmpty = true) (h : ∀ count ∈ o.counts, count.IsSigned) :
    o.layers = .ok [.ofValue .overrides (Toml.ofSections o.sections)] := by
  obtain ⟨text, htext, hread⟩ := exists_text h
  rw [layers, if_neg hempty]
  simp only [htext, hread]

/-- **Overrides come on top as what they set.** -/
theorem exists_layers (h : ∀ count ∈ o.counts, count.IsWritable) :
    ∃ layers, o.layers = .ok layers ∧ Stacks layers [o.settings] := by
  by_cases hempty : o.isEmpty = true
  · refine ⟨[], if_pos hempty, ?_⟩
    rw [show o = {} from eq_of_beq hempty]
    exact stacks_missing
  · exact ⟨_, layers_of_isSigned hempty fun count hcount => (h count hcount).1,
      stacks_one (layerGives_ofValue .overrides (gives_sections h))⟩

end Overrides

/-! ### The five sources -/

/-- What the sources set; the variables of interest one by one, as the environment has them. -/
structure SourceSettings where
  overrides : PartialConfig := {}
  environment : List PartialConfig := []
  explicit : PartialConfig := {}
  project : PartialConfig := {}
  global : PartialConfig := {}

/-- The settings, the highest first. -/
def SourceSettings.ranked (p : SourceSettings) : List PartialConfig :=
  p.overrides :: p.environment.reverse ++ [p.explicit, p.project, p.global]

namespace Site

variable {s : Site} {explicit : Option String} {o : Overrides} {p : SourceSettings}

/-- The project file: the hidden one counts only if nothing has the name of the other. -/
inductive ProjectGives (s : Site) : PartialConfig → Prop
  | plain {q} (h : s.exists? "phasepool.toml" = true) (hfile : s.FileGives "phasepool.toml" q) :
    ProjectGives s q
  | hidden {q} (h : s.exists? "phasepool.toml" = false)
    (hhidden : s.exists? ".phasepool.toml" = true) (hfile : s.FileGives ".phasepool.toml" q) :
    ProjectGives s q
  | missing (h : s.exists? "phasepool.toml" = false)
    (hhidden : s.exists? ".phasepool.toml" = false) : ProjectGives s {}

/-- The global file. -/
inductive GlobalGives (s : Site) : PartialConfig → Prop
  | missing (h : ∀ path ∈ s.globalPath?, s.exists? path = false) : GlobalGives s {}
  | found {path q} (h : s.globalPath? = some path) (hexists : s.exists? path = true)
    (hfile : s.FileGives path q) : GlobalGives s q

/-- The file that the caller names. -/
inductive ExplicitGives (s : Site) : Option String → PartialConfig → Prop
  | unnamed : ExplicitGives s none {}
  | named {path q} (hfile : s.FileGives path q) : ExplicitGives s (some path) q

/-- Each source is missing, or gives settings of the right types. -/
structure SourcesGive (s : Site) (explicit : Option String) (o : Overrides) (p : SourceSettings) :
    Prop where
  writable : ∀ count ∈ o.counts, count.IsWritable
  overrides : p.overrides = o.settings
  environment : List.Forall₂ EnvironmentLayer.VariableGives
    (EnvironmentLayer.ofInterest s.environment) p.environment
  explicit : s.ExplicitGives explicit p.explicit
  project : s.ProjectGives p.project
  global : s.GlobalGives p.global

lemma exists_globalLayers {q : PartialConfig} (h : s.GlobalGives q) :
    ∃ layers, s.fileLayers (s.globalPath?.filter s.exists?).toList = .ok layers ∧
      Stacks layers [q] := by
  cases h with
  | missing h =>
    refine ⟨[], ?_, stacks_missing⟩
    have hnone : s.globalPath?.filter s.exists? = none := by
      rw [Option.filter_eq_none_iff]
      exact fun path hpath => by simp [h path hpath]
    rw [hnone]
    rfl
  | found h hexists hfile =>
    rw [h, Option.filter_some_pos hexists]
    exact exists_fileLayers_singleton hfile

lemma exists_projectLayers {q : PartialConfig} (h : s.ProjectGives q) :
    ∃ layers, s.fileLayers s.projectPath?.toList = .ok layers ∧ Stacks layers [q] := by
  unfold projectPath? projectFiles
  cases h with
  | plain h hfile =>
    rw [List.find?_cons_of_pos h]
    exact exists_fileLayers_singleton hfile
  | hidden h hhidden hfile =>
    rw [List.find?_cons_of_neg (by simp [h]), List.find?_cons_of_pos hhidden]
    exact exists_fileLayers_singleton hfile
  | missing h hhidden =>
    rw [List.find?_cons_of_neg (by simp [h]), List.find?_cons_of_neg (by simp [hhidden])]
    exact ⟨[], rfl, stacks_missing⟩

lemma exists_explicitLayers {q : PartialConfig} (h : s.ExplicitGives explicit q) :
    ∃ layers, s.fileLayers explicit.toList = .ok layers ∧ Stacks layers [q] := by
  cases h with
  | unnamed => exact ⟨[], rfl, stacks_missing⟩
  | named hfile => exact exists_fileLayers_singleton hfile

lemma exists_fileLayers (h : s.SourcesGive explicit o p) :
    ∃ layers, s.fileLayers (s.loadPaths explicit) = .ok layers ∧
      Stacks layers [p.explicit, p.project, p.global] := by
  obtain ⟨global, hglobal, hglobal'⟩ := exists_globalLayers h.global
  obtain ⟨project, hproject, hproject'⟩ := exists_projectLayers h.project
  obtain ⟨explicit, hexplicit, hexplicit'⟩ := exists_explicitLayers h.explicit
  exact ⟨_, fileLayers_append (fileLayers_append hglobal hproject) hexplicit,
    (hglobal'.append hproject').append hexplicit'⟩

end Site

namespace Config

variable {s : Site} {explicit : Option String} {o : Overrides} {p : SourceSettings}

/-- Layers that give settings make the configuration of these on top of each other. -/
lemma ofLayers_of_stacks {layers : List Layer} {ps : List PartialConfig} (h : Stacks layers ps) :
    ofLayers layers = .ok (ps.foldr onto {}).complete := by
  have hgives := (h Layer.empty {} ⟨.empty .overrides, gives_empty⟩).gives
  simp only [ofLayers, Layer.mergeAll, decode_of_gives hgives]

/-- **A load puts the settings of the sources on top of each other.** -/
theorem load_eq_complete (h : s.SourcesGive explicit o p) :
    load s explicit o = .ok (p.ranked.foldr onto {}).complete := by
  obtain ⟨files, hfiles, hfiles'⟩ := Site.exists_fileLayers h
  obtain ⟨upper, hupper, hupper'⟩ := Overrides.exists_layers h.writable
  have hvariables := EnvironmentLayer.stacks_ofVariables h.environment
  have hlayers := ofLayers_of_stacks ((hfiles'.append hvariables).append hupper')
  rw [load, assemble, hupper, hfiles, SourceSettings.ranked, h.overrides]
  exact hlayers

end Config

end PhaseExecutors
