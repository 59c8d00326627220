import PhaseExecutors.Proofs.Plan.AbsentPool
import PhaseExecutors.Proofs.Value.Documents
import PhaseExecutors.Task

/-!
Options, plans, failures and summaries survive their documents.

Each form is a table whose keys ascend, and of each it is shown that it is a document of its own,
and that any document of it is decoded to the data it was made from. The forms of groups and of
plans carry a tag next to the fields; without it they are the forms of records again.
-/

namespace PhaseExecutors

variable {entries : List (String × Value)} {surplus : Surplus}

/-! ### Options -/

namespace OptionGroup

lemma decode_loading (o : LoadingOptions) (h : Holds entries [("threads", .unsigned o.threads)]) :
    LoadingOptions.decode surplus (.table entries) = .ok o :=
  h.one surplus LoadingOptions.type LoadingOptions.mk rfl (reads_size _)

lemma decode_build (o : BuildOptions) (h : Holds entries [("jobs", .unsigned o.jobs)]) :
    BuildOptions.decode surplus (.table entries) = .ok o :=
  h.one surplus BuildOptions.type BuildOptions.mk rfl (reads_size _)

lemma decode_package (o : PackageOptions)
    (h : Holds entries [("globbing_threads", .unsigned o.globbingThreads)]) :
    PackageOptions.decode surplus (.table entries) = .ok o :=
  h.one surplus PackageOptions.type PackageOptions.mk rfl (reads_size _)

lemma decode_analysis (o : AnalysisOptions)
    (h : Holds entries [("cpu_heavy_pool_size", .unsigned o.cpuHeavyPoolSize),
      ("use_prioritization", .bool o.usePrioritization)]) :
    AnalysisOptions.decode surplus (.table entries) = .ok o :=
  h.two surplus AnalysisOptions.type AnalysisOptions.mk rfl (reads_size _) rfl (reads_bool _)

lemma isDocument_toValue (g : OptionGroup) : IsDocument g.toValue g.toValue := by
  cases g with
  | loadingPhaseThreads o =>
    exact .table ["group", "threads"] rfl (by decide) (by simp)
  | buildRequest o => exact .table ["group", "jobs"] rfl (by decide) (by simp)
  | package o => exact .table ["globbing_threads", "group"] rfl (by decide) (by simp)
  | analysis o =>
    exact .table ["cpu_heavy_pool_size", "group", "use_prioritization"] rfl (by decide) (by simp)

lemma reads_toValue (g : OptionGroup) : Reads decode g.toValue g := by
  cases g with
  | loadingPhaseThreads o =>
    refine reads_tagged rfl rfl rfl fun others h => ?_
    exact congrArg (Except.map loadingPhaseThreads) (decode_loading o h)
  | buildRequest o =>
    refine reads_tagged rfl rfl rfl fun others h => ?_
    exact congrArg (Except.map buildRequest) (decode_build o h)
  | package o =>
    refine reads_tagged rfl rfl rfl fun others h => ?_
    exact congrArg (Except.map package) (decode_package o h)
  | analysis o =>
    refine reads_tagged rfl rfl rfl fun others h => ?_
    exact congrArg (Except.map analysis) (decode_analysis o h)

end OptionGroup

/-! ### Plans -/

namespace PoolSpec

@[simp] lemma isDocument_toValue (p : PoolSpec) : IsDocument p.toValue p.toValue :=
  .table ["name", "parallelism"] rfl (by decide) (by simp)

lemma reads_toValue (surplus : Surplus) (p : PoolSpec) : Reads (decode surplus) p.toValue p :=
  reads_of_holds fun _ h => h.two surplus type mk rfl (reads_text _) rfl (reads_size _)

/-- A pool that may be absent: its place is never empty, but holds null. -/
lemma reads_optional (surplus : Surplus) (p? : Option PoolSpec) :
    Reads (Decode.optional (decode surplus)) ((p?.map toValue).getD .null) p? := by
  intro w h
  cases p? with
  | none =>
    rw [h.eq_of_scalar rfl]
    rfl
  | some p =>
    have hdecode : decode surplus w = .ok p := reads_toValue surplus p w h
    obtain ⟨entries, rfl, -⟩ := h.eq_table
    exact congrArg (Except.map some) hdecode

end PoolSpec

namespace Plan

lemma isDocument_toValue (plan : Plan) : IsDocument plan.toValue plan.toValue := by
  cases plan with
  | single pool => exact .table ["pool", "strategy"] rfl (by decide) (by simp)
  | tieredPriority pool capacity =>
    exact .table ["cpu_heavy_capacity", "pool", "strategy"] rfl (by decide) (by simp)
  | multiPool general heavy execution =>
    have hexecution : IsDocument ((execution.map PoolSpec.toValue).getD .null)
        ((execution.map PoolSpec.toValue).getD .null) := by
      cases execution with
      | none => exact .null
      | some pool => exact pool.isDocument_toValue
    exact .table ["cpu_heavy", "execution", "general", "strategy"] rfl (by decide)
      (by simp [hexecution])

-- the tag in front, and the fields in the order of their declaration
example (pool : PoolSpec) (capacity : Size) :
    IsDocument (.table [("strategy", .text "tiered_priority"), ("pool", pool.toValue),
      ("cpu_heavy_capacity", .unsigned capacity)]) (Plan.tieredPriority pool capacity).toValue :=
  (isDocument_toValue _).reorders (.table (List.reverse_perm [_, _, _]))

lemma reads_toValue (plan : Plan) : Reads decode plan.toValue plan := by
  have hpool := PoolSpec.reads_toValue .refusedInside
  cases plan with
  | single pool =>
    refine reads_tagged rfl rfl rfl fun others h => ?_
    exact h.one .refusedInside singleType single rfl (hpool pool)
  | tieredPriority pool capacity =>
    refine reads_tagged rfl rfl rfl fun others h => ?_
    exact h.two .refusedInside tieredType tieredPriority rfl (hpool pool) rfl (reads_size _)
  | multiPool general heavy execution =>
    refine reads_tagged rfl rfl rfl fun others h => ?_
    obtain ⟨w, hw, hdocument⟩ := h "execution" _ rfl
    have hexecution := getD_of_lookup? multiType none hw
      (PoolSpec.reads_optional .refusedInside execution w hdocument)
    exact h.three .refusedInside multiType multiPool rfl (hpool general) rfl (hpool heavy) hexecution

end Plan

/-! ### Failures and summaries -/

namespace TaskErrorKind

lemma reads_name (kind : TaskErrorKind) : Reads decode (.text kind.name) kind := by
  have hname : byName.lookup kind.name = some kind := by
    cases kind <;> rfl
  exact PhaseExecutors.reads_name hname

end TaskErrorKind

namespace TaskError

@[simp] lemma isDocument_toValue (e : TaskError) : IsDocument e.toValue e.toValue :=
  .table ["kind", "message"] rfl (by decide) (by simp)

lemma reads_toValue (e : TaskError) : Reads decode e.toValue e :=
  reads_of_holds fun _ h =>
    h.two .refused type mk rfl (TaskErrorKind.reads_name _) rfl (reads_text _)

end TaskError

namespace TaskFailure

@[simp] lemma isDocument_toValue (f : TaskFailure) : IsDocument f.toValue f.toValue :=
  .table ["error", "pool"] rfl (by decide) (by simp)

lemma reads_toValue (f : TaskFailure) : Reads decode f.toValue f :=
  reads_of_holds fun _ h =>
    h.two .refused type mk rfl (reads_text _) rfl (TaskError.reads_toValue _)

end TaskFailure

namespace Summary

/-- The counts are sizes. -/
def IsCounted (s : Summary) : Prop := s.completed < Size.bound ∧ s.skipped < Size.bound

lemma isDocument_toValue (s : Summary) : IsDocument s.toValue s.toValue := by
  have hfailures : IsDocument (.array (s.recoverable.map TaskFailure.toValue))
      (.array (s.recoverable.map TaskFailure.toValue)) :=
    .array (by simp)
  exact .table ["completed", "recoverable_failures", "skipped"] rfl (by decide) (by simp [hfailures])

lemma reads_count {n : ℕ} (h : n < Size.bound) :
    Reads (fun v => (Decode.size v).map UInt64.toNat) (.unsigned (Size.clamp n)) n := by
  intro w hw
  have hclamp : (Size.clamp n).toNat = n := by
    have htop : Size.top.toNat = Size.bound - 1 := rfl
    rw [Size.toNat_clamp]
    omega
  have hsize := reads_size (Size.clamp n) w hw
  simp only [hsize, Except.map, hclamp]

lemma reads_toValue {s : Summary} (h : s.IsCounted) : Reads decode s.toValue s := by
  refine reads_of_holds fun entries hentries => ?_
  have hfailures := reads_list TaskFailure.reads_toValue s.recoverable
  exact hentries.three .refused type mk rfl (reads_count h.1) rfl hfailures
    (hentries.get type rfl (reads_count h.2))

end Summary

/-! ### Data and their documents -/

/-- Of the given data nothing is lost in a document. -/
structure Survives {α : Type} (data : Set α) (toValue : α → Value) (decode : Decoder α) :
    Prop where
  /-- The form is one of its documents, the one with ascending keys. -/
  own : ∀ a ∈ data, IsDocument (toValue a) (toValue a)
  /-- The fields, and the tag among them, may be written in any order. -/
  anyOrder : ∀ a ∈ data, ∀ w, w.Reorders (toValue a) → IsDocument w (toValue a)
  /-- Every document is decoded to the data that it is of, -/
  decoded : ∀ a ∈ data, ∀ w, IsDocument w (toValue a) → decode w = .ok a
  /-- also when it has been written out and read again. -/
  read : ∀ a ∈ data, ∀ w, IsDocument w (toValue a) →
    ∃ v, Json.read? (Json.compact w) = some v ∧ decode v = .ok a
  /-- Different data have no document and no text in common. -/
  different : ∀ a ∈ data, ∀ b ∈ data, ∀ w w', IsDocument w (toValue a) →
    IsDocument w' (toValue b) → a ≠ b → w ≠ w' ∧ Json.compact w ≠ Json.compact w'

/-- It is enough that the form is a document and that documents are decoded. -/
lemma survives_of_reads {α : Type} {data : Set α} {toValue : α → Value} {decode : Decoder α}
    (hown : ∀ a, IsDocument (toValue a) (toValue a))
    (hreads : ∀ a ∈ data, Reads decode (toValue a) a) : Survives data toValue decode := by
  have hread : ∀ a ∈ data, ∀ w, IsDocument w (toValue a) →
      ∃ v, Json.read? (Json.compact w) = some v ∧ decode v = .ok a := by
    intro a ha w hw
    refine ⟨toValue a, ?_, hreads a ha _ (hown a)⟩
    rw [Json.isFaithful_compact.readsBack hw.isExact, hw.sorted]
  refine ⟨fun a _ => hown a, fun a _ w hw => (hown a).reorders hw, hreads, hread, ?_⟩
  intro a ha b hb w w' hw hw' hne
  constructor
  · rintro rfl
    have heq := (hreads a ha w hw).symm.trans (hreads b hb w hw')
    exact hne (Except.ok.inj heq)
  · intro htext
    obtain ⟨v, hv, hdecode⟩ := hread a ha w hw
    obtain ⟨v', hv', hdecode'⟩ := hread b hb w' hw'
    obtain rfl : v = v' := by
      rw [htext, hv'] at hv
      exact (Option.some.inj hv).symm
    exact hne (Except.ok.inj (hdecode.symm.trans hdecode'))

/-- What survives its document: everything, but of summaries those whose counts are sizes. -/
structure DomainSurvives : Prop where
  optionGroup : Survives Set.univ OptionGroup.toValue OptionGroup.decode
  plan : Survives Set.univ Plan.toValue Plan.decode
  poolSpec : ∀ surplus, Survives Set.univ PoolSpec.toValue (PoolSpec.decode surplus)
  taskError : Survives Set.univ TaskError.toValue TaskError.decode
  taskFailure : Survives Set.univ TaskFailure.toValue TaskFailure.decode
  summary : Survives {s | s.IsCounted} Summary.toValue Summary.decode
  /-- A plan without an execution pool need not say so. -/
  absentPool : ∀ before after, Value.lookup? "execution" (before ++ after) = none →
    Plan.decode (.table (before ++ ("execution", .null) :: after)) =
      Plan.decode (.table (before ++ after))

/-- **Nothing is lost in a document.** -/
theorem domainSurvives : DomainSurvives where
  optionGroup := survives_of_reads OptionGroup.isDocument_toValue
    fun g _ => OptionGroup.reads_toValue g
  plan := survives_of_reads Plan.isDocument_toValue fun plan _ => Plan.reads_toValue plan
  poolSpec surplus := survives_of_reads PoolSpec.isDocument_toValue
    fun p _ => PoolSpec.reads_toValue surplus p
  taskError := survives_of_reads TaskError.isDocument_toValue
    fun e _ => TaskError.reads_toValue e
  taskFailure := survives_of_reads TaskFailure.isDocument_toValue
    fun f _ => TaskFailure.reads_toValue f
  summary := survives_of_reads Summary.isDocument_toValue fun _ hs => Summary.reads_toValue hs
  absentPool _ _ h := Plan.decode_null_execution h

end PhaseExecutors
