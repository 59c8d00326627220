import PhaseExecutors.Proofs.Config.Buildable

/-!
What validation accepts, and what it reports.

A zero is looked for as it is written, a count that is too large as it resolves. Since a count that
follows the host never resolves to zero, both come to a look at the counts of the option groups that
the configuration gives on that host: the first zero among those that need a thread is reported,
wherever it stands, and only if there is none the first count that is too large.
-/

namespace PhaseExecutors

/-! ### Counts of option groups -/

namespace OptionGroup

def count : OptionGroup → Size
  | .loadingPhaseThreads o => o.threads
  | .buildRequest o => o.jobs
  | .package o => o.globbingThreads
  | .analysis o => o.cpuHeavyPoolSize

/-- The count is one that a pool can have. Only the analysis may do without a cpu-heavy pool. -/
def InRange : OptionGroup → Prop
  | .analysis o => o.cpuHeavyPoolSize ≤ maxPoolParallelism
  | g => 1 ≤ g.count ∧ g.count ≤ maxPoolParallelism

end OptionGroup

namespace GroupId

/-- The key under which a configuration has the count of a group. -/
def countKey : GroupId → String
  | .loadingPhaseThreads => "loading.threads"
  | .buildRequest => "build.jobs"
  | .package => "package.globbing_threads"
  | .analysis => "analysis.cpu_heavy_pool_size"

/-- The groups that need at least one thread. -/
def needed : List GroupId := [.loadingPhaseThreads, .buildRequest, .package]

lemma mem_all (id : GroupId) : id ∈ all := by
  cases id <;> decide

end GroupId

lemma OptionGroup.inRange_iff {g : OptionGroup} :
    g.InRange ↔ (g.id ∈ GroupId.needed → g.count ≠ 0) ∧ ¬maxPoolParallelism < g.count := by
  have hpos (n : Size) : 1 ≤ n ↔ n ≠ 0 := by
    rw [← UInt64.pos_iff_ne_zero, UInt64.le_iff_toNat_le, UInt64.lt_iff_toNat_lt]
    rfl
  cases g <;> simp [InRange, GroupId.needed, count, id, hpos]

/-- The counts of the groups that a provider has, each under its key. -/
def Provider.counts (p : Provider) (ids : List GroupId) : List (String × Size) :=
  ids.filterMap fun id => (p id).map fun g => (id.countKey, g.count)

lemma Provider.forall_counts {p : Provider} {ids : List GroupId} {P : Size → Prop} :
    (∀ e ∈ p.counts ids, P e.2) ↔ ∀ id ∈ ids, ∀ g, p id = some g → P g.count := by
  simp only [counts, List.mem_filterMap, Option.map_eq_some_iff]
  constructor
  · exact fun h id hid g hg => h _ ⟨id, hid, g, hg, rfl⟩
  · rintro h e ⟨id, hid, g, hg, rfl⟩
    exact h id hid g hg

/-- The count is the first bad one. -/
def IsFirst (bad : Size → Prop) (counts : List (String × Size)) (key : String) (n : Size) : Prop :=
  bad n ∧ ∃ pre post, counts = pre ++ (key, n) :: post ∧ ∀ e ∈ pre, ¬bad e.2

lemma find?_eq_some_iff_isFirst (bad : Size → Prop) [DecidablePred bad]
    {counts : List (String × Size)} {key : String} {n : Size} :
    (counts.find? fun e => bad e.2) = some (key, n) ↔ IsFirst bad counts key n := by
  simp [List.find?_eq_some_iff_append, IsFirst]

namespace ThreadCount

/-- No other count than a zero that is written out resolves to zero. -/
lemma isZero_iff {count : ThreadCount} (host : Size) :
    count.isZero = true ↔ count.resolve host = 0 := by
  constructor
  · intro h
    cases count with
    | fixed n => simpa [isZero, resolve] using h
    | hostCpus factor minus => cases h
  · intro h
    by_contra hzero
    have hpos : 0 < count.resolve host := resolve_pos (Bool.eq_false_iff.mpr hzero)
    rw [h] at hpos
    exact UInt64.lt_irrefl _ hpos

end ThreadCount

namespace Config

variable {c : Config} {host : Size} {key : String} {n : Size}

/-- The entries of counts as they resolve. -/
def resolved (host : Size) (counts : List (String × ThreadCount)) : List (String × Size) :=
  counts.map fun e => (e.1, e.2.resolve host)

lemma counts_needed (c : Config) (host : Size) :
    (c.options host).counts GroupId.needed = resolved host c.neededCounts := by
  rcases c with ⟨_ | l, _ | b, _ | p, a⟩ <;> rfl

lemma counts_all (c : Config) (host : Size) :
    (c.options host).counts GroupId.all = resolved host c.counts := by
  rcases c with ⟨_ | l, _ | b, _ | p, _ | a⟩ <;> rfl

/-- What is reported of the first zero and of the first count that is too large. -/
def report : Option (String × Size) → Option (String × Size) → Except ValidationError Unit
  | some (key, _), _ => .error (.zero key)
  | none, some (key, n) => .error (.tooLarge key n)
  | none, none => .ok ()

section Report

variable {zero large : Option (String × Size)}

lemma report_eq_ok_iff : report zero large = .ok () ↔ zero = none ∧ large = none := by
  rcases zero with _ | ⟨key, n⟩ <;> rcases large with _ | ⟨key', n'⟩ <;> simp [report]

lemma report_eq_zero_iff : report zero large = .error (.zero key) ↔ ∃ n, zero = some (key, n) := by
  rcases zero with _ | ⟨key, n⟩ <;> rcases large with _ | ⟨key', n'⟩ <;> simp [report]

lemma report_eq_tooLarge_iff :
    report zero large = .error (.tooLarge key n) ↔ zero = none ∧ large = some (key, n) := by
  rcases zero with _ | ⟨key, n⟩ <;> rcases large with _ | ⟨key', n'⟩ <;> simp [report]

end Report

/-- Validation looks twice at the counts of the groups. -/
lemma validate_eq (c : Config) (host : Size) : c.validate host =
    report (((c.options host).counts GroupId.needed).find? fun e => e.2 = 0)
      (((c.options host).counts GroupId.all).find? fun e => maxPoolParallelism < e.2) := by
  have hzero : (fun e : String × ThreadCount => e.2.isZero) =
      fun e => decide (e.2.resolve host = 0) := by
    funext e
    rw [Bool.eq_iff_iff, ThreadCount.isZero_iff host, decide_eq_true_iff]
  rw [validate, counts_needed, counts_all, resolved, resolved, List.find?_map, List.find?_map, hzero]
  simp only [Function.comp_def]
  cases c.neededCounts.find? fun e => decide (e.2.resolve host = 0) with
  | some e => rfl
  | none =>
    cases c.counts.find? fun e => decide (maxPoolParallelism < e.2.resolve host) with
    | some e => rfl
    | none => rfl

/-- A configuration gives each group under its own id. -/
lemma id_of_options {id : GroupId} {g : OptionGroup} (h : c.options host id = some g) :
    g.id = id := by
  cases id with
  | loadingPhaseThreads | buildRequest | package | analysis =>
    obtain ⟨s, -, rfl⟩ := Option.map_eq_some_iff.mp h
    rfl

lemma forall_inRange_iff : (∀ id g, c.options host id = some g → g.InRange) ↔
    (∀ e ∈ (c.options host).counts GroupId.needed, e.2 ≠ 0) ∧
      ∀ e ∈ (c.options host).counts GroupId.all, ¬maxPoolParallelism < e.2 := by
  rw [Provider.forall_counts (P := fun n => n ≠ 0),
    Provider.forall_counts (P := fun n => ¬maxPoolParallelism < n)]
  constructor
  · intro h
    refine ⟨fun id hid g hg => ?_, fun id _ g hg => ?_⟩
    · exact (OptionGroup.inRange_iff.mp (h id g hg)).1 ((id_of_options hg).symm ▸ hid)
    · exact (OptionGroup.inRange_iff.mp (h id g hg)).2
  · rintro ⟨hneeded, hall⟩ id g hg
    refine OptionGroup.inRange_iff.mpr ⟨fun hid => ?_, hall id id.mem_all g hg⟩
    exact hneeded id (id_of_options hg ▸ hid) g hg

/-- What validation says of a configuration on a host. -/
structure Validates (c : Config) (host : Size) : Prop where
  /-- It accepts the configuration if the counts of all groups that it gives are in range. -/
  accepts : c.validate host = .ok () ↔ ∀ id g, c.options host id = some g → g.InRange
  /-- Otherwise it reports the first zero among the counts that must not be zero, also if a count
  before it is too large, -/
  zero : ∀ key, c.validate host = .error (.zero key) ↔
    IsFirst (· = 0) ((c.options host).counts GroupId.needed) key 0
  /-- and only if there is none the first count that is too large, as it resolves. -/
  tooLarge : ∀ key n, c.validate host = .error (.tooLarge key n) ↔
    (∀ e ∈ (c.options host).counts GroupId.needed, e.2 ≠ 0) ∧
      IsFirst (maxPoolParallelism < ·) ((c.options host).counts GroupId.all) key n

/-- **Validation is exact, and reports zeros first.** -/
theorem validates (c : Config) (host : Size) : c.Validates host := by
  have hnone : (((c.options host).counts GroupId.needed).find? fun e => e.2 = 0) = none ↔
      ∀ e ∈ (c.options host).counts GroupId.needed, e.2 ≠ 0 := by
    simp
  have hnone' : (((c.options host).counts GroupId.all).find? fun e =>
      maxPoolParallelism < e.2) = none ↔
        ∀ e ∈ (c.options host).counts GroupId.all, ¬maxPoolParallelism < e.2 := by
    simp
  refine ⟨?_, fun key => ?_, fun key n => ?_⟩
  · rw [validate_eq, report_eq_ok_iff, forall_inRange_iff, hnone, hnone']
  · rw [validate_eq, report_eq_zero_iff]
    constructor
    · rintro ⟨n, hn⟩
      have hfirst := (find?_eq_some_iff_isFirst (· = 0)).mp hn
      obtain rfl : n = 0 := hfirst.1
      exact hfirst
    · exact fun hfirst => ⟨0, (find?_eq_some_iff_isFirst (· = 0)).mpr hfirst⟩
  · rw [validate_eq, report_eq_tooLarge_iff, hnone]
    exact and_congr_right' (find?_eq_some_iff_isFirst (maxPoolParallelism < ·))

/-- A zero is reported though a count before it is too large. -/
example : validate { loading := some ⟨.fixed 5000⟩, package := some ⟨.fixed 0⟩ } 8 =
    .error (.zero "package.globbing_threads") := by decide

end Config

end PhaseExecutors
