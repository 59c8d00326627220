import PhaseExecutors.Plan
import PhaseExecutors.Proofs.Value.Records

/-!
A plan may leave out its execution pool, or hold null in its place.

An entry that is put into a table moves the entries behind it by one place. The other fields are
found under their keys all the same, and of two faults the same one is still read first. So such an
entry only matters to the field it is for, and there null comes to the same as nothing.
-/

namespace PhaseExecutors

variable {α β τ : Type} {decode : Decoder α} {key k tag : String} {v : Value}
  {before after : List (String × Value)}

/-! ### Places that move -/

/-- The place of an entry when another one has been put at place `n`. -/
def movedPast (n : ℕ) (place : ℕ) : ℕ := if place < n then place else place + 1

lemma movedPast_le_iff {n i j : ℕ} : movedPast n i ≤ movedPast n j ↔ i ≤ j := by
  unfold movedPast
  split_ifs <;> omega

/-- A part of a record whose entries have moved. -/
def Part.moved (n : ℕ) (p : Part α) : Part α := p.mapError fun e => (movedPast n e.1, e.2)

lemma Part.map_moved (n : ℕ) (f : α → β) (p : Part α) : (p.moved n).map f = (p.map f).moved n := by
  cases p with
  | error e => rfl
  | ok a => rfl

/-- The fault that is read first stays the first. -/
lemma Part.apply_moved (n : ℕ) (f : Part (α → β)) (p : Part α) :
    (f.moved n).apply (p.moved n) = (f.apply p).moved n := by
  cases f with
  | ok f =>
    cases p with
    | ok a => rfl
    | error e => rfl
  | error e =>
    cases p with
    | ok a => rfl
    | error e' =>
      by_cases hfirst : e.1 ≤ e'.1
      · rw [apply_error_of_le hfirst]
        exact apply_error_of_le (movedPast_le_iff.mpr hfirst)
      · rw [apply_error_of_not_le hfirst]
        exact apply_error_of_not_le fun h => hfirst (movedPast_le_iff.mp h)

/-- The place of a fault is not told. -/
lemma finish_moved (surplus : Surplus) (type : RecordType) (n : ℕ) (p : Part τ)
    (entries entries' : List (String × Value)) :
    (fieldsOf type entries).finish surplus (p.moved n) =
      (fieldsOf type entries').finish surplus p := by
  cases p with
  | error e => rfl
  | ok a => exact (finish_ok surplus type a).trans (finish_ok surplus type a).symm

/-! ### An entry more -/

lemma find?_insert (type : RecordType) (hkey : k ≠ key) (v : Value)
    (before after : List (String × Value)) :
    (fieldsOf type (before ++ (k, v) :: after)).find? key =
      ((fieldsOf type (before ++ after)).find? key).map fun found =>
        (movedPast before.length found.1, found.2) := by
  induction before with
  | nil =>
    rw [List.nil_append, List.nil_append, find?_cons, if_neg hkey]
    rfl
  | cons e before ih =>
    rw [List.cons_append, List.cons_append, find?_cons, find?_cons, ih]
    split
    · rfl
    · rw [Option.map_map, Option.map_map]
      congr 1
      funext found
      simp only [Function.comp_apply, movedPast, List.length_cons, Prod.mk.injEq, and_true]
      split_ifs <;> omega

/-- **Another entry does not change what a field holds**, nor what is wrong with it. -/
theorem get_insert (type : RecordType) (hkey : k ≠ key) (decode : Decoder α) (v : Value)
    (before after : List (String × Value)) :
    (fieldsOf type (before ++ (k, v) :: after)).get key decode =
      ((fieldsOf type (before ++ after)).get key decode).moved before.length := by
  unfold Fields.get
  rw [find?_insert type hkey]
  cases (fieldsOf type (before ++ after)).find? key with
  | none =>
    -- a field that is missing has its place behind all entries
    have hplace : (before ++ (k, v) :: after).length + type.fields.idxOf key =
        movedPast before.length ((before ++ after).length + type.fields.idxOf key) := by
      simp only [movedPast, List.length_append, List.length_cons]
      rw [if_neg (by omega)]
      omega
    simp only [Option.map_none, fieldsOf, List.length_map, hplace]
    rfl
  | some found =>
    simp only [Option.map_some, Fields.decodeAt]
    cases decode found.2.value with
    | error e => rfl
    | ok a => rfl

section Records

variable {key' : String} {decode' : Decoder β} {γ : Type} {last last' : Part γ}

lemma one_insert (surplus : Surplus) (type : RecordType) (make : α → τ) (hkey : k ≠ key) :
    (fieldsOf type (before ++ (k, v) :: after)).finish surplus
        (((fieldsOf type (before ++ (k, v) :: after)).get key decode).map make) =
      (fieldsOf type (before ++ after)).finish surplus
        (((fieldsOf type (before ++ after)).get key decode).map make) := by
  rw [get_insert type hkey, Part.map_moved]
  exact finish_moved ..

lemma two_insert (surplus : Surplus) (type : RecordType) (make : α → β → τ) (hkey : k ≠ key)
    (hkey' : k ≠ key') :
    (fieldsOf type (before ++ (k, v) :: after)).finish surplus
        ((((fieldsOf type (before ++ (k, v) :: after)).get key decode).map make).apply
          ((fieldsOf type (before ++ (k, v) :: after)).get key' decode')) =
      (fieldsOf type (before ++ after)).finish surplus
        ((((fieldsOf type (before ++ after)).get key decode).map make).apply
          ((fieldsOf type (before ++ after)).get key' decode')) := by
  rw [get_insert type hkey, get_insert type hkey', Part.map_moved, Part.apply_moved]
  exact finish_moved ..

lemma three_insert (surplus : Surplus) (type : RecordType) (make : α → β → γ → τ)
    (hkey : k ≠ key) (hkey' : k ≠ key') (hlast : last' = last.moved before.length) :
    (fieldsOf type (before ++ (k, v) :: after)).finish surplus
        (((((fieldsOf type (before ++ (k, v) :: after)).get key decode).map make).apply
          ((fieldsOf type (before ++ (k, v) :: after)).get key' decode')).apply last') =
      (fieldsOf type (before ++ after)).finish surplus
        (((((fieldsOf type (before ++ after)).get key decode).map make).apply
          ((fieldsOf type (before ++ after)).get key' decode')).apply last) := by
  rw [get_insert type hkey, get_insert type hkey', Part.map_moved, Part.apply_moved, hlast,
    Part.apply_moved]
  exact finish_moved ..

end Records

/-- A table still has the other entry when the tag is taken out. -/
lemma takeEntry_insert (htag : k ≠ tag) (v : Value) (before after : List (String × Value)) :
    takeEntry tag (before ++ after) = none ∧ takeEntry tag (before ++ (k, v) :: after) = none ∨
      ∃ w before' after', takeEntry tag (before ++ after) = some (w, before' ++ after') ∧
        takeEntry tag (before ++ (k, v) :: after) = some (w, before' ++ (k, v) :: after') := by
  induction before with
  | nil =>
    rw [List.nil_append, List.nil_append, takeEntry, if_neg htag]
    cases takeEntry tag after with
    | none => exact Or.inl ⟨rfl, rfl⟩
    | some taken => exact Or.inr ⟨taken.1, [], taken.2, rfl, rfl⟩
  | cons e before ih =>
    obtain ⟨key, u⟩ := e
    rw [List.cons_append, List.cons_append, takeEntry, takeEntry]
    by_cases hkey : key = tag
    · rw [if_pos hkey, if_pos hkey]
      exact Or.inr ⟨u, before, after, rfl, rfl⟩
    · rw [if_neg hkey, if_neg hkey]
      rcases ih with ⟨hnone, hnone'⟩ | ⟨w, before', after', hsome, hsome'⟩
      · rw [hnone, hnone']
        exact Or.inl ⟨rfl, rfl⟩
      · rw [hsome, hsome']
        exact Or.inr ⟨w, (key, u) :: before', after', rfl, rfl⟩

/-- So a tagged record is read as before if what the tag names is. -/
lemma tagged_insert {known : List (String × α)} {fill : α × Value → Except DecodeError τ}
    (title : String) (htag : k ≠ tag) (habsent : Value.lookup? k (before ++ after) = none)
    (h : ∀ a before after, Value.lookup? k (before ++ after) = none →
      fill (a, .table (before ++ (k, v) :: after)) = fill (a, .table (before ++ after))) :
    (Decode.tagged title tag known (.table (before ++ (k, v) :: after)) >>= fill) =
      (Decode.tagged title tag known (.table (before ++ after)) >>= fill) := by
  rcases takeEntry_insert htag v before after with
    ⟨hnone, hnone'⟩ | ⟨w, before', after', hsome, hsome'⟩
  · simp only [Decode.tagged, hnone, hnone']
  · have habsent' : Value.lookup? k (before' ++ after') = none := by
      rw [(lookup?_of_takeEntry hsome).2 k htag, habsent]
    simp only [Decode.tagged, hsome, hsome']
    cases w with
    | text s =>
      simp only [Decode.named]
      cases known.lookup s with
      | none => rfl
      | some a => exact h a before' after' habsent'
    | null | bool | unsigned | signed | float | char | array | table => rfl

/-! ### Plans -/

/-- **Null in the place of the execution pool comes to the same as no such place**, for plans of
every strategy and for what is wrong with a document. -/
theorem Plan.decode_null_execution (h : Value.lookup? "execution" (before ++ after) = none) :
    Plan.decode (.table (before ++ ("execution", .null) :: after)) =
      Plan.decode (.table (before ++ after)) := by
  refine tagged_insert "ExecutorPlan" (by decide) h fun strategy before after habsent => ?_
  cases strategy with
  | single => exact one_insert .refusedInside singleType single (by decide)
  | tieredPriority =>
    exact two_insert .refusedInside tieredType tieredPriority (by decide) (by decide)
  | multiPool =>
    -- the field itself: null is read as no pool, and so is nothing
    have hnull : Value.lookup? "execution" (before ++ ("execution", .null) :: after) =
        some .null := by
      rw [Value.lookup?_append, Option.or_eq_none_iff] at habsent
      rw [Value.lookup?_append, habsent.1, Option.none_or]
      rfl
    have hpool : Decode.optional (PoolSpec.decode .refusedInside) .null = .ok none := rfl
    have hgiven := getD_of_lookup? multiType none hnull hpool
    have hmissing := getD_of_lookup?_eq_none multiType none
      (Decode.optional (PoolSpec.decode .refusedInside)) habsent
    refine three_insert .refusedInside multiType multiPool (by decide) (by decide) ?_
    exact hgiven.trans (congrArg (Part.moved before.length) hmissing.symm)

end PhaseExecutors
