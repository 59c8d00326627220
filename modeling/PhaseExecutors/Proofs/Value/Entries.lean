import Mathlib.Data.List.Nodup
import Mathlib.Data.String.Basic
import PhaseExecutors.Value.Basic

/-!
Entries of a table, and what stands under a key.

Sorting puts every entry at its place and of one key the last entry. So entries whose keys are
distinct are moved only, and entries whose keys ascend are left as they are.
-/

namespace PhaseExecutors

namespace Value

variable {α : Type} {key k : String} {a : α} {entries : List (String × α)}

/-- The keys ascend, so each stands once. -/
def IsSorted (entries : List (String × α)) : Prop := entries.Pairwise fun e e' => e.1 < e'.1

lemma mem_insertSorted {e : String × α} (h : e ∈ insertSorted key a entries) :
    e = (key, a) ∨ e ∈ entries := by
  induction entries with
  | nil => exact Or.inl (List.mem_singleton.mp h)
  | cons e' entries ih =>
    unfold insertSorted at h
    split at h
    · exact (List.mem_cons.mp h).imp_right (.tail _)
    split at h
    · exact List.mem_cons.mp h
    · rcases List.mem_cons.mp h with rfl | h
      · exact Or.inr List.mem_cons_self
      · exact (ih h).imp_right (.tail _)

lemma IsSorted.insertSorted (h : IsSorted entries) : IsSorted (insertSorted key a entries) := by
  induction entries with
  | nil => exact List.pairwise_singleton _ _
  | cons e entries ih =>
    obtain ⟨hbelow, htail⟩ := List.pairwise_cons.mp h
    unfold Value.insertSorted
    split
    · next heq => exact List.pairwise_cons.mpr ⟨fun e' he' => heq ▸ hbelow e' he', htail⟩
    split
    · next hlt =>
      refine List.pairwise_cons.mpr ⟨fun e' he' => ?_, h⟩
      rcases List.mem_cons.mp he' with rfl | he'
      · exact hlt
      · exact hlt.trans (hbelow e' he')
    · next hne hle =>
      refine List.pairwise_cons.mpr ⟨fun e' he' => ?_, ih htail⟩
      rcases mem_insertSorted he' with rfl | he'
      · exact lt_of_le_of_ne (not_lt.mp hle) (Ne.symm hne)
      · exact hbelow e' he'

lemma lookup?_eq_none (h : ∀ e ∈ entries, e.1 ≠ key) : lookup? key entries = none := by
  induction entries with
  | nil => rfl
  | cons e entries ih =>
    rw [lookup?, if_neg (h e List.mem_cons_self), ih fun e' he' => h e' (.tail e he')]

lemma lookup?_append (key : String) (entries entries' : List (String × α)) :
    lookup? key (entries ++ entries') = (lookup? key entries).or (lookup? key entries') := by
  induction entries with
  | nil => rfl
  | cons e entries ih =>
    rw [List.cons_append, lookup?, lookup?, ih]
    split
    · rfl
    · rfl

lemma mem_of_lookup? (h : lookup? key entries = some a) : (key, a) ∈ entries := by
  induction entries with
  | nil => cases h
  | cons e entries ih =>
    unfold lookup? at h
    split at h
    · next heq =>
      cases h
      exact heq ▸ List.mem_cons_self
    · exact .tail e (ih h)

/-! ### Sorting -/

/-- A key that stands once is found from either end. -/
lemma lookup?_reverse (h : (entries.map Prod.fst).Nodup) :
    lookup? key entries.reverse = lookup? key entries := by
  induction entries with
  | nil => rfl
  | cons e entries ih =>
    rw [List.map_cons, List.nodup_cons] at h
    rw [List.reverse_cons, lookup?_append, ih h.2, lookup?_cons, lookup?_cons]
    split
    · next hkey =>
      have hnone : lookup? key entries = none := by
        refine lookup?_eq_none fun e' he' heq => h.1 ?_
        rw [hkey, ← heq]
        exact List.mem_map_of_mem he'
      rw [hnone, Option.none_or]
    · rw [lookup?_nil, Option.or_none]

/-- Of the entries with a key the last is kept. -/
lemma lookup?_sortEntries (key : String) (entries : List (String × α)) :
    lookup? key (sortEntries entries) = lookup? key entries.reverse := by
  have hfold : ∀ sorted : List (String × α),
      lookup? key (entries.foldl (fun sorted e => insertSorted e.1 e.2 sorted) sorted) =
        (lookup? key entries.reverse).or (lookup? key sorted) := by
    induction entries with
    | nil => exact fun sorted => rfl
    | cons e entries ih =>
      intro sorted
      rw [List.foldl_cons, ih, lookup?_insertSorted, List.reverse_cons, lookup?_append,
        Option.or_assoc]
      congr 1
      rw [lookup?]
      split
      · rfl
      · rfl
  rw [sortEntries, hfold, lookup?_nil, Option.or_none]

lemma insertSorted_of_lt {a : α} (h : ∀ e ∈ entries, e.1 < key) :
    insertSorted key a entries = entries ++ [(key, a)] := by
  induction entries with
  | nil => rfl
  | cons e entries ih =>
    obtain ⟨he, hentries⟩ := List.forall_mem_cons.mp h
    rw [insertSorted, if_neg he.ne', if_neg (lt_asymm he), ih hentries, List.cons_append]

lemma sortEntries_of_isSorted (h : IsSorted entries) : sortEntries entries = entries := by
  have hfold : ∀ before : List (String × α), IsSorted (before ++ entries) →
      entries.foldl (fun sorted e => insertSorted e.1 e.2 sorted) before = before ++ entries := by
    clear h
    induction entries with
    | nil => simp
    | cons e entries ih =>
      intro before hbefore
      have hlt : ∀ e' ∈ before, e'.1 < e.1 := fun e' he' =>
        (List.pairwise_append.mp hbefore).2.2 e' he' e List.mem_cons_self
      rw [List.foldl_cons, insertSorted_of_lt hlt, ih _ (by rwa [← List.append_cons]),
        ← List.append_cons]
  exact hfold [] h

/-- Entries of different keys do not get in each other's way. -/
lemma insertSorted_comm {key' : String} {a' : α} (h : key < key') (entries : List (String × α)) :
    insertSorted key a (insertSorted key' a' entries) =
      insertSorted key' a' (insertSorted key a entries) := by
  induction entries with
  | nil => simp [insertSorted, h, h.ne, h.ne', h.not_gt]
  | cons e entries ih =>
    obtain ⟨k, b⟩ := e
    rcases lt_trichotomy key k with hk | rfl | hk
    · rcases lt_trichotomy key' k with hk' | rfl | hk'
      · simp [insertSorted, h, h.ne, h.ne', h.not_gt, hk, hk.ne, hk', hk'.ne]
      · simp [insertSorted, h, h.ne, h.ne', h.not_gt]
      · simp [insertSorted, h.ne', h.not_gt, hk, hk.ne, hk'.ne', hk'.not_gt]
    · simp [insertSorted, h.ne', h.not_gt]
    · have hk' : k < key' := hk.trans h
      simp [insertSorted, hk.ne', hk.not_gt, hk'.ne', hk'.not_gt, ih]

/-- Entries with distinct keys are sorted the same in any order. -/
lemma sortEntries_of_perm {entries' : List (String × α)} (h : entries.Perm entries')
    (hkeys : (entries.map Prod.fst).Nodup) : sortEntries entries = sortEntries entries' := by
  refine h.foldl_eq' (fun e he e' he' sorted => ?_) []
  rcases lt_trichotomy e.1 e'.1 with hlt | heq | hlt
  · exact (insertSorted_comm hlt sorted).symm
  · obtain rfl : e = e' := List.inj_on_of_nodup_map hkeys he he' heq
    rfl
  · exact insertSorted_comm hlt sorted

end Value

end PhaseExecutors
