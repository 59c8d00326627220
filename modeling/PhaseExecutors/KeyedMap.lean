/-!
Maps: entries under keys, no two of which are equal.

A map compares nothing but keys. A value need not have anything to do with the key that it is put
under.
-/

namespace PhaseExecutors

structure KeyedMap (κ ν : Type) where
  entries : List (κ × ν)
  distinct : (entries.map Prod.fst).Nodup

namespace KeyedMap

variable {κ ν : Type} [DecidableEq κ]

/-! ### Entries -/

/-- The value of the first entry under a key. -/
def getEntry (key : κ) : List (κ × ν) → Option ν
  | [] => none
  | (other, value) :: entries => if other = key then some value else getEntry key entries

/-- Puts a value under a key: in place of the value that the key has, or behind all entries. -/
def putEntry (key : κ) (value : ν) : List (κ × ν) → List (κ × ν)
  | [] => [(key, value)]
  | (other, old) :: entries =>
    if other = key then (other, value) :: entries
    else (other, old) :: putEntry key value entries

/-- Takes an entry out: its value, if the key has one, and the entries that are left. -/
def takeEntry (key : κ) : List (κ × ν) → Option ν × List (κ × ν)
  | [] => (none, [])
  | (other, value) :: entries =>
    if other = key then (some value, entries)
    else
      let (found, rest) := takeEntry key entries
      (found, (other, value) :: rest)

theorem keys_putEntry (key : κ) (value : ν) (entries : List (κ × ν)) :
    (putEntry key value entries).map Prod.fst =
      if key ∈ entries.map Prod.fst then entries.map Prod.fst
      else entries.map Prod.fst ++ [key] := by
  induction entries with
  | nil => rfl
  | cons e entries ih =>
    unfold putEntry
    split
    · next h => simp [h]
    · next h =>
      rw [List.map_cons, ih, List.map_cons]
      simp only [List.mem_cons, Ne.symm h, false_or]
      split <;> rfl

theorem keys_takeEntry (key : κ) (entries : List (κ × ν)) :
    (takeEntry key entries).2.map Prod.fst = (entries.map Prod.fst).erase key := by
  induction entries with
  | nil => rfl
  | cons e entries ih =>
    unfold takeEntry
    split
    · next h => rw [List.map_cons, h, List.erase_cons_head]
    · next h => rw [List.map_cons, ih, List.map_cons, List.erase_cons_tail (by simpa using h)]

theorem nodup_putEntry {entries : List (κ × ν)} (h : (entries.map Prod.fst).Nodup) (key : κ)
    (value : ν) : ((putEntry key value entries).map Prod.fst).Nodup := by
  rw [keys_putEntry]
  split
  · exact h
  · next hnew =>
    rw [List.nodup_append]
    refine ⟨h, by simp, fun other hother last hlast heq => ?_⟩
    rw [List.mem_singleton] at hlast
    exact hnew (hlast ▸ heq ▸ hother)

theorem nodup_takeEntry {entries : List (κ × ν)} (h : (entries.map Prod.fst).Nodup) (key : κ) :
    ((takeEntry key entries).2.map Prod.fst).Nodup := by
  rw [keys_takeEntry]
  exact h.sublist List.erase_sublist

/-- An entry that is put in is new, or was there before. -/
theorem mem_putEntry {key : κ} {value : ν} {entries : List (κ × ν)} {e : κ × ν}
    (h : e ∈ putEntry key value entries) : e = (key, value) ∨ e ∈ entries := by
  induction entries with
  | nil => exact Or.inl (List.mem_singleton.mp h)
  | cons first entries ih =>
    unfold putEntry at h
    split at h
    · next hkey =>
      rcases List.mem_cons.mp h with rfl | h
      · exact Or.inl (by rw [← hkey])
      · exact Or.inr (List.mem_cons_of_mem _ h)
    · rcases List.mem_cons.mp h with rfl | h
      · exact Or.inr List.mem_cons_self
      · exact (ih h).imp_right (List.mem_cons_of_mem _)

theorem takeEntry_sublist (key : κ) (entries : List (κ × ν)) :
    (takeEntry key entries).2.Sublist entries := by
  induction entries with
  | nil => exact List.Sublist.refl _
  | cons e entries ih =>
    unfold takeEntry
    split
    · exact List.sublist_cons_self _ _
    · exact ih.cons_cons _

theorem mem_of_getEntry {key : κ} {value : ν} {entries : List (κ × ν)}
    (h : getEntry key entries = some value) : (key, value) ∈ entries := by
  induction entries with
  | nil => cases h
  | cons e entries ih =>
    unfold getEntry at h
    split at h
    · next hkey =>
      cases h
      rw [← hkey]
      exact List.mem_cons_self
    · exact List.mem_cons_of_mem _ (ih h)

theorem getEntry_eq_none {key : κ} {entries : List (κ × ν)} (h : key ∉ entries.map Prod.fst) :
    getEntry key entries = none := by
  induction entries with
  | nil => rfl
  | cons e entries ih =>
    rw [List.map_cons, List.mem_cons, not_or] at h
    rw [getEntry, if_neg (Ne.symm h.1), ih h.2]

theorem getEntry_putEntry (key other : κ) (value : ν) (entries : List (κ × ν)) :
    getEntry other (putEntry key value entries) =
      if key = other then some value else getEntry other entries := by
  induction entries with
  | nil => rfl
  | cons e entries ih =>
    unfold putEntry
    split
    · next h =>
      rw [getEntry, getEntry, h]
      split <;> rfl
    · next h =>
      rw [getEntry, getEntry, ih]
      split
      · next heq => rw [if_neg fun hkey => h (heq.trans hkey.symm)]
      · rfl

theorem takeEntry_fst (key : κ) (entries : List (κ × ν)) :
    (takeEntry key entries).1 = getEntry key entries := by
  induction entries with
  | nil => rfl
  | cons e entries ih =>
    unfold takeEntry getEntry
    split
    · rfl
    · exact ih

/-- Nothing is left under the key, because no other entry has it. -/
theorem getEntry_takeEntry {entries : List (κ × ν)} (h : (entries.map Prod.fst).Nodup)
    (key other : κ) :
    getEntry other (takeEntry key entries).2 =
      if key = other then none else getEntry other entries := by
  induction entries with
  | nil => simp [takeEntry, getEntry]
  | cons e entries ih =>
    obtain ⟨hnew, hrest⟩ := List.nodup_cons.mp h
    unfold takeEntry
    split
    · next hkey =>
      rw [getEntry, hkey]
      split
      · next hother => exact getEntry_eq_none (hother ▸ hkey ▸ hnew)
      · rfl
    · next hkey =>
      rw [getEntry, getEntry, ih hrest]
      split
      · next hother => rw [if_neg fun heq => hkey (hother.trans heq.symm)]
      · rfl

/-! ### Maps -/

def empty : KeyedMap κ ν := ⟨[], List.nodup_nil⟩

def get? (m : KeyedMap κ ν) (key : κ) : Option ν := getEntry key m.entries

def insert (m : KeyedMap κ ν) (key : κ) (value : ν) : KeyedMap κ ν :=
  ⟨putEntry key value m.entries, nodup_putEntry m.distinct key value⟩

/-- Takes the value of a key out, if it has one. -/
def remove (m : KeyedMap κ ν) (key : κ) : Option ν × KeyedMap κ ν :=
  ((takeEntry key m.entries).1, ⟨(takeEntry key m.entries).2, nodup_takeEntry m.distinct key⟩)

def isEmpty (m : KeyedMap κ ν) : Bool := m.entries.isEmpty

theorem get?_insert (m : KeyedMap κ ν) (key other : κ) (value : ν) :
    (m.insert key value).get? other = if key = other then some value else m.get? other :=
  getEntry_putEntry key other value m.entries

theorem remove_fst (m : KeyedMap κ ν) (key : κ) : (m.remove key).1 = m.get? key :=
  takeEntry_fst key m.entries

theorem get?_remove (m : KeyedMap κ ν) (key other : κ) :
    (m.remove key).2.get? other = if key = other then none else m.get? other :=
  getEntry_takeEntry m.distinct key other

theorem isEmpty_iff {m : KeyedMap κ ν} : m.isEmpty = true ↔ ∀ key, m.get? key = none := by
  rw [isEmpty, List.isEmpty_iff]
  constructor
  · intro h key
    rw [get?, h, getEntry]
  · intro h
    cases hentries : m.entries with
    | nil => rfl
    | cons e entries =>
      have hnone := h e.1
      rw [get?, hentries, getEntry, if_pos rfl] at hnone
      cases hnone

end KeyedMap

end PhaseExecutors
