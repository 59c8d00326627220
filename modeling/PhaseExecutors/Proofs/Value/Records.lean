import PhaseExecutors.Proofs.Value.Entries
import PhaseExecutors.Value.Decode

/-!
Records that are given as tables.

What a field holds depends on what stands under its key, and on nothing else. Taking the tag out of
a table leaves what stands under the other keys.
-/

namespace PhaseExecutors

variable {α τ : Type} {decode : Decoder α} {key tag : String} {v : Value} {a : α}
  {entries others : List (String × Value)}

/-- The fields of a record that is given as a table. -/
def fieldsOf (type : RecordType) (entries : List (String × Value)) : Fields :=
  ⟨type, entries.map fun e => ⟨e.1, e.1, e.2⟩, none⟩

lemma find?_cons (type : RecordType) (key : String) (e : String × Value)
    (entries : List (String × Value)) :
    (fieldsOf type (e :: entries)).find? key =
      if e.1 = key then some (0, ⟨e.1, e.1, e.2⟩)
      else ((fieldsOf type entries).find? key).map fun found => (found.1 + 1, found.2) := by
  unfold Fields.find? fieldsOf
  dsimp only
  rw [List.map_cons, List.findIdx?_cons]
  by_cases hkey : e.1 = key
  · simp [hkey]
  · simp [hkey, Option.bind_map, Option.map_bind, Function.comp_def]

lemma find?_fieldsOf (type : RecordType) (name : String) (entries : List (String × Value)) :
    ((fieldsOf type entries).find? name).map (fun found => found.2.value) =
      Value.lookup? name entries := by
  induction entries with
  | nil => rfl
  | cons e entries ih =>
    rw [Value.lookup?, ← ih, find?_cons]
    split
    · rfl
    · rw [Option.map_map]
      rfl

/-- A table is never an array with too many items. -/
lemma finish_ok (surplus : Surplus) (type : RecordType) (a : τ) :
    (fieldsOf type entries).finish surplus (.ok a) = .ok a := by
  cases surplus <;> rfl

lemma get_of_lookup? (type : RecordType) (h : Value.lookup? key entries = some v)
    (hv : decode v = .ok a) : (fieldsOf type entries).get key decode = .ok a := by
  have hfind := find?_fieldsOf type key entries
  rw [h] at hfind
  obtain ⟨⟨place, given⟩, hfound, rfl⟩ := Option.map_eq_some_iff.mp hfind
  rw [Fields.get, hfound]
  simp only [Fields.decodeAt, hv]
  rfl

lemma getD_of_lookup? (type : RecordType) (d : α) (h : Value.lookup? key entries = some v)
    (hv : decode v = .ok a) : (fieldsOf type entries).getD key decode d = .ok a := by
  have hfind := find?_fieldsOf type key entries
  rw [h] at hfind
  obtain ⟨⟨place, given⟩, hfound, rfl⟩ := Option.map_eq_some_iff.mp hfind
  rw [Fields.getD, Fields.get?, hfound]
  simp only [Fields.decodeAt, hv]
  rfl

lemma getD_of_lookup?_eq_none (type : RecordType) (d : α) (decode : Decoder α)
    (h : Value.lookup? key entries = none) :
    (fieldsOf type entries).getD key decode d = .ok d := by
  have hfind := find?_fieldsOf type key entries
  rw [h, Option.map_eq_none_iff] at hfind
  rw [Fields.getD, Fields.get?, hfind]
  rfl

/-! ### Faults -/

lemma Part.apply_error_of_le {e e' : ℕ × DecodeError} (h : e.1 ≤ e'.1) :
    Part.apply (.error e : Part (α → τ)) (.error e') = .error e := if_pos h

lemma Part.apply_error_of_not_le {e e' : ℕ × DecodeError} (h : ¬e.1 ≤ e'.1) :
    Part.apply (.error e : Part (α → τ)) (.error e') = .error e' := if_neg h

/-! ### Tags -/

lemma lookup?_of_takeEntry (h : takeEntry tag entries = some (v, others)) :
    Value.lookup? tag entries = some v ∧
      ∀ key, key ≠ tag → Value.lookup? key others = Value.lookup? key entries := by
  induction entries generalizing others with
  | nil => cases h
  | cons e entries ih =>
    obtain ⟨k, w⟩ := e
    rw [takeEntry] at h
    split at h
    · next hk =>
      cases h
      refine ⟨if_pos hk, fun key hkey => ?_⟩
      have hne : k ≠ key := fun heq => hkey (heq.symm.trans hk)
      rw [Value.lookup?_cons, if_neg hne]
    · next hk =>
      obtain ⟨⟨v', others'⟩, htake, heq⟩ := Option.map_eq_some_iff.mp h
      cases heq
      obtain ⟨htag, hothers⟩ := ih htake
      refine ⟨(if_neg hk).trans htag, fun key hkey => ?_⟩
      rw [Value.lookup?_cons, Value.lookup?_cons, hothers key hkey]

lemma lookup?_of_takeEntry_eq_none (h : takeEntry tag entries = none) :
    Value.lookup? tag entries = none := by
  induction entries with
  | nil => rfl
  | cons e entries ih =>
    obtain ⟨k, w⟩ := e
    rw [takeEntry] at h
    split at h
    · cases h
    · next hk => exact (if_neg hk).trans (ih (Option.map_eq_none_iff.mp h))

end PhaseExecutors
