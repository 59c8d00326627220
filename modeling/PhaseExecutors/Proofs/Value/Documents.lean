import Mathlib.Data.List.Forall2
import Mathlib.Data.Set.Defs
import PhaseExecutors.Proofs.Value.JsonText
import PhaseExecutors.Proofs.Value.Records

/-!
Documents that are written from typed data, and read again.

The tables of a document may have their keys in any order; sorting them gives the form of the data
that is compared. A decoder looks under the keys it knows, so it makes the same of each of these
documents. This goes from the fields of a record to the record, and from the items of a list to the
list.
-/

namespace PhaseExecutors

/-- Of every table the keys are distinct. -/
inductive Value.IsDistinct : Value → Prop
  | null : IsDistinct .null
  | bool (b : Bool) : IsDistinct (.bool b)
  | unsigned (n : UInt64) : IsDistinct (.unsigned n)
  | text (s : String) : IsDistinct (.text s)
  | array {items : List Value} (h : ∀ v ∈ items, IsDistinct v) : IsDistinct (.array items)
  | table {entries : List (String × Value)} (hkeys : (entries.map Prod.fst).Nodup)
      (h : ∀ e ∈ entries, IsDistinct e.2) : IsDistinct (.table entries)

lemma Value.IsDistinct.isExact {v : Value} (h : v.IsDistinct) : Json.IsExact v := by
  induction h with
  | null => exact .null
  | bool b => exact .bool b
  | unsigned n => exact .unsigned n
  | text s => exact .text s
  | array _ ih => exact .array ih
  | table _ _ ih => exact .table ih

lemma Value.IsSorted.nodup_keys {α : Type} {entries : List (String × α)}
    (h : Value.IsSorted entries) : (entries.map Prod.fst).Nodup :=
  List.pairwise_map.mpr (h.imp fun hlt => hlt.ne)

/-! ### The order of keys -/

/-- One value is the other with entries of its tables, at any depth, in other places. -/
inductive Value.Reorders : Value → Value → Prop
  | refl (v : Value) : Reorders v v
  | trans {u v w : Value} (h : Reorders u v) (h' : Reorders v w) : Reorders u w
  | table {entries entries' : List (String × Value)} (h : entries.Perm entries') :
      Reorders (.table entries) (.table entries')
  | entry {v w : Value} (before after : List (String × Value)) (key : String) (h : Reorders v w) :
      Reorders (.table (before ++ (key, v) :: after)) (.table (before ++ (key, w) :: after))
  | item {v w : Value} (before after : List Value) (h : Reorders v w) :
      Reorders (.array (before ++ v :: after)) (.array (before ++ w :: after))

lemma Value.Reorders.isDistinct {v w : Value} (h : Reorders w v) (hv : v.IsDistinct) :
    w.IsDistinct := by
  induction h with
  | refl => exact hv
  | trans _ _ ih ih' => exact ih (ih' hv)
  | table hperm =>
    cases hv with
    | table hkeys hvalues =>
      exact .table ((hperm.map Prod.fst).nodup_iff.mpr hkeys) fun e he =>
        hvalues e (hperm.subset he)
  | entry before after key _ ih =>
    cases hv with
    | table hkeys hvalues =>
      refine .table (by simpa using hkeys) ?_
      rw [List.forall_mem_append, List.forall_mem_cons] at hvalues ⊢
      exact ⟨hvalues.1, ih hvalues.2.1, hvalues.2.2⟩
  | item before after _ ih =>
    cases hv with
    | array hitems =>
      refine .array ?_
      rw [List.forall_mem_append, List.forall_mem_cons] at hitems ⊢
      exact ⟨hitems.1, ih hitems.2.1, hitems.2.2⟩

/-- Sorting undoes the change. -/
lemma Value.Reorders.sorted_eq {v w : Value} (h : Reorders w v) (hv : v.IsDistinct) :
    Json.sorted w = Json.sorted v := by
  induction h with
  | refl => rfl
  | trans _ h' ih ih' => exact (ih (h'.isDistinct hv)).trans (ih' hv)
  | table hperm =>
    cases hv with
    | table hkeys _ =>
      have hsorted := hperm.map fun e => (e.1, Json.sorted e.2)
      rw [← Json.sortedEntries_eq_map, ← Json.sortedEntries_eq_map] at hsorted
      have hkeys' := (hperm.map Prod.fst).nodup_iff.mpr hkeys
      rw [Json.sorted, Json.sorted, Value.ofEntries, Value.ofEntries,
        Value.sortEntries_of_perm hsorted (by rwa [Json.keys_sortedEntries])]
  | entry before after key _ ih =>
    cases hv with
    | table _ hvalues =>
      have hvalue := ih (hvalues _ (List.mem_append_right _ List.mem_cons_self))
      simp only [Json.sorted, Json.sortedEntries_eq_map, List.map_append, List.map_cons, hvalue]
  | item before after _ ih =>
    cases hv with
    | array hitems =>
      have hitem := ih (hitems _ (List.mem_append_right _ List.mem_cons_self))
      simp only [Json.sorted, Json.sortedItems_eq_map, List.map_append, List.map_cons, hitem]

/-- The document is the value up to the order of keys. -/
structure IsDocument (w v : Value) : Prop where
  distinct : w.IsDistinct
  sorted : Json.sorted w = v

/-- The table has a document of each entry. -/
def Holds (entries form : List (String × Value)) : Prop :=
  ∀ key v, Value.lookup? key form = some v →
    ∃ w, Value.lookup? key entries = some w ∧ IsDocument w v

/-- The decoder makes `a` of every document of `v`. -/
def Reads {α : Type} (decode : Decoder α) (v : Value) (a : α) : Prop :=
  ∀ w, IsDocument w v → decode w = .ok a

namespace IsDocument

variable {w v : Value} {form entries : List (String × Value)} {items : List Value}

lemma isExact (h : IsDocument w v) : Json.IsExact w := h.distinct.isExact

lemma reorders {w' : Value} (h : IsDocument w v) (hreorders : w'.Reorders w) : IsDocument w' v :=
  ⟨hreorders.isDistinct h.distinct, (hreorders.sorted_eq h.distinct).trans h.sorted⟩

/-- A value without parts has one document. -/
lemma eq_of_scalar {scalar : String} (h : IsDocument w v) (hscalar : Json.scalar? v = some scalar) :
    w = v := by
  obtain ⟨-, rfl⟩ := h
  cases w with
  | array | table => cases hscalar
  | null | bool | unsigned | signed | float | char | text => rfl

lemma eq_array (h : IsDocument w (.array items)) :
    ∃ items', w = .array items' ∧ List.Forall₂ IsDocument items' items := by
  obtain ⟨hdistinct, hsorted⟩ := h
  cases hdistinct with
  | null | bool | unsigned | text | table => cases hsorted
  | @array items' hitems =>
    have heq : Json.sortedItems items' = items := Value.array.inj hsorted
    rw [Json.sortedItems_eq_map] at heq
    refine ⟨items', rfl, ?_⟩
    rw [← heq, List.forall₂_map_right_iff, List.forall₂_same]
    exact fun v hv => ⟨hitems v hv, rfl⟩

lemma eq_table (h : IsDocument w (.table form)) :
    ∃ entries, w = .table entries ∧ Holds entries form := by
  obtain ⟨hdistinct, hsorted⟩ := h
  cases hdistinct with
  | null | bool | unsigned | text | array => cases hsorted
  | @table entries hkeys hvalues =>
    refine ⟨entries, rfl, fun key v hv => ?_⟩
    have hget := Json.get?_sorted hkeys key
    rw [hsorted] at hget
    change Value.lookup? key form = (Value.lookup? key entries).map Json.sorted at hget
    rw [hv] at hget
    obtain ⟨w, hw, hsorted'⟩ := Option.map_eq_some_iff.mp hget.symm
    exact ⟨w, hw, hvalues _ (Value.mem_of_lookup? hw), hsorted'⟩

@[simp] lemma null : IsDocument .null .null := ⟨.null, rfl⟩

@[simp] lemma bool (b : Bool) : IsDocument (.bool b) (.bool b) := ⟨.bool b, rfl⟩

@[simp] lemma unsigned (n : Size) : IsDocument (.unsigned n) (.unsigned n) := ⟨.unsigned n, rfl⟩

@[simp] lemma text (s : String) : IsDocument (.text s) (.text s) := ⟨.text s, rfl⟩

lemma array (h : ∀ v ∈ items, IsDocument v v) : IsDocument (.array items) (.array items) := by
  have hitems : items.map Json.sorted = items :=
    (List.map_congr_left fun v hv => (h v hv).sorted).trans (List.map_id items)
  refine ⟨.array fun v hv => (h v hv).distinct, ?_⟩
  rw [Json.sorted, Json.sortedItems_eq_map, hitems]

/-- A table with the given keys, which ascend. -/
lemma table (keys : List String) (hform : form.map Prod.fst = keys)
    (hkeys : keys.Pairwise (· < ·)) (h : ∀ e ∈ form, IsDocument e.2 e.2) :
    IsDocument (.table form) (.table form) := by
  have hsorted : Value.IsSorted form := by
    rw [← hform] at hkeys
    exact List.pairwise_map.mp hkeys
  exact ⟨.table hsorted.nodup_keys fun e he => (h e he).distinct,
    Json.sorted_table hsorted fun e he => (h e he).sorted⟩

end IsDocument

/-! ### Simple values and lists -/

section Reads

variable {α : Type} {decode : Decoder α} {a : α} {toValue : α → Value}

lemma reads_text (s : String) : Reads Decode.text (.text s) s := by
  intro w h
  rw [h.eq_of_scalar rfl]
  rfl

lemma reads_size (n : Size) : Reads Decode.size (.unsigned n) n := by
  intro w h
  rw [h.eq_of_scalar rfl]
  rfl

lemma reads_bool (b : Bool) : Reads Decode.bool (.bool b) b := by
  intro w h
  rw [h.eq_of_scalar rfl]
  rfl

lemma reads_name {known : List (String × α)} {name : String} (h : known.lookup name = some a) :
    Reads (Decode.name known) (.text name) a := by
  intro w hw
  rw [hw.eq_of_scalar rfl]
  simp only [Decode.name, Decode.named, h]

lemma items_of_forall₂ {items : List Value} {as : List α}
    (h : List.Forall₂ (fun w a => decode w = .ok a) items as) :
    Decode.items decode items = .ok as := by
  induction h with
  | nil => rfl
  | cons ha _ ih =>
    simp only [Decode.items, ha, ih]
    rfl

lemma reads_list (h : ∀ a, Reads decode (toValue a) a) (as : List α) :
    Reads (Decode.list decode) (.array (as.map toValue)) as := by
  intro w hw
  obtain ⟨items, rfl, hitems⟩ := hw.eq_array
  rw [List.forall₂_map_right_iff] at hitems
  exact items_of_forall₂ (hitems.imp fun w a => h a w)

/-! ### Records -/

lemma reads_of_holds {form : List (String × Value)}
    (h : ∀ entries, Holds entries form → decode (.table entries) = .ok a) :
    Reads decode (.table form) a := by
  intro w hw
  obtain ⟨entries, rfl, hholds⟩ := hw.eq_table
  exact h entries hholds

end Reads

namespace Holds

variable {α β γ τ : Type} {entries form : List (String × Value)} {key key' : String} {v v' : Value}
  {a : α} {b : β} {c : γ} {decode : Decoder α} {decode' : Decoder β} {last : Part γ}

lemma get (h : Holds entries form) (type : RecordType) (hkey : Value.lookup? key form = some v)
    (hreads : Reads decode v a) : (fieldsOf type entries).get key decode = .ok a := by
  obtain ⟨w, hw, hdocument⟩ := h key v hkey
  exact get_of_lookup? type hw (hreads w hdocument)

/-- A record of one field. -/
lemma one (h : Holds entries form) (surplus : Surplus) (type : RecordType) (make : α → τ)
    (hkey : Value.lookup? key form = some v) (hreads : Reads decode v a) :
    (fieldsOf type entries).finish surplus (((fieldsOf type entries).get key decode).map make) =
      .ok (make a) := by
  rw [h.get type hkey hreads]
  exact finish_ok surplus type _

/-- A record of two fields. -/
lemma two (h : Holds entries form) (surplus : Surplus) (type : RecordType) (make : α → β → τ)
    (hkey : Value.lookup? key form = some v) (hreads : Reads decode v a)
    (hkey' : Value.lookup? key' form = some v') (hreads' : Reads decode' v' b) :
    (fieldsOf type entries).finish surplus
      ((((fieldsOf type entries).get key decode).map make).apply
        ((fieldsOf type entries).get key' decode')) = .ok (make a b) := by
  rw [h.get type hkey hreads, h.get type hkey' hreads']
  exact finish_ok surplus type _

/-- A record of three fields, of which the last may be absent. -/
lemma three (h : Holds entries form) (surplus : Surplus) (type : RecordType)
    (make : α → β → γ → τ) (hkey : Value.lookup? key form = some v) (hreads : Reads decode v a)
    (hkey' : Value.lookup? key' form = some v') (hreads' : Reads decode' v' b)
    (hlast : last = .ok c) :
    (fieldsOf type entries).finish surplus
      (((((fieldsOf type entries).get key decode).map make).apply
        ((fieldsOf type entries).get key' decode')).apply last) = .ok (make a b c) := by
  rw [h.get type hkey hreads, h.get type hkey' hreads', hlast]
  exact finish_ok surplus type _

/-- Without the tag the table still has the other entries. -/
lemma takeEntry (h : Holds entries form) {tag : String} {rest : List (String × Value)}
    (hform : takeEntry tag form = some (v, rest)) (hrest : Value.lookup? tag rest = none) :
    ∃ w others, IsDocument w v ∧ PhaseExecutors.takeEntry tag entries = some (w, others) ∧
      Holds others rest := by
  obtain ⟨htag, hform⟩ := lookup?_of_takeEntry hform
  obtain ⟨w, hw, hdocument⟩ := h tag v htag
  cases htake : PhaseExecutors.takeEntry tag entries with
  | none =>
    rw [lookup?_of_takeEntry_eq_none htake] at hw
    cases hw
  | some taken =>
    obtain ⟨w', others⟩ := taken
    obtain ⟨hw', hothers⟩ := lookup?_of_takeEntry htake
    obtain rfl : w = w' := Option.some.inj (hw.symm.trans hw')
    refine ⟨w, others, hdocument, rfl, fun key v hv => ?_⟩
    have hkey : key ≠ tag := by
      rintro rfl
      rw [hrest] at hv
      cases hv
    rw [hothers key hkey]
    rw [hform key hkey] at hv
    exact h key v hv

end Holds

/-! ### Tagged records -/

section Tagged

variable {α τ : Type} {type tag name : String} {known : List (String × α)} {a : α} {t : τ}
  {form rest : List (String × Value)} {fill : α × Value → Except DecodeError τ}

/-- A record with a tag is read if what the tag names is read from the other entries. -/
lemma reads_tagged (hform : takeEntry tag form = some (.text name, rest))
    (hrest : Value.lookup? tag rest = none) (hname : known.lookup name = some a)
    (h : ∀ others, Holds others rest → fill (a, .table others) = .ok t) :
    Reads (fun v => Decode.tagged type tag known v >>= fill) (.table form) t := by
  refine reads_of_holds fun entries hentries => ?_
  obtain ⟨w, others, hw, htake, hothers⟩ := hentries.takeEntry hform hrest
  rw [hw.eq_of_scalar rfl] at htake
  simp only [Decode.tagged, htake, Decode.named, hname]
  exact h others hothers

end Tagged

end PhaseExecutors
