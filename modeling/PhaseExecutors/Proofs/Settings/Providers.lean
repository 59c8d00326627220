import Mathlib.Data.List.Induction
import PhaseExecutors.Proofs.Config.Validated
import PhaseExecutors.Proofs.Settings.Refresh

/-!
Providers that answer each id with a group of that id.

A set of options holds for each id the group that was inserted last, unless it was removed since.
Its map would take any group under any id; that each group stands under its own is an invariant of
the edits. The options of a configuration have no such history. But a set that is filled with them
answers every question as the configuration does, whatever the order was in which it was filled; a
refresh cannot tell the two apart.
-/

namespace PhaseExecutors

namespace Provider

variable {p : Provider}

/-- Every answer is a group of the id asked for. -/
def IsFaithful (p : Provider) : Prop := ∀ id g, p id = some g → g.id = id

lemma IsFaithful.filter_eq_none (h : p.IsFaithful) (id : GroupId) :
    ((p id).filter fun g => g.id ≠ id) = none := by
  cases hanswer : p id with
  | none => rfl
  | some g =>
    have hid : g.id = id := h id g hanswer
    exact Option.filter_some_neg (by simpa using hid)

/-- No answer of a faithful provider is taken for one to another question. -/
lemma IsFaithful.mistaken_eq (h : p.IsFaithful) : p.mistaken = [] := by
  simp only [mistaken, h.filter_eq_none, Option.map_none, List.filterMap_none]

/-- The groups that a provider answers with, in the order in which a refresh asks. -/
lemma mem_filterMap_all {g : OptionGroup} :
    g ∈ GroupId.all.filterMap p ↔ ∃ id, p id = some g := by
  rw [List.mem_filterMap]
  exact exists_congr fun id => and_iff_right id.mem_all

lemma level_of_mem_clampNote {a : Answers} {s : Snapshot} {line : LogLine}
    (h : line ∈ a.clampNote s) : line.level = .info := by
  unfold Answers.clampNote at h
  split at h
  · cases h
  split at h
  · cases h
  rw [List.mem_singleton.mp h]

/-- A refresh from it has nothing to warn of: its report of a size that gives way is none. -/
lemma IsFaithful.level_ne_warn (h : p.IsFaithful) (s : Settings) {line : LogLine}
    (hline : line ∈ (s.refresh p).2) : line.level ≠ .warn := by
  have hgather : (Answers.gather p {} GroupId.all).2 = [] := by
    simp only [Answers.gather_snd, h.filter_eq_none, Option.map_none, List.filterMap_none]
  rw [Settings.refresh_snd, hgather, List.nil_append, List.mem_append, List.mem_singleton] at hline
  rcases hline with hclamp | rfl
  · rw [level_of_mem_clampNote hclamp]
    exact nofun
  · exact nofun

end Provider

/-! ### Sets of options -/

namespace StaticOptions

/-- A change to a set of options, whether made in place or on the way to the next set. -/
inductive Edit
  | insert (g : OptionGroup)
  | remove (id : GroupId)

/-- The id that an edit is about. -/
def Edit.target : Edit → GroupId
  | .insert g => g.id
  | .remove id => id

/-- What there is under that id after it. -/
def Edit.group? : Edit → Option OptionGroup
  | .insert g => some g
  | .remove _ => none

def edit (o : StaticOptions) : Edit → StaticOptions
  | .insert g => o.insert g
  | .remove id => (o.remove id).2

/-- The set of options that edits make of the empty one. -/
def run (es : List Edit) : StaticOptions := es.foldl edit empty

/-- The group was inserted under the id, and neither replaced nor removed since. -/
def Latest (es : List Edit) (id : GroupId) (g : OptionGroup) : Prop :=
  ∃ before after, es = before ++ .insert g :: after ∧ g.id = id ∧ ∀ e ∈ after, e.target ≠ id

variable {es : List Edit} {e : Edit} {id : GroupId} {g : OptionGroup} {gs : List OptionGroup}

/-- An edit changes the answer to the id that it is about. -/
lemma lookup_edit (o : StaticOptions) (e : Edit) (id : GroupId) :
    (o.edit e).lookup id = if e.target = id then e.group? else o.lookup id := by
  cases e with
  | insert g => exact lookup_insert o g id
  | remove removed => exact lookup_remove o removed id

lemma run_snoc (es : List Edit) (e : Edit) : run (es ++ [e]) = (run es).edit e :=
  List.foldl_concat ..

lemma latest_snoc_of_eq (h : e.target = id) :
    Latest (es ++ [e]) id g ↔ e.group? = some g := by
  constructor
  · rintro ⟨before, after, heq, -, hafter⟩
    rcases List.eq_nil_or_concat after with rfl | ⟨after, e', rfl⟩
    · obtain ⟨-, rfl⟩ := List.append_singleton_inj.mp heq
      rfl
    · rw [List.concat_eq_append, ← List.cons_append, ← List.append_assoc] at heq
      obtain ⟨-, rfl⟩ := List.append_singleton_inj.mp heq
      exact absurd h (hafter e (by simp))
  · intro hg
    cases e with
    | insert g' =>
      obtain rfl : g' = g := Option.some.inj hg
      exact ⟨es, [], rfl, h, nofun⟩
    | remove removed => cases hg

lemma latest_snoc_of_ne (h : e.target ≠ id) : Latest (es ++ [e]) id g ↔ Latest es id g := by
  constructor
  · rintro ⟨before, after, heq, hid, hafter⟩
    rcases List.eq_nil_or_concat after with rfl | ⟨after, e', rfl⟩
    · obtain ⟨-, rfl⟩ := List.append_singleton_inj.mp heq
      exact absurd hid h
    · rw [List.concat_eq_append, ← List.cons_append, ← List.append_assoc] at heq
      obtain ⟨rfl, -⟩ := List.append_singleton_inj.mp heq
      exact ⟨before, after, rfl, hid, fun e he => hafter e (by simp [he])⟩
  · rintro ⟨before, after, rfl, hid, hafter⟩
    refine ⟨before, after ++ [e], by simp, hid, fun e' he' => ?_⟩
    rcases List.mem_append.mp he' with he' | he'
    · exact hafter e' he'
    · rwa [List.mem_singleton.mp he']

/-- **A set of options answers with the group that was inserted last and not removed since.** -/
theorem lookup_run (es : List Edit) (id : GroupId) (g : OptionGroup) :
    (run es).lookup id = some g ↔ Latest es id g := by
  induction es using List.reverseRecOn with
  | nil =>
    refine iff_of_false nofun ?_
    rintro ⟨before, after, heq, -⟩
    simp at heq
  | append_singleton es e ih =>
    rw [run_snoc, lookup_edit]
    by_cases h : e.target = id
    · rw [if_pos h, latest_snoc_of_eq h]
    · rw [if_neg h, latest_snoc_of_ne h, ih]

/-! ### Keys -/

/-- Every entry has the id of its group as its key. -/
def IsKeyed (o : StaticOptions) : Prop := ∀ e ∈ o.groups.entries, e.2.id = e.1

lemma isKeyed_empty : empty.IsKeyed := nofun

lemma IsKeyed.insert {o : StaticOptions} (h : o.IsKeyed) (g : OptionGroup) :
    (o.insert g).IsKeyed := by
  intro e he
  rcases KeyedMap.mem_putEntry he with rfl | he
  · rfl
  · exact h e he

lemma IsKeyed.remove {o : StaticOptions} (h : o.IsKeyed) (id : GroupId) : (o.remove id).2.IsKeyed :=
  fun e he => h e ((KeyedMap.takeEntry_sublist id o.groups.entries).mem he)

lemma IsKeyed.edit {o : StaticOptions} (h : o.IsKeyed) (e : Edit) : (o.edit e).IsKeyed := by
  cases e with
  | insert g => exact h.insert g
  | remove id => exact h.remove id

/-- **Edits keep every group under its own id.** -/
theorem isKeyed_run (es : List Edit) : (run es).IsKeyed := by
  induction es using List.reverseRecOn with
  | nil => exact isKeyed_empty
  | append_singleton es e ih =>
    rw [run_snoc]
    exact ih.edit e

lemma isKeyed_ofList (gs : List OptionGroup) : (ofList gs).IsKeyed := by
  have hrun : ofList gs = run (gs.map .insert) := by
    rw [run, List.foldl_map]
    rfl
  rw [hrun]
  exact isKeyed_run _

lemma IsKeyed.isFaithful {o : StaticOptions} (h : o.IsKeyed) : o.lookup.IsFaithful :=
  fun id g hg => h (id, g) (KeyedMap.mem_of_getEntry hg)

/-- Without the keys it would not be: a map may well hold a group under the id of another one. -/
example (g : OptionGroup) (id : GroupId) (h : g.id ≠ id) :
    ¬(StaticOptions.mk (.insert .empty id g)).lookup.IsFaithful := by
  intro hfaithful
  refine h (hfaithful id g ?_)
  rw [lookup, KeyedMap.get?_insert, if_pos rfl]

/-! ### Filling a set of options -/

lemma ofList_snoc (gs : List OptionGroup) (g : OptionGroup) :
    ofList (gs ++ [g]) = (ofList gs).insert g :=
  List.foldl_concat ..

lemma mem_of_lookup_ofList (h : (ofList gs).lookup id = some g) : g ∈ gs := by
  induction gs using List.reverseRecOn with
  | nil => cases h
  | append_singleton gs g' ih =>
    rw [ofList_snoc, lookup_insert] at h
    split at h
    · rw [Option.some.injEq] at h
      simp [h]
    · exact List.mem_append_left _ (ih h)

lemma lookup_ofList_ne_none (h : g ∈ gs) : (ofList gs).lookup g.id ≠ none := by
  induction gs using List.reverseRecOn with
  | nil => cases h
  | append_singleton gs g' ih =>
    rw [ofList_snoc, lookup_insert]
    by_cases hid : g'.id = g.id
    · rw [if_pos hid]
      exact nofun
    · have hne : g ≠ g' := fun heq => hid (heq ▸ rfl)
      rw [if_neg hid]
      exact ih (by simpa [hne] using h)

/-- **Filled with the answers of a faithful provider**, in any order and any number of times, a set
of options answers as that provider does. -/
theorem lookup_ofList {p : Provider} (hp : p.IsFaithful) (h : ∀ g, g ∈ gs ↔ ∃ id, p id = some g) :
    (ofList gs).lookup = p := by
  -- the provider has one group of each id, so the latest one of that id is it
  have hsub {id : GroupId} {g : OptionGroup} (hg : (ofList gs).lookup id = some g) :
      p id = some g := by
    obtain ⟨asked, hasked⟩ := (h g).mp (mem_of_lookup_ofList hg)
    have hid : g.id = asked := hp asked g hasked
    have hkey : g.id = id := (isKeyed_ofList gs).isFaithful id g hg
    rwa [← hid, hkey] at hasked
  funext id
  cases hanswer : p id with
  | none =>
    rw [Option.eq_none_iff_forall_ne_some]
    intro g hg
    rw [hsub hg] at hanswer
    cases hanswer
  | some g =>
    obtain rfl : g.id = id := hp id g hanswer
    obtain ⟨g', hg'⟩ := Option.ne_none_iff_exists'.mp
      (lookup_ofList_ne_none ((h g).mpr ⟨g.id, hanswer⟩))
    rw [hg', ← hsub hg', hanswer]

/-- What holds of a set of options after any edits. -/
structure Keeps (es : List Edit) : Prop where
  lookup_iff : ∀ id g, (run es).lookup id = some g ↔ Latest es id g
  /-- Every group of the map stands under its own id, so it is found under no other one. -/
  keyed : (run es).IsKeyed
  id_eq : ∀ id g, (run es).lookup id = some g → g.id = id
  /-- A removal gives back what was found before, -/
  removed : ∀ id, ((run es).remove id).1 = (run es).lookup id
  /-- and afterwards nothing is found there, while the other answers stay. -/
  lookup_remove : ∀ id other, ((run es).remove id).2.lookup other =
    if id = other then none else (run es).lookup other
  isEmpty_iff : (run es).isEmpty = true ↔ ∀ id, (run es).lookup id = none
  /-- A refresh from it takes no answer for one to another question. -/
  heard : (run es).lookup.mistaken = [] ∧
    ∀ s : Settings, ∀ line ∈ (s.refresh (run es).lookup).2, line.level ≠ .warn

end StaticOptions

/-- What holds of the options of a configuration, next to sets that are filled with them. -/
structure Config.Fills (c : Config) (host : Size) : Prop where
  id_eq : ∀ id g, c.options host id = some g → g.id = id
  heard : (c.options host).mistaken = [] ∧
    ∀ s : Settings, ∀ line ∈ (s.refresh (c.options host)).2, line.level ≠ .warn
  /-- The answers to all questions are the groups of the configuration. -/
  mem_iff : ∀ g, g ∈ GroupId.all.filterMap (c.options host) ↔ ∃ id, c.options host id = some g
  /-- A set that has been filled with these groups, in any order, answers as it does, -/
  lookup_eq : ∀ gs : List OptionGroup, (∀ g, g ∈ gs ↔ ∃ id, c.options host id = some g) →
    (StaticOptions.ofList gs).lookup = c.options host
  /-- so refreshes from the two give the same snapshot, whichever settings they start from. -/
  snapshot_eq : ∀ gs : List OptionGroup, (∀ g, g ∈ gs ↔ ∃ id, c.options host id = some g) →
    ∀ s s' : Settings, (s.refresh (StaticOptions.ofList gs).lookup).1.current =
      (s'.refresh (c.options host)).1.current

/-- **Both providers are faithful**, and one can stand in for the other. -/
theorem Provider.faithful_of_either :
    (∀ es : List StaticOptions.Edit, StaticOptions.Keeps es) ∧
      ∀ (c : Config) (host : Size), c.Fills host := by
  constructor
  · intro es
    have hkeyed := StaticOptions.isKeyed_run es
    have hfaithful := hkeyed.isFaithful
    exact {
      lookup_iff := StaticOptions.lookup_run es
      keyed := hkeyed
      id_eq := hfaithful
      removed := StaticOptions.remove_fst _
      lookup_remove := StaticOptions.lookup_remove _
      isEmpty_iff := StaticOptions.isEmpty_iff _
      heard := ⟨hfaithful.mistaken_eq, fun s _ hline => hfaithful.level_ne_warn s hline⟩ }
  · intro c host
    have hfaithful : (c.options host).IsFaithful := fun _ _ => Config.id_of_options
    exact {
      id_eq := hfaithful
      heard := ⟨hfaithful.mistaken_eq, fun s _ hline => hfaithful.level_ne_warn s hline⟩
      mem_iff := fun _ => mem_filterMap_all
      lookup_eq := fun _ h => StaticOptions.lookup_ofList hfaithful h
      snapshot_eq := by
        intro gs h s s'
        rw [StaticOptions.lookup_ofList hfaithful h, Settings.refresh_fst, Settings.refresh_fst]
        rfl }

end PhaseExecutors
