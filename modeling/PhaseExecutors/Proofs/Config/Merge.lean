import PhaseExecutors.Config.Layer
import PhaseExecutors.Proofs.Value.Entries

/-!
What merged layers hold, key by key.

Every table of a layer is sorted by key, so a key stands in it once. Under a key a merged table
holds what the upper layer has there, on top of what the lower layer has there; a key that one of
them lacks is as the other one has it. Which source of a configuration counts rests on this alone,
and on no more of the merge.
-/

namespace PhaseExecutors

namespace Layer

open Value (IsSorted lookup? lookup?_insertSorted)

variable {origin : Origin} {lower upper : Layer} {key : String}
  {below above : List (String × Layer)}

/-- A layer of a document: its tables are sorted by key, and a leaf is no table. -/
inductive WellFormed : Layer → Prop
  | leaf {origin v} (h : ∀ entries, v ≠ .table entries) : WellFormed (.leaf origin v)
  | table {origin entries} (hsorted : IsSorted entries) (hall : ∀ e ∈ entries, WellFormed e.2) :
    WellFormed (.table origin entries)

lemma WellFormed.empty (origin : Origin) : WellFormed (.table origin []) :=
  .table List.Pairwise.nil nofun

lemma WellFormed.insertSorted (h : WellFormed (.table origin below)) (hupper : upper.WellFormed) :
    WellFormed (.table origin (Value.insertSorted key upper below)) := by
  cases h with
  | table hsorted hall =>
    refine .table hsorted.insertSorted fun e he => ?_
    rcases Value.mem_insertSorted he with rfl | he
    · exact hupper
    · exact hall e he

/-- What a layer that is a table holds under a key. -/
def get? : Layer → String → Option Layer
  | .leaf .., _ => none
  | .table _ entries, key => lookup? key entries

lemma lookup?_toEntries (entries : List (String × Layer)) :
    lookup? key (toEntries entries) = (lookup? key entries).map toValue := by
  induction entries with
  | nil => rfl
  | cons e entries ih =>
    rw [toEntries, lookup?, lookup?, ih]
    split
    · rfl
    · rfl

lemma WellFormed.get?_toValue {layer : Layer} (h : layer.WellFormed) (key : String) :
    layer.toValue.get? key = (layer.get? key).map toValue := by
  cases h with
  | @leaf origin v h =>
    cases v with
    | table entries => exact absurd rfl (h entries)
    | _ => rfl
  | table hsorted hall => exact lookup?_toEntries _

lemma WellFormed.of_get? {layer part : Layer} (h : layer.WellFormed)
    (hpart : layer.get? key = some part) : part.WellFormed := by
  cases h with
  | leaf h => cases hpart
  | table hsorted hall => exact hall _ (Value.mem_of_lookup? hpart)

/-! ### Layers of one origin -/

lemma get?_ofValue (origin : Origin) (v : Value) :
    (ofValue origin v).get? key = (v.get? key).map (ofValue origin) := by
  cases v with
  | table entries =>
    change lookup? key (ofEntries origin entries) = (lookup? key entries).map (ofValue origin)
    induction entries with
    | nil => rfl
    | cons e entries ih =>
      rw [ofEntries, lookup?_insertSorted, ih, lookup?]
      split
      · rfl
      · rfl
  | _ => rfl

mutual

lemma wellFormed_ofValue (origin : Origin) : ∀ v, (ofValue origin v).WellFormed
  | .table entries => wellFormed_ofEntries origin entries
  | .null | .bool _ | .unsigned _ | .signed _ | .float _ | .char _ | .text _ | .array _ =>
    .leaf nofun

lemma wellFormed_ofEntries (origin : Origin) :
    ∀ entries, WellFormed (.table origin (ofEntries origin entries))
  | [] => WellFormed.empty origin
  | e :: entries =>
    (wellFormed_ofEntries origin entries).insertSorted (wellFormed_ofValue origin e.2)

end

/-! ### Merging -/

/-- What is relied on of a function that puts one layer on top of another. -/
structure IsMerge (m : Layer → Layer → Layer) : Prop where
  /-- A value takes the place of whatever is below it, -/
  replaces : ∀ lower origin v, m lower (.leaf origin v) = .leaf origin v
  /-- and whatever is on top of a value takes its place. -/
  covers : ∀ origin v upper, m (.leaf origin v) upper = upper
  /-- Two tables are joined key by key. -/
  joins : ∀ {origin below origin' above}, WellFormed (.table origin below) →
    WellFormed (.table origin' above) →
      ∃ entries, m (.table origin below) (.table origin' above) = .table origin' entries ∧
        WellFormed (.table origin' entries) ∧
          ∀ key, lookup? key entries = Option.merge (fun upper lower => m lower upper)
            (lookup? key above) (lookup? key below)

section IsMerge

variable {m : Layer → Layer → Layer} {origin' : Origin}

lemma IsMerge.wellFormed (hm : IsMerge m) (hlower : lower.WellFormed)
    (hupper : upper.WellFormed) : (m lower upper).WellFormed := by
  cases hupper with
  | leaf h =>
    rw [hm.replaces]
    exact .leaf h
  | table hsorted hall =>
    cases hlower with
    | leaf h =>
      rw [hm.covers]
      exact .table hsorted hall
    | table hsorted' hall' =>
      obtain ⟨entries, heq, hwell, -⟩ := hm.joins (.table hsorted' hall') (.table hsorted hall)
      rw [heq]
      exact hwell

lemma IsMerge.get?_table (hm : IsMerge m) (hbelow : WellFormed (.table origin below))
    (habove : WellFormed (.table origin' above)) (key : String) :
    (m (.table origin below) (.table origin' above)).get? key =
      Option.merge (fun upper lower => m lower upper)
        (get? (.table origin' above) key) (get? (.table origin below) key) := by
  obtain ⟨entries, heq, -, hlookup⟩ := hm.joins hbelow habove
  rw [heq]
  exact hlookup key

end IsMerge

/-- Each key of the upper entries is met once, so the entries below are as they were. -/
lemma lookup?_mergeEntries (h : IsSorted above) :
    lookup? key (mergeEntries below above) = Option.merge (fun upper lower => merge lower upper)
      (lookup? key above) (lookup? key below) := by
  induction above generalizing below with
  | nil => rw [mergeEntries, Value.lookup?_nil, Option.merge_none_left]
  | cons e above ih =>
    obtain ⟨hbelow, htail⟩ := List.pairwise_cons.mp h
    rw [mergeEntries, ih htail, lookup?_insertSorted]
    by_cases hkey : e.1 = key
    · have hnone : lookup? key above = none :=
        Value.lookup?_eq_none fun e' he' => hkey ▸ (hbelow e' he').ne'
      rw [lookup?, if_pos hkey, if_pos hkey, hnone, hkey]
      cases lookup? key below with
      | none => rfl
      | some lower => rfl
    · rw [lookup?, if_neg hkey, if_neg hkey]

lemma WellFormed.mergeEntries (hbelow : WellFormed (.table origin below))
    (habove : ∀ e ∈ above, e.2.WellFormed)
    (hmerge : ∀ e ∈ above, ∀ lower : Layer, lower.WellFormed → (lower.merge e.2).WellFormed) :
    WellFormed (.table origin (mergeEntries below above)) := by
  induction above generalizing below with
  | nil => exact hbelow
  | cons e above ih =>
    rw [Layer.mergeEntries]
    refine ih (hbelow.insertSorted ?_) (fun e' he' => habove e' (.tail e he'))
      fun e' he' => hmerge e' (.tail e he')
    cases hlookup : get? (.table origin below) e.1 with
    | none =>
      rw [show lookup? e.1 below = none from hlookup]
      exact habove e List.mem_cons_self
    | some lower =>
      rw [show lookup? e.1 below = some lower from hlookup]
      exact hmerge e List.mem_cons_self lower (hbelow.of_get? hlookup)

lemma WellFormed.merge (hupper : upper.WellFormed) (hlower : lower.WellFormed) :
    (lower.merge upper).WellFormed := by
  induction hupper generalizing lower with
  | leaf h => exact .leaf h
  | @table origin above hsorted hall ih =>
    cases lower with
    | leaf origin' v => exact .table hsorted hall
    | table origin' below =>
      have hbelow : WellFormed (.table origin below) := by
        cases hlower with
        | table hsorted' hall' => exact .table hsorted' hall'
      exact hbelow.mergeEntries hall fun e he lower hlower => ih e he hlower

/-- **Layers are merged as is relied on.** -/
theorem isMerge_merge : IsMerge merge where
  replaces _ _ _ := by rw [merge]
  covers _ _ upper := by cases upper <;> rfl
  joins hbelow habove :=
    ⟨_, rfl, habove.merge hbelow, fun _ => by
      cases habove with
      | table hsorted hall => exact lookup?_mergeEntries hsorted⟩

end Layer

end PhaseExecutors
