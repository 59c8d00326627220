import PhaseExecutors.Config.Environment
import PhaseExecutors.Proofs.Text.Trim

/-!
The keys that the name of a variable spells.

Behind the common start the names of keys are joined by two underscores. A name may hold an
underscore itself, but no two in a row and none at its end, so the pairs of underscores are those
that join, and the name is divided where it was joined. Upper and lower case are the same.
-/

namespace PhaseExecutors

namespace Text

variable {c : Char} {cs part rest : List Char} {parts : List (List Char)} {old new sep : Char}

/-! ### Characters -/

lemma isUpper_iff : c.isUpper = true ↔ 65 ≤ c.toNat ∧ c.toNat ≤ 90 := decide_eq_true_iff

lemma isLower_iff : c.isLower = true ↔ 97 ≤ c.toNat ∧ c.toNat ≤ 122 := by
  change (decide (c.val ≥ 'a'.val) && decide (c.val ≤ 'z'.val)) = true ↔ _
  rw [Bool.and_eq_true, decide_eq_true_eq, decide_eq_true_eq]
  exact Iff.rfl

lemma isPrintable_of_isAlphanum (h : c.isAlphanum = true) : IsPrintable c := by
  have hclass : (c.isUpper || c.isLower || c.isDigit) = true := h
  rw [Bool.or_eq_true, Bool.or_eq_true, isUpper_iff, isLower_iff, isDigit_iff] at hclass
  refine ⟨by omega, by omega, ?_, ?_⟩
  · rintro rfl
    exact absurd h (by decide)
  · rintro rfl
    exact absurd h (by decide)

/-! ### Pairs -/

/-- No character is followed by another one of its kind. -/
def HasNoPair (old : Char) (cs : List Char) : Prop := cs.IsChain fun a b => ¬(a = old ∧ b = old)

instance (old : Char) (cs : List Char) : Decidable (HasNoPair old cs) :=
  inferInstanceAs (Decidable (cs.IsChain _))

lemma replacePairs_of_hasNoPair (h : HasNoPair old part) : replacePairs old new part = part := by
  induction part with
  | nil => rfl
  | cons a part ih =>
    cases part with
    | nil => rfl
    | cons b part =>
      obtain ⟨hab, htail⟩ := List.isChain_cons_cons.mp h
      rw [replacePairs, if_neg hab, ih htail]

/-- The pair behind a part is met as a pair, since the part ends in something else. -/
lemma replacePairs_append (h : HasNoPair old part) (hend : part.getLast? ≠ some old) :
    replacePairs old new (part ++ old :: old :: rest) =
      part ++ new :: replacePairs old new rest := by
  induction part with
  | nil => rw [List.nil_append, replacePairs, if_pos ⟨rfl, rfl⟩, List.nil_append]
  | cons a part ih =>
    cases part with
    | nil =>
      have ha : ¬(a = old ∧ old = old) := fun ha => hend (congrArg some ha.1)
      rw [List.cons_append, List.nil_append, replacePairs, if_neg ha, replacePairs,
        if_pos ⟨rfl, rfl⟩]
      rfl
    | cons b part =>
      obtain ⟨hab, htail⟩ := List.isChain_cons_cons.mp h
      have hrest := ih htail (by rwa [List.getLast?_cons_cons] at hend)
      rw [List.cons_append, List.cons_append, replacePairs, if_neg hab, ← List.cons_append, hrest]
      rfl

lemma replacePairs_intercalate (h : ∀ part ∈ parts, HasNoPair old part)
    (hend : ∀ part ∈ parts, part.getLast? ≠ some old) :
    replacePairs old new ([old, old].intercalate parts) = [new].intercalate parts := by
  induction parts with
  | nil => rfl
  | cons part parts ih =>
    obtain ⟨hpart, hparts⟩ := List.forall_mem_cons.mp h
    obtain ⟨hpartEnd, hpartsEnd⟩ := List.forall_mem_cons.mp hend
    cases parts with
    | nil =>
      rw [List.intercalate_singleton, List.intercalate_singleton]
      exact replacePairs_of_hasNoPair hpart
    | cons part' parts =>
      rw [List.intercalate_cons_cons, List.intercalate_cons_cons, List.append_assoc,
        List.append_assoc, ← ih hparts hpartsEnd]
      exact replacePairs_append hpart hpartEnd

/-! ### Dividing -/

lemma splitOn_of_notMem (h : sep ∉ part) : splitOn sep part = [part] := by
  induction part with
  | nil => rfl
  | cons c part ih =>
    obtain ⟨hc, hpart⟩ := List.ne_and_not_mem_of_not_mem_cons h
    rw [splitOn, if_neg (Ne.symm hc), ih hpart]

lemma splitOn_append (h : sep ∉ part) :
    splitOn sep (part ++ sep :: rest) = part :: splitOn sep rest := by
  induction part with
  | nil => rw [List.nil_append, splitOn, if_pos rfl]
  | cons c part ih =>
    obtain ⟨hc, hpart⟩ := List.ne_and_not_mem_of_not_mem_cons h
    rw [List.cons_append, splitOn, if_neg (Ne.symm hc), ih hpart]

/-- What is joined by a character that the parts do not hold is divided into them again. -/
lemma splitOn_intercalate (hne : parts ≠ []) (h : ∀ part ∈ parts, sep ∉ part) :
    splitOn sep ([sep].intercalate parts) = parts := by
  induction parts with
  | nil => exact absurd rfl hne
  | cons part parts ih =>
    obtain ⟨hpart, hparts⟩ := List.forall_mem_cons.mp h
    cases parts with
    | nil =>
      rw [List.intercalate_singleton]
      exact splitOn_of_notMem hpart
    | cons part' parts =>
      rw [List.intercalate_cons_cons, List.append_assoc]
      exact (splitOn_append hpart).trans (congrArg _ (ih (List.cons_ne_nil _ _) hparts))

lemma mem_intercalate {word : List Char} (hc : c ∈ word.intercalate parts) :
    c ∈ word ∨ ∃ part ∈ parts, c ∈ part := by
  induction parts with
  | nil => cases hc
  | cons part parts ih =>
    cases parts with
    | nil =>
      rw [List.intercalate_singleton] at hc
      exact Or.inr ⟨part, List.mem_cons_self, hc⟩
    | cons part' parts =>
      rw [List.intercalate_cons_cons, List.append_assoc, List.mem_append, List.mem_append] at hc
      rcases hc with hc | hc | hc
      · exact Or.inr ⟨part, List.mem_cons_self, hc⟩
      · exact Or.inl hc
      · refine (ih hc).imp_right ?_
        rintro ⟨part'', hpart'', hc⟩
        exact ⟨part'', .tail part hpart'', hc⟩

end Text

namespace EnvironmentLayer

open Text (HasNoPair trim)

variable {part start : List Char} {parts : List (List Char)}

/-! ### Names -/

/-- The name of a key, in any case. -/
structure IsKeyName (part : List Char) : Prop where
  ne_nil : part ≠ []
  chars : part.all isKeyChar = true
  noPair : HasNoPair '_' part
  last : part.getLast? ≠ some '_'

instance (part : List Char) : Decidable (IsKeyName part) :=
  decidable_of_iff (part ≠ [] ∧ part.all isKeyChar = true ∧ HasNoPair '_' part ∧
    part.getLast? ≠ some '_')
    ⟨fun ⟨hne, hchars, hpair, hlast⟩ => ⟨hne, hchars, hpair, hlast⟩,
      fun h => ⟨h.ne_nil, h.chars, h.noPair, h.last⟩⟩

/-- What is relied on of a function that takes the keys from the name of a variable. -/
structure SpellsKeys (keysOf? : String → Option (List String)) : Prop where
  /-- Two underscores divide the keys behind the start, and the keys count in lower case. -/
  spells : ∀ {start parts}, Text.sameIgnoringCase start nameStart = true → parts ≠ [] →
    (∀ part ∈ parts, IsKeyName part) →
      keysOf? (String.ofList (start ++ ['_', '_'].intercalate parts)) =
        some (parts.map fun part => String.ofList (part.map Char.toLower))

lemma isBlank_of_isKeyChar {c : Char} (h : isKeyChar c = true) : Text.isBlank c = false := by
  have hcases : (c.isAlphanum = true ∨ c = '_') ∨ c = '-' := by simpa [isKeyChar] using h
  rcases hcases with (h | rfl) | rfl
  · exact Text.isBlank_of_isPrintable (Text.isPrintable_of_isAlphanum h)
  · rfl
  · rfl

lemma IsKeyName.not_blank (h : IsKeyName part) : ∀ c ∈ part, Text.isBlank c = false :=
  fun c hc => isBlank_of_isKeyChar (List.all_eq_true.mp h.chars c hc)

lemma IsKeyName.point_notMem (h : IsKeyName part) : '.' ∉ part :=
  fun hpoint => absurd (List.all_eq_true.mp h.chars '.' hpoint) (by decide)

/-- Names that are joined by a visible character hold no blank. -/
lemma not_blank_intercalate {word : List Char} (hword : ∀ c ∈ word, Text.isBlank c = false)
    (h : ∀ part ∈ parts, IsKeyName part) :
    ∀ c ∈ word.intercalate parts, Text.isBlank c = false := by
  intro c hc
  rcases Text.mem_intercalate hc with hc | ⟨part, hpart, hc⟩
  · exact hword c hc
  · exact (h part hpart).not_blank c hc

/-- **Names of variables are read as is relied on.** -/
theorem spellsKeys_keysOf? : SpellsKeys keysOf? where
  spells {start parts} hstart hne hparts := by
    have hlower : start.map Char.toLower = nameStart.map Char.toLower := eq_of_beq hstart
    have hlength : start.length = nameStart.length := by
      simpa only [List.length_map] using congrArg List.length hlower
    have htrim : trim (start ++ ['_', '_'].intercalate parts) =
        start ++ ['_', '_'].intercalate parts :=
      Text.trim_of_not_blank <| List.forall_mem_append.mpr
        ⟨Text.not_blank_of_map_toLower hlower (by decide),
          not_blank_intercalate (Text.not_blank_of_any (by decide)) hparts⟩
    have hkeys : trim (Text.replacePairs '_' '.' (['_', '_'].intercalate parts)) =
        ['.'].intercalate parts := by
      rw [Text.replacePairs_intercalate (fun part hpart => (hparts part hpart).noPair)
        fun part hpart => (hparts part hpart).last]
      exact Text.trim_of_not_blank
        (not_blank_intercalate (Text.not_blank_of_any (by decide)) hparts)
    have hfilled : parts.any List.isEmpty = false :=
      List.any_eq_false.mpr fun part hpart => by simp [(hparts part hpart).ne_nil]
    have hsplit := Text.splitOn_intercalate hne fun part hpart => (hparts part hpart).point_notMem
    rw [keysOf?, String.toList_ofList, htrim, ← hlength, List.take_left, List.drop_left,
      if_pos hstart, hkeys]
    simp only [hsplit, hfilled, Bool.false_eq_true, if_false]

end EnvironmentLayer

end PhaseExecutors
