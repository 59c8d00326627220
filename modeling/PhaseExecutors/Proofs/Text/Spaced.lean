import PhaseExecutors.Proofs.Text.Trim

/-!
Tokens with blanks around them.

Trimming what is left after each token finds the tokens, however many blanks stand before, between
and behind them. A token with another one behind it has no blanks at all; the last one may have some
inside, but not at its ends.
-/

namespace PhaseExecutors.Text

/-- Nothing but blanks. -/
def Blanks (gap : List Char) : Prop := ∀ c ∈ gap, isBlank c = true

/-- A text that neither begins nor ends with a blank. -/
structure Tight (cs : List Char) : Prop where
  head : ∀ c ∈ cs.head?, isBlank c = false
  last : ∀ c ∈ cs.getLast?, isBlank c = false

/-- The tokens in a row, with any number of blanks before, between and behind them. -/
inductive Spaced : List (List Char) → List Char → Prop
  | nil {gap} (hgap : Blanks gap) : Spaced [] gap
  | cons {gap token tokens tail} (hgap : Blanks gap) (htail : Spaced tokens tail) :
    Spaced (token :: tokens) (gap ++ token ++ tail)

variable {gap cs word : List Char} {tokens : List (List Char)}

/-! ### Trimming -/

lemma trim_gap (hgap : Blanks gap) (cs : List Char) : trim (gap ++ cs) = trim cs := by
  have hstart : trimStart (gap ++ cs) = trimStart cs := List.dropWhile_append_of_pos hgap
  rw [trim, hstart, trim]

lemma trim_gap_nil (hgap : Blanks gap) : trim gap = [] := by
  have htrim := trim_gap hgap []
  rwa [List.append_nil] at htrim

lemma trimEnd_gap (cs : List Char) (hgap : Blanks gap) : trimEnd (cs ++ gap) = trimEnd cs := by
  have hreverse : Blanks gap.reverse := fun c hc => hgap c (List.mem_reverse.mp hc)
  rw [trimEnd, List.reverse_append, List.dropWhile_append_of_pos hreverse, trimEnd]

lemma trim_append_gap (cs : List Char) (hgap : Blanks gap) : trim (cs ++ gap) = trim cs := by
  have hstart : trimStart (cs ++ gap) =
      if (trimStart cs).isEmpty then trimStart gap else trimStart cs ++ gap :=
    List.dropWhile_append
  rw [trim, hstart]
  split
  · next hempty =>
    rw [trim, List.isEmpty_iff.mp hempty, ← trim, trim_gap_nil hgap]
    rfl
  · rw [trimEnd_gap _ hgap, trim]

lemma trim_trimEnd (cs : List Char) : trim (trimEnd cs) = trim cs := by
  have hgap : Blanks (cs.rtakeWhile isBlank) := fun c hc => List.mem_rtakeWhile_imp hc
  have hcs : trimEnd cs ++ cs.rtakeWhile isBlank = cs := List.rdropWhile_append_rtakeWhile ..
  rw [← trim_append_gap _ hgap, hcs]

/-- A word in front keeps its place. -/
lemma trim_word (hne : word ≠ []) (hword : ∀ c ∈ word, isBlank c = false) (tail : List Char) :
    trim (word ++ tail) = word ++ trimEnd tail := by
  have hend : ∀ cs : List Char, (∀ c ∈ cs, isBlank c = false) →
      trimEnd (cs ++ tail) = cs ++ trimEnd tail := by
    intro cs hcs
    induction cs with
    | nil => rfl
    | cons c cs ih =>
      obtain ⟨hc, hcs⟩ := List.forall_mem_cons.mp hcs
      rw [List.cons_append, trimEnd_cons hc, ih hcs, List.cons_append]
  obtain ⟨c, cs, rfl⟩ := List.exists_cons_of_ne_nil hne
  obtain ⟨hc, hcs⟩ := List.forall_mem_cons.mp hword
  rw [List.cons_append, trim_cons hc, hend cs hcs, List.cons_append]

lemma trim_of_tight (h : Tight cs) : trim cs = cs := by
  have hstart : trimStart cs = cs := by
    cases cs with
    | nil => rfl
    | cons c cs => exact List.dropWhile_cons_of_neg (by simp [h.head c rfl])
  rw [trim, hstart, trimEnd_eq, List.rdropWhile_eq_self_iff]
  intro hne
  simp [h.last _ (List.getLast?_eq_some_getLast hne)]

lemma tight_trim (cs : List Char) : Tight (trim cs) := by
  refine ⟨fun c hc => ?_, fun c hc => ?_⟩
  · obtain ⟨tail, htail⟩ := List.head?_eq_some_iff.mp hc
    exact isBlank_head_trim htail
  · have hne : trim cs ≠ [] := by
      intro hnil
      rw [hnil] at hc
      cases hc
    have hlast := List.rdropWhile_last_not isBlank (trimStart cs) hne
    rw [Option.mem_def, List.getLast?_eq_some_getLast hne, Option.some.injEq] at hc
    rw [← hc]
    exact (Bool.eq_false_or_eq_true _).resolve_left hlast

lemma tight_of_not_blank (h : ∀ c ∈ cs, isBlank c = false) : Tight cs :=
  ⟨fun c hc => h c (List.mem_of_mem_head? hc), fun c hc => h c (List.mem_of_mem_getLast? hc)⟩

/-! ### Tokens -/

/-- Blanks at the ends belong to no token. -/
lemma Spaced.of_trim (h : Spaced tokens (trim cs)) : Spaced tokens cs := by
  have hbehind : ∀ {tokens cs gap}, Spaced tokens cs → Blanks gap → Spaced tokens (cs ++ gap) := by
    intro tokens cs gap h hgap
    induction h with
    | nil hgap' => exact .nil (List.forall_mem_append.mpr ⟨hgap', hgap⟩)
    | cons hgap' _ ih =>
      rw [List.append_assoc]
      exact .cons hgap' ih
  have hbefore : ∀ {tokens cs gap}, Spaced tokens cs → Blanks gap → Spaced tokens (gap ++ cs) := by
    intro tokens cs gap h hgap
    cases h with
    | nil hgap' => exact .nil (List.forall_mem_append.mpr ⟨hgap, hgap'⟩)
    | cons hgap' htail =>
      rw [← List.append_assoc, ← List.append_assoc]
      exact .cons (List.forall_mem_append.mpr ⟨hgap, hgap'⟩) htail
  obtain ⟨pre, post, hcs, hpre, hpost⟩ := exists_blanks cs
  rw [hcs]
  exact hbehind (hbefore h hpre) hpost

lemma blanks_nil : Blanks [] := nofun

lemma Spaced.word_append (h : Spaced tokens cs) (word : List Char) :
    Spaced (word :: tokens) (word ++ cs) :=
  .cons blanks_nil h

lemma spaced_self (cs : List Char) : Spaced [cs] cs := by
  have hone := (Spaced.nil blanks_nil).word_append cs
  rwa [List.append_nil] at hone

/-- Trimming leaves the last token. -/
lemma Spaced.trim_eq (h : Spaced [word] cs) (hword : Tight word) : trim cs = word := by
  cases h with
  | cons hgap htail =>
    cases htail with
    | nil hgap' => rw [trim_append_gap _ hgap', trim_gap hgap, trim_of_tight hword]

/-- Trimming lays the first token bare; up to blanks, the other tokens are behind it. -/
lemma Spaced.exists_tail (h : Spaced (word :: tokens) cs) (hne : word ≠ [])
    (hword : ∀ c ∈ word, isBlank c = false) :
    ∃ tail rest, trim cs = word ++ tail ∧ trim tail = trim rest ∧ Spaced tokens rest := by
  cases h with
  | @cons gap _ _ rest hgap hrest =>
    refine ⟨trimEnd rest, rest, ?_, trim_trimEnd rest, hrest⟩
    rw [List.append_assoc, trim_gap hgap, trim_word hne hword]

end PhaseExecutors.Text
