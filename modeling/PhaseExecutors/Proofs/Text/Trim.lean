import Mathlib.Data.List.DropRight
import PhaseExecutors.Text.Blank

/-!
Trimmed text, and runs of characters.

Trimming takes blanks from both ends and nothing else, and a text without blanks keeps all of its
characters. Digits and the other printable characters of ASCII are no blanks.
-/

namespace PhaseExecutors.Text

variable {c : Char} {cs : List Char}

/-! ### Characters -/

/-- A character of ASCII with a visible form that no format has to escape. -/
def IsPrintable (c : Char) : Prop := 0x21 ≤ c.toNat ∧ c.toNat ≤ 0x7E ∧ c ≠ '"' ∧ c ≠ '\\'

instance : DecidablePred IsPrintable := fun _ => inferInstanceAs (Decidable (_ ∧ _ ∧ _ ∧ _))

lemma isDigit_iff : c.isDigit = true ↔ 48 ≤ c.toNat ∧ c.toNat ≤ 57 := by
  simp only [Char.isDigit, Bool.and_eq_true, decide_eq_true_eq, ge_iff_le, UInt32.le_iff_toNat_le]
  exact Iff.rfl

lemma ne_of_isDigit {d : Char} (h : c.isDigit = true) (hd : d.isDigit = false) : c ≠ d := by
  rintro rfl
  rw [h] at hd
  cases hd

lemma isPrintable_of_isDigit (h : c.isDigit = true) : IsPrintable c := by
  have hrange := isDigit_iff.mp h
  refine ⟨by omega, by omega, ?_, ?_⟩
  · rintro rfl
    exact absurd h (by decide)
  · rintro rfl
    exact absurd h (by decide)

lemma isBlank_of_isPrintable (h : IsPrintable c) : isBlank c = false := by
  obtain ⟨hlow, hhigh, -, -⟩ := h
  have hne (n : Nat) (hn : n < 0x21 ∨ 0x7E < n) : (c.toNat == n) = false := by
    rw [beq_eq_false_iff_ne]
    omega
  have hcontrol : decide (c.toNat ≤ 13) = false := decide_eq_false (by omega)
  have hspace : decide (0x2000 ≤ c.toNat) = false := decide_eq_false (by omega)
  simp [isBlank, hcontrol, hspace, hne]

/-- A letter is no blank, and has a lower case that is none. -/
lemma isBlank_toLower (c : Char) : isBlank c.toLower = isBlank c := by
  by_cases hupper : c.val ≥ 'A'.val ∧ c.val ≤ 'Z'.val
  · have hlow : 65 ≤ c.toNat := hupper.1
    have hhigh : c.toNat ≤ 90 := hupper.2
    have hlower : c.toLower.toNat = c.toNat + 32 := by
      delta Char.toLower
      rw [dif_pos hupper]
      change (c.val + ('a'.val - 'A'.val)).toNat = c.val.toNat + 32
      change c.val.toNat ≤ 90 at hhigh
      rw [UInt32.toNat_add]
      change (c.val.toNat + 32) % 2 ^ 32 = c.val.toNat + 32
      omega
    have hletter {d : Char} (hd : 65 ≤ d.toNat) (hd' : d.toNat ≤ 122) (hslash : d.toNat ≠ 92) :
        isBlank d = false := by
      refine isBlank_of_isPrintable ⟨by omega, by omega, ?_, ?_⟩
      · rintro rfl
        exact absurd hd (by decide)
      · rintro rfl
        exact hslash rfl
    rw [hletter hlow (by omega) (by omega), hletter (d := c.toLower) (by omega) (by omega)
      (by omega)]
  · delta Char.toLower
    rw [dif_neg hupper]

lemma not_blank_of_any (h : cs.any isBlank = false) : ∀ c ∈ cs, isBlank c = false := by
  simpa using h

/-- A text that is a word without blanks in lower case has none. -/
lemma not_blank_of_map_toLower {word : List Char} (h : cs.map Char.toLower = word)
    (hword : word.any isBlank = false) : ∀ c ∈ cs, isBlank c = false := by
  intro c hc
  rw [← isBlank_toLower]
  exact not_blank_of_any hword _ (h ▸ List.mem_map_of_mem hc)

lemma toLower_of_isDigit (h : c.isDigit = true) : c.toLower = c := by
  have hrange := isDigit_iff.mp h
  have hupper : ¬(c.val ≥ 'A'.val ∧ c.val ≤ 'Z'.val) := fun hc => by
    have h65 : 65 ≤ c.toNat := hc.1
    omega
  exact dif_neg hupper

lemma toLower_of_sameIgnoringCase {word : List Char} (h : sameIgnoringCase cs word = true) :
    ∀ c ∈ cs, c.toLower ∈ word.map Char.toLower := by
  have heq : cs.map Char.toLower = word.map Char.toLower := eq_of_beq h
  exact fun c hc => heq ▸ List.mem_map_of_mem hc

/-- Texts differ if their first characters do. -/
lemma sameIgnoringCase_of_ne {w : Char} {ws : List Char} (h : c.toLower ≠ w.toLower) :
    sameIgnoringCase (c :: cs) (w :: ws) = false := by
  simp [sameIgnoringCase, h]

lemma sameIgnoringCase_of_isDigit {w : Char} {ws : List Char} (h : c.isDigit = true)
    (hw : w.toLower.isDigit = false) : sameIgnoringCase (c :: cs) (w :: ws) = false := by
  refine sameIgnoringCase_of_ne fun heq => ?_
  rw [toLower_of_isDigit h] at heq
  rw [← heq, h] at hw
  cases hw

/-! ### Runs -/

section Runs

variable {p : Char → Bool} {run rest : List Char}

/-- A run that a reader takes from the front ends where something else follows. -/
lemma takeWhile_run (hrun : ∀ c ∈ run, p c = true) (hrest : ∀ c ∈ rest.head?, p c = false) :
    (run ++ rest).takeWhile p = run := by
  rw [List.takeWhile_append_of_pos hrun]
  cases rest with
  | nil => rw [List.takeWhile_nil, List.append_nil]
  | cons c cs => rw [List.takeWhile_cons_of_neg (by simp [hrest c rfl]), List.append_nil]

lemma dropWhile_run (hrun : ∀ c ∈ run, p c = true) (hrest : ∀ c ∈ rest.head?, p c = false) :
    (run ++ rest).dropWhile p = rest := by
  rw [List.dropWhile_append_of_pos hrun]
  cases rest with
  | nil => rfl
  | cons c cs => rw [List.dropWhile_cons_of_neg (by simp [hrest c rfl])]

end Runs

/-! ### Trimming -/

lemma trimEnd_eq (cs : List Char) : trimEnd cs = cs.rdropWhile isBlank := rfl

lemma trim_of_not_blank (h : ∀ c ∈ cs, isBlank c = false) : trim cs = cs := by
  have hstart : trimStart cs = cs := by
    refine List.dropWhile_eq_self_iff.mpr fun hl => ?_
    simp [h _ (List.getElem_mem hl)]
  rw [trim, hstart, trimEnd_eq, List.rdropWhile_eq_self_iff]
  intro hne
  simp [h _ (List.getLast_mem hne)]

lemma trim_of_isPrintable (h : ∀ c ∈ cs, IsPrintable c) : trim cs = cs :=
  trim_of_not_blank fun c hc => isBlank_of_isPrintable (h c hc)

/-- What stands around the trimmed text is blank. -/
lemma exists_blanks (cs : List Char) : ∃ pre post, cs = pre ++ trim cs ++ post ∧
    (∀ c ∈ pre, isBlank c = true) ∧ ∀ c ∈ post, isBlank c = true := by
  refine ⟨cs.takeWhile isBlank, (trimStart cs).rtakeWhile isBlank, ?_, ?_, ?_⟩
  · have hend : trim cs ++ (trimStart cs).rtakeWhile isBlank = trimStart cs := by
      rw [trim, trimEnd_eq, List.rdropWhile, List.rtakeWhile, ← List.reverse_append,
        List.takeWhile_append_dropWhile, List.reverse_reverse]
    rw [List.append_assoc, hend]
    exact List.takeWhile_append_dropWhile.symm
  · exact fun c hc => List.mem_takeWhile_imp hc
  · exact fun c hc => List.mem_rtakeWhile_imp hc

lemma isBlank_or_mem_trim (hc : c ∈ cs) : isBlank c = true ∨ c ∈ trim cs := by
  obtain ⟨pre, post, heq, hpre, hpost⟩ := exists_blanks cs
  rw [heq, List.mem_append, List.mem_append] at hc
  rcases hc with (hc | hc) | hc
  · exact Or.inl (hpre c hc)
  · exact Or.inr hc
  · exact Or.inl (hpost c hc)

lemma trimEnd_cons (h : isBlank c = false) : trimEnd (c :: cs) = c :: trimEnd cs := by
  rw [trimEnd, trimEnd, List.reverse_cons, List.dropWhile_append]
  split
  · next hempty =>
    rw [List.isEmpty_iff.mp hempty]
    simp [h]
  · rw [List.reverse_append]
    rfl

lemma trim_cons (h : isBlank c = false) : trim (c :: cs) = c :: trimEnd cs := by
  have hstart : trimStart (c :: cs) = c :: cs := List.dropWhile_cons_of_neg (by simp [h])
  rw [trim, hstart, trimEnd_cons h]

/-- Trimmed text begins with something that is no blank. -/
lemma isBlank_head_trim {rest : List Char} (h : trim cs = c :: rest) : isBlank c = false := by
  cases hstart : trimStart cs with
  | nil =>
    rw [trim, hstart] at h
    cases h
  | cons d ds =>
    have hd : isBlank d = false := by
      have hhead := List.head?_dropWhile_not isBlank cs
      rwa [show cs.dropWhile isBlank = d :: ds from hstart] at hhead
    rw [trim, hstart, trimEnd_cons hd] at h
    cases h
    exact hd

lemma trim_trim (cs : List Char) : trim (trim cs) = trim cs := by
  have hstart : trimStart (trim cs) = trim cs := by
    cases h : trim cs with
    | nil => rfl
    | cons c rest => exact List.dropWhile_cons_of_neg (by simp [isBlank_head_trim h])
  rw [trim, hstart, trim, trimEnd_eq, trimEnd_eq, List.rdropWhile_idempotent]

/-- Blanks that were taken away before do not matter. -/
lemma trim_dropWhile {p : Char → Bool} (hp : ∀ c, p c = true → isBlank c = true)
    (cs : List Char) : trim (cs.dropWhile p) = trim cs := by
  have hstart : trimStart (cs.dropWhile p) = trimStart cs := by
    induction cs with
    | nil => rfl
    | cons c cs ih =>
      by_cases hc : p c = true
      · rw [List.dropWhile_cons_of_pos hc, ih]
        exact (List.dropWhile_cons_of_pos (hp c hc)).symm
      · rw [List.dropWhile_cons_of_neg hc]
  rw [trim, hstart, trim]

end PhaseExecutors.Text
