import PhaseExecutors.Config.Basic
import PhaseExecutors.Config.Environment
import PhaseExecutors.Proofs.Config.CountText

/-!
An accepted count as the value of a variable.

The value of a variable is text only if it is nothing else. An accepted count begins with a digit, a
plus or the first letter of one of two words, and none of its characters divides values. So it is a
number if it reads as a size, and else it is the text itself without the blanks around it; in no
case is it taken for a floating point number.
-/

namespace PhaseExecutors

open Text (trim isBlank_or_mem_trim)

/-! ### The characters of numbers -/

namespace Size

lemma isDigit_of_readDigits {ds : List Char} {n m : Nat} (h : readDigits n ds = .ok m) :
    ∀ d ∈ ds, d.isDigit = true := by
  induction ds generalizing n with
  | nil => nofun
  | cons d ds ih =>
    rw [readDigits] at h
    by_cases hd : d.isDigit = true
    · rw [digit?, if_pos hd] at h
      dsimp only at h
      split at h
      · exact List.forall_mem_cons.mpr ⟨hd, ih h⟩
      · cases h
    · rw [digit?, if_neg hd] at h
      cases h

/-- A size is written with digits behind an optional plus. -/
lemma mem_of_read? {cs : List Char} {n : Size} (h : read? cs = some n) :
    cs ≠ [] ∧ ∀ c ∈ cs, c.isDigit = true ∨ c = '+' := by
  have hok {ds : List Char} (hds : ((readDigits 0 ds).map UInt64.ofNat).toOption = some n) :
      ∀ d ∈ ds, d.isDigit = true := by
    cases hread : readDigits 0 ds with
    | error e =>
      rw [hread] at hds
      cases hds
    | ok m => exact isDigit_of_readDigits hread
  unfold read? read at h
  split at h
  · cases h
  · cases h
  · next ds _ =>
    refine ⟨nofun, List.forall_mem_cons.mpr ⟨Or.inr rfl, fun d hd => Or.inl (hok h d hd)⟩⟩
  · next hne _ _ => exact ⟨hne, fun d hd => Or.inl (hok h d hd)⟩

lemma readNegative?_eq_none {cs : List Char} (h : ∀ c ∈ cs.head?, c ≠ '-') :
    readNegative? cs = none := by
  unfold readNegative?
  split
  · exact absurd rfl (h '-' rfl)
  · rfl

end Size

namespace Decimal

variable {cs : List Char} {x : Binary64}

/-- The letters of exponents and of the words for numbers that are not finite. -/
def numberLetters : List Char := ['a', 'e', 'f', 'i', 'n', 't', 'y']

/-- The characters of floating point numbers. -/
def isNumberChar (c : Char) : Bool :=
  c.isDigit || ['.', '+', '-'].contains c || numberLetters.contains c.toLower

lemma isNumberChar_of_isDigit {c : Char} (h : c.isDigit = true) : isNumberChar c = true := by
  simp [isNumberChar, h]

lemma isNumberChar_of_sameIgnoringCase {word : List Char}
    (hword : (word.map Char.toLower).all numberLetters.contains = true)
    (h : Text.sameIgnoringCase cs word = true) : ∀ c ∈ cs, isNumberChar c = true := by
  intro c hc
  have hletter := List.all_eq_true.mp hword _ (Text.toLower_of_sameIgnoringCase h c hc)
  simp [isNumberChar, List.contains_iff_mem.mp hletter]

lemma isDigit_of_exponentDigits? {n : Nat} (h : exponentDigits? cs = some n) :
    ∀ c ∈ cs, c.isDigit = true := by
  unfold exponentDigits? at h
  split at h
  · next hall =>
    rw [Bool.and_eq_true] at hall
    exact List.all_eq_true.mp hall.2
  · cases h

lemma isNumberChar_of_readExponent? {e : Int} (h : readExponent? cs = some e) :
    ∀ c ∈ cs, isNumberChar c = true := by
  have hdigits {ds : List Char} {n : Nat} (hds : exponentDigits? ds = some n) :
      ∀ c ∈ ds, isNumberChar c = true :=
    fun c hc => isNumberChar_of_isDigit (isDigit_of_exponentDigits? hds c hc)
  unfold readExponent? at h
  split at h
  · nofun
  · next c rest =>
    split at h
    · next hc =>
      have hmark : isNumberChar c = true := by
        rw [Bool.or_eq_true, decide_eq_true_eq, decide_eq_true_eq] at hc
        rcases hc with rfl | rfl
        · decide
        · decide
      refine List.forall_mem_cons.mpr ⟨hmark, ?_⟩
      split at h
      · next ds =>
        cases hds : exponentDigits? ds with
        | none => simp [hds] at h
        | some n => exact List.forall_mem_cons.mpr ⟨by decide, hdigits hds⟩
      · next ds =>
        cases hds : exponentDigits? ds with
        | none => simp [hds] at h
        | some n => exact List.forall_mem_cons.mpr ⟨by decide, hdigits hds⟩
      · cases hds : exponentDigits? rest with
        | none => simp [hds] at h
        | some n => exact hdigits hds
    · cases h

lemma isNumberChar_of_readUnsigned? {negative : Bool} (h : readUnsigned? negative cs = some x) :
    ∀ c ∈ cs, isNumberChar c = true := by
  have hdigits (ds : List Char) : ∀ c ∈ ds.takeWhile Char.isDigit, isNumberChar c = true :=
    fun c hc => isNumberChar_of_isDigit (List.mem_takeWhile_imp hc)
  have hsplit : ∀ c ∈ (splitPoint cs).2.2, isNumberChar c = true := by
    unfold readUnsigned? at h
    dsimp only at h
    split at h
    · cases h
    · obtain ⟨e, he, -⟩ := Option.map_eq_some_iff.mp h
      exact isNumberChar_of_readExponent? he
  rw [← List.takeWhile_append_dropWhile (p := Char.isDigit) (l := cs)]
  refine List.forall_mem_append.mpr ⟨hdigits cs, ?_⟩
  unfold splitPoint at hsplit
  dsimp only at hsplit
  split at hsplit
  · next rest hrest =>
    rw [hrest]
    refine List.forall_mem_cons.mpr ⟨by decide, ?_⟩
    rw [← List.takeWhile_append_dropWhile (p := Char.isDigit) (l := rest)]
    exact List.forall_mem_append.mpr ⟨hdigits rest, hsplit⟩
  · exact hsplit

lemma isNumberChar_of_readMagnitude? {negative : Bool} (h : readMagnitude? negative cs = some x) :
    ∀ c ∈ cs, isNumberChar c = true := by
  unfold readMagnitude? at h
  split at h
  · next hword =>
    rw [Bool.or_eq_true] at hword
    rcases hword with hword | hword
    · exact isNumberChar_of_sameIgnoringCase (by decide) hword
    · exact isNumberChar_of_sameIgnoringCase (by decide) hword
  split at h
  · next hword => exact isNumberChar_of_sameIgnoringCase (by decide) hword
  · exact isNumberChar_of_readUnsigned? h

lemma isNumberChar_of_read? (h : read? cs = some x) : ∀ c ∈ cs, isNumberChar c = true := by
  unfold read? at h
  split at h
  · exact List.forall_mem_cons.mpr ⟨by decide, isNumberChar_of_readMagnitude? h⟩
  · exact List.forall_mem_cons.mpr ⟨by decide, isNumberChar_of_readMagnitude? h⟩
  · exact isNumberChar_of_readMagnitude? h

/-- No number begins like the word for the host. -/
lemma read?_hostWord (tail : List Char) : read? (ThreadCount.hostWord ++ tail) = none := by
  have hword (w : Char) (ws : List Char) (hw : w.toLower ≠ 'h') :
      Text.sameIgnoringCase (ThreadCount.hostWord ++ tail) (w :: ws) = false :=
    Text.sameIgnoringCase_of_ne (Ne.symm hw)
  have hinf := hword 'i' ['n', 'f'] (by decide)
  have hinfinity := hword 'i' ['n', 'f', 'i', 'n', 'i', 't', 'y'] (by decide)
  have hnan := hword 'n' ['a', 'n'] (by decide)
  change readMagnitude? false (ThreadCount.hostWord ++ tail) = none
  unfold readMagnitude?
  change (if (Text.sameIgnoringCase _ ['i', 'n', 'f'] ||
    Text.sameIgnoringCase _ ['i', 'n', 'f', 'i', 'n', 'i', 't', 'y']) = true then _ else
      if Text.sameIgnoringCase _ ['n', 'a', 'n'] = true then _ else _) = _
  rw [hinf, hinfinity, hnan]
  rfl

end Decimal

/-! ### Accepted texts among other values -/

namespace EnvironmentLayer

open ThreadCount (Form hostWord autoWord)

variable {cs : List Char} {count : ThreadCount}

/-- The characters that divide values. -/
def separators : List Char := [',', '\x7b', '\x7d', '[', ']']

/-- A character of a class that holds no separator is none. -/
lemma isSeparator_eq_false {c : Char} {p : Char → Bool} (hp : separators.any p = false)
    (hc : p c = true) : isSeparator c = false := by
  rw [Bool.eq_false_iff]
  intro h
  have hmem : c ∈ separators := by simpa [isSeparator, separators, or_assoc] using h
  exact List.any_eq_false.mp hp c hmem hc

/-- The characters with which a value begins that is no plain text, or a negative number. -/
def openers : List Char := ['t', 'f', '"', '\'', '-']

/-- A trimmed text that is the value of a variable as it is, unless it is a whole number. -/
structure IsPlainText (cs : List Char) : Prop where
  undivided : ∀ c ∈ cs, isSeparator c = false
  head : ∀ c ∈ cs.head?, c ∉ openers
  noFloat : '.' ∈ cs → Decimal.read? cs = none

lemma isSeparator_of_isBlank {c : Char} (h : Text.isBlank c = true) : isSeparator c = false :=
  isSeparator_eq_false (by decide) h

/-- Undivided text in the middle makes the text with blanks around it undivided. -/
lemma undivided_of_trim (h : ∀ c ∈ trim cs, isSeparator c = false) :
    ∀ c ∈ cs, isSeparator c = false := fun c hc =>
  (isBlank_or_mem_trim hc).elim isSeparator_of_isBlank (h c)

lemma isPlainText_number {n : Size} (h : Size.read? cs = some n) : IsPlainText cs := by
  obtain ⟨hne, hchars⟩ := Size.mem_of_read? h
  have hclass : ∀ c ∈ cs, (c.isDigit || c == '+') = true := fun c hc => by simpa using hchars c hc
  refine ⟨fun c hc => isSeparator_eq_false (p := fun d => d.isDigit || d == '+') (by decide)
    (hclass c hc), fun c hc hopen => ?_,
    fun hpoint => absurd (hclass '.' hpoint) (by decide)⟩
  have hc' := hclass c (List.mem_of_mem_head? hc)
  have hno : openers.any (fun d => d.isDigit || d == '+') = false := by decide
  exact List.any_eq_false.mp hno c hopen hc'

lemma isPlainText_word (h : Text.sameIgnoringCase cs autoWord = true) : IsPlainText cs := by
  have hclass : ∀ c ∈ cs, (autoWord.map Char.toLower).contains c.toLower = true := fun c hc =>
    List.contains_iff_mem.mpr (Text.toLower_of_sameIgnoringCase h c hc)
  refine ⟨fun c hc => isSeparator_eq_false
    (p := fun d => (autoWord.map Char.toLower).contains d.toLower) (by decide) (hclass c hc),
    fun c hc hopen => ?_, fun hpoint => absurd (hclass '.' hpoint) (by decide)⟩
  have heq : cs.map Char.toLower = ['a', 'u', 't', 'o'] := eq_of_beq h
  cases cs with
  | nil => cases hc
  | cons d cs =>
    cases hc
    have hno : ∀ d ∈ openers, d.toLower ≠ 'a' := List.all_iff_forall_prop.mp (by decide)
    exact hno c hopen (List.cons.inj heq).1

lemma isPlainText_host {rest : List Char} (h : ∀ c ∈ rest, isSeparator c = false) :
    IsPlainText (hostWord ++ rest) := by
  have hword : ∀ c ∈ hostWord, isSeparator c = false := List.all_iff_forall_prop.mp (by decide)
  refine ⟨List.forall_mem_append.mpr ⟨hword, h⟩, fun c hc => ?_,
    fun _ => Decimal.read?_hostWord rest⟩
  cases hc
  decide

lemma isPlainText_of_form (h : Form cs count) : IsPlainText cs := by
  cases h with
  | number h => exact isPlainText_number h
  | word _ h => exact isPlainText_word h
  | host h => exact isPlainText_host (undivided_of_trim (by rw [h]; nofun))
  | factor h hread =>
    refine isPlainText_host (undivided_of_trim ?_)
    rw [h]
    exact List.forall_mem_cons.mpr ⟨by decide, undivided_of_trim fun c hc =>
      isSeparator_eq_false (by decide) (Decimal.isNumberChar_of_read? hread c hc)⟩
  | offset h hread =>
    refine isPlainText_host (undivided_of_trim ?_)
    rw [h]
    exact List.forall_mem_cons.mpr ⟨by decide,
      undivided_of_trim (isPlainText_number hread).undivided⟩

/-- Plain text is read up to its end. -/
lemma value?_of_undivided (fuel : Nat) (hcs : ∀ c ∈ cs, isSeparator c = false)
    (hhead : ∀ c ∈ (skipBlanks cs).head?, c ∉ openers) :
    value? (fuel + 1) cs = some (plain (skipBlanks cs), []) := by
  have hskip : ∀ c ∈ skipBlanks cs, isSeparator c = false := fun c hc =>
    hcs c ((List.dropWhile_sublist _).subset hc)
  have htake : (skipBlanks cs).takeWhile (!isSeparator ·) = skipBlanks cs :=
    List.takeWhile_eq_self_iff.mpr fun c hc => by simp [hskip c hc]
  have hdrop : (skipBlanks cs).dropWhile (!isSeparator ·) = [] :=
    List.dropWhile_eq_nil_iff.mpr fun c hc => by simp [hskip c hc]
  have hne {c : Char} {rest : List Char} (heq : skipBlanks cs = c :: rest) :
      c ∉ openers ∧ isSeparator c = false :=
    ⟨hhead c (by simp [heq]), hskip c (by simp [heq])⟩
  unfold value?
  dsimp only
  split
  · next heq => exact absurd (by decide) (hne heq).1
  · next heq => exact absurd (by decide) (hne heq).1
  · next heq => exact absurd (hne heq).2 (by decide)
  · next heq => exact absurd (hne heq).2 (by decide)
  · next heq => exact absurd (hne heq).2 (by decide)
  · next heq => exact absurd (hne heq).2 (by decide)
  · next heq => exact absurd (by decide) (hne heq).1
  · next heq => exact absurd (by decide) (hne heq).1
  · next heq => exact absurd (by decide) (hne heq).1
  · rw [htake, hdrop]
    rfl

lemma trim_skipBlanks (cs : List Char) : trim (skipBlanks cs) = trim cs := by
  refine Text.trim_dropWhile (fun c hc => ?_) cs
  simp only [isBlank, Bool.or_eq_true, decide_eq_true_eq] at hc
  rcases hc with (((rfl | rfl) | rfl) | rfl) | rfl <;> decide

/-- What stands in front of the trimmed text is blank, and opens nothing. -/
lemma not_mem_openers (h : ∀ c ∈ (trim cs).head?, c ∉ openers) :
    ∀ c ∈ (skipBlanks cs).head?, c ∉ openers := by
  intro c hc hopen
  have hblank : ∀ d ∈ openers, Text.isBlank d = false := List.all_iff_forall_prop.mp (by decide)
  have htrim := trim_skipBlanks cs
  cases hskip : skipBlanks cs with
  | nil => simp [hskip] at hc
  | cons d ds =>
    rw [hskip] at hc htrim
    cases hc
    rw [Text.trim_cons (hblank c hopen)] at htrim
    exact h c (by rw [← htrim]; rfl) hopen

/-- Of plain text only a whole number is something else than text. -/
lemma plain_of_isPlainText (h : IsPlainText (trim cs)) :
    plain cs = match Size.read? (trim cs) with
      | some n => .unsigned n
      | none => .text (String.ofList (trim cs)) := by
  have hfloat : (if (trim cs).contains '.' then Decimal.read? (trim cs) else none) = none := by
    split
    · next hpoint => exact h.noFloat (List.contains_iff_mem.mp hpoint)
    · rfl
  have hnegative : Size.readNegative? (trim cs) = none := by
    refine Size.readNegative?_eq_none fun c hc => ?_
    rintro rfl
    exact h.head '-' hc (by decide)
  cases hnumber : Size.read? (trim cs) with
  | none => simp only [plain, hfloat, hnumber, hnegative]
  | some n => simp only [plain, hfloat, hnumber]

lemma valueOf_of_isPlainText {text : String} (h : IsPlainText (trim text.toList)) :
    valueOf text = match Size.read? (trim text.toList) with
      | some n => .unsigned n
      | none => .text (String.ofList (trim text.toList)) := by
  have hplain : IsPlainText (trim (skipBlanks text.toList)) := by rwa [trim_skipBlanks]
  have hvalue : valueOf text = plain (skipBlanks text.toList) := by
    rw [valueOf, value?_of_undivided (2 * text.length + 1) (undivided_of_trim h.undivided)
      (not_mem_openers h.head)]
  rw [hvalue, plain_of_isPlainText hplain, trim_skipBlanks]

/-- What is relied on of a function that takes a value from the text of a variable. -/
structure ReadsValues (valueOf : String → Value) : Prop where
  /-- A number is a number, -/
  number : ∀ {text n}, Size.read? (trim text.toList) = some n → valueOf text = .unsigned n
  /-- and what is nothing else stays text, without the blanks around it. -/
  text : ∀ {text}, IsPlainText (trim text.toList) → Size.read? (trim text.toList) = none →
    valueOf text = .text (String.ofList (trim text.toList))

/-- **Values of variables are read as is relied on.** -/
theorem readsValues_valueOf : ReadsValues valueOf where
  number h := by rw [valueOf_of_isPlainText (isPlainText_number h), h]
  text hplain h := by rw [valueOf_of_isPlainText hplain, h]

/-- **The value of a variable that is an accepted text is the count of the text.** -/
theorem ReadsValues.decode {valueOf : String → Value} (hvalues : ReadsValues valueOf)
    {text : String} (h : ThreadCount.read text = .ok count) :
    ThreadCount.decode (valueOf text) = .ok count := by
  have hform := ThreadCount.form_of_read h
  have htext : trim (String.ofList (trim text.toList)).toList = trim text.toList := by
    rw [String.toList_ofList, Text.trim_trim]
  have hread := ThreadCount.read_of_form (htext.symm ▸ hform)
  cases hnumber : Size.read? (trim text.toList) with
  | some n =>
    simp only [ThreadCount.read, htext, hnumber] at hread
    cases hread
    rw [hvalues.number hnumber]
    rfl
  | none =>
    rw [hvalues.text (isPlainText_of_form hform) hnumber]
    simp only [ThreadCount.decode, hread]

end EnvironmentLayer

end PhaseExecutors
