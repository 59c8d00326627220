import PhaseExecutors.Proofs.Config.VariableText
import PhaseExecutors.Proofs.Plan.Start
import PhaseExecutors.Proofs.Text.Spaced

/-!
The grammar of thread counts.

A count is written in one of five shapes, each a row of one to three tokens. The reader trims before
every token, so it finds the tokens of each shape, and what it finds has a shape. Since the reader
gives one answer, no text has two shapes that stand for different counts. A text without a shape is
refused as a whole, unless all that is wrong with it is the factor.
-/

namespace PhaseExecutors

open Text (Blanks Spaced Tight isBlank trim)

/-! ### Whole numbers -/

namespace Size

variable {cs ds : List Char} {n : Size}

/-- An optional plus and one or more digits, which write the size. -/
def IsWritten (cs : List Char) (n : Size) : Prop :=
  ∃ ds, (cs = ds ∨ cs = '+' :: ds) ∧ ds ≠ [] ∧ (∀ d ∈ ds, d.isDigit = true) ∧
    Nat.ofDigitChars 10 ds 0 = n.toNat

lemma readDigits_eq_ok_iff {k m : Nat} (hk : k < bound) :
    readDigits k ds = .ok m ↔
      (∀ d ∈ ds, d.isDigit = true) ∧ Nat.ofDigitChars 10 ds k = m ∧ m < bound := by
  constructor
  · intro h
    have hdigits := isDigit_of_readDigits h
    refine ⟨hdigits, ?_⟩
    induction ds generalizing k with
    | nil =>
      cases h
      exact ⟨rfl, hk⟩
    | cons d ds ih =>
      obtain ⟨hd, hds⟩ := List.forall_mem_cons.mp hdigits
      rw [readDigits, digit?, if_pos hd] at h
      dsimp only at h
      split at h
      · next hstep =>
        rw [Nat.ofDigitChars_cons, Nat.mul_comm]
        exact ih hstep h hds
      · cases h
  · rintro ⟨hdigits, rfl, hm⟩
    exact readDigits_eq hdigits hm

/-- Exactly the written sizes are read. -/
lemma read?_eq_some_iff : read? cs = some n ↔ IsWritten cs n := by
  have hdigits (ds : List Char) : ((readDigits 0 ds).map UInt64.ofNat).toOption = some n ↔
      (∀ d ∈ ds, d.isDigit = true) ∧ Nat.ofDigitChars 10 ds 0 = n.toNat := by
    have hok : readDigits 0 ds = .ok n.toNat ↔ _ := readDigits_eq_ok_iff (by decide)
    rw [iff_true_intro n.toNat_lt, and_true] at hok
    rw [← hok]
    cases hread : readDigits 0 ds with
    | error e => simp [Except.map, Except.toOption]
    | ok m =>
      have hm : m < bound := ((readDigits_eq_ok_iff (by decide)).mp hread).2.2
      have hword : UInt64.ofNat m = n ↔ m = n.toNat := by
        rw [← UInt64.toNat_inj, UInt64.toNat_ofNat_of_lt' hm]
      simpa [Except.map, Except.toOption] using hword
  unfold read? read
  split
  · simp [IsWritten, Except.toOption]
  · simp [IsWritten, Except.toOption]
  · next ds hne =>
    rw [hdigits]
    constructor
    · rintro ⟨hall, hvalue⟩
      exact ⟨ds, Or.inr rfl, hne, hall, hvalue⟩
    · rintro ⟨ds', hcs | hcs, -, hall, hvalue⟩
      · -- a plus is no digit
        exact absurd (hall '+' (hcs ▸ List.mem_cons_self)) (by decide)
      · cases hcs
        exact ⟨hall, hvalue⟩
  · next hne hplus hplus' =>
    rw [hdigits]
    constructor
    · rintro ⟨hall, hvalue⟩
      exact ⟨cs, Or.inl rfl, hne, hall, hvalue⟩
    · rintro ⟨ds, rfl | rfl, -, hall, hvalue⟩
      · exact ⟨hall, hvalue⟩
      · exact absurd rfl (hplus' ds)

end Size

/-! ### Tokens without blanks -/

namespace Text

lemma tight_of_toLower {cs word : List Char} (h : cs.map Char.toLower = word)
    (hword : word.any isBlank = false) : Tight cs :=
  tight_of_not_blank (not_blank_of_map_toLower h hword)

end Text

lemma Size.IsWritten.tight {cs : List Char} {n : Size} (h : IsWritten cs n) : Tight cs := by
  obtain ⟨-, hchars⟩ := mem_of_read? (read?_eq_some_iff.mpr h)
  refine Text.tight_of_not_blank fun c hc => ?_
  rcases hchars c hc with hc | rfl
  · exact Text.isBlank_of_isPrintable (Text.isPrintable_of_isDigit hc)
  · rfl

lemma Decimal.tight_of_read? {cs : List Char} {x : Binary64} (h : read? cs = some x) :
    Tight cs := by
  refine Text.tight_of_not_blank fun c hc => ?_
  have hc := isNumberChar_of_read? h c hc
  simp only [isNumberChar, Bool.or_eq_true, List.contains_iff_mem] at hc
  rcases hc with (hc | hc) | hc
  · exact Text.isBlank_of_isPrintable (Text.isPrintable_of_isDigit hc)
  · have hsigns : ['.', '+', '-'].any isBlank = false := by decide
    exact Text.not_blank_of_any hsigns c hc
  · have hletters : numberLetters.any isBlank = false := by decide
    rw [← Text.isBlank_toLower]
    exact Text.not_blank_of_any hletters _ hc

namespace ThreadCount

/-! ### The grammar -/

/-- The ways to write a count. -/
inductive Shape
  | number
  | word
  | host
  | factor
  | offset

/-- The tokens of each shape, and the count that they stand for. -/
inductive Phrase : Shape → List (List Char) → ThreadCount → Prop
  | number {digits n} (h : Size.IsWritten digits n) : Phrase .number [digits] (.fixed n)
  | word {letters} (h : letters.map Char.toLower = "auto".toList) :
    Phrase .word [letters] (.hostCpus .one 0)
  | host : Phrase .host ["HOST_CPUS".toList] (.hostCpus .one 0)
  | factor {digits x} (h : Decimal.read? digits = some x) (hpos : x.isPositive = true) :
    Phrase .factor ["HOST_CPUS".toList, ['*'], digits] (.hostCpus x 0)
  | offset {digits n} (h : Size.IsWritten digits n) :
    Phrase .offset ["HOST_CPUS".toList, ['-'], digits] (.hostCpus .one n)

/-- The text has the shape and stands for the count, whatever blanks are around its tokens. -/
def Matches (shape : Shape) (text : String) (count : ThreadCount) : Prop :=
  ∃ tokens, Phrase shape tokens count ∧ Spaced tokens text.toList

/-- The text has all of a factor but a number above zero. -/
def LacksFactor (text : String) (digits : List Char) : Prop :=
  Spaced ["HOST_CPUS".toList, ['*'], digits] text.toList ∧ Tight digits ∧
    ∀ x, Decimal.read? digits = some x → x.isPositive = false

/-- Of the shapes in this order, the first that the text has stands for the count. -/
def FirstMatch (order : List Shape) (text : String) (count : ThreadCount) : Prop :=
  ∃ before shape after, order = before ++ shape :: after ∧ Matches shape text count ∧
    ∀ earlier ∈ before, ¬∃ other, Matches earlier text other

variable {text : String} {tokens : List (List Char)} {rest digits : List Char} {sign : Char}
  {shape : Shape} {count : ThreadCount}

/-! ### Tokens that are found -/

lemma read?_of_word {letters : List Char} (h : letters.map Char.toLower = autoWord) :
    Size.read? letters = none := by
  cases letters with
  | nil => cases h
  | cons c letters =>
    have hc : c.toLower = 'a' := (List.cons.inj h).1
    refine Size.read?_eq_none letters ?_ ?_
    · by_contra hdigit
      rw [Text.toLower_of_isDigit (by simpa using hdigit)] at hc
      rw [hc] at hdigit
      exact hdigit (by decide)
    · rintro rfl
      exact absurd hc (by decide)

/-- Behind the word for the host the reader goes on with the other tokens. -/
lemma exists_read_of_spaced (h : Spaced (hostWord :: tokens) text.toList) :
    ∃ rest, Spaced tokens rest ∧ read text = readRelative text (trim rest) := by
  have hword : ∀ c ∈ hostWord, isBlank c = false := Text.not_blank_of_any (by decide)
  obtain ⟨tail, rest, htext, htail, hrest⟩ := h.exists_tail (by decide) hword
  refine ⟨rest, hrest, ?_⟩
  rw [read_of_trim_hostWord htext, htail]

lemma exists_digits_of_spaced (h : Spaced [[sign], digits] rest) (hsign : isBlank sign = false)
    (hdigits : Tight digits) : ∃ tail, trim rest = sign :: tail ∧ trim tail = digits := by
  obtain ⟨tail, rest', hrest, htail, hspaced⟩ :=
    h.exists_tail nofun (List.forall_mem_singleton.mpr hsign)
  refine ⟨tail, hrest, ?_⟩
  rw [htail, hspaced.trim_eq hdigits]

lemma read_of_matches (h : Matches shape text count) : read text = .ok count := by
  obtain ⟨tokens, hphrase, hspaced⟩ := h
  cases hphrase with
  | number h =>
    have htrim := hspaced.trim_eq h.tight
    exact read_of_form (htrim ▸ .number (Size.read?_eq_some_iff.mpr h))
  | @word letters h =>
    have hletters : Tight letters := Text.tight_of_toLower h (by decide)
    have hsame : Text.sameIgnoringCase letters autoWord = true := by
      rw [Text.sameIgnoringCase, h]
      decide
    have htrim := hspaced.trim_eq hletters
    exact read_of_form (htrim ▸ .word (read?_of_word h) hsame)
  | host =>
    obtain ⟨rest, hrest, hread⟩ := exists_read_of_spaced hspaced
    cases hrest with
    | nil hgap =>
      rw [hread, Text.trim_gap_nil hgap]
      rfl
  | factor h hpos =>
    obtain ⟨rest, hrest, hread⟩ := exists_read_of_spaced hspaced
    obtain ⟨tail, hsign, htail⟩ := exists_digits_of_spaced hrest rfl (Decimal.tight_of_read? h)
    rw [hread, hsign]
    simp only [readRelative, htail, h, hpos, if_true]
  | offset h =>
    obtain ⟨rest, hrest, hread⟩ := exists_read_of_spaced hspaced
    obtain ⟨tail, hsign, htail⟩ := exists_digits_of_spaced hrest rfl h.tight
    rw [hread, hsign]
    simp only [readRelative, htail, Size.read?_eq_some_iff.mpr h]

/-- A text that lacks the factor is refused with what stands in its place. -/
lemma read_of_lacksFactor (h : LacksFactor text digits) :
    read text = .error (.invalidFactor (String.ofList digits)) := by
  obtain ⟨hspaced, htight, hbad⟩ := h
  obtain ⟨rest, hrest, hread⟩ := exists_read_of_spaced hspaced
  obtain ⟨tail, hsign, htail⟩ := exists_digits_of_spaced hrest rfl htight
  rw [hread, hsign]
  simp only [readRelative, htail]
  cases hx : Decimal.read? digits with
  | none => rfl
  | some x => simp only [hbad x hx, Bool.false_eq_true, if_false]

/-! ### What is read has a shape -/

lemma spaced_suffix (h : trim rest = sign :: digits) : Spaced [[sign], trim digits] rest := by
  have hdigits : Spaced [trim digits] digits := (Text.spaced_self (trim digits)).of_trim
  have hsign : Spaced [[sign], trim digits] (trim rest) := h ▸ hdigits.word_append [sign]
  exact hsign.of_trim

lemma exists_matches_of_form (h : Form (trim text.toList) count) :
    ∃ shape, Matches shape text count := by
  generalize hcs : trim text.toList = cs at h
  have hspaced {tokens : List (List Char)} (h : Spaced tokens cs) : Spaced tokens text.toList :=
    Text.Spaced.of_trim (hcs ▸ h)
  cases h with
  | number h =>
    exact ⟨.number, _, .number (Size.read?_eq_some_iff.mp h), hspaced (Text.spaced_self cs)⟩
  | word hnumber h =>
    exact ⟨.word, _, .word (eq_of_beq h), hspaced (Text.spaced_self cs)⟩
  | @host rest h =>
    have hrest : Spaced [] rest := Text.Spaced.of_trim (h.symm ▸ .nil Text.blanks_nil)
    exact ⟨.host, _, .host, hspaced (hrest.word_append hostWord)⟩
  | factor h hread hpos =>
    exact ⟨.factor, _, .factor hread hpos, hspaced ((spaced_suffix h).word_append hostWord)⟩
  | offset h hread =>
    exact ⟨.offset, _, .offset (Size.read?_eq_some_iff.mp hread),
      hspaced ((spaced_suffix h).word_append hostWord)⟩

lemma read_eq_ok_iff : read text = .ok count ↔ ∃ shape, Matches shape text count := by
  constructor
  · exact fun h => exists_matches_of_form (form_of_read h)
  · rintro ⟨shape, h⟩
    exact read_of_matches h

/-! ### What is refused -/

lemma error_of_readRelative {e : ReadError} (htext : trim text.toList = hostWord ++ rest)
    (h : readRelative text (trim rest) = .error e) :
    e = .invalid text ∨ ∃ digits, e = .invalidFactor (String.ofList digits) ∧
      LacksFactor text digits := by
  unfold readRelative at h
  split at h
  · cases h
  · next tail htail =>
    have hspaced : Spaced [hostWord, ['*'], trim tail] text.toList := by
      have hword := (spaced_suffix htail).word_append hostWord
      exact Text.Spaced.of_trim (htext ▸ hword)
    have htight := Text.tight_trim tail
    dsimp only at h
    split at h
    · next x hx =>
      split at h
      · cases h
      · next hpos =>
        cases h
        refine Or.inr ⟨_, rfl, hspaced, htight, fun y hy => ?_⟩
        rw [hx, Option.some.injEq] at hy
        simpa [← hy] using hpos
    · next hnone =>
      cases h
      refine Or.inr ⟨_, rfl, hspaced, htight, fun y hy => ?_⟩
      rw [hnone] at hy
      cases hy
  · split at h
    · cases h
    · cases h
      exact Or.inl rfl
  · cases h
    exact Or.inl rfl

lemma error_cases {e : ReadError} (h : read text = .error e) :
    e = .invalid text ∨ ∃ digits, e = .invalidFactor (String.ofList digits) ∧
      LacksFactor text digits := by
  unfold read at h
  dsimp only at h
  split at h
  · cases h
  split at h
  · cases h
  split at h
  · next rest hdrop =>
    unfold Text.dropWord? at hdrop
    split at hdrop
    · next hprefix =>
      obtain ⟨rest', htext⟩ := List.isPrefixOf_iff_prefix.mp hprefix
      rw [← htext, List.drop_left] at hdrop
      cases hdrop
      exact error_of_readRelative htext.symm h
    · cases hdrop
  · cases h
    exact Or.inl rfl

lemma read_eq_invalidFactor_iff {digits : String} :
    read text = .error (.invalidFactor digits) ↔ LacksFactor text digits.toList := by
  constructor
  · intro h
    rcases error_cases h with h | ⟨digits', h, hlacks⟩
    · cases h
    · cases h
      rwa [String.toList_ofList]
  · intro h
    rw [read_of_lacksFactor h, String.ofList_toList]

lemma read_eq_invalid_iff {whole : String} :
    read text = .error (.invalid whole) ↔
      whole = text ∧ (¬∃ shape count, Matches shape text count) ∧
        ¬∃ digits, LacksFactor text digits := by
  constructor
  · intro h
    refine ⟨?_, ?_, ?_⟩
    · rcases error_cases h with h | ⟨digits, h, -⟩
      · exact ReadError.invalid.inj h
      · cases h
    · rintro ⟨shape, count, hmatches⟩
      rw [read_of_matches hmatches] at h
      cases h
    · rintro ⟨digits, hlacks⟩
      rw [read_of_lacksFactor hlacks] at h
      cases h
  · rintro ⟨rfl, hmatches, hlacks⟩
    cases hread : read whole with
    | ok count =>
      obtain ⟨shape, h⟩ := read_eq_ok_iff.mp hread
      exact absurd ⟨shape, count, h⟩ hmatches
    | error e =>
      rcases error_cases hread with rfl | ⟨digits, -, h⟩
      · rfl
      · exact absurd ⟨digits, h⟩ hlacks

/-! ### The reader and the grammar -/

/-- Since all shapes of a text stand for one count, the first one in any order does. -/
lemma firstMatch_iff {order : List Shape} (horder : ∀ shape, shape ∈ order) :
    FirstMatch order text count ↔ read text = .ok count := by
  constructor
  · rintro ⟨before, shape, after, -, hmatches, -⟩
    exact read_of_matches hmatches
  · intro h
    obtain ⟨shape, hshape⟩ := read_eq_ok_iff.mp h
    have hsome : ¬∀ shape ∈ order, ¬∃ other, Matches shape text other :=
      fun hnone => hnone shape (horder shape) ⟨count, hshape⟩
    obtain ⟨before, first, after, hsplit, hbefore, hfirst⟩ := exists_first hsome
    obtain ⟨other, hother⟩ := not_not.mp hfirst
    have hread := read_of_matches hother
    rw [h, Except.ok.injEq] at hread
    exact ⟨before, first, after, hsplit, hread ▸ hother, hbefore⟩

/-- How the reader treats a text, by the grammar. -/
structure Recognized (text : String) : Prop where
  /-- The text is accepted exactly if it has a shape, as what the shape stands for. -/
  accepted : ∀ count, read text = .ok count ↔ ∃ shape, Matches shape text count
  /-- No two shapes of the text stand for different counts, -/
  unambiguous : ∀ shape shape' count count', Matches shape text count →
    Matches shape' text count' → count = count'
  /-- so the shapes can be tried in any order, -/
  anyOrder : ∀ order : List Shape, (∀ shape, shape ∈ order) →
    ∀ count, FirstMatch order text count ↔ read text = .ok count
  /-- and other blanks around the tokens make no difference. -/
  blanks : ∀ shape tokens count other, Phrase shape tokens count → Spaced tokens text.toList →
    Spaced tokens other.toList → read other = read text
  /-- If a factor is all that is wrong, it is named without the blanks around it, -/
  badFactor : ∀ digits, read text = .error (.invalidFactor digits) ↔
    LacksFactor text digits.toList
  /-- and any other text that has no shape is named as a whole. -/
  invalid : ∀ whole, read text = .error (.invalid whole) ↔
    whole = text ∧ (¬∃ shape count, Matches shape text count) ∧ ¬∃ digits, LacksFactor text digits

/-- **A text is accepted exactly if the grammar has it, as the count that the grammar gives it, and
is refused with the factor or with the whole text.** -/
theorem recognized (text : String) : Recognized text := by
  refine ⟨fun _ => read_eq_ok_iff, ?_, fun _ horder _ => firstMatch_iff horder, ?_,
    fun _ => read_eq_invalidFactor_iff, fun _ => read_eq_invalid_iff⟩
  · intro shape shape' count count' h h'
    have hread := read_of_matches h
    rw [read_of_matches h', Except.ok.injEq] at hread
    exact hread.symm
  · intro shape tokens count other hphrase htext hother
    rw [read_of_matches ⟨tokens, hphrase, htext⟩, read_of_matches ⟨tokens, hphrase, hother⟩]

example : read " HOST_CPUS *\t-1 " = .error (.invalidFactor "-1") := by decide +kernel

end ThreadCount

end PhaseExecutors
