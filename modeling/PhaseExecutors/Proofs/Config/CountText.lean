import PhaseExecutors.Config.ThreadCount
import PhaseExecutors.Proofs.Number.Positional

/-!
The text of a thread count.

A text that is accepted has one of five forms, none of which has both a factor and an offset. The
text of a count, on the other hand, shows every factor but one and every offset but zero. So
exactly those counts are read back from their text that have one suffix at most, and a factor that
a text may have; the text of any other count is refused.
-/

namespace PhaseExecutors

namespace ThreadCount

open Text (IsPrintable isPrintable_of_isDigit trim trim_of_isPrintable)

variable {text : String} {tail : List Char} {count : ThreadCount}

/-! ### Accepted texts -/

/-- The forms of a trimmed text that is accepted, and the count that it stands for. -/
inductive Form : List Char → ThreadCount → Prop
  | number {cs n} (h : Size.read? cs = some n) : Form cs (.fixed n)
  | word {cs} (hnumber : Size.read? cs = none) (h : Text.sameIgnoringCase cs autoWord = true) :
      Form cs auto
  | host {rest} (h : trim rest = []) : Form (hostWord ++ rest) auto
  | factor {rest digits x} (h : trim rest = '*' :: digits)
      (hread : Decimal.read? (trim digits) = some x) (hpos : x.isPositive = true) :
      Form (hostWord ++ rest) (.hostCpus x 0)
  | offset {rest digits n} (h : trim rest = '-' :: digits)
      (hread : Size.read? (trim digits) = some n) : Form (hostWord ++ rest) (.hostCpus .one n)

lemma form_of_readRelative (h : readRelative text (trim tail) = .ok count) :
    Form (hostWord ++ tail) count := by
  unfold readRelative at h
  split at h
  · next htail =>
    cases h
    exact .host htail
  · next digits htail =>
    dsimp only at h
    split at h
    · next x hread =>
      split at h
      · next hpos =>
        cases h
        exact .factor htail hread hpos
      · cases h
    · cases h
  · next digits htail =>
    split at h
    · next n hread =>
      cases h
      exact .offset htail hread
    · cases h
  · cases h

lemma form_of_read (h : read text = .ok count) : Form (trim text.toList) count := by
  unfold read at h
  dsimp only at h
  split at h
  · next n hnumber =>
    cases h
    exact .number hnumber
  next hnumber =>
  split at h
  · next hword =>
    cases h
    exact .word hnumber hword
  split at h
  · next tail hdrop =>
    unfold Text.dropWord? at hdrop
    split at hdrop
    · next hprefix =>
      obtain ⟨tail', hcs⟩ := List.isPrefixOf_iff_prefix.mp hprefix
      rw [← hcs, List.drop_left] at hdrop
      cases hdrop
      rw [← hcs]
      exact form_of_readRelative h
    · cases hdrop
  · cases h

/-! ### Written texts -/

lemma isPrintable_of_mem_render {c : Char} (h : c ∈ count.render) : IsPrintable c := by
  have hdigits {n : Nat} (hc : c ∈ Size.digits n) : IsPrintable c :=
    isPrintable_of_isDigit (Size.isDigit_of_mem_digits hc)
  cases count with
  | fixed n => exact hdigits h
  | hostCpus factor minus =>
    have hword : ∀ d ∈ hostWord ++ ['*', '-'], IsPrintable d :=
      List.all_iff_forall_prop.mp (by decide)
    rw [render, List.append_assoc, List.mem_append, List.mem_append] at h
    rcases h with h | h | h
    · exact hword c (List.mem_append_left _ h)
    · split at h
      · cases h
      · rcases List.mem_cons.mp h with rfl | h
        · decide
        · exact Decimal.isPrintable_of_mem_plain h
    · split at h
      · cases h
      · rcases List.mem_cons.mp h with rfl | h
        · decide
        · exact hdigits h

lemma toList_toText (count : ThreadCount) : count.toText.toList = count.render :=
  String.toList_ofList

lemma trim_render (count : ThreadCount) : trim count.render = count.render :=
  trim_of_isPrintable fun _ hc => isPrintable_of_mem_render hc

lemma hostWord_eq : hostWord = ['H', 'O', 'S', 'T', '_', 'C', 'P', 'U', 'S'] := rfl

lemma autoWord_eq : autoWord = ['a', 'u', 't', 'o'] := rfl

/-- Behind the word for the host only the suffix matters. -/
lemma read_of_trim_hostWord (htext : trim text.toList = hostWord ++ tail) :
    read text = readRelative text (trim tail) := by
  have hnumber : Size.read? (hostWord ++ tail) = none := by
    rw [hostWord_eq]
    exact Size.read?_eq_none _ rfl (by decide)
  have hauto : Text.sameIgnoringCase (hostWord ++ tail) autoWord = false := by
    rw [hostWord_eq, autoWord_eq]
    exact Text.sameIgnoringCase_of_ne (by decide)
  have hdrop : Text.dropWord? hostWord (hostWord ++ tail) = some tail := by
    rw [Text.dropWord?, if_pos (List.isPrefixOf_iff_prefix.mpr ⟨tail, rfl⟩), List.drop_left]
  simp only [read, htext, hnumber, hauto, Bool.false_eq_true, if_false, hdrop]

/-- A text of one of the forms is accepted. -/
lemma read_of_form (h : Form (trim text.toList) count) : read text = .ok count := by
  generalize hcs : trim text.toList = cs at h
  cases h with
  | number h => simp only [read, hcs, h]
  | word hnumber h => simp only [read, hcs, hnumber, h, if_true]
  | host h =>
    rw [read_of_trim_hostWord hcs, h]
    rfl
  | factor h hread hpos =>
    rw [read_of_trim_hostWord hcs, h]
    simp only [readRelative, hread, hpos, if_true]
  | offset h hread =>
    rw [read_of_trim_hostWord hcs, h]
    simp only [readRelative, hread]

lemma read_hostWord (htext : text.toList = hostWord ++ tail)
    (htail : ∀ c ∈ tail, IsPrintable c) : read text = readRelative text tail := by
  have hword : ∀ c ∈ hostWord, IsPrintable c := List.all_iff_forall_prop.mp (by decide)
  have htrim : trim text.toList = hostWord ++ tail := by
    rw [htext, trim_of_isPrintable (List.forall_mem_append.mpr ⟨hword, htail⟩)]
  rw [read_of_trim_hostWord htrim, trim_of_isPrintable htail]

/-! ### Reading back -/

lemma eq_one_of_sameNumber {x : Binary64} (h : x.sameNumber .one = true) : x = .one := by
  obtain ⟨negative, code, hcode⟩ := x
  simp only [Binary64.sameNumber, Binary64.isZero, Binary64.one, Bool.and_eq_true, Bool.or_eq_true,
    beq_iff_eq] at h
  obtain ⟨-, ⟨-, h⟩ | ⟨hnegative, hcode⟩⟩ := h
  · cases h
  · subst hnegative hcode
    rfl

/-- The counts that a text can express: fixed ones, and those with a positive factor or an offset,
but not with both. -/
def Expressible : ThreadCount → Prop
  | .fixed _ => True
  | .hostCpus factor minus => factor.isPositive = true ∧ (factor = .one ∨ minus = 0)

lemma Form.expressible {cs : List Char} (h : Form cs count) : count.Expressible := by
  cases h with
  | number => exact trivial
  | word => exact ⟨by decide, Or.inl rfl⟩
  | host => exact ⟨by decide, Or.inl rfl⟩
  | factor _ _ hpos => exact ⟨hpos, Or.inr rfl⟩
  | offset => exact ⟨by decide, Or.inl rfl⟩

lemma expressible_of_read (h : read text = .ok count) : count.Expressible :=
  (form_of_read h).expressible

lemma read_toText_fixed (n : Size) : read (toText (.fixed n)) = .ok (.fixed n) := by
  have hread : Size.read? (render (.fixed n)) = some n := Size.read?_digits n
  simp only [read, toList_toText, trim_render, hread]

/-- A factor of one is left out, so the offset is read. -/
lemma read_toText_one (minus : Size) :
    read (toText (.hostCpus .one minus)) = .ok (.hostCpus .one minus) := by
  have htext := toList_toText (.hostCpus .one minus)
  have hone : Binary64.one.sameNumber .one = true := by decide
  simp only [render, hone, if_true, List.append_nil] at htext
  split at htext
  · next hminus =>
    rw [read_hostWord htext nofun, hminus]
    rfl
  · next hminus =>
    have hdigits : ∀ c ∈ Size.digits minus.toNat, IsPrintable c := fun _ hc =>
      isPrintable_of_isDigit (Size.isDigit_of_mem_digits hc)
    have hsuffix : ∀ c ∈ '-' :: Size.digits minus.toNat, IsPrintable c :=
      List.forall_mem_cons.mpr ⟨by decide, hdigits⟩
    rw [read_hostWord htext hsuffix]
    simp only [readRelative, trim_of_isPrintable hdigits, Size.read?_digits]

/-- Behind any other factor nothing else is read. -/
lemma read_toText_factor {factor : Binary64} (hone : factor.sameNumber .one = false)
    (minus : Size) :
    read (toText (.hostCpus factor minus)) =
        (if factor.isPositive ∧ minus = 0 then .ok (.hostCpus factor 0)
        else .error (.invalidFactor (String.ofList
          (Decimal.plain factor ++ if minus = 0 then [] else '-' :: Size.digits minus.toNat)))) := by
  have htext := toList_toText (.hostCpus factor minus)
  simp only [render, hone, Bool.false_eq_true, if_false, List.append_assoc, List.cons_append]
    at htext
  have hfactor : ∀ c ∈ Decimal.plain factor ++
      (if minus = 0 then [] else '-' :: Size.digits minus.toNat), IsPrintable c := by
    intro c hc
    have hrender : c ∈ (hostCpus factor minus).render := by
      rw [← toList_toText, htext]
      exact List.mem_append_right _ (List.mem_cons_of_mem _ hc)
    exact isPrintable_of_mem_render hrender
  have hsuffix := List.forall_mem_cons.mpr ⟨(by decide : IsPrintable '*'), hfactor⟩
  rw [read_hostWord htext hsuffix]
  simp only [readRelative, trim_of_isPrintable hfactor]
  by_cases hminus : minus = 0
  · simp only [hminus, if_true, List.append_nil, and_true]
    cases hfinite : factor.isFinite with
    | true => simp only [Decimal.read?_plain hfinite]
    | false =>
      have hfactor : factor.isPositive = false := by simp [Binary64.isPositive, hfinite]
      simp only [hfactor, Bool.false_eq_true, if_false]
      cases hread : Decimal.read? (Decimal.plain factor) with
      | none => rfl
      | some x =>
        have hx := Decimal.isFinite_of_read?_plain hfinite hread
        have hpos : x.isPositive = false := by simp [Binary64.isPositive, hx]
        simp only [hpos, Bool.false_eq_true, if_false]
  · simp only [hminus, if_false, and_false, Decimal.read?_plain_minus]

lemma read_toText_of_expressible (h : count.Expressible) : read count.toText = .ok count := by
  cases count with
  | fixed n => exact read_toText_fixed n
  | hostCpus factor minus =>
    obtain ⟨hpos, hsuffix⟩ := h
    cases hone : factor.sameNumber .one with
    | true => rw [eq_one_of_sameNumber hone, read_toText_one]
    | false =>
      have hminus : minus = 0 := by
        rcases hsuffix with rfl | hminus
        · cases hone
        · exact hminus
      rw [read_toText_factor hone, if_pos ⟨hpos, hminus⟩, hminus]

lemma exists_error_of_not_expressible (h : ¬count.Expressible) :
    ∃ e, read count.toText = .error e := by
  cases count with
  | fixed n => exact absurd trivial h
  | hostCpus factor minus =>
    cases hone : factor.sameNumber .one with
    | true => exact absurd ⟨by rw [eq_one_of_sameNumber hone]; decide,
        Or.inl (eq_one_of_sameNumber hone)⟩ h
    | false =>
      rw [read_toText_factor hone, if_neg fun hc => h ⟨hc.1, Or.inr hc.2⟩]
      exact ⟨_, rfl⟩

/-- How a count fares when its text is read. -/
structure RoundTrip (count : ThreadCount) : Prop where
  /-- A count is read back if a text can express it, -/
  same : read count.toText = .ok count ↔ count.Expressible
  /-- and otherwise its text is refused. -/
  refused : ¬count.Expressible → ∃ e, read count.toText = .error e
  /-- Every count that was read is read back, -/
  again : ∀ text, read text = .ok count → read count.toText = .ok count
  /-- and its text tells it from every other count that was read. -/
  distinct : ∀ text other text', read text = .ok count → read text' = .ok other →
    count.toText = other.toText → count = other

/-- **A count is read back from its text exactly if a text can express it.** -/
theorem roundTrip_toText (count : ThreadCount) : count.RoundTrip := by
  refine ⟨⟨fun h => expressible_of_read h, read_toText_of_expressible⟩,
    exists_error_of_not_expressible,
    fun text h => read_toText_of_expressible (expressible_of_read h), ?_⟩
  intro text other text' h h' htext
  have hcount := read_toText_of_expressible (expressible_of_read h)
  have hother := read_toText_of_expressible (expressible_of_read h')
  rw [htext, hother] at hcount
  exact (Except.ok.inj hcount).symm

end ThreadCount

end PhaseExecutors
