import Mathlib.Data.Bool.AllAny
import PhaseExecutors.Proofs.Number.Rounding
import PhaseExecutors.Proofs.Text.Trim

/-!
Positional notation reads back.

A size is written as its digits. A binary number without sign is written as digits with at most one
point. What such a text stands for is told by its digits and the number of those behind the point;
neither zeros at the two ends nor the place where the digits are cut changes it. A minus behind the
text is no part of a number.
-/

namespace PhaseExecutors

namespace Size

lemma isDigit_of_mem_digits {n : Nat} {d : Char} (h : d ∈ digits n) : d.isDigit = true :=
  Nat.isDigit_of_mem_toDigits (by decide) (Nat.le_refl _) h

lemma exists_digits (n : Nat) : ∃ d ds, digits n = d :: ds ∧ d.isDigit = true := by
  cases hds : digits n with
  | nil => exact absurd hds Nat.toDigits_ne_nil
  | cons d ds => exact ⟨d, ds, rfl, isDigit_of_mem_digits (hds ▸ List.mem_cons_self)⟩

/-- The digits of a number do not begin with zero, unless it is the only one. -/
lemma head?_digits {n : Nat} (h : 0 < n) : (digits n).head? ≠ some '0' := by
  induction n using Nat.strong_induction_on with
  | _ n ih =>
    unfold digits at ih ⊢
    by_cases hn : n < 10
    · rw [Nat.toDigits_of_lt_base hn, List.head?_cons, Ne, Option.some.injEq, Nat.digitChar_eq_zero]
      omega
    · rw [Nat.toDigits_of_base_le (by decide) (by omega), List.head?_append_of_ne_nil _
        Nat.toDigits_ne_nil]
      exact ih (n / 10) (by omega) (by omega)

lemma digits_cases (n : Nat) : digits n = ['0'] ∨
    ∃ d ds, digits n = d :: ds ∧ d ≠ '0' := by
  rcases Nat.eq_zero_or_pos n with rfl | hn
  · exact Or.inl (Nat.toDigits_zero 10)
  · obtain ⟨d, ds, hds, -⟩ := exists_digits n
    refine Or.inr ⟨d, ds, hds, ?_⟩
    rintro rfl
    exact head?_digits hn (by rw [hds]; rfl)

/-- More digits make no smaller number. -/
lemma le_ofDigitChars (n : Nat) (ds : List Char) : n ≤ Nat.ofDigitChars 10 ds n := by
  rw [Nat.ofDigitChars_eq_ofDigitChars_zero]
  exact Nat.le_trans (Nat.le_mul_of_pos_left n (Nat.pow_pos (by decide))) (Nat.le_add_right _ _)

lemma readDigits_eq {ds : List Char} {n : Nat} (hds : ∀ d ∈ ds, d.isDigit = true)
    (hn : Nat.ofDigitChars 10 ds n < bound) : readDigits n ds = .ok (Nat.ofDigitChars 10 ds n) := by
  induction ds generalizing n with
  | nil => rfl
  | cons d ds ih =>
    have hd : digit? d = some (d.toNat - '0'.toNat) := if_pos (hds d List.mem_cons_self)
    rw [Nat.ofDigitChars_cons, Nat.mul_comm] at hn ⊢
    have hstep := Nat.lt_of_le_of_lt (le_ofDigitChars _ ds) hn
    simp only [readDigits, hd]
    rw [if_pos hstep]
    exact ih (fun c hc => hds c (List.mem_cons_of_mem d hc)) hn

lemma read_of_isDigit {d : Char} (ds : List Char) (h : d.isDigit = true) :
    read (d :: ds) = (readDigits 0 (d :: ds)).map UInt64.ofNat := by
  simp [read, Text.ne_of_isDigit h (d := '+') rfl]

/-- A size is read back from its digits. -/
lemma read?_digits (n : Size) : read? (digits n.toNat) = some n := by
  have hall : ∀ d ∈ digits n.toNat, d.isDigit = true := fun _ hd => isDigit_of_mem_digits hd
  have hvalue : Nat.ofDigitChars 10 (digits n.toNat) 0 = n.toNat := Nat.ofDigitChars_ten_toDigits
  have hread := readDigits_eq (n := 0) hall (by rw [hvalue]; exact n.toNat_lt)
  obtain ⟨d, ds, hds, hd⟩ := exists_digits n.toNat
  rw [hds] at hread hvalue
  rw [hds, read?, read_of_isDigit ds hd, hread, hvalue]
  simp [Except.map, Except.toOption]

/-- What does not begin with a digit or a plus is no size. -/
lemma read?_eq_none {c : Char} (cs : List Char) (hdigit : c.isDigit = false) (hplus : c ≠ '+') :
    read? (c :: cs) = none := by
  simp [read?, read, hplus, readDigits, digit?, hdigit, Except.map, Except.toOption]

end Size

namespace Decimal

open Text (IsPrintable isPrintable_of_isDigit)

variable {ds text rest : List Char} {c : Nat} {x : Binary64}

/-! ### Digits -/

lemma ofDigits_eq (ds : List Char) : ofDigits ds = Nat.ofDigitChars 10 ds 0 := by
  simp only [ofDigits, Nat.ofDigitChars_eq_foldl, Nat.mul_comm]

@[simp] lemma ofDigits_digits (n : Nat) : ofDigits (Size.digits n) = n := by
  rw [ofDigits_eq, Size.digits, Nat.ofDigitChars_ten_toDigits]

lemma ofDigits_append_zeros (ds : List Char) (n : Nat) :
    ofDigits (ds ++ List.replicate n '0') = ofDigits ds * 10 ^ n := by
  rw [ofDigits_eq, Nat.ofDigitChars_append, Nat.ofDigitChars_replicate_zero, ← ofDigits_eq,
    Nat.mul_comm]

lemma ofDigits_zeros_append (n : Nat) (ds : List Char) :
    ofDigits (List.replicate n '0' ++ ds) = ofDigits ds := by
  rw [ofDigits_eq, Nat.ofDigitChars_append, Nat.ofDigitChars_replicate_zero, Nat.mul_zero,
    ← ofDigits_eq]

lemma isDigit_of_mem_zeros {n : Nat} {d : Char} (h : d ∈ List.replicate n '0') :
    d.isDigit = true := by
  rw [List.eq_of_mem_replicate h]
  rfl

/-- What is dropped behind the kept digits are zeros. -/
lemma exists_zeros (ds : List Char) (k : Int) :
    ∃ n, ds = (dropTrailingZeros ds k).1 ++ List.replicate n '0' := by
  have hzeros : ∀ d ∈ ds.reverse.takeWhile (· == '0'), d = '0' := fun d hd => by
    simpa using List.mem_takeWhile_imp hd
  have hrun := List.eq_replicate_of_mem hzeros
  generalize (ds.reverse.takeWhile (· == '0')).length = n at hrun
  refine ⟨n, ?_⟩
  calc ds = (ds.reverse.takeWhile (· == '0') ++ ds.reverse.dropWhile (· == '0')).reverse := by
        rw [List.takeWhile_append_dropWhile, List.reverse_reverse]
    _ = (dropTrailingZeros ds k).1 ++ List.replicate n '0' := by
        rw [List.reverse_append, hrun, List.reverse_replicate, dropTrailingZeros]

/-! ### Texts and codes -/

lemma code_zero (e : Int) : code 0 e = 0 := by
  have hround (den : Nat) (h : 0 < den) : Binary64.roundUnits 0 den = 0 := by
    have hself := Binary64.roundHalfEven_mul_self 0 h
    rw [Nat.zero_mul] at hself
    simp [Binary64.roundUnits, hself]
  unfold code
  split
  · rw [Nat.zero_mul, Nat.zero_mul]
    exact hround 1 Nat.one_pos
  · rw [Nat.zero_mul]
    exact hround _ (ten_pow_pos _)

/-- Within the bounds the power of ten is computed. -/
lemma codeOfDigits_eq (m width : Nat) {e : Int} (hhigh : e ≤ 400) (hlow : -400 ≤ e + width) :
    codeOfDigits m width e = code m e := by
  unfold codeOfDigits
  split
  · next hm => rw [hm, code_zero]
  · rw [if_neg (by omega), if_neg (by omega)]

/-- Digits with a point before the fraction, if there is a fraction. -/
def pointed (whole frac : List Char) : List Char :=
  match frac with
  | [] => whole
  | frac => whole ++ '.' :: frac

/-- The text is digits, with at most one point, and stands for the code. -/
def Spells (text : List Char) (c : Nat) : Prop :=
  ∃ whole frac, text = pointed whole frac ∧ whole ≠ [] ∧
    (∀ d ∈ whole, d.isDigit = true) ∧ (∀ d ∈ frac, d.isDigit = true) ∧
      code (ofDigits (whole ++ frac)) (-(frac.length : Int)) = c

lemma Spells.exists_head (h : Spells text c) : ∃ d ds, text = d :: ds ∧ d.isDigit = true := by
  obtain ⟨whole, frac, rfl, hne, hwhole, -, -⟩ := h
  cases whole with
  | nil => exact absurd rfl hne
  | cons d ds =>
    have hd := hwhole d List.mem_cons_self
    cases frac with
    | nil => exact ⟨d, ds, rfl, hd⟩
    | cons f fs => exact ⟨d, ds ++ '.' :: f :: fs, rfl, hd⟩

lemma Spells.isPrintable (h : Spells text c) : ∀ d ∈ text, IsPrintable d := by
  obtain ⟨whole, frac, rfl, -, hwhole, hfrac, -⟩ := h
  intro d hd
  have hcases : d ∈ whole ∨ d = '.' ∨ d ∈ frac := by
    cases frac with
    | nil => exact Or.inl hd
    | cons f fs => simpa [pointed] using hd
  rcases hcases with hd | rfl | hd
  · exact isPrintable_of_isDigit (hwhole d hd)
  · decide
  · exact isPrintable_of_isDigit (hfrac d hd)

/-! ### Writing -/

/-- Positional notation stands for the digits times the power of ten. -/
lemma spells_positional (hne : ds ≠ []) (hds : ∀ d ∈ ds, d.isDigit = true) (k : Int) :
    Spells (positional ds k) (code (ofDigits ds) k) := by
  unfold positional
  split
  · next hk =>
    refine ⟨ds ++ List.replicate k.toNat '0', [], rfl, by simp [hne], ?_, nofun, ?_⟩
    · intro d hd
      rcases List.mem_append.mp hd with hd | hd
      · exact hds d hd
      · exact isDigit_of_mem_zeros hd
    · rw [List.append_nil, ofDigits_append_zeros, code_mul_pow, Int.toNat_of_nonneg hk]
      congr 1
      simp
  · next hk =>
    obtain ⟨n, hn⟩ : ∃ n : Nat, (-k).toNat = n := ⟨_, rfl⟩
    have hkn : k = -(n : Int) := by omega
    simp only [hn]
    -- padding leaves at least one digit before the point
    generalize hpadded : List.replicate (n + 1 - ds.length) '0' ++ ds = padded
    have hlen : n + 1 ≤ padded.length := by
      rw [← hpadded, List.length_append, List.length_replicate]
      omega
    have hdigits : ∀ d ∈ padded, d.isDigit = true := by
      intro d hd
      rw [← hpadded] at hd
      rcases List.mem_append.mp hd with hd | hd
      · exact isDigit_of_mem_zeros hd
      · exact hds d hd
    have hvalue : ofDigits padded = ofDigits ds := by rw [← hpadded, ofDigits_zeros_append]
    obtain ⟨j, hj⟩ := exists_zeros (padded.drop (padded.length - n)) 0
    generalize (dropTrailingZeros (padded.drop (padded.length - n)) 0).1 = kept at hj ⊢
    have hcut : padded.take (padded.length - n) ++ kept ++ List.replicate j '0' = padded := by
      rw [List.append_assoc, ← hj, List.take_append_drop]
    have hwidth : kept.length + j = n := by
      have := congrArg List.length hj
      rw [List.length_drop, List.length_append, List.length_replicate] at this
      omega
    refine ⟨padded.take (padded.length - n), kept, ?_, ?_, ?_, ?_, ?_⟩
    · cases kept <;> rfl
    · intro hnil
      have := congrArg List.length hnil
      rw [List.length_take, List.length_nil] at this
      omega
    · exact fun d hd => hdigits d (List.mem_of_mem_take hd)
    · intro d hd
      refine hdigits d (List.mem_of_mem_drop (i := padded.length - n) ?_)
      rw [hj]
      exact List.mem_append_left _ hd
    · have hexp : -(kept.length : Int) = k + j := by omega
      rw [hexp, ← code_mul_pow, ← ofDigits_append_zeros, hcut, hvalue]

/-- The magnitude of a finite code is written as a text that stands for it. -/
lemma spells_plainMagnitude (h : c < Binary64.infinityCode) : Spells (plainMagnitude c) c := by
  unfold plainMagnitude
  split
  · next hc =>
    refine ⟨['0'], [], rfl, by simp, by simp, nofun, ?_⟩
    rw [hc]
    exact code_zero 0
  · have hcode := code_shortest .up h
    generalize shortest .up c = found at hcode
    obtain ⟨d, k⟩ := found
    have hspells := spells_positional (Nat.toDigits_ne_nil (n := d) (b := 10))
      (fun _ hd => Size.isDigit_of_mem_digits hd) k
    rwa [← Size.digits, ofDigits_digits, hcode] at hspells

/-! ### Reading -/

lemma splitPoint_pointed {whole frac : List Char} (hwhole : ∀ d ∈ whole, d.isDigit = true)
    (hfrac : ∀ d ∈ frac, d.isDigit = true)
    (hrest : ∀ d ∈ rest.head?, d.isDigit = false ∧ d ≠ '.') :
    splitPoint (pointed whole frac ++ rest) = (whole, frac, rest) := by
  have hstop : ∀ d ∈ rest.head?, d.isDigit = false := fun d hd => (hrest d hd).1
  unfold splitPoint
  cases frac with
  | nil =>
    simp only [pointed, Text.takeWhile_run hwhole hstop, Text.dropWhile_run hwhole hstop]
    split
    · next hdot => exact absurd rfl (hrest '.' (by simp)).2
    · rfl
  | cons f fs =>
    have hpoint : ∀ d ∈ ('.' :: (f :: fs ++ rest)).head?, d.isDigit = false := by
      intro d hd
      cases hd
      rfl
    have htext : pointed whole (f :: fs) ++ rest = whole ++ '.' :: (f :: fs ++ rest) := by
      simp [pointed]
    rw [htext, Text.takeWhile_run hwhole hpoint, Text.dropWhile_run hwhole hpoint]
    simp only [Text.takeWhile_run hfrac hstop, Text.dropWhile_run hfrac hstop]

lemma Spells.readUnsigned? (h : Spells text c) (negative : Bool) :
    ∃ hc, Decimal.readUnsigned? negative text = some ⟨negative, c, hc⟩ := by
  obtain ⟨whole, frac, rfl, hne, hwhole, hfrac, rfl⟩ := h
  have hsplit : splitPoint (pointed whole frac ++ []) = (whole, frac, []) :=
    splitPoint_pointed hwhole hfrac nofun
  have hcode : codeOfDigits (ofDigits (whole ++ frac)) (whole ++ frac).length (0 - frac.length) =
      code (ofDigits (whole ++ frac)) (-(frac.length : Int)) := by
    rw [codeOfDigits_eq _ _ (by omega) (by rw [List.length_append]; omega), Int.zero_sub]
  have hempty : (whole.isEmpty && frac.isEmpty) = false := by simp [hne]
  rw [List.append_nil] at hsplit
  refine ⟨code_lt .., ?_⟩
  simp only [Decimal.readUnsigned?, hsplit, hempty, Bool.false_eq_true, if_false, readExponent?,
    Option.map_some, hcode]

/-- A minus cannot follow the digits. -/
lemma Spells.readUnsigned?_minus (h : Spells text c) (negative : Bool) (rest : List Char) :
    Decimal.readUnsigned? negative (text ++ '-' :: rest) = none := by
  obtain ⟨whole, frac, rfl, hne, hwhole, hfrac, -⟩ := h
  have hminus : ∀ d ∈ ('-' :: rest).head?, d.isDigit = false ∧ d ≠ '.' := by
    intro d hd
    cases hd
    decide
  have hsplit := splitPoint_pointed hwhole hfrac hminus
  simp [Decimal.readUnsigned?, hsplit, hne, readExponent?]

lemma readMagnitude?_of_isDigit {d : Char} (h : d.isDigit = true) (negative : Bool) :
    readMagnitude? negative (d :: ds) = readUnsigned? negative (d :: ds) := by
  have hinf : Text.sameIgnoringCase (d :: ds) "inf".toList = false :=
    Text.sameIgnoringCase_of_isDigit h rfl
  have hinfinity : Text.sameIgnoringCase (d :: ds) "infinity".toList = false :=
    Text.sameIgnoringCase_of_isDigit h rfl
  have hnan : Text.sameIgnoringCase (d :: ds) "nan".toList = false :=
    Text.sameIgnoringCase_of_isDigit h rfl
  simp only [readMagnitude?, hinf, hinfinity, hnan, Bool.or_false, Bool.false_eq_true, if_false]

/-- The sign is told apart from a digit. -/
lemma read?_signed {d : Char} (h : d.isDigit = true) (negative : Bool) :
    read? ((if negative then ['-'] else []) ++ d :: ds) = readMagnitude? negative (d :: ds) := by
  cases negative with
  | true => rfl
  | false =>
    simp only [Bool.false_eq_true, if_false, List.nil_append]
    unfold read?
    split
    · next heq =>
      cases heq
      exact absurd h (by decide)
    · next heq =>
      cases heq
      exact absurd h (by decide)
    · rfl

lemma plain_of_isFinite (h : x.isFinite = true) :
    plain x = (if x.negative then ['-'] else []) ++ plainMagnitude x.code := by
  simp [plain, Binary64.isNaN_of_isFinite h, h]

lemma spells_of_isFinite (h : x.isFinite = true) : Spells (plainMagnitude x.code) x.code :=
  spells_plainMagnitude (by simpa [Binary64.isFinite] using h)

/-- **A finite number is read back from its positional notation.** -/
theorem read?_plain (h : x.isFinite = true) : read? (plain x) = some x := by
  have hspells := spells_of_isFinite h
  obtain ⟨d, ds, hds, hd⟩ := hspells.exists_head
  obtain ⟨hc, hread⟩ := hspells.readUnsigned? x.negative
  rw [hds] at hread
  rw [plain_of_isFinite h, hds, read?_signed hd, readMagnitude?_of_isDigit hd, hread]

/-- What is no finite number is written as a word. -/
lemma plain_of_not_isFinite (h : x.isFinite = false) :
    plain x = "NaN".toList ∨ plain x = "inf".toList ∨ plain x = "-inf".toList := by
  simp only [plain, h]
  cases x.isNaN <;> cases x.negative <;> simp

/-- A word reads as something that is not finite. -/
lemma isFinite_of_read?_plain {y : Binary64} (h : x.isFinite = false)
    (hread : read? (plain x) = some y) : y.isFinite = false := by
  rcases plain_of_not_isFinite h with hx | hx | hx <;> rw [hx] at hread <;> cases hread <;> decide

/-- No number is read from a notation with a minus behind it. -/
theorem read?_plain_minus (x : Binary64) (rest : List Char) :
    read? (plain x ++ '-' :: rest) = none := by
  cases h : x.isFinite with
  | true =>
    have hspells := spells_of_isFinite h
    obtain ⟨d, ds, hds, hd⟩ := hspells.exists_head
    have hread := hspells.readUnsigned?_minus x.negative rest
    rw [hds] at hread
    rw [plain_of_isFinite h, hds, List.append_assoc, List.cons_append, read?_signed hd,
      readMagnitude?_of_isDigit hd]
    exact hread
  | false =>
    have hword (cs : List Char) (negative : Bool)
        (hcs : cs = ['i', 'n', 'f'] ∨ cs = ['N', 'a', 'N']) :
        readMagnitude? negative (cs ++ '-' :: rest) = none := by
      rcases hcs with rfl | rfl <;>
        simp [readMagnitude?, Text.sameIgnoringCase, readUnsigned?, splitPoint]
    rcases plain_of_not_isFinite h with hx | hx | hx <;> rw [hx]
    · exact hword _ false (Or.inr rfl)
    · exact hword _ false (Or.inl rfl)
    · exact hword _ true (Or.inl rfl)

lemma isPrintable_of_mem_plain {d : Char} (hd : d ∈ plain x) : IsPrintable d := by
  cases h : x.isFinite with
  | true =>
    rw [plain_of_isFinite h] at hd
    rcases List.mem_append.mp hd with hd | hd
    · cases hsign : x.negative <;> rw [hsign] at hd
      · cases hd
      · rw [List.mem_singleton.mp hd]
        decide
    · exact (spells_of_isFinite h).isPrintable d hd
  | false =>
    have hall {word : List Char} (hword : word.all fun e => decide (IsPrintable e)) :
        ∀ e ∈ word, IsPrintable e := List.all_iff_forall_prop.mp hword
    rcases plain_of_not_isFinite h with hx | hx | hx <;> rw [hx] at hd
    · exact hall (by decide) d hd
    · exact hall (by decide) d hd
    · exact hall (by decide) d hd

end Decimal

end PhaseExecutors
