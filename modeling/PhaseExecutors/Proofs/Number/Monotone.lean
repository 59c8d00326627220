import PhaseExecutors.Proofs.Number.Rounding

/-!
Rounding keeps the order, and small whole numbers.

A larger quotient never has a smaller code. Where two quotients lose equally many bits this is a
fact about rounding to whole numbers; where the larger one loses more, a code with a larger exponent
stands between them. Codes, in turn, are in the order of their magnitudes. So products of positive
numbers are in order, up to where they are infinite, and so are their integral parts.
-/

namespace PhaseExecutors

namespace Binary64

variable {num num' den m q c c' n : Nat} {x y : Binary64}

lemma unitsPerOne_pos : 0 < unitsPerOne := by
  unfold unitsPerOne
  generalize 1074 = n
  exact Nat.two_pow_pos n

/-! ### Rounding to whole numbers -/

lemma roundHalfEven_mono (den : Nat) (h : num ≤ num') :
    roundHalfEven num den ≤ roundHalfEven num' den := by
  have hbounds (k : Nat) : k / den ≤ roundHalfEven k den ∧ roundHalfEven k den ≤ k / den + 1 := by
    unfold roundHalfEven
    dsimp only
    split_ifs <;> omega
  have hq : num / den ≤ num' / den := Nat.div_le_div_right h
  rcases Nat.eq_or_lt_of_le hq with hq | hq
  · -- the same whole part: the remainders decide
    have hnum : den * (num / den) + num % den = num := Nat.div_add_mod ..
    have hnum' : den * (num' / den) + num' % den = num' := Nat.div_add_mod ..
    rw [← hq] at hnum'
    have hr : num % den ≤ num' % den := by omega
    unfold roundHalfEven
    dsimp only
    rw [← hq]
    split_ifs <;> omega
  · have hlow := (hbounds num).2
    have hhigh := (hbounds num').1
    omega

lemma roundHalfEven_le (hden : 0 < den) (h : num ≤ m * den) : roundHalfEven num den ≤ m := by
  have hmono := roundHalfEven_mono den h
  rwa [roundHalfEven_mul_self m hden] at hmono

lemma le_roundHalfEven (hden : 0 < den) (h : m * den ≤ num) : m ≤ roundHalfEven num den := by
  have hmono := roundHalfEven_mono den h
  rwa [roundHalfEven_mul_self m hden] at hmono

/-! ### Rounding to codes -/

/-- How many bits of a magnitude are rounded away. -/
def excess (v : Nat) : Nat := if v = 0 then 0 else v.log2 + 1 - 53

lemma roundUnits_eq (num den : Nat) :
    roundUnits num den = min (excess (num / den) * hiddenBit +
      roundHalfEven num (den * 2 ^ excess (num / den))) infinityCode := rfl

lemma lt_of_excess (v : Nat) : v < 2 ^ (53 + excess v) := by
  by_cases hv : v = 0
  · rw [hv]
    exact Nat.two_pow_pos _
  · have hlog : v.log2 < 53 + excess v := by
      rw [excess, if_neg hv]
      omega
    exact (Nat.log2_lt hv).mp hlog

lemma le_of_excess_pos {v : Nat} (h : 0 < excess v) : 2 ^ (52 + excess v) ≤ v := by
  have hv : v ≠ 0 := by
    rintro rfl
    exact absurd h (by decide)
  have hlog : 52 + excess v ≤ v.log2 := by
    rw [excess, if_neg hv] at h ⊢
    omega
  exact (Nat.le_log2 hv).mp hlog

lemma excess_mono {v v' : Nat} (h : v ≤ v') : excess v ≤ excess v' := by
  by_contra hlt
  have hlow := le_of_excess_pos (v := v) (by omega)
  have hhigh := lt_of_excess v'
  have hpow : 2 ^ (53 + excess v') ≤ 2 ^ (52 + excess v) :=
    Nat.pow_le_pow_right (by decide) (by omega)
  omega

/-- **A larger quotient never has a smaller code.** -/
theorem roundUnits_mono (hden : 0 < den) (h : num ≤ num') :
    roundUnits num den ≤ roundUnits num' den := by
  have hv : num / den ≤ num' / den := Nat.div_le_div_right h
  rw [roundUnits_eq, roundUnits_eq]
  refine min_le_min_right _ ?_
  have ht := excess_mono hv
  have hlow := lt_of_excess (num / den)
  generalize excess (num / den) = t at ht hlow ⊢
  rcases Nat.eq_or_lt_of_le ht with ht | ht
  · rw [← ht]
    have hround := roundHalfEven_mono (den * 2 ^ t) h
    omega
  · -- below a power of two and above it
    have hhigh := le_of_excess_pos (v := num' / den) (by omega)
    generalize excess (num' / den) = t' at ht hhigh ⊢
    have hnum : num ≤ 2 ^ 53 * (den * 2 ^ t) := by
      have hlt := (Nat.div_lt_iff_lt_mul hden).mp hlow
      calc num ≤ 2 ^ (53 + t) * den := hlt.le
        _ = 2 ^ 53 * (den * 2 ^ t) := by rw [pow_add]; ring
    have hnum' : 2 ^ 52 * (den * 2 ^ t') ≤ num' := by
      have hle := (Nat.le_div_iff_mul_le hden).mp hhigh
      calc 2 ^ 52 * (den * 2 ^ t') = 2 ^ (52 + t') * den := by rw [pow_add]; ring
        _ ≤ num' := hle
    have hbelow := roundHalfEven_le (Nat.mul_pos hden (Nat.two_pow_pos t)) hnum
    have habove := le_roundHalfEven (Nat.mul_pos hden (Nat.two_pow_pos t')) hnum'
    unfold hiddenBit
    omega

/-! ### Magnitudes of codes -/

/-- The significand and the exponent of a finite magnitude: the exponent is as small as 53 bits
allow. -/
structure IsNormal (m q : Nat) : Prop where
  lt : m < 2 * hiddenBit
  le : hiddenBit ≤ m ∨ q = 0

lemma unitsOfCode_add (h : IsNormal m q) : unitsOfCode (q * hiddenBit + m) = m * 2 ^ q := by
  obtain ⟨hlt, hle⟩ := h
  have hpos : 0 < hiddenBit := by decide
  by_cases hm : hiddenBit ≤ m
  · have hcode : q * hiddenBit + m = (m - hiddenBit) + (q + 1) * hiddenBit := by
      rw [Nat.add_mul]
      omega
    have hrest : (m - hiddenBit) / hiddenBit = 0 := Nat.div_eq_of_lt (by omega)
    have hmod : (m - hiddenBit) % hiddenBit = m - hiddenBit := Nat.mod_eq_of_lt (by omega)
    have hsum : hiddenBit + (m - hiddenBit) = m := by omega
    simp only [unitsOfCode, hcode, Nat.add_mul_div_right _ _ hpos, Nat.add_mul_mod_self_right,
      hrest, hmod, hsum, Nat.zero_add, Nat.add_one_ne_zero, if_false, Nat.add_sub_cancel]
    rfl
  · have hq : q = 0 := by omega
    have hdiv : m / hiddenBit = 0 := Nat.div_eq_of_lt (by omega)
    have hmod : m % hiddenBit = m := Nat.mod_eq_of_lt (by omega)
    simp only [hq, Nat.zero_mul, Nat.zero_add, unitsOfCode, hdiv, hmod, if_true, pow_zero,
      Nat.mul_one]

lemma exists_isNormal (c : Nat) : ∃ m q, IsNormal m q ∧ c = q * hiddenBit + m := by
  have hpos : 0 < hiddenBit := by decide
  have hmod : c % hiddenBit < hiddenBit := Nat.mod_lt c hpos
  have hc : hiddenBit * (c / hiddenBit) + c % hiddenBit = c := Nat.div_add_mod ..
  rcases Nat.eq_zero_or_pos (c / hiddenBit) with he | he
  · refine ⟨c, 0, ⟨?_, Or.inr rfl⟩, by omega⟩
    rw [he] at hc
    omega
  · obtain ⟨q, hq⟩ : ∃ q, c / hiddenBit = q + 1 := ⟨c / hiddenBit - 1, by omega⟩
    refine ⟨hiddenBit + c % hiddenBit, q, ⟨by omega, Or.inl (by omega)⟩, ?_⟩
    rw [hq, Nat.mul_add, Nat.mul_comm hiddenBit q] at hc
    omega

/-- Codes are in the order of their magnitudes. -/
lemma unitsOfCode_mono (h : c ≤ c') : unitsOfCode c ≤ unitsOfCode c' := by
  obtain ⟨m, q, hnormal, rfl⟩ := exists_isNormal c
  obtain ⟨m', q', hnormal', rfl⟩ := exists_isNormal c'
  rw [unitsOfCode_add hnormal, unitsOfCode_add hnormal']
  obtain ⟨hlt, hle⟩ := hnormal
  obtain ⟨hlt', hle'⟩ := hnormal'
  unfold hiddenBit at h hlt hle hlt' hle'
  rcases Nat.lt_trichotomy q q' with hq | rfl | hq
  · have hpow : 2 ^ (q + 1) ≤ 2 ^ q' := Nat.pow_le_pow_right (by decide) hq
    calc m * 2 ^ q ≤ 2 ^ 53 * 2 ^ q := Nat.mul_le_mul_right _ (by omega)
      _ = 2 ^ 52 * 2 ^ (q + 1) := by ring
      _ ≤ m' * 2 ^ q' := Nat.mul_le_mul (by omega) hpow
  · exact Nat.mul_le_mul_right _ (by omega)
  · omega

/-- A whole number of up to 53 bits keeps its value when it is shifted into place. -/
lemma exists_isNormal_of_le (hm : m ≤ 2 ^ 53) (q : Nat) :
    ∃ m' q', IsNormal m' q' ∧ q' ≤ q + 1 ∧ m' * 2 ^ q' = m * 2 ^ q := by
  have hhidden := hiddenBit_eq
  induction q generalizing m with
  | zero =>
    by_cases h : m = 2 ^ 53
    · refine ⟨2 ^ 52, 1, ⟨by omega, Or.inl (by omega)⟩, by omega, ?_⟩
      rw [h]
      rfl
    · exact ⟨m, 0, ⟨by omega, Or.inr rfl⟩, by omega, rfl⟩
  | succ q ih =>
    by_cases h : m ≤ 2 ^ 52
    · obtain ⟨m', q', hnormal, hq, hvalue⟩ := ih (m := 2 * m) (by omega)
      refine ⟨m', q', hnormal, by omega, ?_⟩
      rw [hvalue, pow_succ]
      ring
    by_cases h' : m = 2 ^ 53
    · refine ⟨2 ^ 52, q + 2, ⟨by omega, Or.inl (by omega)⟩, by omega, ?_⟩
      rw [h']
      ring
    · exact ⟨m, q + 1, ⟨by omega, Or.inl (by omega)⟩, by omega, rfl⟩

/-- **Such a number is the magnitude of a code.** -/
theorem exists_code (hm : m ≤ 2 ^ 53) (hq : q ≤ 2000) :
    ∃ code < infinityCode, unitsOfCode code = m * 2 ^ q := by
  obtain ⟨m', q', hnormal, hq', hvalue⟩ := exists_isNormal_of_le hm q
  refine ⟨q' * hiddenBit + m', ?_, by rw [unitsOfCode_add hnormal, hvalue]⟩
  have hlt := hnormal.lt
  unfold hiddenBit at hlt ⊢
  unfold infinityCode
  omega

/-! ### Whole numbers, products and integral parts -/

lemma exists_unitsPerOne : ∃ k ≤ 1074, unitsPerOne = 2 ^ k := by
  unfold unitsPerOne
  generalize 1074 = k
  exact ⟨k, Nat.le_refl k, rfl⟩

/-- A whole number of 64 bits is finite, -/
lemma isFinite_ofNat (h : n < 2 ^ 64) : (ofNat n).isFinite = true := by
  obtain ⟨k, hk, hunits⟩ := exists_unitsPerOne
  obtain ⟨c, hc, hvalue⟩ := exists_code (m := 1) (q := 64 + k) (by decide) (by omega)
  have hround := roundUnits_unitsOfCode hc
  have hle : n * unitsPerOne ≤ unitsOfCode c := by
    calc n * unitsPerOne ≤ 2 ^ 64 * 2 ^ k := by
          rw [hunits]
          exact Nat.mul_le_mul_right _ h.le
      _ = unitsOfCode c := by rw [hvalue, pow_add, Nat.one_mul]
  have hmono := roundUnits_mono Nat.one_pos hle
  rw [hround] at hmono
  exact decide_eq_true (Nat.lt_of_le_of_lt hmono hc)

/-- and one of 53 bits is exact. -/
lemma units_ofNat (h : n ≤ 2 ^ 53) : (ofNat n).units = n * unitsPerOne := by
  obtain ⟨k, hk, hunits⟩ := exists_unitsPerOne
  obtain ⟨c, hc, hvalue⟩ := exists_code (q := k) h (by omega)
  rw [← hunits] at hvalue
  change unitsOfCode (roundUnits (n * unitsPerOne) 1) = n * unitsPerOne
  rw [← hvalue, roundUnits_unitsOfCode hc]

lemma ofNat_mono {n' : Nat} (h : n ≤ n') : (ofNat n).units ≤ (ofNat n').units :=
  unitsOfCode_mono (roundUnits_mono Nat.one_pos (Nat.mul_le_mul_right _ h))

lemma mul_of_isFinite (hx : x.isFinite = true) (hy : y.isFinite = true) :
    x.mul y = ofUnits (x.negative != y.negative) (x.units * y.units) unitsPerOne := by
  simp only [mul, isNaN_of_isFinite hx, isNaN_of_isFinite hy, hx, hy, Bool.or_self,
    Bool.false_eq_true, if_false, Bool.and_self, if_true]

lemma units_one : one.units = unitsPerOne := by
  have hnormal : IsNormal hiddenBit 1022 := ⟨by decide, Or.inl (Nat.le_refl _)⟩
  have hcode : one.code = 1022 * hiddenBit + hiddenBit := by decide
  have hsum : 52 + 1022 = 1074 := rfl
  rw [units, hcode, unitsOfCode_add hnormal, hiddenBit_eq, ← pow_add, hsum]
  unfold unitsPerOne
  generalize 1074 = n
  rfl

lemma mul_one_eq (h : x.isFinite = true) : x.mul one = x := by
  have hcode : roundUnits (x.units * unitsPerOne) unitsPerOne = x.code := by
    have hscale := roundUnits_mul x.units 1 unitsPerOne_pos
    rw [Nat.one_mul] at hscale
    rw [hscale]
    exact roundUnits_unitsOfCode (of_decide_eq_true h)
  rw [mul_of_isFinite h rfl, units_one]
  obtain ⟨negative, code, hlt⟩ := x
  simp only [ofUnits, mk.injEq]
  exact ⟨Bool.bne_false _, hcode⟩

/-- The integral part of a number that is not negative. -/
lemma floorNat?_ofUnits (num den : Nat) : (ofUnits false num den).floorNat? =
    if roundUnits num den < infinityCode then
      some (unitsOfCode (roundUnits num den) / unitsPerOne)
    else none := by
  by_cases h : roundUnits num den < infinityCode
  · simp [floorNat?, isFinite, ofUnits, units, h]
  · simp [floorNat?, isFinite, ofUnits, h]

/-- A smaller number has a smaller integral part, if the larger one has any. -/
lemma exists_floorNat?_of_le (hden : 0 < den) (h : num ≤ num')
    (hfloor : (ofUnits false num' den).floorNat? = some n) :
    ∃ m ≤ n, (ofUnits false num den).floorNat? = some m := by
  have hcode := roundUnits_mono hden h
  rw [floorNat?_ofUnits] at hfloor
  split at hfloor
  · next hfinite =>
    rw [Option.some.injEq] at hfloor
    rw [floorNat?_ofUnits, if_pos (Nat.lt_of_le_of_lt hcode hfinite), ← hfloor]
    exact ⟨_, Nat.div_le_div_right (unitsOfCode_mono hcode), rfl⟩
  · cases hfloor

lemma floorNat?_ofNat (h : n ≤ 2 ^ 53) : (ofNat n).floorNat? = some n := by
  have hfinite : (ofNat n).isFinite = true := isFinite_ofNat (by omega)
  have hcode : roundUnits (n * unitsPerOne) 1 < infinityCode := of_decide_eq_true hfinite
  have hunits : unitsOfCode (roundUnits (n * unitsPerOne) 1) = n * unitsPerOne := units_ofNat h
  rw [ofNat, floorNat?_ofUnits, if_pos hcode, hunits, Nat.mul_div_cancel n unitsPerOne_pos]

end Binary64

end PhaseExecutors
