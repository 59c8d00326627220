import Mathlib.Data.Nat.Log
import Mathlib.Tactic.Ring
import PhaseExecutors.Number.Decimal

/-!
Rounding to binary numbers.

What a quotient is rounded to depends on the quotient alone, and a number of the format is rounded
to itself. So a decimal keeps its code when zeros are written behind it, and the decimal that is
chosen for a code reads back as that code.
-/

namespace PhaseExecutors

namespace Binary64

lemma hiddenBit_eq : hiddenBit = 2 ^ 52 := by decide

lemma isNaN_of_isFinite {x : Binary64} (h : x.isFinite = true) : x.isNaN = false := by
  unfold isFinite at h
  unfold isNaN
  rw [decide_eq_true_eq] at h
  rw [decide_eq_false_iff_not]
  omega

lemma roundHalfEven_mul (num den : Nat) {c : Nat} (hc : 0 < c) :
    roundHalfEven (num * c) (den * c) = roundHalfEven num den := by
  have hq : num * c / (den * c) = num / den := Nat.mul_div_mul_right num den hc
  have hr : num * c % (den * c) = num % den * c := Nat.mul_mod_mul_right c num den
  have hlow : 2 * (num % den * c) < den * c ↔ 2 * (num % den) < den := by
    rw [← Nat.mul_assoc]
    exact Nat.mul_lt_mul_right hc
  have hhigh : den * c < 2 * (num % den * c) ↔ den < 2 * (num % den) := by
    rw [← Nat.mul_assoc]
    exact Nat.mul_lt_mul_right hc
  simp only [roundHalfEven, hq, hr, hlow, hhigh]

/-- A whole number is rounded to itself. -/
lemma roundHalfEven_mul_self (n : Nat) {den : Nat} (h : 0 < den) :
    roundHalfEven (n * den) den = n := by
  simp only [roundHalfEven, Nat.mul_div_cancel n h, Nat.mul_mod_left, Nat.mul_zero, if_pos h]

/-- The code of a quotient does not depend on how the quotient is written. -/
lemma roundUnits_mul (num den : Nat) {c : Nat} (hc : 0 < c) :
    roundUnits (num * c) (den * c) = roundUnits num den := by
  have hq : num * c / (den * c) = num / den := Nat.mul_div_mul_right num den hc
  have hden (t : Nat) : den * c * Nat.pow 2 t = den * Nat.pow 2 t * c := Nat.mul_right_comm ..
  simp only [roundUnits, hq, hden, roundHalfEven_mul _ _ hc]

lemma log2_shifted {f k : Nat} (hf : f < hiddenBit) :
    ((hiddenBit + f) * Nat.pow 2 k).log2 = 52 + k := by
  have hpow : 0 < 2 ^ k := Nat.two_pow_pos k
  rw [hiddenBit_eq] at hf ⊢
  change ((2 ^ 52 + f) * 2 ^ k).log2 = 52 + k
  rw [Nat.log2_eq_iff (Nat.mul_ne_zero (by omega) hpow.ne')]
  constructor
  · calc 2 ^ (52 + k) = 2 ^ 52 * 2 ^ k := pow_add ..
      _ ≤ (2 ^ 52 + f) * 2 ^ k := Nat.mul_le_mul_right _ (by omega)
  · calc (2 ^ 52 + f) * 2 ^ k < 2 ^ 53 * 2 ^ k := Nat.mul_lt_mul_of_pos_right (by omega) hpow
      _ = 2 ^ (52 + k + 1) := by rw [← pow_add]; congr 1; omega

/-- The magnitude of a finite code is rounded to that code. -/
lemma roundUnits_unitsOfCode {code : Nat} (h : code < infinityCode) :
    roundUnits (unitsOfCode code) 1 = code := by
  have hsplit : hiddenBit * (code / hiddenBit) + code % hiddenBit = code := Nat.div_add_mod ..
  have hf : code % hiddenBit < hiddenBit := Nat.mod_lt _ (by decide)
  unfold unitsOfCode roundUnits
  by_cases he : code / hiddenBit = 0
  · -- no hidden bit: at most 52 bits, and none is rounded away
    have hcode : code % hiddenBit = code := by rw [he] at hsplit; omega
    have ht : (if code = 0 then 0 else code.log2 + 1 - 53) = 0 := by
      split
      · rfl
      · next hne =>
        have hlog : code.log2 < 52 := (Nat.log2_lt hne).mpr (by rw [hcode] at hf; exact hf)
        omega
    have hone : roundHalfEven code 1 = code := by
      simpa using roundHalfEven_mul_self code Nat.one_pos
    simp only [he, if_true, hcode, Nat.div_one, ht, Nat.zero_mul, Nat.zero_add, Nat.one_mul]
    rw [show Nat.pow 2 0 = 1 from rfl, hone]
    exact Nat.min_eq_left (Nat.le_of_lt h)
  · obtain ⟨k, hk⟩ : ∃ k, code / hiddenBit = k + 1 := ⟨_, (Nat.succ_pred_eq_of_ne_zero he).symm⟩
    have hhidden : 0 < hiddenBit := by decide
    have hne : (hiddenBit + code % hiddenBit) * Nat.pow 2 k ≠ 0 :=
      Nat.mul_ne_zero (by omega) (Nat.two_pow_pos k).ne'
    have hlog := log2_shifted (k := k) hf
    have hself := roundHalfEven_mul_self (hiddenBit + code % hiddenBit) (Nat.two_pow_pos k)
    have ht : 52 + k + 1 - 53 = k := by omega
    simp only [hk, Nat.add_sub_cancel, Nat.add_one_ne_zero, if_false, Nat.div_one, hne, hlog, ht,
      Nat.one_mul]
    rw [show (Nat.pow 2 k) = 2 ^ k from rfl, hself]
    have hcode : k * hiddenBit + (hiddenBit + code % hiddenBit) = code := by
      rw [← hsplit, hk]
      simp only [Nat.mul_add_mod_self_left, Nat.mod_mod]
      ring
    rw [hcode]
    exact Nat.min_eq_left (Nat.le_of_lt h)

end Binary64

namespace Decimal

open Binary64 (roundUnits roundUnits_mul unitsOfCode unitsPerOne infinityCode)

lemma ten_pow_pos (n : Nat) : 0 < 10 ^ n := Nat.pow_pos (by decide)

/-- Zeros behind a decimal count as a power of ten. -/
lemma code_mul_pow (m j : Nat) (e : Int) : code (m * 10 ^ j) e = code m (e + j) := by
  unfold code
  by_cases he : 0 ≤ e
  · have hsum : (e + j).toNat = j + e.toNat := by omega
    have hpow : m * 10 ^ j * Nat.pow 10 e.toNat = m * Nat.pow 10 (j + e.toNat) := by
      rw [Nat.mul_assoc]
      exact congrArg _ (pow_add ..).symm
    rw [if_pos he, if_pos (by omega), hsum, hpow]
  rw [if_neg he]
  by_cases hej : 0 ≤ e + j
  · -- the denominator goes into the numerator
    obtain ⟨a, ha⟩ : ∃ a : Nat, (a : Int) = -e := ⟨(-e).toNat, by omega⟩
    obtain ⟨b, hb⟩ : ∃ b : Nat, (b : Int) = e + j := ⟨(e + j).toNat, by omega⟩
    have hj : j = b + a := by omega
    have hnum : m * 10 ^ j * unitsPerOne = m * Nat.pow 10 b * unitsPerOne * 10 ^ a := by
      rw [hj, show Nat.pow 10 b = 10 ^ b from rfl]
      ring
    rw [if_pos hej, ← ha, ← hb, Int.toNat_natCast, Int.toNat_natCast, hnum]
    have hscale := roundUnits_mul (m * Nat.pow 10 b * unitsPerOne) 1 (ten_pow_pos a)
    rwa [Nat.one_mul] at hscale
  · obtain ⟨b, hb⟩ : ∃ b : Nat, (b : Int) = -(e + j) := ⟨(-(e + j)).toNat, by omega⟩
    have hden : (-e).toNat = b + j := by omega
    have hnum : m * 10 ^ j * unitsPerOne = m * unitsPerOne * 10 ^ j := Nat.mul_right_comm ..
    have hpow : Nat.pow 10 (b + j) = Nat.pow 10 b * 10 ^ j := pow_add ..
    rw [if_neg hej, ← hb, Int.toNat_natCast, hden, hnum, hpow]
    exact roundUnits_mul _ _ (ten_pow_pos _)

/-! ### The decimal of a code -/

lemma nearer_eq (tie : Tie) (num den low : Nat) :
    nearer tie num den low = low ∨ nearer tie num den low = low + 1 := by
  cases tie <;> simp only [nearer] <;> split_ifs <;> simp

/-- What is found on a grid reads back. -/
lemma code_of_onGrid? {tie : Tie} {c d : Nat} {k : Int} (h : onGrid? tie c k = some d) :
    code d k = c := by
  unfold onGrid? at h
  dsimp only at h
  generalize (if 0 ≤ k then _ else _ : Nat × Nat) = ratio at h
  obtain ⟨num, den⟩ := ratio
  split at h
  · next hlow hhigh =>
    cases h
    rcases nearer_eq tie num den (num / den) with hn | hn <;> rw [hn]
    · exact of_decide_eq_true hlow
    · exact of_decide_eq_true hhigh
  · next hlow _ =>
    cases h
    exact of_decide_eq_true hlow
  · next _ hhigh =>
    cases h
    exact of_decide_eq_true hhigh
  · cases h

lemma roundUnits_pow (u n : Nat) :
    roundUnits (u * Nat.pow 5 n * Nat.pow 2 n) (Nat.pow 10 n) = roundUnits u 1 := by
  have hpow : Nat.pow 5 n * Nat.pow 2 n = 10 ^ n := (Nat.mul_pow 5 2 n).symm
  have hscale := roundUnits_mul u 1 (ten_pow_pos n)
  rw [Nat.mul_assoc, hpow]
  rwa [Nat.one_mul] at hscale

/-- The magnitude itself is a decimal, if a long one. -/
lemma code_exact {c : Nat} (h : c < infinityCode) :
    code (unitsOfCode c * Nat.pow 5 1074) (-1074) = c := by
  have hneg : ¬ (0 : Int) ≤ -1074 := by decide
  have hden : (-(-1074) : Int).toNat = 1074 := rfl
  rw [code, if_neg hneg, hden]
  unfold unitsPerOne
  -- only that the three exponents agree matters
  generalize 1074 = n
  rw [roundUnits_pow, Binary64.roundUnits_unitsOfCode h]

/-- **The decimal of a finite code reads back as that code.** -/
theorem code_shortest (tie : Tie) {c : Nat} (h : c < infinityCode) :
    code (shortest tie c).1 (shortest tie c).2 = c := by
  unfold shortest
  dsimp only
  cases hfound : (List.range 24).findSome? fun (i : Nat) =>
      (onGrid? tie c (startPower c - i)).map fun d => (d, startPower c - (i : Int)) with
  | none => rw [Option.getD_none]; exact code_exact h
  | some found =>
    obtain ⟨i, -, hi⟩ := List.exists_of_findSome?_eq_some hfound
    obtain ⟨d, hd, rfl⟩ := Option.map_eq_some_iff.mp hi
    exact code_of_onGrid? hd

end Decimal

end PhaseExecutors
