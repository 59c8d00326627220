import PhaseExecutors.Config.ThreadCount
import PhaseExecutors.Proofs.Number.Monotone

/-!
How many threads a count comes to that follows the host.

The CPUs are scaled in binary floating point, where a product may be rounded, may be infinite, or
may be no number at all. Whatever it is, the threads are counted without wrapping. They are in the
order of the CPUs and of the factor, also where the product is too large for a size: from there on
it counts as the largest size, which is the end of that order.
-/

namespace PhaseExecutors

namespace ThreadCount

variable {host host' minus minus' : Size} {factor factor' : Binary64}

/-- The CPUs times the factor, rounded down. What is too large for a size, and what is no count,
comes to the largest size. -/
def scaled (host : Size) (factor : Binary64) : Nat :=
  min (((Binary64.ofNat host.toNat).mul factor).floorNat?.getD Size.top.toNat) Size.top.toNat

lemma toNat_scale (host : Size) (factor : Binary64) :
    ((scale? host factor).getD Size.top).toNat = scaled host factor := by
  unfold scale? scaled
  cases ((Binary64.ofNat host.toNat).mul factor).floorNat? with
  | none =>
    rw [Option.getD_none, Nat.min_self]
    rfl
  | some n =>
    rw [Option.getD_some, ← Size.toNat_clamp]
    rfl

/-- The threads as a number: nothing wraps on the way to it. -/
lemma toNat_resolve (host minus : Size) (factor : Binary64) :
    (resolve host (.hostCpus factor minus)).toNat =
      max (scaled host factor - minus.toNat) 1 := by
  rw [resolve, UInt64.toNat_max, Size.toNat_satSub, toNat_scale]
  rfl

lemma resolve_le_of_scaled (h : scaled host factor ≤ scaled host' factor') :
    resolve host (.hostCpus factor minus) ≤ resolve host' (.hostCpus factor' minus) := by
  rw [UInt64.le_iff_toNat_le, toNat_resolve, toNat_resolve]
  omega

/-! ### All CPUs -/

/-- Up to `2 ^ 53` CPUs have a number of their own, and all of them are counted. -/
lemma scaled_one (h : host.toNat ≤ 2 ^ 53) : scaled host .one = host.toNat := by
  have hfinite : (Binary64.ofNat host.toNat).isFinite = true :=
    Binary64.isFinite_ofNat host.toNat_lt
  have hfloor := Binary64.floorNat?_ofNat h
  have hle : host.toNat ≤ Size.top.toNat := Nat.le_of_lt_succ host.toNat_lt
  rw [← Binary64.mul_one_eq hfinite] at hfloor
  rw [scaled, hfloor, Option.getD_some]
  exact Nat.min_eq_left hle

/-! ### The order of products -/

lemma mul_of_isPositive (host : Size) (h : factor.isPositive = true) :
    (Binary64.ofNat host.toNat).mul factor = Binary64.ofUnits false
      ((Binary64.ofNat host.toNat).units * factor.units) Binary64.unitsPerOne := by
  simp only [Binary64.isPositive, Bool.and_eq_true, Bool.not_eq_true'] at h
  obtain ⟨⟨hfinite, -⟩, hsign⟩ := h
  rw [Binary64.mul_of_isFinite (Binary64.isFinite_ofNat host.toNat_lt) hfinite, hsign]
  rfl

/-- **More CPUs or a larger factor never scale to less.** Where the larger product is too large
there is nothing to show; where it is not, the smaller one is finite as well. -/
theorem scaled_mono (hpos : factor.isPositive = true) (hpos' : factor'.isPositive = true)
    (hhost : host ≤ host') (hfactor : factor.units ≤ factor'.units) :
    scaled host factor ≤ scaled host' factor' := by
  have hunits := Nat.mul_le_mul
    (Binary64.ofNat_mono (UInt64.le_iff_toNat_le.mp hhost)) hfactor
  rw [scaled, scaled, mul_of_isPositive host hpos, mul_of_isPositive host' hpos']
  generalize Size.top.toNat = top
  cases hfloor' : (Binary64.ofUnits false
      ((Binary64.ofNat host'.toNat).units * factor'.units) Binary64.unitsPerOne).floorNat? with
  | none =>
    rw [Option.getD_none, Nat.min_self]
    exact Nat.min_le_right ..
  | some n =>
    obtain ⟨m, hle, hfloor⟩ :=
      Binary64.exists_floorNat?_of_le Binary64.unitsPerOne_pos hunits hfloor'
    rw [hfloor, Option.getD_some, Option.getD_some]
    exact min_le_min_right _ hle

/-! ### Counts that follow the host -/

/-- What holds of a count that follows the host, on every host. -/
structure Resolves (factor : Binary64) (minus : Size) : Prop where
  /-- Nothing wraps: the threads are the scaled CPUs, less some, as numbers, -/
  toNat_eq (host : Size) : (resolve host (.hostCpus factor minus)).toNat =
    max (scaled host factor - minus.toNat) 1
  /-- and never none. -/
  pos (host : Size) : 1 ≤ resolve host (.hostCpus factor minus)
  /-- A product that is no size counts as the largest one before anything is taken away. -/
  saturated (host : Size) : scale? host factor = none →
    (resolve host (.hostCpus factor minus)).toNat = max (Size.top.toNat - minus.toNat) 1
  /-- A factor of one leaves the CPUs as they are, up to where they have numbers of their own. -/
  allCpus (host : Size) : factor = .one → host.toNat ≤ 2 ^ 53 →
    (resolve host (.hostCpus factor minus)).toNat = max 1 (host.toNat - minus.toNat)
  /-- Taking away more leaves no more. -/
  anti_minus (host minus' : Size) : minus ≤ minus' →
    resolve host (.hostCpus factor minus') ≤ resolve host (.hostCpus factor minus)
  /-- More CPUs are no fewer threads, -/
  mono_host (host host' : Size) : factor.isPositive = true → host ≤ host' →
    resolve host (.hostCpus factor minus) ≤ resolve host' (.hostCpus factor minus)
  /-- and neither does a larger factor make fewer. -/
  mono_factor (host : Size) (factor' : Binary64) :
    factor.isPositive = true → factor'.isPositive = true → factor.units ≤ factor'.units →
    resolve host (.hostCpus factor minus) ≤ resolve host (.hostCpus factor' minus)

/-- **Every count that follows the host resolves so**, whatever its factor is. -/
theorem resolves_of_any_factor (factor : Binary64) (minus : Size) : Resolves factor minus where
  toNat_eq host := toNat_resolve host minus factor
  pos host := by
    have hvalue := toNat_resolve host minus factor
    have hone : (1 : Size).toNat = 1 := rfl
    rw [UInt64.le_iff_toNat_le, hvalue, hone]
    omega
  saturated host h := by
    rw [toNat_resolve, ← toNat_scale, h, Option.getD_none]
  allCpus host h hle := by
    rw [toNat_resolve, h, scaled_one hle, max_comm]
  anti_minus host minus' h := by
    have hle := UInt64.le_iff_toNat_le.mp h
    rw [UInt64.le_iff_toNat_le, toNat_resolve, toNat_resolve]
    omega
  mono_host host host' hpos h := resolve_le_of_scaled (scaled_mono hpos hpos h (Nat.le_refl _))
  mono_factor host factor' hpos hpos' h :=
    resolve_le_of_scaled (scaled_mono hpos hpos' UInt64.le_rfl h)

-- the largest finite factor
example : resolve 4 (.hostCpus ⟨false, 0x7FEFFFFFFFFFFFFF, by decide⟩ 3) = 0xFFFFFFFFFFFFFFFC := by
  decide +kernel

end ThreadCount

end PhaseExecutors
