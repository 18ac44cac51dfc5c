/-
  Numbers that a format has are not changed by rounding.

  1. **Quotients** — a quotient of naturals that is scaled by a power of two stays a quotient of naturals:
     the power goes to the numerator or to the denominator (`cast_twoPow_toNat`).  `logRatio` is the binary
     logarithm of such a quotient, rounded down (`le_logRatio_iff`).

  2. **Magnitudes** — a finite magnitude denotes `Format.value`, and is put together from its significand
     and its exponent (`mantissa_add_exponent`).  A quotient of that value has the magnitude's own spacing
     (`spacing_eq`), so it is a whole number of steps and nothing is rounded (`round_of_value`).

  3. **Singles** — every finite single is the nearest single to some finite double (`toSingle_widen`): its
     significand has fewer bits than a double's, and its exponent is far inside the range of a double's,
     also where the single is subnormal.
-/
import FragmentGraph.Numeric.Binary
import Mathlib.Algebra.Order.Field.Power
import Mathlib.Data.Rat.Cast.Order
import Mathlib.Tactic.FieldSimp
import Mathlib.Tactic.Positivity
import Mathlib.Tactic.Ring

namespace FragmentGraph.Numeric

/-! ## Quotients -/

theorem twoPow_pos (n : Nat) : 0 < twoPow n := Nat.two_pow_pos n

theorem twoPow_succ (n : Nat) : twoPow (n + 1) = 2 * twoPow n := Nat.pow_succ'

theorem twoPow_add (m n : Nat) : twoPow (m + n) = twoPow m * twoPow n := Nat.pow_add 2 m n

theorem cast_twoPow (n : Nat) : (twoPow n : ℚ) = 2 ^ n := Nat.cast_pow 2 n

/-- A power of two as a quotient: a positive exponent goes up, a negative one down. -/
theorem cast_twoPow_toNat (e : ℤ) : (twoPow e.toNat : ℚ) = 2 ^ e * twoPow (-e).toNat := by
  rcases Int.le_total 0 e with he | he
  · lift e to ℕ using he
    simp [cast_twoPow]
  · obtain ⟨n, rfl⟩ := Int.exists_eq_neg_ofNat he
    simp [cast_twoPow]

section

variable {num den : Nat}

/-- Scaling by a power of two is comparing with it. -/
theorem scaled_lt_iff (hden : 0 < den) (e : ℤ) :
    num * twoPow (-e).toNat < den * twoPow e.toNat ↔ (num / den : ℚ) < 2 ^ e := by
  have hpow : (0 : ℚ) < twoPow (-e).toNat := Nat.cast_pos.mpr (twoPow_pos _)
  have hden' : (0 : ℚ) < den := Nat.cast_pos.mpr hden
  rw [← Nat.cast_lt (α := ℚ), Nat.cast_mul, Nat.cast_mul, cast_twoPow_toNat e, ← mul_assoc,
    mul_lt_mul_iff_left₀ hpow, div_lt_iff₀ hden', mul_comm]

/-- The quotient lies between neighbouring powers of two. -/
theorem logRatio_spec (hnum : 0 < num) (hden : 0 < den) :
    (2 : ℚ) ^ Format.logRatio num den ≤ num / den ∧
      (num / den : ℚ) < 2 ^ (Format.logRatio num den + 1) := by
  have hden' : (0 : ℚ) < den := Nat.cast_pos.mpr hden
  have hnumLow : (2 : ℚ) ^ (num.log2 : ℤ) ≤ num := by exact_mod_cast Nat.log2_self_le hnum.ne'
  have hnumHigh : (num : ℚ) < 2 ^ ((num.log2 : ℤ) + 1) := by exact_mod_cast Nat.lt_log2_self
  have hdenLow : (2 : ℚ) ^ (den.log2 : ℤ) ≤ den := by exact_mod_cast Nat.log2_self_le hden.ne'
  have hdenHigh : (den : ℚ) < 2 ^ ((den.log2 : ℤ) + 1) := by exact_mod_cast Nat.lt_log2_self
  -- the guess is off by one at most
  have hlow : (2 : ℚ) ^ ((num.log2 : ℤ) - den.log2 - 1) < num / den := by
    rw [lt_div_iff₀ hden']
    calc (2 : ℚ) ^ ((num.log2 : ℤ) - den.log2 - 1) * den
        < 2 ^ ((num.log2 : ℤ) - den.log2 - 1) * 2 ^ ((den.log2 : ℤ) + 1) := by gcongr
      _ = 2 ^ (num.log2 : ℤ) := by rw [← zpow_add₀ two_ne_zero]; congr 1; omega
      _ ≤ num := hnumLow
  have hhigh : (num / den : ℚ) < 2 ^ ((num.log2 : ℤ) - den.log2 + 1) := by
    rw [div_lt_iff₀ hden']
    calc (num : ℚ) < 2 ^ ((num.log2 : ℤ) + 1) := hnumHigh
      _ = 2 ^ ((num.log2 : ℤ) - den.log2 + 1) * 2 ^ (den.log2 : ℤ) := by
        rw [← zpow_add₀ two_ne_zero]; congr 1; omega
      _ ≤ 2 ^ ((num.log2 : ℤ) - den.log2 + 1) * den := by gcongr
  unfold Format.logRatio
  dsimp only
  split
  · next h =>
    rw [scaled_lt_iff hden] at h
    exact ⟨hlow.le, by rwa [sub_add_cancel]⟩
  · next h =>
    rw [scaled_lt_iff hden, not_lt] at h
    exact ⟨h, hhigh⟩

theorem le_logRatio_iff (hnum : 0 < num) (hden : 0 < den) {k : ℤ} :
    k ≤ Format.logRatio num den ↔ (2 : ℚ) ^ k ≤ num / den := by
  obtain ⟨hlow, hhigh⟩ := logRatio_spec hnum hden
  constructor
  · intro hk
    exact (zpow_le_zpow_right₀ one_le_two hk).trans hlow
  · intro hk
    exact Int.lt_add_one_iff.mp ((zpow_lt_zpow_iff_right₀ one_lt_two).mp (hk.trans_lt hhigh))

end

/-! ## Magnitudes -/

namespace Format

variable {f : Format} {mag num den : Nat}

/-- The number that a finite magnitude denotes. -/
def value (f : Format) (mag : Nat) : ℚ := f.mantissa mag * 2 ^ f.exponent mag

theorem minExponent_le_exponent (f : Format) (mag : Nat) : f.minExponent ≤ f.exponent mag := by
  rw [exponent]
  omega

/-- A magnitude from its significand and the index of its spacing. -/
theorem mantissa_add_exponent (f : Format) (mag : Nat) :
    f.mantissa mag + (f.exponent mag - f.minExponent).toNat * twoPow f.fractionBits = mag := by
  have hsplit := Nat.div_add_mod' mag (twoPow f.fractionBits)
  rw [mantissa, exponent, add_sub_cancel_left, Int.toNat_natCast]
  split
  · next hzero =>
    rw [hzero, Nat.zero_mul, Nat.zero_add] at hsplit
    rw [hzero, Nat.zero_sub, Nat.zero_mul, Nat.add_zero, hsplit]
  · next hpos =>
    obtain ⟨n, hn⟩ := Nat.exists_eq_succ_of_ne_zero hpos
    rw [hn, Nat.succ_mul] at hsplit
    rw [hn, Nat.succ_sub_one]
    omega

/-- Only zero has the significand zero. -/
theorem eq_zero_of_mantissa (h : f.mantissa mag = 0) : mag = 0 := by
  have hpos := twoPow_pos f.fractionBits
  have hsplit := Nat.div_add_mod' mag (twoPow f.fractionBits)
  rw [mantissa] at h
  split at h
  · next hzero =>
    rw [hzero, h] at hsplit
    omega
  · omega

/-- A quotient with the value of a magnitude is spaced as the magnitude is. -/
theorem spacing_eq (hnum : 0 < num) (hden : 0 < den) (h : (num / den : ℚ) = f.value mag) :
    max (logRatio num den - f.fractionBits) f.minExponent = f.exponent mag := by
  have hpow : (0 : ℚ) < 2 ^ f.exponent mag := zpow_pos two_pos _
  have hmod : mag % twoPow f.fractionBits < twoPow f.fractionBits := Nat.mod_lt _ (twoPow_pos _)
  have hscale : ∀ n : Nat, (twoPow n : ℚ) * 2 ^ f.exponent mag = 2 ^ (f.exponent mag + n) := by
    intro n
    rw [cast_twoPow, ← zpow_natCast, ← zpow_add₀ two_ne_zero, add_comm]
  by_cases hzero : mag / twoPow f.fractionBits = 0
  · -- subnormal: the significand has too few bits for any other spacing
    have hexponent : f.exponent mag = f.minExponent := by
      rw [exponent, hzero, Nat.zero_sub, Nat.cast_zero, add_zero]
    have hmantissa : f.mantissa mag < twoPow f.fractionBits := by rwa [mantissa, if_pos hzero]
    have hlog : ¬ f.minExponent + f.fractionBits ≤ logRatio num den := by
      rw [le_logRatio_iff hnum hden, h, not_le, value, ← hexponent, ← hscale]
      gcongr
    omega
  · -- normal: the significand has all its bits
    have hmantissa : f.mantissa mag = twoPow f.fractionBits + mag % twoPow f.fractionBits := by
      rw [mantissa, if_neg hzero]
    have hlow : f.exponent mag + f.fractionBits ≤ logRatio num den := by
      rw [le_logRatio_iff hnum hden, h, value, ← hscale, hmantissa]
      gcongr
      omega
    have hhigh : ¬ f.exponent mag + (f.fractionBits + 1 : Nat) ≤ logRatio num den := by
      rw [le_logRatio_iff hnum hden, h, not_le, value, ← hscale, hmantissa]
      gcongr
      rw [twoPow_succ]
      omega
    have hmin := f.minExponent_le_exponent mag
    omega

/-- **Rounding is exact.**  A quotient that is the value of a finite magnitude is rounded to it. -/
theorem round_of_value (hden : 0 < den) (hfinite : mag < f.infinity) (h : (num / den : ℚ) = f.value mag) :
    f.round num den = mag := by
  have hden' : (0 : ℚ) < den := Nat.cast_pos.mpr hden
  rw [round]
  split
  · next hzero =>
    have hvalue : f.value mag = 0 := by rw [← h, hzero, Nat.cast_zero, zero_div]
    have hmantissa := (mul_eq_zero.mp hvalue).resolve_right (zpow_pos two_pos _).ne'
    exact (eq_zero_of_mantissa (Nat.cast_eq_zero.mp hmantissa)).symm
  · next hzero =>
    have hexact : num * twoPow (-f.exponent mag).toNat
        = f.mantissa mag * (den * twoPow (f.exponent mag).toNat) := by
      rw [← Nat.cast_inj (R := ℚ)]
      push_cast
      rw [cast_twoPow_toNat (f.exponent mag), (div_eq_iff hden'.ne').mp h, value]
      ring
    show min (roundDiv _ _ + _) _ = mag
    rw [spacing_eq (Nat.pos_of_ne_zero hzero) hden h, hexact,
      roundDiv_mul_right _ _ (Nat.mul_pos hden (twoPow_pos _)), mantissa_add_exponent,
      min_eq_left hfinite.le]

theorem roundScaled_of_value {scale : ℤ} (hden : 0 < den) (hfinite : mag < f.infinity)
    (h : (num / den * 2 ^ scale : ℚ) = f.value mag) : f.roundScaled num den scale = mag := by
  refine round_of_value (Nat.mul_pos hden (twoPow_pos _)) hfinite ?_
  have hpow : (twoPow (-scale).toNat : ℚ) ≠ 0 := Nat.cast_ne_zero.mpr (twoPow_pos _).ne'
  have hden' : (den : ℚ) ≠ 0 := Nat.cast_ne_zero.mpr hden.ne'
  rw [← h]
  push_cast
  rw [cast_twoPow_toNat scale]
  field_simp

/-- A significand with all its bits, and an exponent in range, are those of a finite magnitude. -/
theorem exists_value {m : Nat} {e : ℤ} (hlow : twoPow f.fractionBits ≤ m)
    (hhigh : m < twoPow (f.fractionBits + 1)) (hmin : f.minExponent ≤ e)
    (hmax : e - f.minExponent + 2 < twoPow f.exponentBits) :
    ∃ mag, mag < f.infinity ∧ f.value mag = m * 2 ^ e := by
  obtain ⟨fraction, rfl⟩ := Nat.exists_eq_add_of_le hlow
  obtain ⟨n, hn⟩ := Int.eq_ofNat_of_zero_le (sub_nonneg.mpr hmin)
  have hpos := twoPow_pos f.fractionBits
  have hfraction : fraction < twoPow f.fractionBits := by
    rw [twoPow_succ] at hhigh
    omega
  -- the spacing's index in the upper bits, the fraction in the lower ones
  have hdiv : ((n + 1) * twoPow f.fractionBits + fraction) / twoPow f.fractionBits = n + 1 := by
    rw [Nat.add_comm, Nat.add_mul_div_right _ _ hpos, Nat.div_eq_of_lt hfraction, Nat.zero_add]
  have hmod : ((n + 1) * twoPow f.fractionBits + fraction) % twoPow f.fractionBits = fraction := by
    rw [Nat.add_comm, Nat.add_mul_mod_self_right, Nat.mod_eq_of_lt hfraction]
  refine ⟨(n + 1) * twoPow f.fractionBits + fraction, ?_, ?_⟩
  · calc (n + 1) * twoPow f.fractionBits + fraction
        < (n + 1) * twoPow f.fractionBits + twoPow f.fractionBits := Nat.add_lt_add_left hfraction _
      _ = (n + 2) * twoPow f.fractionBits := (Nat.succ_mul _ _).symm
      _ ≤ f.infinity := Nat.mul_le_mul_right _ (by omega)
  · have hexponent : f.minExponent + (n + 1 - 1 : Nat) = e := by omega
    rw [value, mantissa, exponent, hdiv, hmod, if_neg (Nat.succ_ne_zero n), hexponent]

theorem mantissa_lt (f : Format) (mag : Nat) : f.mantissa mag < twoPow (f.fractionBits + 1) := by
  have hmod : mag % twoPow f.fractionBits < twoPow f.fractionBits := Nat.mod_lt _ (twoPow_pos _)
  rw [mantissa, twoPow_succ]
  split <;> omega

/-- The exponent of a finite magnitude is in range. -/
theorem exponent_lt (hfinite : mag < f.infinity) :
    f.exponent mag - f.minExponent + 1 < twoPow f.exponentBits := by
  have hpos := twoPow_pos f.exponentBits
  have hdiv : mag / twoPow f.fractionBits < twoPow f.exponentBits - 1 :=
    Nat.div_lt_of_lt_mul (by rwa [Nat.mul_comm])
  rw [exponent]
  generalize mag / twoPow f.fractionBits = index at hdiv ⊢
  omega

end Format

/-! ## Singles -/

/-- A single's number is a double's. -/
theorem exists_double_value {mag : Nat} (hfinite : mag < Format.single.infinity) :
    ∃ mag', mag' < Format.double.infinity ∧ Format.double.value mag' = Format.single.value mag := by
  have hsize : Format.single.mantissa mag < twoPow 24 := Format.single.mantissa_lt mag
  have hrange := Format.exponent_lt hfinite
  have hmin := Format.single.minExponent_le_exponent mag
  have hsingle : Format.single.minExponent = -149 := by decide
  have hdouble : Format.double.minExponent = -1074 := by decide
  rw [Format.value]
  generalize Format.single.mantissa mag = m at hsize ⊢
  generalize Format.single.exponent mag = e at hrange hmin ⊢
  by_cases hm : m = 0
  · exact ⟨0, by decide, by simp [hm, Format.value, Format.mantissa]⟩
  · -- the significand is shifted until it has all the bits of a double's
    have hlog : m.log2 < 24 := (Nat.log2_lt hm).mpr hsize
    obtain ⟨shift, hshift⟩ : ∃ shift, m.log2 + shift = 52 := ⟨52 - m.log2, by omega⟩
    have hlow : twoPow 52 ≤ m * twoPow shift := by
      rw [← hshift, twoPow_add]
      exact Nat.mul_le_mul_right _ (Nat.log2_self_le hm)
    have hhigh : m * twoPow shift < twoPow (52 + 1) := by
      rw [← hshift, Nat.add_right_comm, twoPow_add]
      exact Nat.mul_lt_mul_of_pos_right Nat.lt_log2_self (twoPow_pos shift)
    have htop : twoPow Format.single.exponentBits = 256 := by decide
    have htop' : twoPow Format.double.exponentBits = 2048 := by decide
    obtain ⟨mag', hmag', hvalue⟩ := Format.exists_value (f := .double) (e := e - shift) hlow hhigh
      (by omega) (by omega)
    refine ⟨mag', hmag', ?_⟩
    rw [hvalue, Nat.cast_mul, cast_twoPow, mul_assoc, ← zpow_natCast, ← zpow_add₀ two_ne_zero,
      add_sub_cancel]

namespace Double

variable {mag : Nat} (hmag : mag < 0x8000000000000000) (negative : Bool)
include hmag

theorem toNat_bits_ofParts :
    (ofParts negative mag).bits.toNat = if negative then 0x8000000000000000 + mag else mag := by
  have hsize : UInt64.size = 0x10000000000000000 := rfl
  rw [ofParts, UInt64.toNat_ofNat_of_lt']
  split <;> omega

theorem negative_ofParts : (ofParts negative mag).negative = negative := by
  rw [Double.negative, toNat_bits_ofParts hmag]
  cases negative with
  | false => exact decide_eq_false (by simp only [Bool.false_eq_true, if_false]; omega)
  | true => exact decide_eq_true (by simp only [if_true]; omega)

theorem magnitude_ofParts : (ofParts negative mag).magnitude = mag := by
  rw [Double.magnitude, toNat_bits_ofParts hmag]
  split <;> omega

end Double

namespace Single

/-- The double nearest to a single. -/
def widen (x : Single) : Double :=
  .ofParts x.negative (Format.double.roundScaled x.mantissa 1 x.exponent)

/-- A single is put together from its parts. -/
theorem ofParts_self (x : Single) : ofParts x.negative x.magnitude = x := by
  have hlt := x.bits.toNat_lt
  have hparts : (if x.negative then 0x80000000 + x.magnitude else x.magnitude) = x.bits.toNat := by
    rw [negative, magnitude]
    simp only [decide_eq_true_eq]
    split <;> omega
  rw [ofParts, hparts, UInt32.ofNat_toNat]

/-- **No finite single is lost.**  Its double is finite, and the nearest single to it is the single. -/
theorem toSingle_widen {x : Single} (hx : x.isFinite = true) :
    x.widen.magnitude < Format.double.infinity ∧ x.widen.toSingle = x := by
  have hfinite : x.magnitude < Format.single.infinity := of_decide_eq_true hx
  obtain ⟨mag, hmag, hvalue⟩ := exists_double_value hfinite
  have hround : Format.double.roundScaled x.mantissa 1 x.exponent = mag := by
    refine Format.roundScaled_of_value Nat.one_pos hmag ?_
    rw [hvalue, Nat.cast_one, div_one]
    rfl
  have hsmall : mag < 0x8000000000000000 := hmag.trans (by decide)
  have hnegative : x.widen.negative = x.negative := by
    rw [widen, hround, Double.negative_ofParts hsmall]
  have hmagnitude : x.widen.magnitude = mag := by
    rw [widen, hround, Double.magnitude_ofParts hsmall]
  have hback : Format.single.roundScaled x.widen.mantissa 1 x.widen.exponent = x.magnitude := by
    refine Format.roundScaled_of_value Nat.one_pos hfinite ?_
    rw [← hvalue, Nat.cast_one, div_one, Double.mantissa, Double.exponent, hmagnitude]
    rfl
  rw [Double.toSingle, hnegative, hback, ofParts_self]
  exact ⟨hmagnitude ▸ hmag, rfl⟩

end Single

end FragmentGraph.Numeric
