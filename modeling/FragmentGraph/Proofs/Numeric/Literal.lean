/-
  Float literals are exact roundings.

  A shader has its numbers as texts with five places.  Such a text (`Literal`) is read as a decimal, and a
  bit pattern as a binary fraction; the two numbers are compared as rationals.

  1. **Rounding** — `NearestMultiple` says what it is to be rounded once: no other multiple is nearer, and of
     two equally near ones the even one is taken.  That is all that is needed of the rounding to be
     monotone (`NearestMultiple.mono`) and off by half a step at most (`NearestMultiple.abs_sub_le`).
     `roundDiv` does it in whole numbers (`nearestMultiple_roundDiv`).

  2. **Patterns** — the sign, exponent and fraction of a pattern give its number (`Single.value`).  A number
     of any size, down to the smallest subnormal, is a quotient of naturals, so no digit is lost before
     the rounding (`nearestMultiple_hundredThousandths`).

  3. **Texts** — the digits of the rounded quotient, with a point five places from the end, are a literal
     (`Single.literal`), and no other literal has the same text (`Literal.text_inj`).
-/
import FragmentGraph.Proofs.Numeric.Digits
import FragmentGraph.Proofs.Numeric.Exact
import Mathlib.Algebra.Order.Ring.Abs
import Mathlib.Tactic.Linarith

namespace FragmentGraph.Numeric

/-! ## Rounding -/

/-- `NearestMultiple step q r` — `r` is the multiple of `step` nearest to `q`; of two equally near ones it
    is the even multiple. -/
def NearestMultiple (step q r : ℚ) : Prop :=
  ∃ n : ℤ, r = n * step ∧ (∀ m : ℤ, |q - n * step| ≤ |q - m * step|) ∧
    ∀ m : ℤ, m ≠ n → |q - m * step| = |q - n * step| → Even n

section

variable {step q q' r r' : ℚ}

/-- Different multiples are a step apart at least. -/
theorem step_le_add (hstep : 0 < step) (q : ℚ) {m n : ℤ} (hne : m ≠ n) :
    step ≤ |q - m * step| + |q - n * step| := by
  have hone : (1 : ℚ) ≤ |(n : ℚ) - m| := by
    exact_mod_cast Int.one_le_abs (sub_ne_zero.mpr hne.symm)
  calc step ≤ |(n : ℚ) - m| * step := le_mul_of_one_le_left hstep.le hone
    _ = |(q - m * step) - (q - n * step)| := by
      rw [← abs_of_pos hstep, ← abs_mul, abs_of_pos hstep]
      congr 1
      ring
    _ ≤ |q - m * step| + |q - n * step| := abs_sub _ _

/-- What is half a step away at most, and even at just half a step, is nearest. -/
theorem nearestMultiple_of_half (hstep : 0 < step) {n : ℤ} (hnear : |q - n * step| ≤ step / 2)
    (heven : |q - n * step| = step / 2 → Even n) : NearestMultiple step q (n * step) := by
  refine ⟨n, rfl, fun m => ?_, fun m hne htie => ?_⟩
  · by_cases hne : m = n
    · rw [hne]
    · have := step_le_add hstep q hne
      linarith
  · have := step_le_add hstep q hne
    exact heven (by linarith)

/-- A number no farther from the upper of two is above the middle. -/
theorem middle_le {low high : ℚ} (hlt : low < high) (h : |q - high| ≤ |q - low|) :
    (low + high) / 2 ≤ q := by
  by_contra hq
  have hhigh : |q - high| = high - q := by
    rw [abs_sub_comm]
    exact abs_of_pos (by linarith)
  have hnearer : |q - low| < high - q := abs_lt.mpr ⟨by linarith, by linarith⟩
  linarith

/-- A number no farther from the lower of two is below the middle. -/
theorem le_middle {low high : ℚ} (hlt : low < high) (h : |q - low| ≤ |q - high|) :
    q ≤ (low + high) / 2 := by
  by_contra hq
  have hlow : |q - low| = q - low := abs_of_pos (by linarith)
  have hnearer : |q - high| < q - low := abs_lt.mpr ⟨by linarith, by linarith⟩
  linarith

namespace NearestMultiple

/-- The nearest multiple is half a step away at most. -/
theorem abs_sub_le (hstep : 0 < step) (h : NearestMultiple step q r) : |r - q| ≤ step / 2 := by
  obtain ⟨n, rfl, hnear, _⟩ := h
  -- the neighbours on both sides are no nearer
  have habove := hnear (n + 1)
  have hbelow := hnear (n - 1)
  push_cast at habove hbelow
  have hle := le_middle (by linarith) habove
  have hge := middle_le (by linarith) hbelow
  exact abs_le.mpr ⟨by linarith, by linarith⟩

/-- The nearest multiple of a greater number is no less. -/
theorem mono (h : NearestMultiple step q r) (h' : NearestMultiple step q' r') (hq : q ≤ q') :
    r ≤ r' := by
  obtain ⟨n, rfl, hnear, heven⟩ := h
  obtain ⟨n', rfl, hnear', heven'⟩ := h'
  by_contra hlt
  rw [not_le] at hlt
  have hne : n' ≠ n := by
    rintro rfl
    exact lt_irrefl _ hlt
  -- both numbers are in the middle, and both multiples are even
  have hge := middle_le hlt (hnear n')
  have hle := le_middle hlt (hnear' n)
  have hmiddle : q = (n' * step + n * step) / 2 := by linarith
  have hmiddle' : q' = (n' * step + n * step) / 2 := by linarith
  have htie : |q - n' * step| = |q - n * step| := by
    rw [hmiddle, ← abs_neg]
    congr 1
    ring
  obtain ⟨k, hk⟩ := heven n' hne htie
  obtain ⟨k', hk'⟩ := heven' n hne.symm (by rw [hmiddle', ← hmiddle, htie])
  -- so the middle is a multiple itself, and a nearer one
  have hzero := hnear (k + k')
  have hexact : q - ((k + k' : ℤ) : ℚ) * step = 0 := by
    rw [hmiddle, hk, hk']
    push_cast
    ring
  rw [hexact, abs_zero, abs_nonpos_iff] at hzero
  linarith

/-- The multiple nearest to the opposite of a number is the opposite one. -/
theorem neg (h : NearestMultiple step q r) : NearestMultiple step (-q) (-r) := by
  obtain ⟨n, rfl, hnear, heven⟩ := h
  have hflip : ∀ m : ℤ, |-q - m * step| = |q - ((-m : ℤ) : ℚ) * step| := by
    intro m
    rw [← abs_neg]
    congr 1
    push_cast
    ring
  refine ⟨-n, by push_cast; ring, fun m => ?_, fun m hne htie => ?_⟩
  · rw [hflip, hflip, neg_neg]
    exact hnear (-m)
  · rw [hflip, hflip, neg_neg] at htie
    exact (heven (-m) (fun heq => hne (by omega)) htie).neg

end NearestMultiple

end

/-- In whole numbers: a rounded quotient is off by half the divisor at most, and even where it is off by
    just half. -/
theorem roundDiv_spec (num : Nat) {den : Nat} (hden : 0 < den) :
    2 * num ≤ 2 * (roundDiv num den * den) + den ∧ 2 * (roundDiv num den * den) ≤ 2 * num + den ∧
      (2 * num = 2 * (roundDiv num den * den) + den ∨ 2 * (roundDiv num den * den) = 2 * num + den →
        Even (roundDiv num den)) := by
  have hsplit := Nat.div_add_mod' num den
  have hrest := Nat.mod_lt num hden
  have hnext := Nat.add_one_mul (num / den) den
  rw [Nat.even_iff, roundDiv]
  split_ifs with hbelow habove heven
  · omega
  · omega
  · exact ⟨by omega, by omega, fun _ => heven⟩
  · exact ⟨by omega, by omega, fun _ => by omega⟩

/-- A rounded quotient is off by a half at most, and even where it is off by just a half. -/
theorem abs_sub_roundDiv (num : Nat) {den : Nat} (hden : 0 < den) :
    |(num / den : ℚ) - roundDiv num den| ≤ 1 / 2 ∧
      (|(num / den : ℚ) - roundDiv num den| = 1 / 2 → Even (roundDiv num den)) := by
  have hden' : (0 : ℚ) < den := Nat.cast_pos.mpr hden
  obtain ⟨hlow, hhigh, heven⟩ := roundDiv_spec num hden
  generalize roundDiv num den = n at hlow hhigh heven ⊢
  have hlow' : 2 * (num : ℚ) ≤ 2 * (n * den) + den := by exact_mod_cast hlow
  have hhigh' : 2 * (n * den : ℚ) ≤ 2 * num + den := by exact_mod_cast hhigh
  have hscale : |(num / den : ℚ) - n| = |(num : ℚ) - n * den| / den := by
    rw [← abs_of_pos hden', ← abs_div, abs_of_pos hden', sub_div, mul_div_cancel_right₀ _ hden'.ne']
  rw [hscale, div_le_iff₀ hden', div_eq_iff hden'.ne']
  refine ⟨abs_le.mpr ⟨by linarith, by linarith⟩, fun htie => heven ?_⟩
  rcases abs_choice ((num : ℚ) - n * den) with habs | habs
  · have : 2 * (num : ℚ) = 2 * (n * den) + den := by linarith
    exact Or.inl (by exact_mod_cast this)
  · have : 2 * (n * den : ℚ) = 2 * num + den := by linarith
    exact Or.inr (by exact_mod_cast this)

/-- A rounded quotient times the step is the nearest multiple of the step. -/
theorem nearestMultiple_roundDiv {step : ℚ} (hstep : 0 < step) (num : Nat) {den : Nat} (hden : 0 < den) :
    NearestMultiple step (num / den * step) (roundDiv num den * step) := by
  obtain ⟨hhalf, heven⟩ := abs_sub_roundDiv num hden
  have hscale : |(num / den * step : ℚ) - (roundDiv num den : ℤ) * step|
      = |(num / den : ℚ) - roundDiv num den| * step := by
    rw [Int.cast_natCast, ← sub_mul, abs_mul, abs_of_pos hstep]
  have h := nearestMultiple_of_half (q := num / den * step) (n := roundDiv num den) hstep ?_ ?_
  · exact_mod_cast h
  · rw [hscale]
    calc |(num / den : ℚ) - roundDiv num den| * step ≤ 1 / 2 * step := by gcongr
      _ = step / 2 := by ring
  · rw [hscale]
    intro htie
    have htie' : |(num / den : ℚ) - roundDiv num den| * step = 1 / 2 * step := by linarith
    exact_mod_cast heven (mul_right_cancel₀ hstep.ne' htie')

/-! ## Patterns -/

namespace Single

def signBit (x : Single) : Bool := x.bits.toNat.testBit 31

/-- The eight bits behind the sign. -/
def exponentField (x : Single) : Nat := x.bits.toNat / 2 ^ 23 % 2 ^ 8

/-- The last twenty-three bits. -/
def fractionField (x : Single) : Nat := x.bits.toNat % 2 ^ 23

/-- The absolute value of a finite pattern.  The whole part of the significand is one, or zero where the
    exponent field is zero. -/
def size (x : Single) : ℚ :=
  if x.exponentField = 0 then x.fractionField / 2 ^ 23 * 2 ^ (-126 : ℤ)
  else (1 + x.fractionField / 2 ^ 23) * 2 ^ ((x.exponentField : ℤ) - 127)

/-- The number of a finite pattern. -/
def value (x : Single) : ℚ := if x.signBit then -x.size else x.size

theorem negative_eq_signBit (x : Single) : x.negative = x.signBit := by
  have hlt := x.bits.toNat_lt
  rw [signBit, negative, Nat.testBit_eq_decide_div_mod_eq, decide_eq_decide]
  omega

theorem magnitude_div (x : Single) : x.magnitude / twoPow 23 = x.exponentField := by
  have hpow : twoPow 23 = 2 ^ 23 := rfl
  rw [magnitude, exponentField, hpow]
  omega

theorem magnitude_mod (x : Single) : x.magnitude % twoPow 23 = x.fractionField := by
  have hpow : twoPow 23 = 2 ^ 23 := rfl
  rw [magnitude, fractionField, hpow]
  omega

theorem isFinite_iff (x : Single) : x.isFinite = true ↔ x.exponentField ≠ 255 := by
  have htop : Format.single.infinity = 255 * 2 ^ 23 := by decide
  have hlt : x.magnitude < 2 ^ 31 := Nat.mod_lt _ (by decide)
  have hpow : twoPow 23 = 2 ^ 23 := rfl
  rw [isFinite, decide_eq_true_iff, ← magnitude_div, htop, hpow]
  omega

theorem size_nonneg (x : Single) : 0 ≤ x.size := by
  rw [size]
  split <;> positivity

theorem abs_value (x : Single) : |x.value| = x.size := by
  rw [value]
  split
  · rw [abs_neg, abs_of_nonneg x.size_nonneg]
  · exact abs_of_nonneg x.size_nonneg

/-- The fields say the same number as the integer significand and its exponent. -/
theorem size_eq (x : Single) : x.size = x.mantissa * 2 ^ x.exponent := by
  have hmin : Format.single.minExponent = -149 := by decide
  -- the point is moved behind the last bit of the fraction
  have hshift : ∀ k : ℤ, (2 : ℚ) ^ (k + 23) = 2 ^ 23 * 2 ^ k := by
    intro k
    rw [zpow_add₀ two_ne_zero, mul_comm]
    norm_cast
  rw [size, mantissa, exponent, Format.mantissa, Format.exponent, hmin,
    show Format.single.fractionBits = 23 from rfl, magnitude_div, magnitude_mod]
  split
  · next hzero =>
    rw [hzero, show (-126 : ℤ) = -149 + 23 from rfl, hshift]
    field_simp
    simp
  · next hpos =>
    rw [show (x.exponentField : ℤ) - 127 = -149 + (x.exponentField - 1 : Nat) + 23 by omega, hshift,
      Nat.cast_add, cast_twoPow]
    field_simp

/-- **Rounded once.**  What is written is nearest to the exact number. -/
theorem nearestMultiple_hundredThousandths (x : Single) :
    NearestMultiple (1 / 10 ^ 5) x.size (x.hundredThousandths / 10 ^ 5) := by
  have hpow : (twoPow (-x.exponent).toNat : ℚ) ≠ 0 := Nat.cast_ne_zero.mpr (twoPow_pos _).ne'
  have hten : (tenPow places : ℚ) = 10 ^ 5 := Nat.cast_pow 10 5
  have hstep : (0 : ℚ) < 1 / 10 ^ 5 := by positivity
  have h := nearestMultiple_roundDiv hstep
    (x.mantissa * tenPow places * twoPow x.exponent.toNat) (twoPow_pos (-x.exponent).toNat)
  convert h using 1
  · rw [size_eq, Nat.cast_mul, Nat.cast_mul, cast_twoPow_toNat, hten]
    field_simp
  · rw [mul_one_div, hundredThousandths]

end Single

/-! ## Texts -/

/-- A decimal with five places: digits without superfluous zeros, a point, five digits. -/
@[ext]
structure Literal where
  negative : Bool
  whole : List Char
  fraction : List Char
  whole_digits : ∀ c ∈ whole, c.isDigit = true
  whole_ne_nil : whole ≠ []
  whole_head : whole.head? = some '0' → whole = ['0']
  fraction_digits : ∀ c ∈ fraction, c.isDigit = true
  fraction_length : fraction.length = 5

namespace Literal

def text (l : Literal) : String :=
  String.ofList ((if l.negative then ['-'] else []) ++ l.whole ++ '.' :: l.fraction)

/-- What the digits denote. -/
def magnitude (l : Literal) : ℚ :=
  Nat.ofDigitChars 10 l.whole 0 + Nat.ofDigitChars 10 l.fraction 0 / 10 ^ 5

def value (l : Literal) : ℚ := if l.negative then -l.magnitude else l.magnitude

theorem point_notMem_fraction (l : Literal) : '.' ∉ l.fraction :=
  fun h => absurd (l.fraction_digits _ h) (by decide)

theorem point_notMem_signed (l : Literal) : '.' ∉ (if l.negative then ['-'] else []) ++ l.whole := by
  rw [List.mem_append, not_or]
  constructor
  · split <;> decide
  · exact fun h => absurd (l.whole_digits _ h) (by decide)

/-- A whole part does not begin as a sign does. -/
theorem head?_whole (l : Literal) : l.whole.head? ≠ some '-' :=
  fun h => absurd (l.whole_digits _ (List.mem_of_mem_head? h)) (by decide)

/-- **A text is read in one way.** -/
theorem text_inj {l m : Literal} (h : l.text = m.text) : l = m := by
  obtain ⟨hsigned, -, hfraction⟩ := (List.append_cons_inj_of_notMem m.point_notMem_signed
    m.point_notMem_fraction).mp (String.ofList_injective h).symm
  have hl := l.head?_whole
  have hm := m.head?_whole
  cases hln : l.negative <;> cases hmn : m.negative <;> rw [hln, hmn] at hsigned
  · exact Literal.ext (hln.trans hmn.symm) hsigned.symm hfraction.symm
  · exact absurd (congrArg List.head? hsigned.symm) (by simpa using hl)
  · exact absurd (congrArg List.head? hsigned) (by simpa using hm)
  · exact Literal.ext (hln.trans hmn.symm) (List.cons.inj hsigned).2.symm hfraction.symm

/-- So many hundred thousandths, with a sign. -/
def ofUnits (negative : Bool) (units : Nat) : Literal where
  negative
  whole := Nat.toDigits 10 (units / tenPow Single.places)
  fraction := (padded Single.places (units % tenPow Single.places)).toList
  whole_digits := isDigit_toDigits
  whole_ne_nil := Nat.toDigits_ne_nil
  whole_head := by
    intro hzero
    rcases Nat.eq_zero_or_pos (units / tenPow Single.places) with h | h
    · rw [h, Nat.toDigits_zero]
    · exact absurd hzero (head?_toDigits_ne_zero h)
  fraction_digits := by
    intro c hc
    rw [padded, String.toList_ofList, List.mem_append, List.mem_replicate] at hc
    rcases hc with ⟨-, rfl⟩ | hc
    · rfl
    · exact isDigit_toDigits c hc
  fraction_length := by
    have hlt : units % tenPow Single.places < 10 ^ 5 := Nat.mod_lt _ (by decide)
    have hle := (Nat.length_toDigits_le_iff (by omega) (by omega)).mpr hlt
    rw [padded, String.toList_ofList, List.length_append, List.length_replicate]
    exact Nat.sub_add_cancel hle

theorem text_ofUnits (negative : Bool) (units : Nat) :
    (ofUnits negative units).text = (if negative then "-" else "") ++ decimal (units / tenPow Single.places)
      ++ "." ++ padded Single.places (units % tenPow Single.places) := by
  apply String.toList_injective
  cases negative <;> simp [text, ofUnits, decimal]

/-- The literal of `units` hundred-thousandths denotes that many of them. -/
theorem magnitude_ofUnits (negative : Bool) (units : Nat) :
    (ofUnits negative units).magnitude = units / 10 ^ 5 := by
  have hten : (tenPow Single.places : ℚ) = 10 ^ 5 := Nat.cast_pow 10 5
  have hsplit : (units : ℚ) = (units / tenPow Single.places : Nat) * tenPow Single.places
      + (units % tenPow Single.places : Nat) := by
    exact_mod_cast (Nat.div_add_mod' units _).symm
  -- the zeros in front of a fraction do not count
  have hpad : ∀ width n, Nat.ofDigitChars 10 (padded width n).toList 0 = n := by
    intro width n
    rw [padded, String.toList_ofList, Nat.ofDigitChars_append, Nat.ofDigitChars_replicate_zero,
      Nat.mul_zero, Nat.ofDigitChars_ten_toDigits]
  rw [magnitude, ofUnits, Nat.ofDigitChars_ten_toDigits, hpad, eq_div_iff (by positivity), add_mul,
    div_mul_cancel₀ _ (by positivity), hsplit, hten]

end Literal

namespace Single

/-- The literal that is written for a pattern. -/
def literal (x : Single) : Literal :=
  if x.isFinite then .ofUnits x.negative x.hundredThousandths else .ofUnits false 0

theorem text_literal (x : Single) : x.literal.text = x.fixed := by
  rw [literal, fixed]
  split
  · exact Literal.text_ofUnits _ _
  · rfl

theorem nearestMultiple_literal {x : Single} (hx : x.exponentField ≠ 255) :
    NearestMultiple (1 / 10 ^ 5) x.size x.literal.magnitude ∧ x.literal.negative = x.signBit := by
  rw [literal, if_pos (x.isFinite_iff.mpr hx), Literal.magnitude_ofUnits]
  exact ⟨x.nearestMultiple_hundredThousandths, x.negative_eq_signBit⟩

/-- The sign does not change what is nearest. -/
theorem nearestMultiple_value {x : Single} (hx : x.exponentField ≠ 255) :
    NearestMultiple (1 / 10 ^ 5) x.value x.literal.value := by
  obtain ⟨hnear, hsign⟩ := nearestMultiple_literal hx
  rw [value, Literal.value, hsign]
  split
  · exact hnear.neg
  · exact hnear

/-- **Literals are exact roundings.**  Every pattern is written as a decimal with five places, which can
    be read in one way only.  For a finite pattern the digits denote the multiple of `10 ^ -5` nearest to
    its absolute value, the even one of two, behind a minus sign where the sign bit is set; other patterns
    are zero.  So what is denoted is monotone in the number, and half of `10 ^ -5` away from it at most. -/
theorem fixed_exact :
    (∀ x : Single, ∃! l : Literal, l.text = x.fixed) ∧
    (∀ (x : Single) (l : Literal), l.text = x.fixed → x.exponentField ≠ 255 →
      NearestMultiple (1 / 10 ^ 5) |x.value| l.magnitude ∧
      (l.negative = true ↔ x.signBit = true) ∧
      |l.value - x.value| ≤ 1 / 2 * (1 / 10 ^ 5)) ∧
    (∀ x : Single, x.exponentField = 255 → x.fixed = "0.00000") ∧
    ∀ (x y : Single) (l m : Literal), l.text = x.fixed → m.text = y.fixed →
      x.exponentField ≠ 255 → y.exponentField ≠ 255 → x.value ≤ y.value → l.value ≤ m.value := by
  have hunique : ∀ (x : Single) (l : Literal), l.text = x.fixed → l = x.literal :=
    fun x l hl => Literal.text_inj (hl.trans x.text_literal.symm)
  refine ⟨fun x => ⟨x.literal, x.text_literal, hunique x⟩, ?_, ?_, ?_⟩
  · intro x l hl hx
    obtain rfl := hunique x l hl
    obtain ⟨hnear, hsign⟩ := nearestMultiple_literal hx
    have hbound := (nearestMultiple_value hx).abs_sub_le (by positivity)
    exact ⟨x.abs_value.symm ▸ hnear, by rw [hsign], by linarith⟩
  · intro x hx
    have hinfinite : ¬ x.isFinite = true := fun h => x.isFinite_iff.mp h hx
    rw [fixed, if_neg hinfinite]
  · intro x y l m hl hm hx hy hle
    obtain rfl := hunique x l hl
    obtain rfl := hunique y m hm
    exact (nearestMultiple_value hx).mono (nearestMultiple_value hy) hle

/-- A sixty-fourth is a tie between `0.01562` and `0.01563`, and the first negative number is written with
    its sign though no digit is left of it. -/
theorem fixed_exact_tie :
    fixed ⟨0x3c800000⟩ = "0.01562" ∧ fixed ⟨0x80000001⟩ = "-0.00000" ∧ fixed ⟨0xff800000⟩ = "0.00000" ∧
    NearestMultiple (1 / 10 ^ 5) |value ⟨0x3c800000⟩| (Literal.ofUnits false 1562).magnitude ∧
    |(Literal.ofUnits true 0).value - value ⟨0x80000001⟩| ≤ 1 / 2 * (1 / 10 ^ 5) ∧
    (Literal.ofUnits true 0).value ≤ (Literal.ofUnits false 1562).value := by
  obtain ⟨-, hfinite, hinfinite, hmono⟩ := fixed_exact
  have htie : (Literal.ofUnits false 1562).text = fixed ⟨0x3c800000⟩ := by decide
  have hzero : (Literal.ofUnits true 0).text = fixed ⟨0x80000001⟩ := by decide
  have hle : value ⟨0x80000001⟩ ≤ value ⟨0x3c800000⟩ := by
    calc value ⟨0x80000001⟩ = -size ⟨0x80000001⟩ := if_pos (by decide)
      _ ≤ 0 := neg_nonpos.mpr (size_nonneg _)
      _ ≤ size ⟨0x3c800000⟩ := size_nonneg _
      _ = value ⟨0x3c800000⟩ := (if_neg (by decide)).symm
  exact ⟨by decide, by decide, hinfinite _ (by decide), (hfinite _ _ htie (by decide)).1,
    (hfinite _ _ hzero (by decide)).2.2, hmono _ _ _ _ hzero htie (by decide) (by decide) hle⟩

end Single

end FragmentGraph.Numeric
