/-
  Numbers and their spellings.

  A number `ReadsBack` if its text is a numeral that is read as the same number.  Every integer that a
  numeral can be read as does (`readsBack_int`), since

  1. its digits have no leading zero, so they are the whole part of a numeral (`wholeOk_toDigits`);
  2. the value of its digits is the integer again (`digitsValue_toDigits`).

  For a scanner it matters that a numeral is made of number characters only and begins with a digit or a
  minus sign (`chars_of_ofChars?`).
-/
import FragmentGraph.Json.Printer
import FragmentGraph.Proofs.Numeric.Digits
import Mathlib.Data.List.TakeWhile

namespace FragmentGraph.Json

open Numeric (decimal signedDecimal isDigit_toDigits head?_toDigits_ne_zero)

/-! ## Digits -/

theorem digitsValue_eq_ofDigitChars (cs : List Char) : digitsValue cs = Nat.ofDigitChars 10 cs 0 := by
  simp only [digitsValue, Nat.ofDigitChars, digitValue, Nat.mul_comm]

theorem digitsValue_toDigits (n : Nat) : digitsValue (Nat.toDigits 10 n) = n := by
  rw [digitsValue_eq_ofDigitChars, Nat.ofDigitChars_toDigits (by omega) (by omega)]

namespace Numeral

/-! ## Grammar -/

/-- Digits are a whole part if there is one alone, or if the first of them is not a zero. -/
theorem wholeOk_of_digits {cs : List Char} (hdigits : ∀ c ∈ cs, c.isDigit = true)
    (hhead : cs.length = 1 ∨ cs ≠ [] ∧ cs.head? ≠ some '0') : wholeOk cs = true := by
  match cs with
  | [] => simp at hhead
  | [c] => exact hdigits c (by simp)
  | c :: d :: rest =>
    have hc : c ≠ '0' := by simpa using hhead
    have hrest : (d :: rest).all Char.isDigit = true := by
      rw [List.all_eq_true]
      exact fun x hx => hdigits x (List.mem_cons_of_mem c hx)
    simp only [wholeOk, hdigits c (by simp), hrest, Bool.true_and, Bool.and_true, bne_iff_ne]
    exact hc

theorem wholeOk_toDigits (n : Nat) : wholeOk (Nat.toDigits 10 n) = true := by
  apply wholeOk_of_digits isDigit_toDigits
  rcases Nat.eq_zero_or_pos n with rfl | hn
  · exact .inl (by decide)
  · exact .inr ⟨Nat.toDigits_ne_nil, head?_toDigits_ne_zero hn⟩

/-- What `ofChars?` does behind the sign. -/
def ofUnsigned? (negative : Bool) (cs : List Char) : Option Numeral := do
  if !wholeOk (cs.takeWhile Char.isDigit) then none
  let (fraction, rest) ← splitFraction? (cs.dropWhile Char.isDigit)
  let exponent ← splitExponent? rest
  return ⟨negative, cs.takeWhile Char.isDigit, fraction, exponent⟩

theorem ofChars?_neg (cs : List Char) : ofChars? ('-' :: cs) = ofUnsigned? true cs := rfl

theorem ofChars?_of_head? {cs : List Char} (hcs : cs.head? ≠ some '-') :
    ofChars? cs = ofUnsigned? false cs := by
  unfold ofChars?
  split
  next hsign =>
    split at hsign
    · simp at hcs
    · cases hsign
      rfl

theorem ofUnsigned?_digits (negative : Bool) {cs : List Char} (hok : wholeOk cs = true)
    (hdigits : ∀ c ∈ cs, c.isDigit = true) :
    ofUnsigned? negative cs = some ⟨negative, cs, [], none⟩ := by
  have htake : cs.takeWhile Char.isDigit = cs := List.takeWhile_eq_self_iff.mpr hdigits
  have hdrop : cs.dropWhile Char.isDigit = [] := List.dropWhile_eq_nil_iff.mpr hdigits
  simp [ofUnsigned?, htake, hdrop, hok, splitFraction?, splitExponent?]

/-! ## Characters -/

theorem isNumberChar_of_isDigit {c : Char} (hc : c.isDigit = true) : isNumberChar c = true := by
  simp [isNumberChar, hc]

theorem isNumberChar_of_dropWhile {cs : List Char}
    (h : ∀ c ∈ cs.dropWhile Char.isDigit, isNumberChar c = true) : ∀ c ∈ cs, isNumberChar c = true := by
  intro c hc
  rw [← List.takeWhile_append_dropWhile (p := Char.isDigit) (l := cs)] at hc
  rcases List.mem_append.mp hc with hdigit | hbehind
  · exact isNumberChar_of_isDigit (List.mem_takeWhile_imp hdigit)
  · exact h c hbehind

/-- An exponent is made of number characters, with a sign or without. -/
theorem isNumberChar_of_exponent {cs : List Char} {e : Exponent} (he : Exponent.ofChars? cs = some e) :
    ∀ c ∈ cs, isNumberChar c = true := by
  have hall : ∀ {ds : List Char} {sign : Bool},
      (if !ds.isEmpty && ds.all Char.isDigit then some (Exponent.mk sign ds) else none) = some e →
        ∀ c ∈ ds, isNumberChar c = true := by
    intro ds sign h c hc
    split at h
    next hok =>
      rw [Bool.and_eq_true, List.all_eq_true] at hok
      exact isNumberChar_of_isDigit (hok.2 c hc)
    · cases h
  unfold Exponent.ofChars? at he
  split at he
  next hsign =>
    split at hsign
    all_goals
      cases hsign
      have hdigits := hall he
    · exact List.forall_mem_cons.mpr ⟨by decide, hdigits⟩
    · exact List.forall_mem_cons.mpr ⟨by decide, hdigits⟩
    · exact hdigits

/-- Behind the fraction are number characters only: none at all, or a mark and an exponent. -/
theorem isNumberChar_of_splitExponent? {cs : List Char} {e : Option Exponent}
    (he : splitExponent? cs = some e) : ∀ c ∈ cs, isNumberChar c = true := by
  cases cs with
  | nil => simp
  | cons c rest =>
    simp only [splitExponent?] at he
    split at he
    next hmark =>
      obtain ⟨e', he', -⟩ := Option.map_eq_some_iff.mp he
      refine List.forall_mem_cons.mpr ⟨?_, isNumberChar_of_exponent he'⟩
      rcases hmark with rfl | rfl <;> decide
    · cases he

/-- Behind the whole part are number characters only, if it is so behind the fraction. -/
theorem isNumberChar_of_splitFraction? {cs fraction rest : List Char}
    (hcs : splitFraction? cs = some (fraction, rest)) (hrest : ∀ c ∈ rest, isNumberChar c = true) :
    ∀ c ∈ cs, isNumberChar c = true := by
  unfold splitFraction? at hcs
  split at hcs
  · dsimp only at hcs
    split at hcs
    · cases hcs
    · cases hcs
      exact List.forall_mem_cons.mpr ⟨by decide, isNumberChar_of_dropWhile hrest⟩
  · cases hcs
    exact hrest

/-- Behind the sign a numeral begins with a digit. -/
theorem chars_of_ofUnsigned? {negative : Bool} {cs : List Char} {n : Numeral}
    (hn : ofUnsigned? negative cs = some n) :
    (∃ c rest, cs = c :: rest ∧ c.isDigit = true) ∧ ∀ c ∈ cs, isNumberChar c = true := by
  have hok : wholeOk (cs.takeWhile Char.isDigit) = true := by
    cases hok : wholeOk (cs.takeWhile Char.isDigit) with
    | true => rfl
    | false => simp [ofUnsigned?, hok] at hn
  simp only [ofUnsigned?, hok, Bool.not_true, Bool.false_eq_true, if_false, Option.bind_eq_bind,
    Option.bind_eq_some_iff] at hn
  obtain ⟨⟨fraction, rest⟩, hfraction, exponent, hexponent, -⟩ := hn
  constructor
  · cases cs with
    | nil => cases hok
    | cons c rest =>
      refine ⟨c, rest, rfl, ?_⟩
      by_contra hc
      rw [List.takeWhile_cons_of_neg hc] at hok
      cases hok
  · have hrest := isNumberChar_of_splitExponent? hexponent
    exact isNumberChar_of_dropWhile (isNumberChar_of_splitFraction? hfraction hrest)

/-- A numeral begins with a digit or a minus sign and is made of number characters. -/
theorem chars_of_ofChars? {cs : List Char} {n : Numeral} (hn : ofChars? cs = some n) :
    (∃ c rest, cs = c :: rest ∧ (c.isDigit || c == '-') = true)
      ∧ ∀ c ∈ cs, isNumberChar c = true := by
  by_cases hsign : cs.head? = some '-'
  · obtain ⟨rest, rfl⟩ := List.head?_eq_some_iff.mp hsign
    rw [ofChars?_neg] at hn
    exact ⟨⟨_, _, rfl, rfl⟩, List.forall_mem_cons.mpr ⟨by decide, (chars_of_ofUnsigned? hn).2⟩⟩
  · rw [ofChars?_of_head? hsign] at hn
    obtain ⟨⟨c, rest, rfl, hc⟩, hall⟩ := chars_of_ofUnsigned? hn
    exact ⟨⟨c, rest, rfl, by rw [hc, Bool.true_or]⟩, hall⟩

end Numeral

/-! ## Numbers -/

namespace Number

/-- A numeral can be read as the number: an integer fits 64 bits, signed if it is negative. -/
def InRange : Number → Prop
  | int i => -0x8000000000000000 ≤ i ∧ i < 0x10000000000000000
  | float _ => True

/-- The text of the number is a numeral and is read as the number. -/
def ReadsBack (n : Number) : Prop :=
  (Numeral.ofChars? n.render.toList).bind Numeral.number? = some n

instance (n : Number) : Decidable n.ReadsBack := inferInstanceAs (Decidable (_ = _))

/-- What a numeral is read as is in range: an integer that does not fit 64 bits is not read as one. -/
theorem inRange_of_number? {n : Numeral} {x : Number} (hx : n.number? = some x) : x.InRange := by
  unfold Numeral.number? at hx
  split at hx
  next i hi =>
    cases hx
    unfold Numeral.int? at hi
    dsimp only at hi
    show -0x8000000000000000 ≤ i ∧ i < 0x10000000000000000
    split at hi
    · split at hi
      all_goals
        split at hi
        · cases hi
          omega
        · cases hi
    · cases hi
  · obtain ⟨y, -, rfl⟩ := Option.map_eq_some_iff.mp hx
    trivial

/-- The text of an integer is a numeral of its sign and its digits, without a fraction or an exponent. -/
theorem ofChars?_signedDecimal (i : Int) :
    Numeral.ofChars? (signedDecimal i).toList
      = some ⟨decide (i < 0), Nat.toDigits 10 i.natAbs, [], none⟩ := by
  have hdigits := Numeral.ofUnsigned?_digits (decide (i < 0)) (Numeral.wholeOk_toDigits i.natAbs)
    isDigit_toDigits
  by_cases hi : i < 0
  · have hchars : (signedDecimal i).toList = '-' :: Nat.toDigits 10 i.natAbs := by
      simp [signedDecimal, hi, decimal]
    rw [hchars, Numeral.ofChars?_neg]
    simpa [hi] using hdigits
  · have hchars : (signedDecimal i).toList = Nat.toDigits 10 i.natAbs := by
      simp [signedDecimal, hi, decimal]
    have hsign : (Nat.toDigits 10 i.natAbs).head? ≠ some '-' := by
      intro hhead
      exact absurd (isDigit_toDigits _ (List.mem_of_head? hhead)) (by decide)
    rw [hchars, Numeral.ofChars?_of_head? hsign]
    simpa [hi] using hdigits

/-- Every integer that can be read is read back. -/
theorem readsBack_int {i : Int} (hi : (int i).InRange) : (int i).ReadsBack := by
  obtain ⟨hlow, hhigh⟩ := hi
  have hint : Numeral.int? ⟨decide (i < 0), Nat.toDigits 10 i.natAbs, [], none⟩ = some i := by
    simp only [Numeral.int?, digitsValue_toDigits, List.isEmpty_nil, Option.isNone_none, Bool.and_self,
      if_true, decide_eq_true_eq]
    split
    · rw [if_pos (by omega)]
      exact congrArg some (by omega)
    · rw [if_pos (by omega)]
      exact congrArg some (by omega)
  have hnumber : Numeral.number? ⟨decide (i < 0), Nat.toDigits 10 i.natAbs, [], none⟩
      = some (int i) := by
    rw [Numeral.number?, hint]
  rw [ReadsBack, render, ofChars?_signedDecimal, Option.bind_some, hnumber]

-- A double need not be: the 17 digits of this one are rounded as a significand and again when scaled.
example : (float ⟨0x402a60ac8802de8d⟩).render = "13.188816309309255"
    ∧ ¬ (float ⟨0x402a60ac8802de8d⟩).ReadsBack := by decide +kernel

end Number

end FragmentGraph.Json
