/-
  Powers of two and of ten, and rounding a quotient of naturals to the nearest natural, a half going to
  the even neighbour.

  Every inexact number of the library is rounded by `roundDiv` exactly once from an exact quotient:
  binary formats (`Numeric.Binary`) round `num / den` at a power of two, decimal texts
  (`Numeric.Fixed`, `Numeric.Shortest`) at a power of ten.
-/
namespace FragmentGraph.Numeric

/-- The power of two with exponent `n`. -/
def twoPow (n : Nat) : Nat := Nat.pow 2 n

/-- The power of ten with exponent `n`. -/
def tenPow (n : Nat) : Nat := Nat.pow 10 n

/-- The natural nearest to `num / den`; of two equally near ones, the even one. -/
def roundDiv (num den : Nat) : Nat :=
  let low := num / den
  let rest := num % den
  if 2 * rest < den then low
  else if den < 2 * rest then low + 1
  else if low % 2 = 0 then low
  else low + 1

/-- An exact quotient is left alone. -/
theorem roundDiv_mul_right (n den : Nat) (h : 0 < den) : roundDiv (n * den) den = n := by
  unfold roundDiv
  rw [Nat.mul_div_cancel n h, Nat.mul_mod_left]
  simp [h]

end FragmentGraph.Numeric
