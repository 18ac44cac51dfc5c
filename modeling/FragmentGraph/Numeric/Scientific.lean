/-
  Reading scientific notation: a significand of at most 64 bits times a power of ten, as a double.

  The significand is rounded to a double, the power of ten is rounded to a double, and the product or
  quotient of the two is rounded again, so the result may differ in its last bit from the double
  nearest to the decimal.  Powers above `10 ^ 308` have no double: a larger exponent has no reading
  unless the significand is zero, and a smaller one is taken off in two divisions, the second of which
  leaves zero whenever a third would be needed.
-/
import FragmentGraph.Numeric.Binary

namespace FragmentGraph.Numeric.Scientific

/-- Largest exponent whose power of ten is a finite double. -/
def maxPower : Nat := 308

/-- Magnitude of the double nearest to `10 ^ k`. -/
def powerOfTen (k : Nat) : Nat := Format.double.round (tenPow k) 1

/-- Magnitude of the quotient by `10 ^ k`. -/
def lower (magnitude k : Nat) : Nat := Format.double.div magnitude (powerOfTen k)

/-- Magnitude of the product by `10 ^ k`, if it is finite. -/
def raise? (magnitude k : Nat) : Option Nat :=
  let product := Format.double.mul magnitude (powerOfTen k)
  if product < Format.double.infinity then some product else none

/-- Magnitude that `significand * 10 ^ exponent` reads as, or none if it is too large. -/
def magnitude? (significand : Nat) (exponent : Int) : Option Nat :=
  let start := Format.double.round significand 1
  if 0 ≤ exponent then
    if exponent ≤ maxPower then raise? start exponent.toNat
    else if start = 0 then some 0
    else none
  else
    let places := exponent.natAbs
    if places ≤ maxPower then some (lower start places)
    else if places ≤ 2 * maxPower then some (lower (lower start maxPower) (places - maxPower))
    else some 0

end FragmentGraph.Numeric.Scientific
