/-
  Binary floating-point numbers as bit patterns, with exact arithmetic on what they denote.

  A `Format` has `fractionBits` stored fraction bits and `exponentBits` exponent bits.  The MAGNITUDE
  of a number is its pattern without the sign bit.  Magnitudes below `Format.infinity` are finite and
  denote `mantissa * 2 ^ exponent`; their order as naturals is the order of the values they denote,
  and the next natural is the next value up, also across a change of exponent.  So rounding needs no
  case for a carry: `Format.round` scales the quotient to the spacing of the result's binade, rounds
  it once, and adds the spacing's index times `2 ^ fractionBits`.

  `Single` has 32 bits and `Double` 64.  No operation below goes through machine floating point.
-/
import FragmentGraph.Numeric.Rounding

namespace FragmentGraph.Numeric

/-! ## Formats and magnitudes -/

/-- Widths of the fraction and exponent fields of a binary format. -/
structure Format where
  fractionBits : Nat
  exponentBits : Nat

namespace Format

def single : Format := ⟨23, 8⟩

def double : Format := ⟨52, 11⟩

/-- Exponent of the smallest spacing: subnormal numbers are multiples of `2 ^ minExponent`. -/
def minExponent (f : Format) : Int :=
  2 - (twoPow (f.exponentBits - 1) : Nat) - f.fractionBits

/-- The first magnitude that is not finite. -/
def infinity (f : Format) : Nat :=
  (twoPow f.exponentBits - 1) * twoPow f.fractionBits

/-- Integer significand of a finite magnitude. -/
def mantissa (f : Format) (magnitude : Nat) : Nat :=
  let fraction := magnitude % twoPow f.fractionBits
  if magnitude / twoPow f.fractionBits = 0 then fraction else twoPow f.fractionBits + fraction

/-- Exponent that goes with `mantissa`. -/
def exponent (f : Format) (magnitude : Nat) : Int :=
  f.minExponent + (magnitude / twoPow f.fractionBits - 1 : Nat)

/-- Floor of the binary logarithm of `num / den`, for positive `num` and `den`. -/
def logRatio (num den : Nat) : Int :=
  let guess : Int := (num.log2 : Int) - den.log2
  if num * twoPow (-guess).toNat < den * twoPow guess.toNat then guess - 1 else guess

/-- Magnitude nearest to `num / den`, a half going to the even one; `infinity` from half a spacing
    above the largest finite number on. -/
def round (f : Format) (num den : Nat) : Nat :=
  if num = 0 then 0
  else
    let spacing := max (logRatio num den - f.fractionBits) f.minExponent
    let steps := roundDiv (num * twoPow (-spacing).toNat) (den * twoPow spacing.toNat)
    min (steps + (spacing - f.minExponent).toNat * twoPow f.fractionBits) f.infinity

/-- Magnitude nearest to `num * 2 ^ scale / den`. -/
def roundScaled (f : Format) (num den : Nat) (scale : Int) : Nat :=
  f.round (num * twoPow scale.toNat) (den * twoPow (-scale).toNat)

/-- Product of two finite magnitudes, rounded once. -/
def mul (f : Format) (a b : Nat) : Nat :=
  f.roundScaled (f.mantissa a * f.mantissa b) 1 (f.exponent a + f.exponent b)

/-- Quotient of two finite magnitudes, rounded once; the divisor is not zero. -/
def div (f : Format) (a b : Nat) : Nat :=
  f.roundScaled (f.mantissa a) (f.mantissa b) (f.exponent a - f.exponent b)

end Format

/-! ## Thirty-two bits -/

/-- A number of the 32-bit format, by its bit pattern. -/
structure Single where
  bits : UInt32
deriving DecidableEq, Repr

namespace Single

def negative (x : Single) : Bool := decide (0x80000000 ≤ x.bits.toNat)

def magnitude (x : Single) : Nat := x.bits.toNat % 0x80000000

def ofParts (negative : Bool) (magnitude : Nat) : Single :=
  ⟨UInt32.ofNat (if negative then 0x80000000 + magnitude else magnitude)⟩

/-- Neither an infinity nor a NaN. -/
def isFinite (x : Single) : Bool := decide (x.magnitude < Format.single.infinity)

def mantissa (x : Single) : Nat := Format.single.mantissa x.magnitude

def exponent (x : Single) : Int := Format.single.exponent x.magnitude

/-- Nearest single to an integer; one rounding. -/
def ofInt (i : Int) : Single :=
  ofParts (decide (i < 0)) (Format.single.round i.natAbs 1)

def zero : Single := ⟨0⟩

end Single

/-! ## Sixty-four bits -/

/-- A number of the 64-bit format, by its bit pattern. -/
structure Double where
  bits : UInt64
deriving DecidableEq, Repr

namespace Double

def negative (x : Double) : Bool := decide (0x8000000000000000 ≤ x.bits.toNat)

def magnitude (x : Double) : Nat := x.bits.toNat % 0x8000000000000000

def ofParts (negative : Bool) (magnitude : Nat) : Double :=
  ⟨UInt64.ofNat (if negative then 0x8000000000000000 + magnitude else magnitude)⟩

def mantissa (x : Double) : Nat := Format.double.mantissa x.magnitude

def exponent (x : Double) : Int := Format.double.exponent x.magnitude

/-- Nearest single to a finite double; out of range it is an infinity. -/
def toSingle (x : Double) : Single :=
  .ofParts x.negative (Format.single.roundScaled x.mantissa 1 x.exponent)

end Double

end FragmentGraph.Numeric
