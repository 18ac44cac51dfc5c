/-
  Decimal texts of naturals and of numbers with a fixed count of places.

  `fixed x` writes the exact value of a `Single` rounded once to five places, a half going to the even
  neighbour.  The sign bit is always shown, so negative zero and what rounds to it are `-0.00000`;
  infinities and NaNs, which have no digits, are written as zero.
-/
import FragmentGraph.Numeric.Binary

namespace FragmentGraph.Numeric

/-- Decimal digits of `n`, without leading zeros. -/
def decimal (n : Nat) : String := String.ofList (Nat.toDigits 10 n)

/-- Decimal digits of `n` behind as many zeros as make `width` characters. -/
def padded (width n : Nat) : String :=
  let digits := Nat.toDigits 10 n
  String.ofList (List.replicate (width - digits.length) '0' ++ digits)

/-- Decimal digits of an integer behind a minus sign if it is negative. -/
def signedDecimal (i : Int) : String :=
  if i < 0 then "-" ++ decimal i.natAbs else decimal i.natAbs

namespace Single

/-- Places behind the point in a float literal. -/
def places : Nat := 5

/-- The multiple of `10 ^ -places` nearest to the exact absolute value. -/
def hundredThousandths (x : Single) : Nat :=
  roundDiv (x.mantissa * tenPow places * twoPow x.exponent.toNat) (twoPow (-x.exponent).toNat)

/-- The number with five places. -/
def fixed (x : Single) : String :=
  if x.isFinite then
    let units := x.hundredThousandths
    (if x.negative then "-" else "") ++ decimal (units / tenPow places) ++ "."
      ++ padded places (units % tenPow places)
  else "0.00000"

end Single

end FragmentGraph.Numeric
