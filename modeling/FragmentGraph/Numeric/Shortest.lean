/-
  The shortest decimal that reads back as a given double.

  A decimal `digits * 10 ^ scale` READS BACK as `x` if `Format.round` takes it to `x`'s magnitude.
  `shortest x` tries 1, 2, … 17 digits: on each grid it looks at the two neighbours of the exact value,
  and the first grid with a hit wins; of two hits the nearer is taken, of two equally near ones the
  even one.  Seventeen digits always read back.

  `Layout` says how the digits are laid out: which leading exponents are written positionally.
-/
import FragmentGraph.Numeric.Fixed

namespace FragmentGraph.Numeric

/-- The number `digits * 10 ^ scale`. -/
structure Decimal where
  digits : Nat
  scale : Int
deriving DecidableEq, Repr

namespace Decimal

/-- Magnitude of the double nearest to the decimal. -/
def magnitude (d : Decimal) : Nat :=
  Format.double.round (d.digits * tenPow d.scale.toNat) (tenPow (-d.scale).toNat)

/-- Trailing zeros moved into the scale; `count` bounds how many. -/
def trim : Nat → Decimal → Decimal
  | 0, d => d
  | count + 1, d =>
    if d.digits % 10 = 0 then trim count ⟨d.digits / 10, d.scale + 1⟩ else d

end Decimal

namespace Double

/-- A power of ten that lifts every positive double above one. -/
def lift : Nat := 400

/-- Floor of the decimal logarithm of a positive magnitude. -/
def decimalExponent (x : Double) : Int :=
  let lifted := x.mantissa * tenPow lift * twoPow x.exponent.toNat / twoPow (-x.exponent).toNat
  ((Nat.toDigits 10 lifted).length : Int) - 1 - lift

/-- The neighbour of `x` on the grid of `count` digits that reads back, if there is one. -/
def onGrid (x : Double) (count : Nat) : Option Decimal :=
  let scale := x.decimalExponent - count + 1
  let num := x.mantissa * twoPow x.exponent.toNat * tenPow (-scale).toNat
  let den := twoPow (-x.exponent).toNat * tenPow scale.toNat
  let near : Decimal := ⟨roundDiv num den, scale⟩
  let far : Decimal := ⟨if near.digits = num / den then num / den + 1 else num / den, scale⟩
  if near.magnitude = x.magnitude then some near
  else if far.magnitude = x.magnitude then some far
  else none

/-- The shortest decimal that reads back as the positive finite `x`. -/
def shortest (x : Double) : Decimal :=
  let found := (List.range 17).findSome? fun count => x.onGrid (count + 1)
  (found.getD ⟨0, 0⟩).trim 17

end Double

/-! ## Layout -/

/-- Where positional notation ends: the exponents of the first digit that are still written so. -/
structure Layout where
  first : Int
  last : Int

/-- Zeros in a row. -/
def zeros (n : Nat) : String := String.ofList (List.replicate n '0')

/-- The digits with a point behind the first `whole` of them. -/
def pointed (digits : List Char) (whole : Nat) : String :=
  String.ofList (digits.take whole ++ '.' :: digits.drop whole)

namespace Layout

/-- Positional text, with at least one digit on either side of the point. -/
def positional (digits : List Char) (exponent : Int) : String :=
  if exponent < 0 then "0." ++ zeros (-exponent - 1).toNat ++ String.ofList digits
  else if digits.length ≤ exponent.toNat + 1 then
    String.ofList digits ++ zeros (exponent.toNat + 1 - digits.length) ++ ".0"
  else pointed digits (exponent.toNat + 1)

/-- One digit, the others behind a point, and the exponent with its sign. -/
def scientific (digits : List Char) (exponent : Int) : String :=
  (if digits.length ≤ 1 then String.ofList digits else pointed digits 1)
    ++ "e" ++ (if exponent < 0 then "-" else "+") ++ decimal exponent.natAbs

/-- Text of a finite double. -/
def text (layout : Layout) (x : Double) : String :=
  let sign := if x.negative then "-" else ""
  if x.magnitude = 0 then sign ++ "0.0"
  else
    let d := x.shortest
    let digits := Nat.toDigits 10 d.digits
    let exponent := d.scale + digits.length - 1
    if layout.first ≤ exponent ∧ exponent ≤ layout.last then sign ++ positional digits exponent
    else sign ++ scientific digits exponent

end Layout

end FragmentGraph.Numeric
