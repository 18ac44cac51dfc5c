/-
  Number literals of JSON and the numbers they are read as.

  A `Numeral` keeps the spelling: sign, digits before and behind the point, exponent.  `ofChars?` accepts
  exactly the grammar: no leading zeros, at least one digit everywhere.

  A numeral without point and exponent that fits 64 bits, signed if it is negative, is read as an
  integer; every other one, `-0` included, as a double.  For a double the digits go into a 64-bit
  significand as long as they fit: digits of the whole part that no longer fit count in the exponent,
  digits of the fraction that no longer fit are dropped.
-/
import FragmentGraph.Numeric.Scientific

namespace FragmentGraph.Json

open Numeric (Double)

/-! ## Spelling -/

/-- The exponent of a numeral. -/
structure Exponent where
  negative : Bool
  digits : List Char
deriving DecidableEq, Repr

/-- A number as it is spelled.  An empty `fraction` stands for no point at all. -/
structure Numeral where
  negative : Bool
  whole : List Char
  fraction : List Char
  exponent : Option Exponent
deriving DecidableEq, Repr

namespace Exponent

/-- Reads what stands behind the exponent mark. -/
def ofChars? (cs : List Char) : Option Exponent :=
  let (negative, digits) :=
    match cs with
    | '-' :: rest => (true, rest)
    | '+' :: rest => (false, rest)
    | _ => (false, cs)
  if !digits.isEmpty && digits.all Char.isDigit then some ⟨negative, digits⟩ else none

end Exponent

namespace Numeral

/-- Digits before the point: a lone zero, or digits that do not start with one. -/
def wholeOk : List Char → Bool
  | [] => false
  | [c] => c.isDigit
  | c :: rest => c.isDigit && c != '0' && rest.all Char.isDigit

/-- Splits the text behind the whole part into fraction digits and the rest, or refuses a point
    without digits. -/
def splitFraction? (cs : List Char) : Option (List Char × List Char) :=
  match cs with
  | '.' :: rest =>
    let digits := rest.takeWhile Char.isDigit
    if digits.isEmpty then none else some (digits, rest.dropWhile Char.isDigit)
  | _ => some ([], cs)

/-- Reads the text behind the fraction: nothing, or an exponent. -/
def splitExponent? (cs : List Char) : Option (Option Exponent) :=
  match cs with
  | [] => some none
  | c :: rest => if c = 'e' ∨ c = 'E' then (Exponent.ofChars? rest).map some else none

/-- Reads a numeral that takes up the whole text. -/
def ofChars? (cs : List Char) : Option Numeral := do
  let (negative, unsigned) :=
    match cs with
    | '-' :: rest => (true, rest)
    | _ => (false, cs)
  let whole := unsigned.takeWhile Char.isDigit
  if !wholeOk whole then none
  let (fraction, rest) ← splitFraction? (unsigned.dropWhile Char.isDigit)
  let exponent ← splitExponent? rest
  return ⟨negative, whole, fraction, exponent⟩

end Numeral

/-! ## Reading -/

/-- A number of JSON: an integer of 64 bits or a finite double. -/
inductive Number where
  | int (i : Int)
  | float (x : Double)
deriving DecidableEq, Repr

/-- The value of a decimal digit. -/
def digitValue (c : Char) : Nat := c.toNat - '0'.toNat

/-- The natural that digits spell. -/
def digitsValue (cs : List Char) : Nat :=
  cs.foldl (fun n c => n * 10 + digitValue c) 0

/-- Takes digits into a significand while it stays below `2 ^ 64`.  Gives the significand and the
    count of digits left out. -/
def absorb (significand : Nat) : List Char → Nat × Nat
  | [] => (significand, 0)
  | c :: rest =>
    let next := significand * 10 + digitValue c
    if next < 0x10000000000000000 then absorb next rest else (significand, rest.length + 1)

namespace Numeral

/-- Value of the exponent part; zero where there is none. -/
def exponentValue (n : Numeral) : Int :=
  match n.exponent with
  | none => 0
  | some e => if e.negative then -(digitsValue e.digits : Int) else digitsValue e.digits

/-- The numeral as a double, or none if it is too large for one. -/
def double? (n : Numeral) : Option Double :=
  let (head, skipped) := absorb 0 n.whole
  let (significand, dropped) := absorb head n.fraction
  let exponent : Int := n.exponentValue + skipped - (n.fraction.length - dropped : Nat)
  (Numeric.Scientific.magnitude? significand exponent).map (Double.ofParts n.negative)

/-- The integer that the numeral spells, if it is spelled as one and fits 64 bits. -/
def int? (n : Numeral) : Option Int :=
  if n.fraction.isEmpty && n.exponent.isNone then
    let size := digitsValue n.whole
    if n.negative then
      if 0 < size ∧ size ≤ 0x8000000000000000 then some (-size) else none
    else if size < 0x10000000000000000 then some size
    else none
  else none

/-- The number that the numeral is read as, or none if it is too large for a double. -/
def number? (n : Numeral) : Option Number :=
  match n.int? with
  | some i => some (.int i)
  | none => n.double?.map .float

end Numeral

end FragmentGraph.Json
