/-
  Values as compact JSON text: no white space, members in the order of their keys.

  Integers are written plainly.  A double has the shortest digits that read back, positional from 1e-5
  up to below 1e16 and scientific outside.  In strings the quote, the backslash and the characters below
  U+0020 are escaped and nothing else.
-/
import FragmentGraph.Json.Value
import FragmentGraph.Numeric.Shortest

namespace FragmentGraph.Json

open Numeric (Layout decimal signedDecimal padded)

/-- Doubles are positional while the exponent of the first digit is from -5 to 15. -/
def layout : Layout := ⟨-5, 15⟩

namespace Number

/-- Text of a number. -/
def render : Number → String
  | .int i => signedDecimal i
  | .float x => layout.text x

end Number

/-- A control character by its four hexadecimal digits. -/
def controlEscape (c : Char) : List Char :=
  let digits := Nat.toDigits 16 c.toNat
  ['\\', 'u'] ++ List.replicate (4 - digits.length) '0' ++ digits

/-- How one character stands in a string. -/
def escaped (c : Char) : List Char :=
  if c = '"' then ['\\', '"']
  else if c = '\\' then ['\\', '\\']
  else if c = '\x08' then ['\\', 'b']
  else if c = '\t' then ['\\', 't']
  else if c = '\n' then ['\\', 'n']
  else if c = '\x0c' then ['\\', 'f']
  else if c = '\r' then ['\\', 'r']
  else if c < ' ' then controlEscape c
  else [c]

/-- A string in quotes. -/
def renderText (s : String) : String :=
  String.ofList ('"' :: s.toList.flatMap escaped ++ ['"'])

namespace Value

mutual

/-- Text of a value. -/
def render : Value → String
  | .null => "null"
  | .bool b => if b then "true" else "false"
  | .number n => n.render
  | .text s => renderText s
  | .array items => "[" ++ ",".intercalate (renderItems items) ++ "]"
  | .object members => "\x7b" ++ ",".intercalate (renderMembers members) ++ "\x7d"

/-- Texts of the items of an array. -/
def renderItems : List Value → List String
  | [] => []
  | item :: rest => render item :: renderItems rest

/-- Texts of the members of an object. -/
def renderMembers : List (String × Value) → List String
  | [] => []
  | (key, value) :: rest => (renderText key ++ ":" ++ render value) :: renderMembers rest

end

end Value

end FragmentGraph.Json
