/-
  A text in double quotes, as diagnostics show it.

  Tab, line feed, carriage return and NUL have short escapes, the quote and the backslash are escaped by
  a backslash, and every other character that cannot be read on its own (`isInvisible`) is written by
  its number in hexadecimal.
-/
import FragmentGraph.Text.Invisible

namespace FragmentGraph.Text

/-- The character by its number: a backslash, the letter u and the hexadecimal digits in braces. -/
def byNumber (c : Char) : List Char :=
  ['\\', 'u', '\x7b'] ++ Nat.toDigits 16 c.toNat ++ ['\x7d']

/-- How one character stands inside quotes. -/
def quotedChar (c : Char) : List Char :=
  if c = '\x00' then ['\\', '0']
  else if c = '\t' then ['\\', 't']
  else if c = '\n' then ['\\', 'n']
  else if c = '\r' then ['\\', 'r']
  else if c = '"' then ['\\', '"']
  else if c = '\\' then ['\\', '\\']
  else if isInvisible c then byNumber c
  else [c]

/-- The text in quotes. -/
def quoted (s : String) : String :=
  String.ofList ('"' :: s.toList.flatMap quotedChar ++ ['"'])

end FragmentGraph.Text
