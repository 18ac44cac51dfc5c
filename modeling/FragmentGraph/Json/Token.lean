/-
  Tokens of JSON and the scanner that cuts a text into them.

  `Token.scan?` goes through the text one character at a time with a `Scanner` state: between tokens, in
  a word, in a number, or in a string.  It fails on a character that no token can have there.  Numbers
  are cut as the longest run of characters that numbers consist of; whether the run is a numeral is
  decided by `Numeral.ofChars?`.

  The content of a string is none when its escapes do not spell a text, that is when they leave half a
  surrogate pair.  Such a string is a token all the same: it may stand where nobody reads it.
-/
import FragmentGraph.Json.Numeral

namespace FragmentGraph.Json

/-- What a JSON text is made of. -/
inductive Token where
  | openArray
  | closeArray
  | openObject
  | closeObject
  | comma
  | colon
  | null
  | bool (b : Bool)
  | numeral (n : Numeral)
  | text (content : Option String)
deriving DecidableEq, Repr

/-! ## Strings -/

/-- A string read so far: its characters (last first), the leading half of a surrogate pair that waits
    for the other half, and whether a half has been left alone. -/
structure Draft where
  chars : List Char
  waiting : Option Nat
  broken : Bool

namespace Draft

def empty : Draft := ⟨[], none, false⟩

/-- Adds a character.  A half that waited is then alone. -/
def push (d : Draft) (c : Char) : Draft :=
  ⟨c :: d.chars, none, d.broken || d.waiting.isSome⟩

def isLeading (code : Nat) : Bool := 0xd800 ≤ code && code < 0xdc00

def isTrailing (code : Nat) : Bool := 0xdc00 ≤ code && code < 0xe000

/-- Adds the unit that a numeric escape spells. -/
def pushUnit (d : Draft) (code : Nat) : Draft :=
  match d.waiting with
  | some leading =>
    if isTrailing code then
      let joined := 0x10000 + (leading - 0xd800) * 0x400 + (code - 0xdc00)
      ⟨Char.ofNat joined :: d.chars, none, d.broken⟩
    else ⟨d.chars, none, true⟩
  | none =>
    if isLeading code then ⟨d.chars, some code, d.broken⟩
    else if isTrailing code then ⟨d.chars, none, true⟩
    else d.push (Char.ofNat code)

/-- The content of the finished string. -/
def content (d : Draft) : Option String :=
  if d.broken || d.waiting.isSome then none else some (String.ofList d.chars.reverse)

end Draft

/-- The character that a one-letter escape stands for. -/
def shortEscape : Char → Option Char
  | '"' => some '"'
  | '\\' => some '\\'
  | '/' => some '/'
  | 'b' => some '\x08'
  | 'f' => some '\x0c'
  | 'n' => some '\n'
  | 'r' => some '\r'
  | 't' => some '\t'
  | _ => none

/-- The value of a hexadecimal digit. -/
def hexValue (c : Char) : Option Nat :=
  if '0' ≤ c ∧ c ≤ '9' then some (c.toNat - '0'.toNat)
  else if 'a' ≤ c ∧ c ≤ 'f' then some (c.toNat - 'a'.toNat + 10)
  else if 'A' ≤ c ∧ c ≤ 'F' then some (c.toNat - 'A'.toNat + 10)
  else none

/-! ## Scanning -/

/-- Where the scanner is. -/
inductive Scanner where
  | gap
  | word (rest : List Char) (token : Token)
  | number (chars : List Char)
  | plain (draft : Draft)
  | escape (draft : Draft)
  | unit (draft : Draft) (left : Nat) (code : Nat)

/-- The character may stand in a number. -/
def isNumberChar (c : Char) : Bool :=
  c.isDigit || c == '-' || c == '+' || c == '.' || c == 'e' || c == 'E'

def isSpace (c : Char) : Bool :=
  c == ' ' || c == '\t' || c == '\n' || c == '\r'

namespace Scanner

/-- A character between tokens: the next state, and a token if the character is one by itself. -/
def start? (c : Char) : Option (Scanner × List Token) :=
  if isSpace c then some (gap, [])
  else if c.isDigit || c == '-' then some (number [c], [])
  else match c with
    | '[' => some (gap, [.openArray])
    | ']' => some (gap, [.closeArray])
    | '\x7b' => some (gap, [.openObject])
    | '\x7d' => some (gap, [.closeObject])
    | ',' => some (gap, [.comma])
    | ':' => some (gap, [.colon])
    | '"' => some (plain .empty, [])
    | 'n' => some (word ['u', 'l', 'l'] .null, [])
    | 't' => some (word ['r', 'u', 'e'] (.bool true), [])
    | 'f' => some (word ['a', 'l', 's', 'e'] (.bool false), [])
    | _ => none

/-- The numeral token of a finished number. -/
def finishNumber? (chars : List Char) : Option Token :=
  (Numeral.ofChars? chars.reverse).map .numeral

/-- One character: the next state and the tokens that end here. -/
def next? (c : Char) : Scanner → Option (Scanner × List Token)
  | gap => start? c
  | word rest token =>
    match rest with
    | [] => none
    | [d] => if c = d then some (gap, [token]) else none
    | d :: rest => if c = d then some (word rest token, []) else none
  | number chars =>
    if isNumberChar c then some (number (c :: chars), [])
    else do
      let token ← finishNumber? chars
      let (state, tokens) ← start? c
      return (state, token :: tokens)
  | plain draft =>
    if c = '"' then some (gap, [.text draft.content])
    else if c = '\\' then some (escape draft, [])
    else if c < ' ' then none
    else some (plain (draft.push c), [])
  | escape draft =>
    if c = 'u' then some (unit draft 4 0, [])
    else (shortEscape c).map fun e => (plain (draft.push e), [])
  | unit draft left code => do
    let digit ← hexValue c
    let code := code * 16 + digit
    return if left ≤ 1 then (plain (draft.pushUnit code), []) else (unit draft (left - 1) code, [])

/-- The tokens that end with the text: none but a number, and nothing else may be open. -/
def finish? : Scanner → Option (List Token)
  | gap => some []
  | number chars => (finishNumber? chars).map fun t => [t]
  | _ => none

/-- Scans the rest of a text; `done` holds the tokens so far, last first. -/
def run? (state : Scanner) (done : List Token) : List Char → Option (List Token)
  | [] => (state.finish?).map fun tokens => (tokens.reverse ++ done).reverse
  | c :: rest =>
    match state.next? c with
    | none => none
    | some (state, tokens) => run? state (tokens.reverse ++ done) rest

end Scanner

/-- The tokens of a text. -/
def Token.scan? (cs : List Char) : Option (List Token) :=
  Scanner.gap.run? [] cs

end FragmentGraph.Json
