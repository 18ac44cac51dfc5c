/-
  Reading members of the parameter types from JSON values, and what can be wrong with a value.

  A named member is given by its word, or by an object whose only key is the word and whose value is
  null.  A float takes integers and doubles; integers must be in range.  A vector is an array of as many
  floats as it has components; its items are read in order before their number is judged.
-/
import FragmentGraph.Json.Printer
import FragmentGraph.Text.Quoted
import FragmentGraph.Named

namespace FragmentGraph.Json

open Numeric (Single decimal signedDecimal)

/-- What a value was expected to be. -/
inductive Shape where
  | name
  | nothing
  | float
  | int
  | uint
  | truth
  | floats (count : Nat)
  | fewerItems
deriving DecidableEq, Repr

def Shape.text : Shape → String
  | name => "string or map"
  | nothing => "unit"
  | float => "f32"
  | int => "i32"
  | uint => "u32"
  | truth => "a boolean"
  | floats count => "an array of length " ++ decimal count
  | fewerItems => "fewer elements in array"

/-- Why a value cannot be read. -/
inductive Mismatch where
  /-- No member has this word; the known words follow. -/
  | unknownName (word : String) (known : List String)
  /-- An object with no key, or with several, where one names a member. -/
  | keyCount
  /-- A value of another type. -/
  | wrongType (found : Value) (expected : Shape)
  /-- An integer out of range. -/
  | outOfRange (found : Int) (expected : Shape)
  /-- An array with too few or too many items. -/
  | wrongLength (found : Nat) (expected : Shape)

/-- A short description of a value. -/
def Value.describe : Value → String
  | .null => "null"
  | .bool b => "boolean `" ++ (if b then "true" else "false") ++ "`"
  | .number (.int i) => "integer `" ++ signedDecimal i ++ "`"
  | .number (.float x) => "floating point `" ++ layout.text x ++ "`"
  | .text s => "string " ++ Text.quoted s
  | .array _ => "sequence"
  | .object _ => "map"

/-- The known words, each in backticks. -/
def listing (words : List String) : String :=
  let ticked := words.map fun w => "`" ++ w ++ "`"
  match ticked with
  | [a, b] => a ++ " or " ++ b
  | _ => "one of " ++ ", ".intercalate ticked

def Mismatch.message : Mismatch → String
  | unknownName word known => "unknown variant `" ++ word ++ "`, expected " ++ listing known
  | keyCount => "invalid value: map, expected map with a single key"
  | wrongType found expected => "invalid type: " ++ found.describe ++ ", expected " ++ expected.text
  | outOfRange found expected =>
    "invalid value: integer `" ++ signedDecimal found ++ "`, expected " ++ expected.text
  | wrongLength found expected =>
    "invalid length " ++ decimal found ++ ", expected " ++ expected.text

/-! ## Readers -/

/-- The member with a given word. -/
def readWord {α : Type} [Named α] (word : String) : Except Mismatch α :=
  match Named.find? word with
  | some a => .ok a
  | none => .error (.unknownName word (Named.names α))

/-- A named member. -/
def readNamed {α : Type} [Named α] : Value → Except Mismatch α
  | .text word => readWord word
  | .object [(word, content)] => do
    let a ← readWord word
    match content with
    | .null => .ok a
    | content => .error (.wrongType content .nothing)
  | .object _ => .error .keyCount
  | v => .error (.wrongType v .name)

/-- A float. -/
def readSingle : Value → Except Mismatch Single
  | .number (.int i) => .ok (Single.ofInt i)
  | .number (.float x) => .ok x.toSingle
  | v => .error (.wrongType v .float)

/-- A signed integer of 32 bits. -/
def readInt : Value → Except Mismatch Int32
  | .number (.int i) =>
    if -0x80000000 ≤ i ∧ i < 0x80000000 then .ok (Int32.ofInt i) else .error (.outOfRange i .int)
  | v => .error (.wrongType v .int)

/-- An unsigned integer of 32 bits. -/
def readUInt : Value → Except Mismatch UInt32
  | .number (.int i) =>
    if 0 ≤ i ∧ i < 0x100000000 then .ok (UInt32.ofNat i.toNat) else .error (.outOfRange i .uint)
  | v => .error (.wrongType v .uint)

/-- A truth value. -/
def readBool : Value → Except Mismatch Bool
  | .bool b => .ok b
  | v => .error (.wrongType v .truth)

/-- Exactly `count` floats. -/
def readSingles (count : Nat) : Value → Except Mismatch (List Single)
  | .array items => do
    let parts ← (items.take count).mapM readSingle
    if items.length < count then .error (.wrongLength items.length (.floats count))
    else if count < items.length then .error (.wrongLength items.length .fewerItems)
    else .ok parts
  | v => .error (.wrongType v (.floats count))

end FragmentGraph.Json
