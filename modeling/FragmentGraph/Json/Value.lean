/-
  JSON values as a program keeps them.

  The members of an object are sorted by key and no key occurs twice; `Members.insert` keeps that, and a
  repeated key keeps its last value.  `Tree.value?` turns a tree into a value.  It refuses numbers too
  large for a double, strings without a text, and nesting deeper than a given limit.
-/
import FragmentGraph.Json.Tree

namespace FragmentGraph.Json

/-- A JSON value. -/
inductive Value where
  | null
  | bool (b : Bool)
  | number (n : Number)
  | text (s : String)
  | array (items : List Value)
  | object (members : List (String × Value))

/-- The members of an object, sorted by key. -/
abbrev Members := List (String × Value)

namespace Members

/-- Sets the value of a key. -/
def insert (key : String) (value : Value) : Members → Members
  | [] => [(key, value)]
  | member :: rest =>
    if key < member.1 then (key, value) :: member :: rest
    else if key = member.1 then (key, value) :: rest
    else member :: insert key value rest

/-- The value of a key. -/
def get? (members : Members) (key : String) : Option Value :=
  (members.find? fun member => member.1 = key).map Prod.snd

/-- The members in a list, a later one replacing an earlier one of the same key. -/
def ofList (members : List (String × Value)) : Members :=
  members.foldl (fun sorted member => sorted.insert member.1 member.2) []

end Members

namespace Tree

mutual

/-- The value of a tree that nests at most `depth` containers. -/
def value? (depth : Nat) : Tree → Option Value
  | .null => some .null
  | .bool b => some (.bool b)
  | .numeral n => n.number?.map .number
  | .text content => content.map .text
  | .array items =>
    match depth with
    | 0 => none
    | depth + 1 => (values? depth items).map .array
  | .object members =>
    match depth with
    | 0 => none
    | depth + 1 => (pairs? depth members).map fun pairs => .object (Members.ofList pairs)

/-- The values of trees, if all have one. -/
def values? (depth : Nat) : List Tree → Option (List Value)
  | [] => some []
  | item :: rest => do
    let value ← value? depth item
    let values ← values? depth rest
    return value :: values

/-- The keys and values of members, if all have one. -/
def pairs? (depth : Nat) : List (Option String × Tree) → Option (List (String × Value))
  | [] => some []
  | (key, item) :: rest => do
    let key ← key
    let value ← value? depth item
    let pairs ← pairs? depth rest
    return (key, value) :: pairs

end

end Tree

end FragmentGraph.Json
