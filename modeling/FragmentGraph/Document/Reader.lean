/-
  Documents from JSON texts.

  A record is an object with the record's fields under their names, or an array of the fields in order.
  In an object, keys that are not fields are passed over with whatever they hold, and no field may occur
  twice.  An array may leave out fields at its end and must not be longer than the record.  Either way
  some fields have to be there and others have a default.

  Only what is kept is read: see `Tree.value?` for what a kept value must be.
-/
import FragmentGraph.Document.Basic

namespace FragmentGraph

open Json

/-! ## Records -/

/-- The member under a name, if there is one; fails if there are several. -/
def uniqueMember? (members : List (String × Tree)) (name : String) : Option (Option Tree) :=
  match members.filter fun member => member.1 = name with
  | [] => some none
  | [member] => some (some member.2)
  | _ => none

/-- A member whose key is a text. -/
def keyed? (member : Option String × Tree) : Option (String × Tree) :=
  member.1.map fun key => (key, member.2)

/-- The fields of a record, in the order of `names`; none where a field is left out. -/
def fields? (names : List String) : Tree → Option (List (Option Tree))
  | .array items =>
    if items.length ≤ names.length then some ((List.range names.length).map fun i => items[i]?)
    else none
  | .object members => do
    let members ← members.mapM keyed?
    names.mapM (uniqueMember? members)
  | _ => none

/-! ## Parts of a document -/

/-- An unsigned integer of 32 bits. -/
def word? : Tree → Option UInt32
  | .numeral n =>
    match n.number? with
    | some (.int i) => if 0 ≤ i ∧ i < 0x100000000 then some (UInt32.ofNat i.toNat) else none
    | _ => none
  | _ => none

/-- A text. -/
def text? : Tree → Option String
  | .text content => content
  | _ => none

/-- A text or null. -/
def optionalText? : Tree → Option (Option String)
  | .null => some none
  | t => (text? t).map some

/-- The items of an array, each read by `read`. -/
def list? {α : Type} (read : Tree → Option α) : Tree → Option (List α)
  | .array items => items.mapM read
  | _ => none

def Socket.ofTree? (t : Tree) : Option Socket := do
  match ← fields? ["node", "port"] t with
  | [some node, some port] => return ⟨← word? node, ← word? port⟩
  | _ => none

def Link.ofTree? (t : Tree) : Option Link := do
  match ← fields? ["from", "to"] t with
  | [some source, some target] => return ⟨← Socket.ofTree? source, ← Socket.ofTree? target⟩
  | _ => none

/-- Containers that a document may nest in what it keeps. -/
def maxDepth : Nat := 127

/-- Containers around the value of a parameter: the document, its list of nodes, the node, and the
    node's parameters. -/
def paramDepth : Nat := 4

/-- The parameters of a node. -/
def params? : Tree → Option Members
  | .object members => (Tree.pairs? (maxDepth - paramDepth) members).map Members.ofList
  | _ => none

def Entry.ofTree? (t : Tree) : Option Entry := do
  match ← fields? ["id", "type", "params"] t with
  | [some id, some type, params] =>
    let id ← word? id
    let type ← text? type
    let params ← (match params with
      | some params => params? params
      | none => some [])
    return ⟨id, type, params⟩
  | _ => none

namespace Document

def ofTree? (t : Tree) : Option Document := do
  match ← fields? ["version", "nodes", "connections"] t with
  | [version, some entries, links] =>
    let version ← (match version with
      | some version => optionalText? version
      | none => some none)
    let entries ← list? Entry.ofTree? entries
    let links ← (match links with
      | some links => list? Link.ofTree? links
      | none => some [])
    return ⟨version, entries, links⟩
  | _ => none

/-- The document that a text spells. -/
def parse? (text : String) : Option Document := do
  ofTree? (← Tree.parse? text)

end Document

end FragmentGraph
