/-
  Graph documents: what an editor saves.

  A document lists nodes and links as they were entered, whether or not they fit together.  As JSON it
  is an object with the keys `version`, `nodes` and `connections`; `Document.render` writes it in the
  compact form with sorted keys.
-/
import FragmentGraph.Json.Printer
import FragmentGraph.Wiring.Index

namespace FragmentGraph

open Json

/-- A node as a document lists it. -/
structure Entry where
  id : NodeId
  /-- Name of the kind. -/
  type : String
  params : Members

/-- A saved graph. -/
structure Document where
  version : Option String
  entries : List Entry
  links : List Link

/-- A natural number as a JSON value. -/
def natValue (n : Nat) : Value := .number (.int n)

def Socket.value (s : Socket) : Value :=
  .object [("node", natValue s.node.toNat), ("port", natValue s.port.toNat)]

def Link.value (l : Link) : Value := .object [("from", l.source.value), ("to", l.target.value)]

def Entry.value (e : Entry) : Value :=
  .object [("id", natValue e.id.toNat), ("params", .object e.params), ("type", .text e.type)]

namespace Document

/-- The document as a JSON value. -/
def value (d : Document) : Value :=
  .object
    [("connections", .array (d.links.map Link.value)),
     ("nodes", .array (d.entries.map Entry.value)),
     ("version", match d.version with
                 | some v => .text v
                 | none => .null)]

/-- The compact text of the document. -/
def render (d : Document) : String := d.value.render

end Document

end FragmentGraph
