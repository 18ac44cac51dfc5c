/-
  Graphs from documents.

  Entries are taken in order, then links in order.  An entry whose kind cannot be read or whose id is
  taken is skipped, and so is a link that does not fit the nodes; every skip gives a notice.  The output
  node is there from the start: its own entry is allowed and adds nothing.
-/
import FragmentGraph.Document.Reader
import FragmentGraph.Graph.Basic

namespace FragmentGraph

/-- The name of the output's kind. -/
def outputName : String := Kind.output.name

namespace Graph

/-- Takes an entry into the graph. -/
def addEntry (g : Graph) (e : Entry) : Logged Graph :=
  if e.id = outputId ∨ e.type = outputName then
    if e.id = outputId ∧ e.type = outputName then ⟨g, []⟩ else ⟨g, [.reserved e.id e.type]⟩
  else
    let notices := Notice.ofKind e.type e.params
    match Kind.read e.type e.params with
    | .error cause => ⟨g, notices ++ [.noKind e.id cause]⟩
    | .ok kind =>
      match g.addNode e.id kind with
      | .error cause => ⟨g, notices ++ [.noNode e.id cause]⟩
      | .ok g => ⟨g, notices⟩

/-- Takes a link into the graph. -/
def addLink (g : Graph) (l : Link) : Logged Graph :=
  match g.connect l with
  | .error cause => ⟨g, [.noLink l cause]⟩
  | .ok (_, g) => ⟨g, []⟩

end Graph

namespace Document

/-- The graph of a document. -/
def load (d : Document) : Logged Graph :=
  let nodes := Logged.foldl Graph.addEntry Graph.new d.entries
  let linked := Logged.foldl Graph.addLink nodes.result d.links
  ⟨linked.result, nodes.notices ++ linked.notices⟩

/-- What is said of a text that spells no document. -/
def parseFailure : String := "failed to parse shader graph json"

end Document

end FragmentGraph
