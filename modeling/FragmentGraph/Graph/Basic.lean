/-
  Graphs of nodes, and their edits.

  A graph always has the output node at id 0 and no other node of that kind.  An edit that would break
  this, or that names a node or port that is not there, is refused and changes nothing.
-/
import FragmentGraph.Shader.Compile

namespace FragmentGraph

open Std (ExtTreeMap)

/-- Nodes and the links between them. -/
structure Graph where
  nodes : Nodes
  wiring : Wiring

namespace Graph

/-- The graph with nothing but the output node. -/
def new : Graph := ⟨(∅ : Nodes).insert outputId ⟨outputId, .output⟩, .empty⟩

/-- The node with the given id. -/
def node? (g : Graph) (id : NodeId) : Option Node := g.nodes[id]?

/-- Adds a node. -/
def addNode (g : Graph) (id : NodeId) (kind : Kind) : Except EditError Graph :=
  if id = outputId ∨ kind = .output then .error .reservedId
  else if (g.node? id).isSome then .error (.duplicateNode id)
  else .ok { g with nodes := g.nodes.insert id ⟨id, kind⟩ }

/-- Removes a node with all its links.  Gives the node as well. -/
def removeNode (g : Graph) (id : NodeId) : Except EditError (Node × Graph) :=
  if id = outputId then .error .outputRemoval
  else match g.node? id with
    | none => .error (.unknownNode id)
    | some node => .ok (node, ⟨g.nodes.erase id, g.wiring.removeNode id⟩)

/-- What is wrong with a link, if anything: its nodes, then its ports, then their types. -/
def linkError? (g : Graph) (l : Link) : Option EditError :=
  match g.node? l.source.node, g.node? l.target.node with
  | none, _ => some (.unknownNode l.source.node)
  | some _, none => some (.unknownNode l.target.node)
  | some source, some target =>
    match source.kind.outputs[l.source.port.toNat]?, target.kind.inputs[l.target.port.toNat]? with
    | none, _ => some (.noSuchOutput l.source)
    | some _, none => some (.noSuchInput l.target)
    | some sourceTy, some targetTy =>
      if targetTy.accepts sourceTy then none else some (.incompatibleTypes sourceTy targetTy)

/-- Makes a link in place of the one that fed its target.  Gives that one as well. -/
def connect (g : Graph) (l : Link) : Except EditError (Option Link × Graph) :=
  match g.linkError? l with
  | some e => .error e
  | none =>
    let (displaced, wiring) := g.wiring.exchange l
    .ok (displaced, { g with wiring })

/-- Removes the link that feeds an input.  Gives the link as well. -/
def disconnect (g : Graph) (target : Socket) : Option Link × Graph :=
  let (removed, wiring) := g.wiring.extract target
  (removed, { g with wiring })

/-- What the graph's shaders are compiled from: every node with the emitter of its kind. -/
def circuit (g : Graph) : Circuit := ⟨g.nodes, g.nodes.emitters, g.wiring⟩

/-- The shader of the graph. -/
def compile (g : Graph) : Logged (Except ShaderError String) := g.circuit.compile

/-- The shader that shows an output socket. -/
def preview (g : Graph) (s : Socket) : Logged (Except ShaderError String) := g.circuit.preview s

end Graph

end FragmentGraph
