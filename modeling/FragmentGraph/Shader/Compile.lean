/-
  Shaders of circuits: the whole circuit from its output node, or a preview of one output socket.
-/
import FragmentGraph.Shader.Walk
import FragmentGraph.Shader.Program
import FragmentGraph.Shader.Error
import FragmentGraph.Notice

namespace FragmentGraph

open Glsl

namespace Circuit

/-- The notice that a walk gives when it emits a node. -/
def notice (c : Circuit) (id : NodeId) : Notice :=
  match c.emitters[id]? with
  | some e => .emitting e.name id
  | none => .noEmitter id

/-- The sections of the nodes that a walk from `root` emits. -/
def program (c : Circuit) (root : NodeId) : Except ShaderError Program :=
  let w := c.walk root
  match w.cycle with
  | some id => .error (.cyclic id)
  | none => .ok (.ofOrder c w.order)

/-- The notices of a walk from `root`. -/
def notices (c : Circuit) (root : NodeId) : List Notice := (c.walk root).order.map c.notice

/-- The circuit has an output node with an emitter. -/
def hasOutput (c : Circuit) : Bool :=
  (c.nodes[outputId]?.any fun node => node.kind = .output) && (c.emitters[outputId]?).isSome

/-- The shader that writes the colour of the output node. -/
def compile (c : Circuit) : Logged (Except ShaderError String) :=
  if c.hasOutput then
    ⟨(c.program outputId).map fun p => p.render "",
     .compiling c.nodes.size c.wiring.byTarget.size :: c.notices outputId⟩
  else ⟨.error .missingOutput, []⟩

/-- The type of the socket that a preview is to show. -/
def previewTy (c : Circuit) (s : Socket) : Except ShaderError Ty :=
  match c.nodes[s.node]?, c.emitters[s.node]? with
  | some _, some e =>
    match e.outputs[s.port.toNat]? with
    | some ty => .ok ty
    | none => .error (.noRootPort s)
  | _, _ => .error (.unknownRoot s.node)

/-- The end of a preview's main function. -/
def previewTail (s : Socket) (ty : Ty) : String := (previewStmt ty (Variable.value s).name).render

/-- The shader that shows the value of an output socket as the colour. -/
def preview (c : Circuit) (s : Socket) : Logged (Except ShaderError String) :=
  match c.previewTy s with
  | .error e => ⟨.error e, []⟩
  | .ok ty =>
    ⟨(c.program s.node).map fun p =>
       { p with deferred := share p.deferred colorDeclaration }.render (previewTail s ty),
     .previewing s ty :: c.notices s.node⟩

end Circuit

end FragmentGraph
