/-
  The text of a shader, assembled from the contributions of its nodes.

  The sections of a shader are the declarations, the code of single nodes, the helper functions, the
  declarations of the output (which stand right above the main function), and the blocks of the main
  function.  Declarations and helpers are SHARED: a text that already occurs in its section is not
  added again.

  The block of a node has a header, a declaration for every input that nothing feeds, and the node's
  statement.
-/
import FragmentGraph.Shader.Circuit

namespace FragmentGraph

open Glsl Numeric

/-! ## Shared texts -/

/-- Whether `part` stands somewhere in a text. -/
def occursIn (part : List Char) : List Char → Bool
  | [] => part.isEmpty
  | c :: rest => part.isPrefixOf (c :: rest) || occursIn part rest

/-- The section with a text added, unless the text is empty or occurs in it. -/
def share (known text : String) : String :=
  if text.isEmpty || occursIn text.toList known.toList then known else known ++ text

/-! ## Blocks -/

/-- What a node does in the main function. -/
structure Block where
  id : NodeId
  /-- Name of the node's kind. -/
  name : String
  /-- The variable of every input, with the input's type. -/
  operands : List (Ty × Variable)
  /-- The variable of every output. -/
  results : List Variable

namespace Variable

def isStandIn : Variable → Bool
  | standIn _ => true
  | value _ => false

end Variable

namespace Block

/-- The stand-ins that the block declares. -/
def standIns (b : Block) : List (Ty × Variable) := b.operands.filter fun o => o.2.isStandIn

/-- The line above the block. -/
def header (b : Block) : String := "// " ++ b.name ++ ":" ++ decimal b.id.toNat ++ "\n"

/-- The declarations of the stand-ins. -/
def defaults (b : Block) : String :=
  String.join (b.standIns.map fun o => (Stmt.declare o.1 o.2.name o.1.zero).render)

/-- The text of the block, from the statement that goes with the names of its variables. -/
def render (b : Block) (statement : List String → List String → String) : String :=
  b.header ++ b.defaults
    ++ statement (b.operands.map fun o => o.2.name) (b.results.map Variable.name) ++ "\n"

end Block

/-- The block of a node with the given emitter. -/
def Circuit.block (c : Circuit) (id : NodeId) (e : Emitter) : Block where
  id := id
  name := e.name
  operands := e.inputs.zipIdx.map fun input => (input.1, c.operand ⟨id, UInt32.ofNat input.2⟩)
  results := (List.range e.outputs.length).map fun j => .value ⟨id, UInt32.ofNat j⟩

/-! ## Sections -/

/-- The sections of a shader. -/
structure Program where
  declarations : String
  ownCode : String
  helpers : String
  deferred : String
  statements : String

namespace Program

def empty : Program := ⟨"", "", "", "", ""⟩

/-- Adds the contribution of a node; one without emitter has none.  The declarations of the output go
    to the deferred section. -/
def add (c : Circuit) (p : Program) (id : NodeId) : Program :=
  match c.emitters[id]? with
  | none => p
  | some e =>
    { declarations := if id = outputId then p.declarations else share p.declarations e.declarations
      ownCode := p.ownCode ++ e.ownCode
      helpers := share p.helpers e.helper
      deferred := if id = outputId then share p.deferred e.declarations else p.deferred
      statements := p.statements ++ (c.block id e).render e.statement }

/-- The contributions of nodes in order. -/
def ofOrder (c : Circuit) (order : List NodeId) : Program := order.foldl (add c) empty

/-- The whole text; `tail` ends the main function. -/
def render (p : Program) (tail : String) : String :=
  p.declarations ++ p.ownCode ++ p.helpers ++ p.deferred ++ "\nvoid main() \x7b\n" ++ p.statements
    ++ tail ++ "\x7d\n\n"

end Program

end FragmentGraph
