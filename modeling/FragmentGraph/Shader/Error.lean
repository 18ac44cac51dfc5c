/-
  Why a graph has no shader.
-/
import FragmentGraph.Socket

namespace FragmentGraph

open Numeric (decimal)

/-- Why there is no shader. -/
inductive ShaderError where
  | missingOutput
  | unknownRoot (id : NodeId)
  | noRootPort (s : Socket)
  | cyclic (id : NodeId)
deriving DecidableEq, Repr

def ShaderError.message : ShaderError → String
  | missingOutput => "graph has no Output node at id 0"
  | unknownRoot id => "preview root node not found: " ++ decimal id.toNat
  | noRootPort s =>
    "preview root node " ++ decimal s.node.toNat ++ " has no output port " ++ decimal s.port.toNat
  | cyclic id => "cyclic graph: node " ++ decimal id.toNat ++ " depends on itself"

end FragmentGraph
