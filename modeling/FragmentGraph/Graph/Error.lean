/-
  Why an edit of a graph is refused.
-/
import FragmentGraph.Glsl.Ty
import FragmentGraph.Socket

namespace FragmentGraph

open Glsl (Ty)
open Numeric (decimal)

/-- Why an edit is refused. -/
inductive EditError where
  | unknownNode (id : NodeId)
  | duplicateNode (id : NodeId)
  | reservedId
  | outputRemoval
  | noSuchOutput (s : Socket)
  | noSuchInput (s : Socket)
  | incompatibleTypes (source target : Ty)
deriving DecidableEq, Repr

def EditError.message : EditError → String
  | unknownNode id => "node not found: " ++ decimal id.toNat
  | duplicateNode id => "duplicate node id: " ++ decimal id.toNat
  | reservedId => "node id 0 is reserved for the Output node"
  | outputRemoval => "the Output node cannot be removed"
  | noSuchOutput s =>
    "node " ++ decimal s.node.toNat ++ " has no output port " ++ decimal s.port.toNat
  | noSuchInput s =>
    "node " ++ decimal s.node.toNat ++ " has no input port " ++ decimal s.port.toNat
  | incompatibleTypes source target =>
    "a " ++ source.title ++ " output cannot drive a " ++ target.title ++ " input"

end FragmentGraph
