/-
  Circuits: what a shader is compiled from.

  A circuit has nodes, emitters of nodes, and links.  The three need not fit together: an emitter may
  have no node, a node no emitter, and a link may join sockets that nothing has.
-/
import FragmentGraph.Emitter
import FragmentGraph.Wiring.Basic

namespace FragmentGraph

open Glsl
open Std (ExtTreeMap)

/-- A node of a graph. -/
structure Node where
  id : NodeId
  kind : Kind
deriving DecidableEq, Repr

/-- Nodes by id. -/
abbrev Nodes := ExtTreeMap NodeId Node

/-- Emitters by the id of their node. -/
abbrev Emitters := ExtTreeMap NodeId Emitter

/-- The emitters of nodes, each after its kind. -/
def Nodes.emitters (nodes : Nodes) : Emitters := nodes.map fun _ node => node.kind.emitter

/-- What a shader is compiled from. -/
structure Circuit where
  nodes : Nodes
  emitters : Emitters
  wiring : Wiring

namespace Circuit

/-- The count of inputs of a node; none without emitter. -/
def inputCount (c : Circuit) (id : NodeId) : Nat :=
  match c.emitters[id]? with
  | some e => e.inputs.length
  | none => 0

/-- The node that feeds an input. -/
def feeder? (c : Circuit) (id : NodeId) (port : Nat) : Option NodeId :=
  (c.wiring.feeding? ⟨id, UInt32.ofNat port⟩).map fun l => l.source.node

/-- The variable that an input reads: that of the output feeding it, or its stand-in. -/
def operand (c : Circuit) (s : Socket) : Variable :=
  match c.wiring.feeding? s with
  | some l => .value l.source
  | none => .standIn s

end Circuit

end FragmentGraph
