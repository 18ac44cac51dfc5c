/-
  Sockets: the ports of nodes, their packed keys, and the variables that stand for them.

  A socket is a node's id and a port's index.  Its key packs the two into 64 bits, the id in the high
  half, so keys are ordered by id first and by index second.
-/
import FragmentGraph.Numeric.Fixed

namespace FragmentGraph

open Numeric (decimal)

/-- The number of a node. -/
abbrev NodeId := UInt32

/-- The index of a port among the inputs or the outputs of its node. -/
abbrev PortIndex := UInt32

/-- The greatest index of a port. -/
def lastPort : PortIndex := 0xffffffff

/-- The id of the node that writes the colour. -/
def outputId : NodeId := 0

/-- A port of a node. -/
structure Socket where
  node : NodeId
  port : PortIndex
deriving DecidableEq, Repr

/-- A socket in 64 bits. -/
abbrev SocketKey := UInt64

namespace SocketKey

/-- The node in a key. -/
def node (k : SocketKey) : NodeId := (k >>> 32).toUInt32

/-- The port in a key. -/
def port (k : SocketKey) : PortIndex := k.toUInt32

end SocketKey

namespace Socket

/-- The key of a socket. -/
def key (s : Socket) : SocketKey := (s.node.toUInt64 <<< 32) ||| s.port.toUInt64

/-- Sockets in the order of their nodes, and of their ports on one node. -/
def compare (s t : Socket) : Ordering :=
  (Ord.compare s.node t.node).then (Ord.compare s.port t.port)

/-- The text `node:port`. -/
def text (s : Socket) : String := decimal s.node.toNat ++ ":" ++ decimal s.port.toNat

/-- The part of a variable's name that tells the socket. -/
def suffix (s : Socket) : String := "n" ++ decimal s.node.toNat ++ "_p" ++ decimal s.port.toNat

end Socket

/-- A local variable of a shader. -/
inductive Variable where
  /-- The value of an output socket. -/
  | value (s : Socket)
  /-- The stand-in for an input socket that nothing feeds. -/
  | standIn (s : Socket)
deriving DecidableEq, Repr

/-- The variable's name in the shader. -/
def Variable.name : Variable → String
  | value s => "var_from_" ++ s.suffix
  | standIn s => "var_to_" ++ s.suffix

end FragmentGraph
