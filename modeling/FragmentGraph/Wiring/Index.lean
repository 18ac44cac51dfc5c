/-
  Links between sockets, and ordered indexes of links.

  An index holds at most one link under each key, in the order of the keys.
-/
import FragmentGraph.Socket
import Std.Data.ExtTreeMap

namespace FragmentGraph

open Std (ExtTreeMap)

/-- A link from an output socket to an input socket. -/
structure Link where
  source : Socket
  target : Socket
deriving DecidableEq, Repr

namespace Link

/-- The link starts or ends at the node. -/
def touches (l : Link) (id : NodeId) : Bool := l.source.node == id || l.target.node == id

end Link

/-- Links under keys. -/
abbrev LinkIndex := ExtTreeMap SocketKey Link

namespace LinkIndex

/-- Puts a link under a key.  Gives the link that it displaces as well. -/
def exchange (index : LinkIndex) (key : SocketKey) (l : Link) : Option Link × LinkIndex :=
  (index[key]?, index.insert key l)

/-- Takes away the link under a key.  Gives it as well. -/
def extract (index : LinkIndex) (key : SocketKey) : Option Link × LinkIndex :=
  (index[key]?, index.erase key)

/-- The links in the order of their keys. -/
def links (index : LinkIndex) : List Link := index.toList.map Prod.snd

/-- The entries whose keys lie from `low` to `high`, both included, in the order of the keys. -/
def range (index : LinkIndex) (low high : SocketKey) : List (SocketKey × Link) :=
  index.toList.filter fun entry => low ≤ entry.1 && entry.1 ≤ high

/-- The links under the keys of a node, in the order of the ports: those from its first port to the last
    that a key can hold. -/
def ofNode (index : LinkIndex) (id : NodeId) : List Link :=
  (index.range (Socket.key ⟨id, 0⟩) (Socket.key ⟨id, lastPort⟩)).map Prod.snd

end LinkIndex

end FragmentGraph
