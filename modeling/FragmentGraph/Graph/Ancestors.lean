/-
  The nodes that a node depends on, itself included.

  The search keeps the nodes still to be looked at and the ones already found.  It looks once at each
  node it finds and then adds the sources of all links into it, so it takes at most one round more than
  there are links.
-/
import FragmentGraph.Graph.Basic
import Std.Data.ExtTreeSet

namespace FragmentGraph

open Std (ExtTreeSet)

namespace Wiring

/-- The nodes that feed a node, in the order of its inputs. -/
def sources (w : Wiring) (id : NodeId) : List NodeId :=
  (w.byTarget.ofNode id).map fun l => l.source.node

/-- Adds everything that the nodes in `todo` depend on to `found`, in at most `fuel` rounds. -/
def search (w : Wiring) : Nat → List NodeId → ExtTreeSet NodeId → ExtTreeSet NodeId
  | 0, _, found => found
  | _, [], found => found
  | fuel + 1, id :: todo, found =>
    if found.contains id then search w fuel todo found
    else search w fuel (w.sources id ++ todo) (found.insert id)

/-- The nodes that a node depends on, itself included, in ascending order. -/
def ancestors (w : Wiring) (id : NodeId) : List NodeId :=
  (w.search (w.byTarget.size + 1) [id] ∅).toList

end Wiring

/-- The nodes that a node depends on, itself included, in ascending order. -/
def Graph.ancestors (g : Graph) (id : NodeId) : List NodeId := g.wiring.ancestors id

end FragmentGraph
