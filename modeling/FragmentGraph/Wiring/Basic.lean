/-
  The links of a graph, found by target and by source.

  An input socket is fed by at most one link, so `byTarget` holds every link.  An output socket may feed
  many inputs; `bySource` holds one link for each output that feeds any.  That is the link made last, or,
  once that one is gone, the one with the least target.
-/
import FragmentGraph.Wiring.Index

namespace FragmentGraph

/-- The links of a graph. -/
structure Wiring where
  byTarget : LinkIndex
  bySource : LinkIndex

namespace Wiring

/-- No links. -/
def empty : Wiring := ⟨∅, ∅⟩

/-- The link that feeds an input. -/
def feeding? (w : Wiring) (target : Socket) : Option Link := w.byTarget[target.key]?

/-- A link that an output feeds. -/
def drivenBy? (w : Wiring) (source : Socket) : Option Link := w.bySource[source.key]?

/-- All links in the order of their targets. -/
def links (w : Wiring) : List Link := w.byTarget.links

/-- Takes a link that no longer feeds its target out of `bySource`.  If its output feeds another input,
    the link with the least target takes its place. -/
def forgetSource (w : Wiring) (l : Link) : Wiring :=
  if w.drivenBy? l.source = some l then
    let rest := w.bySource.erase l.source.key
    match w.links.find? fun other => other.source = l.source ∧ other ≠ l with
    | some other => ⟨w.byTarget, rest.insert l.source.key other⟩
    | none => ⟨w.byTarget, rest⟩
  else w

/-- Adds a link in place of the one that fed its target.  Gives that one as well. -/
def exchange (w : Wiring) (l : Link) : Option Link × Wiring :=
  let (displaced, byTarget) := w.byTarget.exchange l.target.key l
  let placed : Wiring := ⟨byTarget, w.bySource⟩
  let settled :=
    match displaced with
    | some old => placed.forgetSource old
    | none => placed
  (displaced, ⟨settled.byTarget, settled.bySource.insert l.source.key l⟩)

/-- Adds a link in place of the one that fed its target. -/
def insert (w : Wiring) (l : Link) : Wiring := (w.exchange l).2

/-- Removes the link that feeds an input.  Gives it as well. -/
def extract (w : Wiring) (target : Socket) : Option Link × Wiring :=
  match w.byTarget.extract target.key with
  | (some old, byTarget) => (some old, forgetSource ⟨byTarget, w.bySource⟩ old)
  | (none, _) => (none, w)

/-- Removes the link that feeds an input. -/
def removeInto (w : Wiring) (target : Socket) : Wiring := (w.extract target).2

/-- The links that start or end at a node, in the order of their targets. -/
def touching (w : Wiring) (id : NodeId) : List Link := w.links.filter (·.touches id)

/-- Removes all links that start or end at a node.  Gives them as well, in the order of their
    targets. -/
def extractNode (w : Wiring) (id : NodeId) : List Link × Wiring :=
  let doomed := w.touching id
  (doomed, doomed.foldl (fun w l => w.removeInto l.target) w)

/-- Removes all links that start or end at a node. -/
def removeNode (w : Wiring) (id : NodeId) : Wiring := (w.extractNode id).2

end Wiring

end FragmentGraph
