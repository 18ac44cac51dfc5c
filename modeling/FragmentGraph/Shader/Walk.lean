/-
  The walk from a root to everything it depends on.

  Every node is emitted after the nodes that feed it, inputs being followed in the order of their ports,
  and is emitted once.  The walk keeps a stack of the nodes it has entered and not left, each with the
  next port to look at; it has met a cycle when an input of the top is fed by a node of the stack.

  The marks tell how far each node is.  One `step` looks at one port of the top or, when all its ports
  are passed, emits the top and leaves it.  A node is entered once and takes one step more than it has
  inputs, so `budget` steps are enough for any walk.
-/
import FragmentGraph.Shader.Circuit

namespace FragmentGraph

open Std (ExtTreeMap)

/-- How far the walk is with a node. -/
inductive Mark where
  | inProgress
  | done
deriving DecidableEq, Repr

/-- The state of a walk. -/
structure Walk where
  /-- Nodes entered and not left, innermost first, with the next port to look at. -/
  stack : List (NodeId × Nat)
  /-- Marks of the nodes entered. -/
  marks : ExtTreeMap NodeId Mark
  /-- Nodes emitted, last first. -/
  emitted : List NodeId
  /-- A node that depends on itself, once one is met. -/
  cycle : Option NodeId

namespace Walk

/-- The walk has just entered the root. -/
def start (root : NodeId) : Walk where
  stack := [(root, 0)]
  marks := (∅ : ExtTreeMap NodeId Mark).insert root .inProgress
  emitted := []
  cycle := none

/-- Nothing is left to do. -/
def finished (w : Walk) : Bool := w.stack.isEmpty || w.cycle.isSome

/-- The nodes emitted, in order. -/
def order (w : Walk) : List NodeId := w.emitted.reverse

/-- One port of the innermost node, or its end. -/
def step (c : Circuit) (w : Walk) : Walk :=
  match w.stack with
  | [] => w
  | (id, port) :: below =>
    if port < c.inputCount id then
      let passed := (id, port + 1) :: below
      match c.feeder? id port with
      | none => { w with stack := passed }
      | some source =>
        match w.marks[source]? with
        | some .inProgress => { w with stack := passed, cycle := some source }
        | some .done => { w with stack := passed }
        | none => { w with stack := (source, 0) :: passed, marks := w.marks.insert source .inProgress }
    else { w with stack := below, marks := w.marks.insert id .done, emitted := id :: w.emitted }

/-- Steps until nothing is left to do, at most `fuel` of them. -/
def run (c : Circuit) : Nat → Walk → Walk
  | 0, w => w
  | fuel + 1, w => if w.finished then w else run c fuel (w.step c)

end Walk

namespace Circuit

/-- A bound on the steps of a walk: one for the end and one for every port of the root and of each node
    that feeds any other. -/
def budget (c : Circuit) (root : NodeId) : Nat :=
  let entered := root :: c.wiring.links.map fun l => l.source.node
  entered.foldl (fun steps id => steps + (c.inputCount id + 1)) 0

/-- The finished walk from a root. -/
def walk (c : Circuit) (root : NodeId) : Walk := (Walk.start root).run c (c.budget root)

end Circuit

end FragmentGraph
