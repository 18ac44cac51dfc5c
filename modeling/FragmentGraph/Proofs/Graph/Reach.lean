/-
  What the nodes of a well-formed graph reach.

  A dependence goes through a live link, and a live link starts at an output that is there.  So whatever
  a node of the graph reaches is a node of the graph, and as the output node has no outputs, nothing but
  that node itself reaches it.
-/
import FragmentGraph.Proofs.Graph.WellFormed
import FragmentGraph.Proofs.Shader.Steps
import FragmentGraph.Proofs.Walk.Postorder

namespace FragmentGraph

namespace Graph

variable {g : Graph} {root id : NodeId} {l : Link}

/-- A dependence goes through a live link. -/
theorem WellFormed.exists_link_of_dependsOn (hg : g.WellFormed) {source : NodeId}
    (hdep : g.circuit.DependsOn id source) : ∃ l, g.wiring.Live l ∧ l.source.node = source := by
  obtain ⟨_, _, l, hl, hsource⟩ := hdep
  exact ⟨l, hg.wired.keyed.live hl, hsource⟩

/-- What a node of a well-formed graph depends on is in the graph. -/
theorem exists_node_of_reaches (hg : g.WellFormed)
    (hroot : ∃ node, g.node? root = some node) (hreach : g.circuit.Reaches root id) :
    ∃ node, g.node? id = some node := by
  induction hreach with
  | refl => exact hroot
  | tail _ hdep _ =>
    obtain ⟨l, hl, rfl⟩ := hg.exists_link_of_dependsOn hdep
    obtain ⟨source, _, hsource, _⟩ := hg.joined l hl
    exact ⟨source, hsource⟩

/-- A link that joins ports starts at a node with outputs, which the output node has not. -/
theorem WellFormed.source_ne_outputId (hg : g.WellFormed) (hl : g.Joins l) :
    l.source.node ≠ outputId := by
  intro hid
  obtain ⟨source, _, hsource, _, hport, _⟩ := hl
  rw [hid, hg.output] at hsource
  obtain rfl := Option.some.inj hsource
  exact Nat.not_lt_zero _ hport

/-- Only the output node reaches the output node. -/
theorem ne_outputId_of_reaches (hg : g.WellFormed) (hroot : root ≠ outputId)
    (hreach : g.circuit.Reaches root id) : id ≠ outputId := by
  induction hreach with
  | refl => exact hroot
  | tail _ hdep _ =>
    obtain ⟨l, hl, rfl⟩ := hg.exists_link_of_dependsOn hdep
    exact hg.source_ne_outputId (hg.joined l hl)

end Graph

end FragmentGraph
