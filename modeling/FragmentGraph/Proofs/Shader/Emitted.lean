/-
  The search for ancestors and the walk of a compile go through the same nodes.

  The search follows every link into a node, whatever the port, and passes over what it has found already,
  so it does not mind cycles.  The walk of a compile looks at the ports that the node's kind has, one after
  the other, and gives up at a cycle.  An editor shows the ancestors of a node as what its preview needs,
  so the two have to agree.

  1. **The search** — what it gives is closed, that is it has the start, and with a node all that feeds
     the node (`closedFrom_ancestors`), and it is part of every closed set (`mem_of_closedFrom`).

  2. **The walk** — no link of a reachable graph ends at a port that its node has not, so a node draws
     from a node exactly if it depends on it (`drawsFrom_iff_dependsOn`).  Then the order of a walk that
     meets no cycle is the ancestors in another order (`order_perm_ancestors`), and reading the headers of
     the shader finds each of them once.
-/
import FragmentGraph.Proofs.Shader.Preview

namespace FragmentGraph

open Glsl
open Relation (ReflTransGen)
open Std (ExtTreeSet)

/-! ## The search -/

namespace Wiring

variable {w : Wiring} {start id : NodeId}

/-- The set has the node `start`, and with a node it has the source of every link into any port of that
    node. -/
def ClosedFrom (w : Wiring) (start : NodeId) (set : NodeId → Prop) : Prop :=
  set start ∧ ∀ id port l, set id → w.feeding? ⟨id, port⟩ = some l → set l.source.node

/-- The ancestors of a node are closed. -/
theorem closedFrom_ancestors (w : Wiring) (start : NodeId) :
    w.ClosedFrom start (· ∈ w.ancestors start) := by
  refine ⟨mem_ancestors_iff.mpr ReflTransGen.refl, fun id port l hid hl => ?_⟩
  exact mem_ancestors_iff.mpr ((mem_ancestors_iff.mp hid).tail ⟨port, l, hl, rfl⟩)

/-- Every closed set has them. -/
theorem mem_of_closedFrom {set : NodeId → Prop} (hset : w.ClosedFrom start set)
    (hid : id ∈ w.ancestors start) : set id := by
  have hpath := mem_ancestors_iff.mp hid
  induction hpath with
  | refl => exact hset.1
  | tail hpath hdraws ih =>
    obtain ⟨port, l, hl, rfl⟩ := hdraws
    exact hset.2 _ port l (ih (mem_ancestors_iff.mpr hpath)) hl

theorem nodup_ancestors (w : Wiring) (start : NodeId) : (w.ancestors start).Nodup := by
  refine ExtTreeSet.ordered_toList.imp fun {a b} hlt heq => ?_
  subst heq
  simp at hlt

end Wiring

/-! ## The walk -/

namespace Graph

variable {g : Graph} {root id source : NodeId}

/-- No link ends at a port that its node has not, so what a node draws from it depends on. -/
theorem drawsFrom_iff_dependsOn (hg : g.WellFormed) :
    g.wiring.DrawsFrom id source ↔ g.circuit.DependsOn id source := by
  refine ⟨?_, drawsFrom_of_dependsOn⟩
  rintro ⟨port, l, hl, hsource⟩
  have htarget : l.target = ⟨id, port⟩ := hg.wired.keyed _ _ hl
  obtain ⟨_, node, _, hnode, _, hport⟩ := hg.joined l (hg.wired.keyed.live hl)
  rw [htarget] at hnode hport
  refine ⟨port, ?_, l, hl, hsource⟩
  rw [inputCount_circuit hnode]
  exact hport

/-- The nodes that a root reaches are its ancestors. -/
theorem reaches_iff_mem_ancestors (hg : g.WellFormed) :
    g.circuit.Reaches root id ↔ id ∈ g.ancestors root := by
  have hsame : g.wiring.DrawsFrom = g.circuit.DependsOn := by
    funext id source
    exact propext (drawsFrom_iff_dependsOn hg)
  rw [ancestors, Wiring.mem_ancestors_iff, hsame, Circuit.Reaches]

/-- A walk that meets no cycle emits the ancestors of its root, each once. -/
theorem order_perm_ancestors (hg : g.WellFormed) (hcycle : (g.circuit.walk root).cycle = none) :
    (g.circuit.walk root).order.Perm (g.ancestors root) := by
  refine (List.perm_ext_iff_of_nodup (Circuit.walk_order_nodup hcycle)
    (g.wiring.nodup_ancestors root)).mpr fun id => ?_
  exact (Circuit.mem_walk_order_iff hcycle).trans (reaches_iff_mem_ancestors hg)

/-- The text is the shader from `root`, and the nodes whose blocks it has are the ancestors of `root`, each
    with one block. -/
structure EmitsAncestors (g : Graph) (root : NodeId) (tail text : String) : Prop where
  isSource : ∃ order, g.IsSource root tail text order ∧ order.Perm (g.ancestors root)
  count : ∀ id, (headerIds text).count id = if id ∈ g.ancestors root then 1 else 0

/-- The shader of a walk that meets no cycle has one header for each ancestor of the root. -/
theorem emitsAncestors_walk (hg : g.WellFormed) (hroot : ∃ node, g.node? root = some node)
    (hcycle : (g.circuit.walk root).cycle = none) {tail : String} (htail : Plain tail) :
    g.EmitsAncestors root tail (g.sourceText (g.circuit.walk root).order tail) := by
  have hsource := isSource_walk hg hroot hcycle htail
  have hperm := order_perm_ancestors hg hcycle
  refine ⟨⟨_, hsource, hperm⟩, fun id => ?_⟩
  rw [hsource.headers, hperm.count_eq]
  split
  · next hid => exact List.count_eq_one_of_mem (g.wiring.nodup_ancestors root) hid
  · next hid => exact List.count_eq_zero.mpr hid

/-- **The search for ancestors and the walk of a compile agree.**  The ancestors of any id, whether or not
    the graph has it and whether or not there are cycles, are the least set that has the id and is closed
    under the sources of links.  A shader that compiles has a block for each ancestor of the output, a
    preview one for each ancestor of the node it shows; each has one block, and no other node has any. -/
theorem ancestors_emitted (hg : g.Reachable) :
    (∀ start, g.wiring.ClosedFrom start (· ∈ g.ancestors start) ∧
      ∀ set, g.wiring.ClosedFrom start set → ∀ id ∈ g.ancestors start, set id) ∧
    (∀ text, g.compile.result = .ok text → g.EmitsAncestors outputId "" text) ∧
    (∀ s text, (g.preview s).result = .ok text →
      ∃ ty, g.outputTy? s = some ty ∧
        g.EmitsAncestors s.node (previewStmt ty (Variable.value s).name).render text) := by
  have hwell := hg.wellFormed
  refine ⟨fun start => ⟨g.wiring.closedFrom_ancestors start, fun set hset id hid =>
    Wiring.mem_of_closedFrom hset hid⟩, fun text htext => ?_, fun s text htext => ?_⟩
  · obtain ⟨hcycle, _⟩ := compile_eq_render htext
    rw [compile_eq_sourceText hwell, Walk.outcome, hcycle] at htext
    rw [← Except.ok.inj htext]
    exact emitsAncestors_walk hwell ⟨_, hwell.output⟩ hcycle ⟨Or.inl rfl, rfl⟩
  · obtain ⟨hcycle, node, ty, hnode, hport, _⟩ := preview_eq_render htext
    have hty : g.outputTy? s = some ty := by rw [outputTy?, hnode, Option.bind_some, hport]
    have htail : Plain (Circuit.previewTail s ty) :=
      .of_indented (indented_previewStmt ty (Variable.value s).oneLine_name)
    rw [preview_eq_sourceText hwell hty, Walk.outcome, hcycle] at htext
    rw [← Except.ok.inj htext]
    exact ⟨ty, hty, emitsAncestors_walk hwell ⟨node, hnode⟩ hcycle htail⟩

/-- The sine and the cosine of the time are added and give the colour.  A node beside multiplies the sum
    with its own value. -/
def sumAndLoop : List Call :=
  [.addNode 5 (.input .time), .addNode 3 (.scalarFunc .sin), .addNode 4 (.scalarFunc .cos),
   .addNode 2 (.scalarOp .add .float), .addNode 9 (.scalarOp .mul .float), .connect ⟨⟨5, 0⟩, ⟨3, 0⟩⟩,
   .connect ⟨⟨5, 0⟩, ⟨4, 0⟩⟩, .connect ⟨⟨3, 0⟩, ⟨2, 0⟩⟩, .connect ⟨⟨4, 0⟩, ⟨2, 1⟩⟩,
   .connect ⟨⟨2, 0⟩, ⟨0, 0⟩⟩, .connect ⟨⟨9, 0⟩, ⟨9, 0⟩⟩, .connect ⟨⟨2, 0⟩, ⟨9, 1⟩⟩]

/-- The time is read on two ways and has one block, the loop has ancestors but no preview, and an id without
    a node is its own ancestor. -/
theorem ancestors_emitted_sumAndLoop :
    let g := Graph.new.run sumAndLoop
    g.Reachable ∧ g.ancestors 9 = [2, 3, 4, 5, 9] ∧ g.ancestors 7 = [7] ∧
    g.wiring.ClosedFrom 9 (· ∈ g.ancestors 9) ∧ (g.preview ⟨9, 0⟩).result = .error (.cyclic 9) ∧
    (∃ text, g.compile.result = .ok text ∧ (headerIds text).count 5 = 1 ∧ (headerIds text).count 9 = 0) ∧
    ∃ text, (g.preview ⟨4, 0⟩).result = .ok text ∧ (headerIds text).count 5 = 1 ∧
      (headerIds text).count 3 = 0 := by
  intro g
  have hg : g.Reachable := Reachable.new.run sumAndLoop
  obtain ⟨hleast, hcompile, hpreview⟩ := ancestors_emitted hg
  obtain ⟨text, htext⟩ : ∃ text, g.compile.result = .ok text := ⟨_, rfl⟩
  obtain ⟨shown, hshown⟩ : ∃ text, (g.preview ⟨4, 0⟩).result = .ok text := ⟨_, rfl⟩
  have hcount := (hcompile text htext).count
  obtain ⟨_, _, hemits⟩ := hpreview ⟨4, 0⟩ shown hshown
  have hroot : g.ancestors outputId = [0, 2, 3, 4, 5] := by rfl
  have hcosine : g.ancestors 4 = [4, 5] := by rfl
  refine ⟨hg, by rfl, by rfl, (hleast 9).1, by rfl, ⟨text, htext, ?_⟩, shown, hshown, ?_⟩
  · rw [hcount, hcount, hroot]
    decide
  · rw [hemits.count, hemits.count, hcosine]
    decide

end Graph

end FragmentGraph
