/-
  A shader depends only on what its root depends on.

  An edit far away from a preview must not change it.  So it has to be known what a shader is made from:
  the kinds of the nodes that the root reaches, and the links into them.  Nothing else is read: not the
  other nodes and links, which may well form cycles, not the index of links by source, and not the edits
  that have led to the graph.

  1. **Circuits** — `AgreeOn c c' part` says that two circuits are alike on a part that dependence does
     not lead out of.  The walks from a root in the part agree (`outcome_walk_of_common`), the program
     takes the nodes of the walk one after the other and looks at nothing but them, so the shaders agree
     (`AgreeOn.compile`, `AgreeOn.preview`).

  2. **Graphs** — the ancestors of a root are such a part (`mem_ancestors_of_drawsFrom`), and graphs that
     are alike there have circuits that are (`agreeOn_circuit`).
-/
import FragmentGraph.Proofs.Graph.Ancestors
import FragmentGraph.Proofs.Graph.Calls
import FragmentGraph.Proofs.Walk.Locality
import Mathlib.Data.List.Basic

namespace FragmentGraph

open Relation (ReflTransGen)

/-! ## Circuits -/

namespace Circuit

/-- `AgreeOn c c' part` — dependence does not lead out of the part, and both circuits have the same kinds
    and emitters in it and the same links into it. -/
structure AgreeOn (c c' : Circuit) (part : NodeId → Prop) : Prop where
  closed : ∀ id source, part id → c.DependsOn id source → part source
  kind : ∀ id, part id → c'.nodes[id]?.map Node.kind = c.nodes[id]?.map Node.kind
  emitter : ∀ id, part id → c'.emitters[id]? = c.emitters[id]?
  feeding : ∀ id port, part id → c'.wiring.feeding? ⟨id, port⟩ = c.wiring.feeding? ⟨id, port⟩

variable {c c' : Circuit} {part : NodeId → Prop} {root : NodeId}

theorem AgreeOn.copies (h : c.AgreeOn c' part) : c.Copies c' id part where
  closed := h.closed
  inj _ _ _ _ heq := heq
  inputCount id hid := by rw [id_eq, inputCount, inputCount, h.emitter id hid]
  feeder? id port hid _ := by
    rw [id_eq, feeder?, feeder?, h.feeding id _ hid, Option.map_id]
    rfl

/-- A node of the part has the same block in both. -/
theorem AgreeOn.block (h : c.AgreeOn c' part) {id : NodeId} (hid : part id) (e : Emitter) :
    c'.block id e = c.block id e := by
  have hoperand : ∀ port, c'.operand ⟨id, port⟩ = c.operand ⟨id, port⟩ := by
    intro port
    rw [operand, operand, h.feeding id port hid]
  rw [Circuit.block, Circuit.block]
  simp only [hoperand]

/-- A node of the part adds the same to a program in both. -/
theorem AgreeOn.add (h : c.AgreeOn c' part) {id : NodeId} (hid : part id) (p : Program) :
    p.add c' id = p.add c id := by
  rw [Program.add, Program.add, h.emitter id hid]
  cases c.emitters[id]? with
  | none => rfl
  | some e =>
    dsimp only
    rw [h.block hid e]

theorem AgreeOn.ofOrder (h : c.AgreeOn c' part) {order : List NodeId}
    (horder : ∀ id ∈ order, part id) : Program.ofOrder c' order = Program.ofOrder c order := by
  rw [Program.ofOrder, Program.ofOrder]
  exact List.foldl_ext _ _ _ fun p id hid => h.add (horder id hid) p

/-- The program of a root, from the outcome of the walk. -/
theorem program_eq_of_outcome (c : Circuit) (root : NodeId) :
    c.program root = ((c.walk root).outcome.map (Program.ofOrder c)).mapError .cyclic := by
  rw [program, Walk.outcome]
  cases (c.walk root).cycle with
  | none => rfl
  | some id => rfl

/-- Both circuits have the same program for a root in the part. -/
theorem AgreeOn.program (h : c.AgreeOn c' part) (hroot : part root) :
    c'.program root = c.program root := by
  have houtcome := outcome_walk_of_common h.copies hroot
  rw [program_eq_of_outcome, program_eq_of_outcome, houtcome]
  cases hwalk : (c.walk root).outcome with
  | error id => rfl
  | ok order =>
    have horder : ∀ id ∈ order, part id := by
      intro id hid
      exact h.copies.of_reaches hroot ((mem_order_of_outcome hwalk).mp hid)
    show Except.ok (Program.ofOrder c' order) = Except.ok (Program.ofOrder c order)
    rw [h.ofOrder horder]

/-- Both circuits have an output node, or neither has, if that node is in the part. -/
theorem AgreeOn.hasOutput (h : c.AgreeOn c' part) (hroot : part outputId) :
    c'.hasOutput = c.hasOutput := by
  have hany : ∀ node? : Option Node, (node?.any fun node => node.kind = .output)
      = (node?.map Node.kind).any (· = .output) := by
    intro node?
    cases node? <;> rfl
  rw [Circuit.hasOutput, Circuit.hasOutput, hany, hany, h.kind _ hroot, h.emitter _ hroot]

/-- Both circuits have the same shader, if the output node is in the part. -/
theorem AgreeOn.compile (h : c.AgreeOn c' part) (hroot : part outputId) :
    c'.compile.result = c.compile.result := by
  rw [Circuit.compile, Circuit.compile, h.hasOutput hroot]
  split
  · dsimp only
    rw [h.program hroot]
  · rfl

/-- Both circuits show an output of a node in the part under the same type, or refuse it with the same
    error. -/
theorem AgreeOn.previewTy (h : c.AgreeOn c' part) {s : Socket} (hroot : part s.node) :
    c'.previewTy s = c.previewTy s := by
  have hkind := h.kind _ hroot
  rw [Circuit.previewTy, Circuit.previewTy, h.emitter _ hroot]
  cases hnode : c.nodes[s.node]? with
  | none =>
    rw [hnode, Option.map_none, Option.map_eq_none_iff] at hkind
    rw [hkind]
  | some node =>
    rw [hnode, Option.map_some] at hkind
    obtain ⟨node', hnode', _⟩ := Option.map_eq_some_iff.mp hkind
    rw [hnode']
    cases c.emitters[s.node]? <;> rfl

/-- Both circuits have the same previews of nodes in the part. -/
theorem AgreeOn.preview (h : c.AgreeOn c' part) {s : Socket} (hroot : part s.node) :
    (c'.preview s).result = (c.preview s).result := by
  rw [Circuit.preview, Circuit.preview, h.previewTy hroot]
  cases c.previewTy s with
  | error e => rfl
  | ok ty =>
    dsimp only
    rw [h.program hroot]

end Circuit

/-! ## Graphs -/

namespace Graph

variable {g h : Graph} {root : NodeId}

/-- A dependence goes through a link. -/
theorem drawsFrom_of_dependsOn {id source : NodeId} (hdep : g.circuit.DependsOn id source) :
    g.wiring.DrawsFrom id source := by
  obtain ⟨port, _, l, hl, hsource⟩ := hdep
  exact ⟨port, l, hl, hsource⟩

/-- Graphs with the same kinds in a part and the same links into it have circuits that agree there. -/
theorem agreeOn_circuit {part : NodeId → Prop}
    (hclosed : ∀ id source, part id → g.wiring.DrawsFrom id source → part source)
    (hkind : ∀ id, part id → (g.node? id).map Node.kind = (h.node? id).map Node.kind)
    (hfed : ∀ id port, part id → g.wiring.feeding? ⟨id, port⟩ = h.wiring.feeding? ⟨id, port⟩) :
    g.circuit.AgreeOn h.circuit part where
  closed id source hid hdep := hclosed id source hid (drawsFrom_of_dependsOn hdep)
  kind id hid := (hkind id hid).symm
  emitter id hid := by
    have hemitter : ∀ g : Graph, g.circuit.emitters[id]? = ((g.node? id).map Node.kind).map Kind.emitter := by
      intro g
      rw [emitters_circuit, Option.map_map]
      rfl
    rw [hemitter, hemitter, hkind id hid]
  feeding id port hid := (hfed id port hid).symm

/-- Nothing that the ancestors of a node draw from lies outside them. -/
theorem mem_ancestors_of_drawsFrom {id source : NodeId} (hid : id ∈ g.ancestors root)
    (hdraws : g.wiring.DrawsFrom id source) : source ∈ g.ancestors root :=
  Wiring.mem_ancestors_iff.mpr ((Wiring.mem_ancestors_iff.mp hid).tail hdraws)

/-- A node is one of its own ancestors. -/
theorem root_mem_ancestors (g : Graph) (root : NodeId) : root ∈ g.ancestors root :=
  Wiring.mem_ancestors_iff.mpr ReflTransGen.refl

/-- **A shader depends only on the ancestors of its root.**  Let two graphs have nodes of the same kinds,
    or none, at the ancestors that one of them gives a root, and the same links into those ancestors.
    Then the root has the same ancestors in both, every preview of the root is the same text or the same
    error, and so is the shader if the root is the output.  Nothing is asked of the rest of the graphs,
    of the links by source, or of how the graphs came about. -/
theorem compile_local
    (hkind : ∀ id ∈ g.ancestors root, (g.node? id).map Node.kind = (h.node? id).map Node.kind)
    (hfed : ∀ id ∈ g.ancestors root, ∀ port,
      g.wiring.feeding? ⟨id, port⟩ = h.wiring.feeding? ⟨id, port⟩) :
    h.ancestors root = g.ancestors root ∧
    (∀ port, (g.preview ⟨root, port⟩).result = (h.preview ⟨root, port⟩).result) ∧
    (root = outputId → g.compile.result = h.compile.result) := by
  have hagree : g.circuit.AgreeOn h.circuit (· ∈ g.ancestors root) :=
    agreeOn_circuit (fun _ _ hid hdraws => mem_ancestors_of_drawsFrom hid hdraws) hkind
      fun id port hid => hfed id hid port
  have hroot : root ∈ g.ancestors root := g.root_mem_ancestors root
  refine ⟨?_, fun port => ?_, fun houtput => ?_⟩
  · exact Wiring.ancestors_congr fun id hid port => (hfed id hid port).symm
  · exact (hagree.preview (s := ⟨root, port⟩) hroot).symm
  · exact (hagree.compile (houtput ▸ hroot)).symm

/-- The colour is the sine of the time. -/
def sineOfTime : Graph := Graph.new.run
  [.addNode 1 (.input .time), .addNode 2 (.scalarFunc .sin), .connect ⟨⟨1, 0⟩, ⟨2, 0⟩⟩,
   .connect ⟨⟨2, 0⟩, ⟨0, 0⟩⟩]

/-- Beside it, two nodes feed each other, and one of them reads the time. -/
def besideCycle : Graph := sineOfTime.run
  [.addNode 8 (.scalarFunc .cos), .addNode 9 (.scalarOp .add .float), .connect ⟨⟨8, 0⟩, ⟨9, 0⟩⟩,
   .connect ⟨⟨9, 0⟩, ⟨8, 0⟩⟩, .connect ⟨⟨1, 0⟩, ⟨9, 1⟩⟩]

/-- The two nodes are no ancestors of the output, so the shader is the same without them, although a preview
    of the cycle fails and the time is known by another link. -/
theorem compile_local_besideCycle :
    (∀ id ∈ sineOfTime.ancestors outputId,
      (sineOfTime.node? id).map Node.kind = (besideCycle.node? id).map Node.kind) ∧
    (∀ id ∈ sineOfTime.ancestors outputId, ∀ port,
      sineOfTime.wiring.feeding? ⟨id, port⟩ = besideCycle.wiring.feeding? ⟨id, port⟩) ∧
    besideCycle.ancestors outputId = [0, 1, 2] ∧
    sineOfTime.compile.result = besideCycle.compile.result ∧
    (besideCycle.preview ⟨9, 0⟩).result = .error (.cyclic 9) ∧
    sineOfTime.wiring.drivenBy? ⟨1, 0⟩ ≠ besideCycle.wiring.drivenBy? ⟨1, 0⟩ := by
  have hancestors : sineOfTime.ancestors outputId = [0, 1, 2] := by rfl
  have hcases : ∀ id ∈ sineOfTime.ancestors outputId, id = 0 ∨ id = 1 ∨ id = 2 := by simp [hancestors]
  have hkind : ∀ id ∈ sineOfTime.ancestors outputId,
      (sineOfTime.node? id).map Node.kind = (besideCycle.node? id).map Node.kind := by
    intro id hid
    rcases hcases id hid with rfl | rfl | rfl <;> rfl
  -- the links of the two nodes end at the two nodes
  have hwiring : besideCycle.wiring = ((sineOfTime.wiring.insert ⟨⟨8, 0⟩, ⟨9, 0⟩⟩).insert
      ⟨⟨9, 0⟩, ⟨8, 0⟩⟩).insert ⟨⟨1, 0⟩, ⟨9, 1⟩⟩ := by rfl
  have hfed : ∀ id ∈ sineOfTime.ancestors outputId, ∀ port,
      sineOfTime.wiring.feeding? ⟨id, port⟩ = besideCycle.wiring.feeding? ⟨id, port⟩ := by
    intro id hid port
    have hother : 8 ≠ id ∧ 9 ≠ id := by rcases hcases id hid with rfl | rfl | rfl <;> decide
    simp [hwiring, Wiring.feeding?_insert, hother]
  obtain ⟨hsame, _, hcompile⟩ := compile_local hkind hfed
  exact ⟨hkind, hfed, hsame.trans hancestors, hcompile rfl, by rfl, by decide⟩

end Graph

end FragmentGraph
