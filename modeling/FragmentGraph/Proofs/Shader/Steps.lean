/-
  The main function of a graph's shader, block by block.

  The text of a shader is assembled section by section, and the section of the main function grows with
  every node that the walk emits.  Here that section is taken apart again:

  1. over any circuit it is the texts of the nodes' blocks, one after the other (`statements_ofOrder`);
  2. in a graph every node has the emitter of its kind, so its block is a `Step`: the kind, with the
     names of the variables that the kind's statement is about;
  3. a shader that compiles ends with the main function of the steps in the order of the walk
     (`compile_eq_ok`, `preview_eq_ok`).
-/
import FragmentGraph.Graph.Basic
import Mathlib.Algebra.Group.Nat.Defs

namespace FragmentGraph

open Glsl
open Std (ExtTreeMap)

/-! ## The blocks of a circuit -/

/-- The text of a node's block; empty without emitter. -/
def Circuit.blockText (c : Circuit) (id : NodeId) : String :=
  match c.emitters[id]? with
  | some e => (c.block id e).render e.statement
  | none => ""

namespace Program

theorem statements_add (c : Circuit) (p : Program) (id : NodeId) :
    (p.add c id).statements = p.statements ++ c.blockText id := by
  rw [add, Circuit.blockText]
  cases c.emitters[id]? with
  | none => exact (String.append_empty).symm
  | some e => rfl

/-- The main function's section is the blocks in order. -/
theorem statements_ofOrder (c : Circuit) (order : List NodeId) :
    (ofOrder c order).statements = String.join (order.map c.blockText) := by
  have hfold : ∀ p : Program,
      (order.foldl (add c) p).statements = p.statements ++ String.join (order.map c.blockText) := by
    induction order with
    | nil => exact fun p => (String.append_empty).symm
    | cons id order ih =>
      intro p
      rw [List.foldl_cons, ih, statements_add, List.map_cons, String.join_cons, String.append_assoc]
  rw [ofOrder, hfold]
  exact String.empty_append

end Program

/-! ## The steps of a graph -/

/-- What a node does in the main function, with the node's kind. -/
structure Step where
  kind : Kind
  block : Block

/-- The text of a step. -/
def Step.text (step : Step) : String := step.block.render step.kind.statement

/-- The main function that takes the steps and ends with `tail`. -/
def mainText (steps : List Step) (tail : String) : String :=
  "\nvoid main() \x7b\n" ++ String.join (steps.map Step.text) ++ tail ++ "\x7d\n\n"

namespace Graph

variable {g : Graph} {id : NodeId} {node : Node} {s : Socket} {text : String}

/-- The step of a node. -/
def step (g : Graph) (id : NodeId) (node : Node) : Step :=
  ⟨node.kind, g.circuit.block id node.kind.emitter⟩

/-- The steps of nodes in order. -/
def steps (g : Graph) (order : List NodeId) : List Step :=
  order.filterMap fun id => (g.node? id).map (g.step id)

/-- The steps of the main function that a walk from `root` gives. -/
def main (g : Graph) (root : NodeId) : List Step := g.steps (g.circuit.walk root).order

/-- A node of a graph has the emitter of its kind. -/
theorem emitters_circuit (g : Graph) (id : NodeId) :
    g.circuit.emitters[id]? = (g.node? id).map fun node => node.kind.emitter :=
  ExtTreeMap.getElem?_map

theorem inputCount_circuit (hnode : g.node? id = some node) :
    g.circuit.inputCount id = node.kind.inputs.length := by
  rw [Circuit.inputCount, emitters_circuit, hnode]
  rfl

/-- The blocks of nodes in order are the texts of their steps. -/
theorem join_blockText (g : Graph) (order : List NodeId) :
    String.join (order.map g.circuit.blockText) = String.join ((g.steps order).map Step.text) := by
  induction order with
  | nil => rfl
  | cons id order ih =>
    rw [List.map_cons, String.join_cons, ih, steps, steps, List.filterMap_cons, Circuit.blockText,
      emitters_circuit]
    cases g.node? id with
    | none => exact String.empty_append
    | some node => exact (String.join_cons).symm

/-- The text of a graph's program ends with the main function of the steps. -/
theorem render_ofOrder (g : Graph) (order : List NodeId) (deferred tail : String) :
    ∃ head, { Program.ofOrder g.circuit order with deferred }.render tail
      = head ++ mainText (g.steps order) tail := by
  let p := Program.ofOrder g.circuit order
  refine ⟨p.declarations ++ p.ownCode ++ p.helpers ++ deferred, ?_⟩
  unfold mainText
  rw [← join_blockText, ← Program.statements_ofOrder, Program.render]
  simp only [String.append_assoc, p]

end Graph

/-! ## The variables of a step -/

theorem Kind.length_inputs_le (k : Kind) : k.inputs.length ≤ 6 := by
  cases k with
  | compose vector => cases vector <;> decide
  | _ => simp [inputs]

theorem Kind.length_outputs_le (k : Kind) : k.outputs.length ≤ 4 := by
  cases k with
  | decompose vector => cases vector <;> decide
  | _ => simp [outputs]

/-- Small indices are ports of their own. -/
theorem ofNat_inj_of_lt {i j : Nat} (hi : i < 2 ^ 32) (hj : j < 2 ^ 32) :
    UInt32.ofNat i = UInt32.ofNat j ↔ i = j := by
  rw [← UInt32.toNat_inj, UInt32.toNat_ofNat_of_lt' hi, UInt32.toNat_ofNat_of_lt' hj]

theorem Circuit.operand_of_none {c : Circuit} {s : Socket} (h : c.wiring.feeding? s = none) :
    c.operand s = .standIn s := by
  rw [operand, h]

theorem Circuit.operand_of_some {c : Circuit} {s : Socket} {l : Link}
    (h : c.wiring.feeding? s = some l) : c.operand s = .value l.source := by
  rw [operand, h]

namespace Graph

variable {g : Graph} {id : NodeId} {node : Node} {i : Nat}

theorem operands_step (g : Graph) (id : NodeId) (node : Node) :
    (g.step id node).block.operands = node.kind.inputs.zipIdx.map fun input =>
      (input.1, g.circuit.operand ⟨id, UInt32.ofNat input.2⟩) := rfl

theorem mem_operands_step {o : Ty × Variable} : o ∈ (g.step id node).block.operands ↔
    ∃ ty i, node.kind.inputs[i]? = some ty ∧ o = (ty, g.circuit.operand ⟨id, UInt32.ofNat i⟩) := by
  rw [operands_step, List.mem_map]
  constructor
  · rintro ⟨⟨ty, i⟩, hmem, rfl⟩
    exact ⟨ty, i, List.mem_zipIdx_iff_getElem?.mp hmem, rfl⟩
  · rintro ⟨ty, i, hi, rfl⟩
    exact ⟨(ty, i), List.mem_zipIdx_iff_getElem?.mpr hi, rfl⟩

/-- The results of a step are the variables of its node's outputs, each at the place of its port. -/
theorem mem_results_step {x : Variable} : (x, i) ∈ (g.step id node).block.results.zipIdx ↔
    i < node.kind.outputs.length ∧ x = .value ⟨id, UInt32.ofNat i⟩ := by
  rw [List.mem_zipIdx_iff_getElem?]
  show ((List.range node.kind.outputs.length).map fun j => Variable.value ⟨id, UInt32.ofNat j⟩)[i]?
    = some x ↔ _
  rw [List.getElem?_map, Option.map_eq_some_iff]
  constructor
  · rintro ⟨j, hj, rfl⟩
    obtain ⟨hlt, rfl⟩ := List.getElem?_eq_some_iff.mp hj
    rw [List.length_range] at hlt
    exact ⟨hlt, by rw [List.getElem_range]⟩
  · rintro ⟨hlt, rfl⟩
    exact ⟨i, List.getElem?_range hlt, rfl⟩

theorem steps_concat (hnode : g.node? id = some node) (before : List NodeId) :
    g.steps (before ++ [id]) = g.steps before ++ [g.step id node] := by
  rw [steps, List.filterMap_append, steps]
  simp [hnode]

end Graph

/-! ## Shaders that compile -/

/-- A program that is made has met no cycle. -/
theorem Circuit.program_eq_ok {c : Circuit} {root : NodeId} {render : Program → String}
    {text : String} (h : (c.program root).map render = .ok text) :
    (c.walk root).cycle = none ∧ text = render (.ofOrder c (c.walk root).order) := by
  rw [Circuit.program] at h
  cases hcycle : (c.walk root).cycle with
  | none =>
    simp only [hcycle, Except.map, Except.ok.injEq] at h
    exact ⟨rfl, h.symm⟩
  | some id => simp [hcycle, Except.map] at h

namespace Graph

variable {g : Graph} {s : Socket} {text : String}

/-- A shader that compiles has met no cycle and is the program of the walk. -/
theorem compile_eq_render (h : g.compile.result = .ok text) :
    (g.circuit.walk outputId).cycle = none ∧
      text = (Program.ofOrder g.circuit (g.circuit.walk outputId).order).render "" := by
  rw [compile, Circuit.compile] at h
  split at h
  · exact Circuit.program_eq_ok h
  · cases h

/-- A preview that compiles is of an output that is there, has met no cycle, and is the program of the
    walk with the colour declared. -/
theorem preview_eq_render (h : (g.preview s).result = .ok text) :
    (g.circuit.walk s.node).cycle = none ∧
      ∃ node ty, g.node? s.node = some node ∧ node.kind.outputs[s.port.toNat]? = some ty ∧
        text = { Program.ofOrder g.circuit (g.circuit.walk s.node).order with
          deferred := share (Program.ofOrder g.circuit (g.circuit.walk s.node).order).deferred
            colorDeclaration }.render (Circuit.previewTail s ty) := by
  rw [preview, Circuit.preview] at h
  cases hty : g.circuit.previewTy s with
  | error e => simp [hty] at h
  | ok ty =>
    simp only [hty] at h
    obtain ⟨hcycle, rfl⟩ := Circuit.program_eq_ok h
    rw [Circuit.previewTy, emitters_circuit] at hty
    cases hnode : g.node? s.node with
    | none => simp [hnode] at hty
    | some node =>
      have hfound : g.circuit.nodes[s.node]? = some node := hnode
      simp only [hfound, hnode, Option.map_some] at hty
      cases hport : node.kind.outputs[s.port.toNat]? with
      | none => simp [Kind.emitter, hport] at hty
      | some found =>
        obtain rfl : found = ty := by simpa [Kind.emitter, hport] using hty
        exact ⟨hcycle, node, found, rfl, hport, rfl⟩

/-- A shader that compiles ends with the main function. -/
theorem compile_eq_ok (h : g.compile.result = .ok text) :
    (g.circuit.walk outputId).cycle = none ∧ ∃ head, text = head ++ mainText (g.main outputId) "" := by
  obtain ⟨hcycle, rfl⟩ := compile_eq_render h
  exact ⟨hcycle, g.render_ofOrder _ _ ""⟩

/-- A preview that compiles ends with the main function. -/
theorem preview_eq_ok (h : (g.preview s).result = .ok text) :
    (g.circuit.walk s.node).cycle = none ∧
      ∃ head node ty, g.node? s.node = some node ∧ node.kind.outputs[s.port.toNat]? = some ty ∧
        text = head ++ mainText (g.main s.node) (Circuit.previewTail s ty) := by
  obtain ⟨hcycle, node, ty, hnode, hty, rfl⟩ := preview_eq_render h
  -- the declaration of the colour is shared into the head, so the main function is not touched
  obtain ⟨head, hhead⟩ := g.render_ofOrder (g.circuit.walk s.node).order
    (share (Program.ofOrder g.circuit (g.circuit.walk s.node).order).deferred colorDeclaration)
    (Circuit.previewTail s ty)
  exact ⟨hcycle, head, node, ty, hnode, hty, hhead⟩

end Graph

end FragmentGraph
