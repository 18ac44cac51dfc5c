/-
  The statement of a kind and the ports of a kind.

  A kind says three times how many ports it has: in its inputs and outputs, in the count of names that its
  statement asks for, and in the slots of its template.  Were one of the three out of step, a node would
  lose its code, or an input would be ignored, and nothing would complain.

  1. **Slots** — the template has the slots of the kind's ports and no others: every input is read
     (`exists_reads_template`), every output is declared once, under its type, and what else is used is
     declared (`slots_template`).

  2. **Names** — so the text reads no name beyond those of the ports (`render_take`).  It is never empty,
     since every statement ends with a newline (`Stmt.render_ne_empty`).
-/
import FragmentGraph.Proofs.Kind.Statement
import FragmentGraph.Proofs.Kind.Template
import FragmentGraph.Shader.Circuit

namespace FragmentGraph

open Glsl Text

namespace Kind

/-! ## Slots -/

theorem template_ne_nil (k : Kind) : k.template ≠ [] := by
  cases k with
  | decompose vector => cases vector <;> simp [template, VectorTy.ty, Ty.components]
  | _ => simp [template, result]

/-- Every input is read. -/
theorem exists_reads_template (k : Kind) {i : Nat} (hi : i < k.inputs.length) :
    ∃ s ∈ k.template, .input i ∈ s.reads := by
  cases k with
  | decompose vector =>
    obtain rfl : i = 0 := Nat.lt_one_iff.mp hi
    refine ⟨.declare .float (.output 0) (.swizzle (operand 0) (letters.getD 0 "")), ?_, ?_⟩
    · cases vector <;> simp [template, VectorTy.ty, Ty.components, List.range_succ]
    · simp [Stmt.reads, Expr.vars]
  | branch =>
    have hi : i < 6 := hi
    refine ⟨_, List.mem_cons_of_mem _ List.mem_cons_self, ?_⟩
    simp only [Stmt.reads, Expr.vars, Expr.allVars, vars_operand, List.mem_append, List.mem_singleton,
      List.not_mem_nil, Slot.input.injEq]
    omega
  | input _ | constant _ => exact absurd hi (Nat.not_lt_zero i)
  | compose vector =>
    have hi : i < vector.ty.components := by simpa [inputs] using hi
    refine ⟨_, List.mem_cons_self, ?_⟩
    simpa [Stmt.reads, Expr.vars] using hi
  | _ =>
    refine ⟨_, List.mem_cons_self, ?_⟩
    simp only [inputs, List.length_cons, List.length_nil] at hi
    simp only [Stmt.reads, BinaryOp.vars_apply, UnaryFn.vars_apply, Comparison.vars_apply, Expr.vars,
      Expr.allVars, vars_operand, List.mem_append, List.mem_singleton, List.not_mem_nil,
      Slot.input.injEq]
    omega

/-- The slots of a template are those of the kind's ports. -/
theorem slots_template {k : Kind} {s : Stmt Slot} (hs : s ∈ k.template) {x : Slot} (hx : x ∈ s.slots) :
    (∃ i < k.inputs.length, x = .input i) ∨ (∃ j < k.outputs.length, x = .output j) := by
  have hdeclared : ∀ y ∈ (Stmt.declarations k.template).map Prod.snd,
      ∃ j < k.outputs.length, y = .output j := by
    intro y hy
    rw [declarations_template, List.map_map] at hy
    obtain ⟨⟨ty, j⟩, hj, rfl⟩ := List.mem_map.mp hy
    exact ⟨j, by simpa using (List.mem_zipIdx hj).2.1, rfl⟩
  rcases List.mem_append.mp hx with hx | hx
  · obtain ⟨declaration, hdeclaration, rfl⟩ := Option.map_eq_some_iff.mp (Option.mem_toList.mp hx)
    refine Or.inr (hdeclared _ (List.mem_map.mpr ⟨declaration, ?_, rfl⟩))
    exact List.mem_filterMap.mpr ⟨s, hs, hdeclaration⟩
  · obtain ⟨before, after, hsplit⟩ := List.append_of_mem hs
    rcases uses_template hsplit hx with hinput | hbefore
    · exact Or.inl hinput
    · refine Or.inr (hdeclared x ?_)
      rw [hsplit, Stmt.declarations_append, List.map_append]
      exact List.mem_append_left _ hbefore

/-! ## Names -/

/-- The text of a template reads the names of the ports and no others. -/
theorem render_take (k : Kind) (inputs outputs : List String) :
    k.template.render (inputs.take k.inputs.length) (outputs.take k.outputs.length)
      = k.template.render inputs outputs := by
  have hgetD : ∀ (names : List String) {i n : Nat}, i < n → (names.take n).getD i "" = names.getD i "" := by
    intro names i n hi
    rw [List.getD_eq_getElem?_getD, List.getD_eq_getElem?_getD, List.getElem?_take_of_lt hi]
  rw [Template.render, Template.render]
  refine congrArg String.join (List.map_congr_left fun s hs => congrArg Stmt.render ?_)
  refine Stmt.map_congr fun x hx => ?_
  rcases slots_template hs hx with ⟨i, hi, rfl⟩ | ⟨j, hj, rfl⟩
  · exact hgetD inputs hi
  · exact hgetD outputs hj

theorem render_template_ne_empty (k : Kind) (inputs outputs : List String) :
    k.template.render inputs outputs ≠ "" := by
  intro h
  rw [Template.render] at h
  cases htemplate : k.template with
  | nil => exact k.template_ne_nil htemplate
  | cons s rest =>
    rw [htemplate, List.map_cons, String.join_cons] at h
    exact Stmt.render_ne_empty _ (String.append_eq_empty_iff.mp h).1

theorem statement_of_le {k : Kind} {inputs outputs : List String}
    (hinputs : k.inputs.length ≤ inputs.length) (houtputs : k.outputs.length ≤ outputs.length) :
    k.statement inputs outputs = k.template.render inputs outputs := by
  rw [statement, arity_eq]
  exact if_neg (not_or.mpr ⟨Nat.not_lt.mpr hinputs, Nat.not_lt.mpr houtputs⟩)

/-- A statement is empty exactly if a port has no name. -/
theorem statement_eq_empty_iff (k : Kind) (inputs outputs : List String) :
    k.statement inputs outputs = "" ↔
      inputs.length < k.inputs.length ∨ outputs.length < k.outputs.length := by
  by_cases hmissing : inputs.length < k.inputs.length ∨ outputs.length < k.outputs.length
  · rw [statement, arity_eq, if_pos hmissing]
    exact ⟨fun _ => hmissing, fun _ => rfl⟩
  · obtain ⟨hinputs, houtputs⟩ := not_or.mp hmissing
    rw [statement_of_le (Nat.le_of_not_lt hinputs) (Nat.le_of_not_lt houtputs)]
    exact ⟨fun h => absurd h (k.render_template_ne_empty inputs outputs), fun h => absurd h hmissing⟩

end Kind

/-- The emitter of a node is that of its kind, whatever the node's id. -/
theorem Nodes.emitters_of_node {nodes : Nodes} {id : NodeId} {node : Node}
    (hnode : nodes[id]? = some node) : nodes.emitters[id]? = some node.kind.emitter := by
  rw [emitters, Std.ExtTreeMap.getElem?_map, hnode, Option.map_some]

/-- **The statement of a kind matches its ports.**  A node of the kind has the kind's statement, whatever
    its id.  The statement is empty exactly if a port has no name.  Otherwise it is the kind's template with
    the names of the ports in the slots, and further names do not count.  The slots that the template reads
    are those of the inputs, and it declares the outputs, in order and each once, under their types.  If no
    name holds a newline, the text is whole lines that begin with a tab. -/
theorem Kind.statement_matches_ports (k : Kind) :
    (∀ (nodes : Nodes) (id : NodeId) (node : Node), nodes[id]? = some node → node.kind = k →
      nodes.emitters[id]?.map Emitter.statement = some k.statement) ∧
    (∀ inputs outputs, k.statement inputs outputs = "" ↔
      inputs.length < k.inputs.length ∨ outputs.length < k.outputs.length) ∧
    (∀ inputs outputs, k.inputs.length ≤ inputs.length → k.outputs.length ≤ outputs.length →
      k.statement inputs outputs
        = k.template.render (inputs.take k.inputs.length) (outputs.take k.outputs.length)) ∧
    (∀ x, (∃ s ∈ k.template, x ∈ s.reads) ↔ ∃ i < k.inputs.length, x = .input i) ∧
    Stmt.declarations k.template = k.outputs.zipIdx.map (fun o => (o.1, .output o.2)) ∧
    (∀ inputs outputs, (∀ name ∈ inputs, OneLine name) → (∀ name ∈ outputs, OneLine name) →
      Indented (k.statement inputs outputs)) := by
  refine ⟨fun nodes id node hnode hkind => ?_, k.statement_eq_empty_iff,
    fun inputs outputs hinputs houtputs => ?_, fun x => ⟨?_, ?_⟩, k.declarations_template,
    fun inputs outputs hinputs houtputs => k.indented_statement hinputs houtputs⟩
  · rw [Nodes.emitters_of_node hnode, hkind]
    rfl
  · rw [statement_of_le hinputs houtputs, render_take]
  · rintro ⟨s, hs, hx⟩
    exact k.reads_template s hs x hx
  · rintro ⟨i, hi, rfl⟩
    exact k.exists_reads_template hi

example : (Kind.decompose .vec2).statement ["v", "spare"] ["a", "b", "c"]
    = "\tfloat a = v.x;\n\tfloat b = v.y;\n" := by rfl

end FragmentGraph
