/-
  The statements of a main function.

  The main function of a graph's shader is a text, and the text is that of statements: the stand-ins that
  a node declares, then the statements of its kind's template with names in the slots.  `Step.code` keeps
  them as statements, so that it can be asked what they declare and what they use.

  1. **Steps** — filling the slots of a step gives the text of its block (`Graph.text_step`) and makes it
     declare its `locals`: a stand-in for every input that nothing feeds, and a variable for every output.

  2. **Places** — a statement of the main function stands in the step of some node, behind the code of
     the nodes that came before; it declares a stand-in, or it comes from the template
     (`Graph.exists_place`).
-/
import FragmentGraph.Proofs.Graph.Reach
import FragmentGraph.Proofs.Kind.Template
import FragmentGraph.Proofs.Socket.Name
import Mathlib.Data.List.Nodup

namespace FragmentGraph

open Glsl

/-! ## The code of a step -/

namespace Step

/-- The names that a step puts into the slots of its template. -/
def fill (step : Step) : Slot → String :=
  Slot.fill (step.block.operands.map fun o => o.2.name) (step.block.results.map Variable.name)

/-- The declarations of the step's stand-ins. -/
def defaults (step : Step) : List (Stmt String) :=
  step.block.standIns.map fun o => .declare o.1 o.2.name o.1.zero

/-- The statements of a step: the stand-ins, then the template with its slots filled. -/
def code (step : Step) : List (Stmt String) :=
  step.defaults ++ step.kind.template.map (Stmt.map step.fill)

/-- What a step declares: its stand-ins and its results. -/
def locals (step : Step) : List (Ty × Variable) :=
  step.block.standIns
    ++ step.kind.outputs.zipIdx.map fun o => (o.1, .value ⟨step.block.id, UInt32.ofNat o.2⟩)

end Step

/-- The statements of a main function that takes the steps and ends with `last`. -/
def mainCode (steps : List Step) (last : List (Stmt String)) : List (Stmt String) :=
  steps.flatMap Step.code ++ last

/-- The text of those statements: every step has its header above it and a blank line below. -/
def codeText (steps : List Step) (last : List (Stmt String)) : String :=
  "\nvoid main() \x7b\n"
    ++ String.join (steps.map fun step =>
        step.block.header ++ String.join (step.code.map Stmt.render) ++ "\n")
    ++ String.join (last.map Stmt.render) ++ "\x7d\n\n"

namespace Graph

variable {g : Graph} {id : NodeId} {node : Node} {ty : Ty} {i : Nat}

theorem results_step (g : Graph) (id : NodeId) (node : Node) :
    (g.step id node).block.results
      = (List.range node.kind.outputs.length).map fun j => .value ⟨id, UInt32.ofNat j⟩ := rfl

theorem fill_input (hi : i < node.kind.inputs.length) :
    (g.step id node).fill (.input i) = (g.circuit.operand ⟨id, UInt32.ofNat i⟩).name := by
  show List.getD _ i "" = _
  rw [operands_step, List.map_map, List.getD_eq_getElem?_getD, List.getElem?_map,
    List.getElem?_zipIdx, List.getElem?_eq_getElem hi]
  simp

theorem fill_output (hi : i < node.kind.outputs.length) :
    (g.step id node).fill (.output i) = (Variable.value ⟨id, UInt32.ofNat i⟩).name := by
  show List.getD _ i "" = _
  rw [results_step, List.map_map, List.getD_eq_getElem?_getD, List.getElem?_map,
    List.getElem?_range hi]
  rfl

/-- The text of a step is that of its code, between the header and a blank line. -/
theorem text_step (g : Graph) (id : NodeId) (node : Node) :
    (g.step id node).text
      = (g.step id node).block.header
        ++ String.join ((g.step id node).code.map Stmt.render) ++ "\n" := by
  -- there is a name for every port, so the statement is the template's
  have hstatement : (g.step id node).kind.statement
      ((g.step id node).block.operands.map fun o => o.2.name)
      ((g.step id node).block.results.map Variable.name)
      = String.join ((g.step id node).kind.template.map fun s =>
          (s.map (g.step id node).fill).render) := by
    refine if_neg ?_
    rw [Kind.arity_eq, operands_step, results_step, List.length_map, List.length_map, List.length_map,
      List.length_map, List.length_zipIdx, List.length_range]
    exact not_or.mpr ⟨Nat.lt_irrefl _, Nat.lt_irrefl _⟩
  rw [Step.text, Block.render, hstatement, Step.code, List.map_append, String.join_append,
    Step.defaults, List.map_map, List.map_map, ← String.append_assoc]
  rfl

/-- The main function of steps is the text of their code. -/
theorem mainText_steps (g : Graph) (order : List NodeId) (last : List (Stmt String)) :
    mainText (g.steps order) (String.join (last.map Stmt.render))
      = codeText (g.steps order) last := by
  have htexts : (g.steps order).map Step.text = (g.steps order).map fun step =>
      step.block.header ++ String.join (step.code.map Stmt.render) ++ "\n" := by
    refine List.map_congr_left fun step hstep => ?_
    obtain ⟨id, _, hid⟩ := List.mem_filterMap.mp hstep
    obtain ⟨node, _, rfl⟩ := Option.map_eq_some_iff.mp hid
    exact g.text_step id node
  unfold mainText codeText
  rw [htexts]

end Graph

/-! ## The locals of a step -/

/-- The socket that a variable stands for. -/
def Variable.socket : Variable → Socket
  | value s => s
  | standIn s => s

namespace Graph

variable {g : Graph} {id : NodeId} {node : Node} {ty : Ty} {i : Nat} {order : List NodeId}

/-- A step has stand-ins for the inputs that nothing feeds, in order. -/
theorem standIns_step (g : Graph) (id : NodeId) (node : Node) :
    (g.step id node).block.standIns
      = (node.kind.inputs.zipIdx.filter fun input =>
          (g.wiring.feeding? ⟨id, UInt32.ofNat input.2⟩).isNone).map fun input =>
            (input.1, .standIn ⟨id, UInt32.ofNat input.2⟩) := by
  have hoperand : ∀ s : Socket, (g.circuit.operand s).isStandIn = (g.wiring.feeding? s).isNone := by
    intro s
    cases hfed : g.wiring.feeding? s with
    | none => rw [Circuit.operand_of_none hfed]; rfl
    | some l => rw [Circuit.operand_of_some hfed]; rfl
  rw [Block.standIns, operands_step, List.filter_map]
  simp only [Function.comp_def, hoperand]
  refine List.map_congr_left fun input hinput => ?_
  have hfree : g.wiring.feeding? ⟨id, UInt32.ofNat input.2⟩ = none := by
    simpa using (List.mem_filter.mp hinput).2
  rw [Circuit.operand_of_none hfree]

theorem declarations_defaults (step : Step) :
    Stmt.declarations step.defaults = step.block.standIns.map fun o => (o.1, o.2.name) := by
  rw [Step.defaults, Stmt.declarations, List.filterMap_map]
  exact congrFun (List.filterMap_eq_map (f := fun o : Ty × Variable => (o.1, o.2.name))) _

/-- The code of a step declares its locals, in order. -/
theorem declarations_code (g : Graph) (id : NodeId) (node : Node) :
    Stmt.declarations (g.step id node).code
      = (g.step id node).locals.map fun o => (o.1, o.2.name) := by
  have hresults : ((node.kind.outputs.zipIdx.map fun o => (o.1, Slot.output o.2)).map fun d =>
        (d.1, (g.step id node).fill d.2))
      = (node.kind.outputs.zipIdx.map fun o =>
          (o.1, Variable.value ⟨id, UInt32.ofNat o.2⟩)).map fun o => (o.1, o.2.name) := by
    rw [List.map_map, List.map_map]
    refine List.map_congr_left fun o ho => ?_
    have hlt := (List.getElem?_eq_some_iff.mp (List.mem_zipIdx_iff_getElem?.mp ho)).1
    exact congrArg (Prod.mk o.1) (fill_output hlt)
  rw [Step.code, Stmt.declarations_append, declarations_defaults, Stmt.declarations_map,
    show (g.step id node).kind = node.kind from rfl, Kind.declarations_template, hresults,
    ← List.map_append]
  rfl

/-- A local of a step is the stand-in for an input that nothing feeds, or the variable for an output. -/
theorem mem_locals_step {x : Variable} : (ty, x) ∈ (g.step id node).locals ↔
    (∃ i, node.kind.inputs[i]? = some ty ∧ g.wiring.feeding? ⟨id, UInt32.ofNat i⟩ = none ∧
      x = .standIn ⟨id, UInt32.ofNat i⟩) ∨
    (∃ j, node.kind.outputs[j]? = some ty ∧ x = .value ⟨id, UInt32.ofNat j⟩) := by
  rw [Step.locals, List.mem_append, standIns_step]
  refine or_congr ?_ ?_
  · simp only [List.mem_map, List.mem_filter, List.mem_zipIdx_iff_getElem?, Prod.exists,
      Prod.mk.injEq, Option.isNone_iff_eq_none]
    constructor
    · rintro ⟨_, i, ⟨hi, hfree⟩, rfl, rfl⟩
      exact ⟨i, hi, hfree, rfl⟩
    · rintro ⟨i, hi, hfree, rfl⟩
      exact ⟨ty, i, ⟨hi, hfree⟩, rfl, rfl⟩
  · simp only [List.mem_map, List.mem_zipIdx_iff_getElem?, Prod.exists, Prod.mk.injEq]
    constructor
    · rintro ⟨_, j, hj, rfl, rfl⟩
      exact ⟨j, hj, rfl⟩
    · rintro ⟨j, hj, rfl⟩
      exact ⟨ty, j, hj, rfl, rfl⟩

/-- A step declares variables of its own node only. -/
theorem node_of_mem_locals {o : Ty × Variable} (ho : o ∈ (g.step id node).locals) :
    o.2.socket.node = id := by
  rcases mem_locals_step.mp ho with ⟨_, _, _, hx⟩ | ⟨_, _, hx⟩
  · rw [hx]; rfl
  · rw [hx]; rfl

/-- Ports of one node have variables of their own. -/
theorem nodup_ports {tys : List Ty} {entries : List (Ty × Nat)} {sort : Socket → Variable}
    (id : NodeId) (hlength : tys.length ≤ 6) (hentries : entries.Sublist tys.zipIdx)
    (hinj : ∀ s t, sort s = sort t → s = t) :
    (entries.map fun entry => sort ⟨id, UInt32.ofNat entry.2⟩).Nodup := by
  have hports : (entries.map Prod.snd).Nodup := by
    have hsub := hentries.map Prod.snd
    rw [List.zipIdx_map_snd] at hsub
    exact hsub.nodup List.nodup_range'
  have hlt : ∀ i ∈ entries.map Prod.snd, i < 2 ^ 32 := by
    intro i hi
    obtain ⟨entry, hentry, rfl⟩ := List.mem_map.mp hi
    have := (List.getElem?_eq_some_iff.mp
      (List.mem_zipIdx_iff_getElem?.mp (hentries.subset hentry))).1
    omega
  have hnodup := List.Nodup.map_on (f := fun i => sort ⟨id, UInt32.ofNat i⟩)
    (fun i hi j hj hsame => (ofNat_inj_of_lt (hlt i hi) (hlt j hj)).mp
      (congrArg Socket.port (hinj _ _ hsame))) hports
  rwa [List.map_map] at hnodup

/-- A step declares no variable twice. -/
theorem nodup_locals_step (g : Graph) (id : NodeId) (node : Node) :
    ((g.step id node).locals.map Prod.snd).Nodup := by
  rw [Step.locals, List.map_append, standIns_step, List.map_map, List.map_map, List.nodup_append]
  refine ⟨nodup_ports id node.kind.length_inputs_le List.filter_sublist
    fun _ _ => Variable.standIn.inj, nodup_ports id (Nat.le_trans node.kind.length_outputs_le (by omega))
    (List.Sublist.refl _) fun _ _ => Variable.value.inj, fun x hx y hy => ?_⟩
  obtain ⟨_, _, rfl⟩ := List.mem_map.mp hx
  obtain ⟨_, _, rfl⟩ := List.mem_map.mp hy
  exact fun h => by cases h

/-- What the steps of nodes declare, in order. -/
def locals (g : Graph) (order : List NodeId) : List (Ty × Variable) :=
  (g.steps order).flatMap Step.locals

theorem mem_locals {o : Ty × Variable} : o ∈ g.locals order ↔
    ∃ id ∈ order, ∃ node, g.node? id = some node ∧ o ∈ (g.step id node).locals := by
  simp only [locals, steps, List.mem_flatMap, List.mem_filterMap, Option.map_eq_some_iff]
  constructor
  · rintro ⟨_, ⟨id, hid, node, hnode, rfl⟩, ho⟩
    exact ⟨id, hid, node, hnode, ho⟩
  · rintro ⟨id, hid, node, hnode, ho⟩
    exact ⟨_, ⟨id, hid, node, hnode, rfl⟩, ho⟩

/-- Steps of different nodes declare different variables. -/
theorem nodup_locals (horder : order.Nodup) : ((g.locals order).map Prod.snd).Nodup := by
  rw [locals, List.map_flatMap, List.nodup_iff_pairwise_ne, List.pairwise_flatMap]
  constructor
  · intro step hstep
    obtain ⟨id, _, hid⟩ := List.mem_filterMap.mp hstep
    obtain ⟨node, _, rfl⟩ := Option.map_eq_some_iff.mp hid
    exact g.nodup_locals_step id node
  · rw [steps, List.pairwise_filterMap]
    refine horder.imp fun {id id'} hne step hstep step' hstep' x hx y hy hxy => hne ?_
    obtain ⟨node, _, rfl⟩ := Option.map_eq_some_iff.mp hstep
    obtain ⟨node', _, rfl⟩ := Option.map_eq_some_iff.mp hstep'
    obtain ⟨o, ho, rfl⟩ := List.mem_map.mp hx
    obtain ⟨o', ho', rfl⟩ := List.mem_map.mp hy
    rw [← node_of_mem_locals ho, ← node_of_mem_locals ho', hxy]

/-- The code of a main function declares the locals of its steps, under their names. -/
theorem declarations_steps (g : Graph) (order : List NodeId) :
    Stmt.declarations ((g.steps order).flatMap Step.code)
      = (g.locals order).map fun o => (o.1, o.2.name) := by
  rw [locals, Stmt.declarations, List.filterMap_flatMap, List.map_flatMap]
  refine List.flatMap_congr fun step hstep => ?_
  obtain ⟨id, _, hid⟩ := List.mem_filterMap.mp hstep
  obtain ⟨node, _, rfl⟩ := Option.map_eq_some_iff.mp hid
  exact g.declarations_code id node

end Graph

/-! ## The place of a statement -/

/-- A member of lists put together stands in one of them, behind all lists before that one. -/
theorem flatMap_eq_append_cons {α β : Type} {f : α → List β} {xs : List α} {earlier later : List β}
    {y : β} (h : xs.flatMap f = earlier ++ y :: later) :
    ∃ before x after inner rest, xs = before ++ x :: after ∧ f x = inner ++ y :: rest ∧
      earlier = before.flatMap f ++ inner := by
  induction xs generalizing earlier with
  | nil => simp at h
  | cons x xs ih =>
    rw [List.flatMap_cons] at h
    rcases List.append_eq_append_iff.mp h with ⟨inner, rfl, hrest⟩ | ⟨tail, hx, htail⟩
    · obtain ⟨before, x', after, inner', rest, rfl, hx', rfl⟩ := ih hrest
      exact ⟨x :: before, x', after, inner', rest, rfl, hx', by simp⟩
    · cases tail with
      | nil =>
        rw [List.append_nil] at hx
        obtain ⟨before, x', after, inner', rest, rfl, hx', hinner⟩ := @ih [] htail.symm
        refine ⟨x :: before, x', after, inner', rest, rfl, hx', ?_⟩
        rw [List.flatMap_cons, List.append_assoc, ← hinner, List.append_nil, hx]
      | cons _ tail =>
        obtain ⟨rfl, _⟩ := List.cons.inj htail
        exact ⟨[], x, xs, earlier, tail, rfl, hx, rfl⟩

namespace Graph

variable {g : Graph} {order : List NodeId} {earlier later : List (Stmt String)} {s : Stmt String}

/-- A statement of the steps of nodes belongs to the step of one of them.  It declares a stand-in with
    its value, or fills a statement of the template, and then the stand-ins of the step, the template's
    statements before it, and the code of the nodes before are what stands before it. -/
theorem exists_place (h : (g.steps order).flatMap Step.code = earlier ++ s :: later) :
    ∃ before id after node, order = before ++ id :: after ∧ g.node? id = some node ∧
      ((∃ ty x, s = .declare ty x ty.zero) ∨
       ∃ above t below, node.kind.template = above ++ t :: below ∧
        s = t.map (g.step id node).fill ∧
        earlier = (g.steps before).flatMap Step.code
          ++ ((g.step id node).defaults ++ above.map (Stmt.map (g.step id node).fill))) := by
  obtain ⟨stepsBefore, step, stepsAfter, inner, rest, hsteps, hcode, rfl⟩ := flatMap_eq_append_cons h
  -- the steps come from nodes of the order, those without a node giving none
  obtain ⟨front, back, rfl, hfront, hback⟩ := List.filterMap_eq_append_iff.mp hsteps
  obtain ⟨skipped, id, after, rfl, hskipped, hid, _⟩ := List.filterMap_eq_cons_iff.mp hback
  obtain ⟨node, hnode, rfl⟩ := Option.map_eq_some_iff.mp hid
  have hbefore : g.steps (front ++ skipped) = stepsBefore := by
    rw [steps, List.filterMap_append, hfront, List.filterMap_eq_nil_iff.mpr hskipped, List.append_nil]
  refine ⟨front ++ skipped, id, after, node, by simp, hnode, ?_⟩
  rw [hbefore]
  rcases List.append_eq_append_iff.mp hcode with ⟨above, rfl, htemplate⟩ | ⟨tail, hdefaults, htail⟩
  · right
    obtain ⟨above', t', hsplit, rfl, ht'⟩ := List.map_eq_append_iff.mp htemplate
    obtain ⟨t, below, rfl, rfl, _⟩ := List.map_eq_cons_iff.mp ht'
    exact ⟨above', t, below, hsplit, rfl, rfl⟩
  · cases tail with
    | nil =>
      right
      rw [List.append_nil] at hdefaults
      obtain ⟨t, below, hsplit, rfl, _⟩ := List.map_eq_cons_iff.mp htail.symm
      exact ⟨[], t, below, hsplit, rfl, by rw [hdefaults]; simp⟩
    | cons _ tail =>
      left
      obtain ⟨rfl, _⟩ := List.cons.inj htail
      have hs : s ∈ (g.step id node).defaults := by rw [hdefaults]; simp
      obtain ⟨o, _, rfl⟩ := List.mem_map.mp hs
      exact ⟨o.1, o.2.name, rfl⟩

end Graph

end FragmentGraph
