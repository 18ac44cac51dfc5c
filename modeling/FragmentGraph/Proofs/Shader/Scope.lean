/-
  Locals are declared once and before they are used.

  A shader that breaks this does not compile, so it has to hold of every main function.  Four things come
  together:

  1. names tell variables, and steps of different nodes declare different variables, so no name is
     declared twice (`Graph.nodup_locals`);
  2. a statement uses inputs of its node or what its own step has declared (`Kind.uses_template`);
  3. an input that nothing feeds has its stand-in declared at the head of the step;
  4. an input that is fed reads an output of a node that the walk has emitted before, and that output is
     there, so the step of that node has declared it (`operand_declared`).

  So the code of a main function is `Scoped`, and that of a preview stays so when the statement that shows
  the output is put behind it.

  What is declared has a type as well.  `uses_declared` keeps it: where links join ports of one type
  (`Graph.Matched`), the variable in a slot has the type of the slot.
-/
import FragmentGraph.Proofs.Graph.Calls
import FragmentGraph.Proofs.Shader.Code

namespace FragmentGraph

open Glsl

/-! ## Types of ports -/

/-- The type of an input or output of a kind, by its slot. -/
def Kind.slotTy? (k : Kind) : Slot → Option Ty
  | .input i => k.inputs[i]?
  | .output j => k.outputs[j]?

namespace Graph

/-- The type of an input of the graph. -/
def inputTy? (g : Graph) (s : Socket) : Option Ty :=
  (g.node? s.node).bind fun node => node.kind.inputs[s.port.toNat]?

/-- The type of an output of the graph. -/
def outputTy? (g : Graph) (s : Socket) : Option Ty :=
  (g.node? s.node).bind fun node => node.kind.outputs[s.port.toNat]?

/-- Every link joins an output and an input of the same type. -/
def Matched (g : Graph) : Prop := ∀ l ∈ g.wiring.links, g.outputTy? l.source = g.inputTy? l.target

/-! ## What a step finds declared -/

variable {g : Graph} {root id : NodeId} {node : Node} {before after : List NodeId} {ty : Ty} {i : Nat}

theorem toNat_ofNat_of_input (hi : node.kind.inputs[i]? = some ty) : (UInt32.ofNat i).toNat = i := by
  have hlt := (List.getElem?_eq_some_iff.mp hi).1
  have hlength := node.kind.length_inputs_le
  exact UInt32.toNat_ofNat_of_lt' (show i < 2 ^ 32 by omega)

/-- What an input reads is declared by the steps before, or is a stand-in of the step itself; where links
    join ports of one type, it has the type of the input. -/
theorem operand_declared (hg : g.WellFormed) (hcycle : (g.circuit.walk root).cycle = none)
    (hsplit : (g.circuit.walk root).order = before ++ id :: after) (hnode : g.node? id = some node)
    (hi : node.kind.inputs[i]? = some ty) :
    ∃ ty', (ty', g.circuit.operand ⟨id, UInt32.ofNat i⟩)
        ∈ g.locals before ++ (g.step id node).block.standIns ∧
      (g.Matched → ty' = ty) := by
  cases hfed : g.wiring.feeding? ⟨id, UInt32.ofNat i⟩ with
  | none =>
    refine ⟨ty, List.mem_append_right _ (List.mem_filter.mpr ⟨?_, ?_⟩), fun _ => rfl⟩
    · exact mem_operands_step.mpr ⟨ty, i, hi, rfl⟩
    · rw [Circuit.operand_of_none hfed]
      rfl
  | some l =>
    have hlive := hg.wired.keyed.live hfed
    obtain ⟨source, _, hsource, _, hport, _⟩ := hg.joined l hlive
    obtain ⟨ty', hty'⟩ : ∃ ty', source.kind.outputs[l.source.port.toNat]? = some ty' :=
      ⟨_, List.getElem?_eq_getElem hport⟩
    -- the node of the output is emitted before, as the input depends on it
    have hcount : i < g.circuit.inputCount id := by
      rw [inputCount_circuit hnode]
      exact (List.getElem?_eq_some_iff.mp hi).1
    have hdep : g.circuit.DependsOn id l.source.node :=
      Circuit.dependsOn_of_feeder? hcount (Circuit.feeder?_eq_some.mpr ⟨l, hfed, rfl⟩)
    have hbefore := Circuit.mem_before_of_dependsOn hcycle hsplit hdep
    refine ⟨ty', List.mem_append_left _ (mem_locals.mpr ⟨_, hbefore, source, hsource, ?_⟩), ?_⟩
    · rw [Circuit.operand_of_some hfed]
      refine mem_locals_step.mpr (Or.inr ⟨l.source.port.toNat, hty', ?_⟩)
      rw [UInt32.ofNat_toNat]
    · intro hmatched
      have hends := hmatched l ((Wiring.mem_links_iff hg.wired.keyed).mpr hlive)
      have htarget : l.target = ⟨id, UInt32.ofNat i⟩ := hg.wired.keyed _ l hfed
      rw [outputTy?, hsource, Option.bind_some, hty', inputTy?, htarget, hnode, Option.bind_some,
        toNat_ofNat_of_input hi, hi] at hends
      exact Option.some.inj hends

/-- What a statement of a template uses is declared, under the name in its slot, by the statements before
    it; where links join ports of one type, it has the type of the slot. -/
theorem uses_declared (hg : g.WellFormed) (hcycle : (g.circuit.walk root).cycle = none)
    (hsplit : (g.circuit.walk root).order = before ++ id :: after) (hnode : g.node? id = some node)
    {above below : Template} {t : Stmt Slot} (htemplate : node.kind.template = above ++ t :: below)
    {x : Slot} (hx : x ∈ t.uses) :
    ∃ ty, (ty, (g.step id node).fill x) ∈ Stmt.declarations ((g.steps before).flatMap Step.code
        ++ ((g.step id node).defaults ++ above.map (Stmt.map (g.step id node).fill))) ∧
      (g.Matched → node.kind.slotTy? x = some ty) := by
  rw [Stmt.declarations_append, Stmt.declarations_append, declarations_steps, Stmt.declarations_map,
    declarations_defaults]
  rcases Kind.uses_template htemplate hx with ⟨i, hi, rfl⟩ | hdeclared
  · obtain ⟨ty, hmem, hty⟩ :=
      operand_declared hg hcycle hsplit hnode (List.getElem?_eq_getElem hi)
    refine ⟨ty, ?_, fun hmatched => ?_⟩
    · rw [fill_input hi, ← List.append_assoc, ← List.map_append]
      exact List.mem_append_left _ (List.mem_map.mpr ⟨_, hmem, rfl⟩)
    · rw [hty hmatched]
      exact List.getElem?_eq_getElem hi
  · -- a result that the template has declared itself
    obtain ⟨⟨ty, y⟩, hmem, rfl⟩ := List.mem_map.mp hdeclared
    refine ⟨ty, ?_, fun _ => ?_⟩
    · exact List.mem_append_right _ (List.mem_append_right _ (List.mem_map.mpr ⟨_, hmem, rfl⟩))
    · have houtput : (ty, y) ∈ Stmt.declarations node.kind.template := by
        rw [htemplate, Stmt.declarations_append]
        exact List.mem_append_left _ hmem
      rw [Kind.declarations_template] at houtput
      obtain ⟨o, ho, heq⟩ := List.mem_map.mp houtput
      obtain ⟨rfl, rfl⟩ := Prod.mk.inj heq
      exact List.mem_zipIdx_iff_getElem?.mp ho

end Graph

/-! ## Scoped code -/

/-- No variable is declared twice, and what a statement uses is declared by a statement before it. -/
structure Scoped (code : List (Stmt String)) : Prop where
  once : ((Stmt.declarations code).map Prod.snd).Nodup
  before : ∀ earlier s later, code = earlier ++ s :: later →
    ∀ x ∈ s.uses, x ∈ (Stmt.declarations earlier).map Prod.snd

/-- Statements may follow that declare nothing and use what is declared. -/
theorem Scoped.append {code last : List (Stmt String)} (hcode : Scoped code)
    (hdeclared : ∀ s ∈ last, s.declared = none)
    (huses : ∀ s ∈ last, ∀ x ∈ s.uses, x ∈ (Stmt.declarations code).map Prod.snd) :
    Scoped (code ++ last) := by
  have hnone : Stmt.declarations last = [] := List.filterMap_eq_nil_iff.mpr hdeclared
  refine ⟨?_, fun earlier s later hsplit x hx => ?_⟩
  · rw [Stmt.declarations_append, hnone, List.append_nil]
    exact hcode.once
  · rcases List.append_eq_append_iff.mp hsplit with ⟨front, rfl, hlast⟩ | ⟨tail, hfront, htail⟩
    · have hs : s ∈ last := by rw [hlast]; simp
      rw [Stmt.declarations_append, List.map_append]
      exact List.mem_append_left _ (huses s hs x hx)
    · cases tail with
      | nil =>
        have hs : s ∈ last := by rw [List.nil_append] at htail; rw [← htail]; simp
        rw [List.append_nil] at hfront
        rw [← hfront]
        exact huses s hs x hx
      | cons _ tail =>
        obtain ⟨rfl, _⟩ := List.cons.inj htail
        exact hcode.before earlier s tail hfront x hx

namespace Graph

variable {g : Graph} {root id : NodeId} {node : Node}

/-- The steps of a walk that meets no cycle are scoped. -/
theorem scoped_main (hg : g.WellFormed) (hcycle : (g.circuit.walk root).cycle = none) :
    Scoped ((g.main root).flatMap Step.code) := by
  refine ⟨?_, fun earlier s later hsplit x hx => ?_⟩
  · have hnames := (nodup_locals (g := g) (Circuit.walk_order_nodup hcycle)).map
      (f := Variable.name) fun _ _ => Variable.name_inj.mp
    rw [main, declarations_steps, List.map_map]
    rwa [List.map_map] at hnames
  · obtain ⟨before, id, after, node, horder, hnode, ⟨ty, y, rfl⟩ | ⟨above, t, below, ht, rfl, rfl⟩⟩ :=
      exists_place hsplit
    · -- a stand-in is given a constant
      rw [Stmt.uses, Stmt.reads, Ty.vars_zero] at hx
      exact absurd hx List.not_mem_nil
    · rw [Stmt.uses_map] at hx
      obtain ⟨slot, hslot, rfl⟩ := List.mem_map.mp hx
      obtain ⟨ty, hmem, _⟩ := uses_declared hg hcycle horder hnode ht hslot
      exact List.mem_map.mpr ⟨_, hmem, rfl⟩

/-- The code of the steps declares a variable exactly if one of the steps does. -/
theorem name_declared_iff (order : List NodeId) (x : Variable) :
    x.name ∈ (Stmt.declarations ((g.steps order).flatMap Step.code)).map Prod.snd ↔
      ∃ ty, (ty, x) ∈ g.locals order := by
  rw [declarations_steps, List.map_map]
  constructor
  · intro h
    obtain ⟨⟨ty, y⟩, ho, hname⟩ := List.mem_map.mp h
    obtain rfl : y = x := Variable.name_inj.mp hname
    exact ⟨ty, ho⟩
  · rintro ⟨ty, ho⟩
    exact List.mem_map.mpr ⟨_, ho, rfl⟩

/-- The output that a preview shows is declared. -/
theorem root_declared (hcycle : (g.circuit.walk root).cycle = none)
    (hnode : g.node? root = some node) {port : PortIndex} {ty : Ty}
    (hty : node.kind.outputs[port.toNat]? = some ty) :
    (Variable.value ⟨root, port⟩).name
      ∈ (Stmt.declarations ((g.main root).flatMap Step.code)).map Prod.snd := by
  have hroot : root ∈ (g.circuit.walk root).order :=
    List.mem_of_getLast? (Circuit.walk_order_getLast? hcycle)
  refine (name_declared_iff _ _).mpr ⟨ty, mem_locals.mpr ⟨root, hroot, node, hnode, ?_⟩⟩
  refine mem_locals_step.mpr (Or.inr ⟨port.toNat, hty, ?_⟩)
  rw [UInt32.ofNat_toNat]

/-- A stand-in is declared exactly if its node has a step and nothing feeds the input. -/
theorem standIn_declared_iff (order : List NodeId) (t : Socket) :
    (Variable.standIn t).name ∈ (Stmt.declarations ((g.steps order).flatMap Step.code)).map Prod.snd ↔
      ∃ step ∈ g.steps order, step.block.id = t.node ∧ t.port.toNat < step.kind.inputs.length ∧
        g.wiring.feeding? t = none := by
  rw [name_declared_iff]
  constructor
  · rintro ⟨ty, ho⟩
    obtain ⟨id, hid, node, hnode, ho⟩ := mem_locals.mp ho
    refine ⟨g.step id node, List.mem_filterMap.mpr ⟨id, hid, by rw [hnode]; rfl⟩, ?_⟩
    rcases mem_locals_step.mp ho with ⟨i, hi, hfree, heq⟩ | ⟨_, _, heq⟩
    · obtain rfl := Variable.standIn.inj heq
      refine ⟨rfl, ?_, hfree⟩
      rw [toNat_ofNat_of_input hi]
      exact (List.getElem?_eq_some_iff.mp hi).1
    · cases heq
  · rintro ⟨step, hstep, hid, hport, hfree⟩
    obtain ⟨id, hmem, hsome⟩ := List.mem_filterMap.mp hstep
    obtain ⟨node, hnode, rfl⟩ := Option.map_eq_some_iff.mp hsome
    obtain ⟨nodeId, port⟩ := t
    obtain rfl : id = nodeId := hid
    refine ⟨node.kind.inputs[port.toNat], mem_locals.mpr ⟨id, hmem, node, hnode, ?_⟩⟩
    refine mem_locals_step.mpr (Or.inl ⟨port.toNat, List.getElem?_eq_getElem hport, ?_⟩)
    rw [UInt32.ofNat_toNat]
    exact ⟨hfree, rfl⟩

/-- The main function from `root` that ends with `last` is scoped, and a stand-in is declared exactly for
    the inputs of its nodes that nothing feeds. -/
structure MainScoped (g : Graph) (root : NodeId) (last : List (Stmt String)) : Prop
    extends Scoped (mainCode (g.main root) last) where
  standIns : ∀ t : Socket,
    (Variable.standIn t).name ∈ (Stmt.declarations (mainCode (g.main root) last)).map Prod.snd ↔
      ∃ step ∈ g.main root, step.block.id = t.node ∧ t.port.toNat < step.kind.inputs.length ∧
        g.wiring.feeding? t = none

/-- A main function is scoped with statements at its end that declare nothing and use what is declared. -/
theorem mainScoped (hg : g.WellFormed) (hcycle : (g.circuit.walk root).cycle = none)
    {last : List (Stmt String)} (hdeclared : ∀ s ∈ last, s.declared = none)
    (huses : ∀ s ∈ last, ∀ x ∈ s.uses,
      x ∈ (Stmt.declarations ((g.main root).flatMap Step.code)).map Prod.snd) :
    g.MainScoped root last where
  toScoped := (scoped_main hg hcycle).append hdeclared huses
  standIns t := by
    rw [mainCode, Stmt.declarations_append, Stmt.declarations,
      Stmt.declarations, List.filterMap_eq_nil_iff.mpr hdeclared, List.append_nil]
    exact standIn_declared_iff _ t

/-- **Locals are declared once and before use.**  The main function of a shader that compiles is the text
    of scoped code, and so is that of a preview, where the code ends with the statement that shows the
    output. -/
theorem locals_scoped (hg : g.Reachable) :
    (∀ text, g.compile.result = .ok text →
      g.MainScoped outputId [] ∧ ∃ head, text = head ++ codeText (g.main outputId) []) ∧
    (∀ s text, (g.preview s).result = .ok text →
      ∃ ty, g.outputTy? s = some ty ∧ g.MainScoped s.node [previewStmt ty (Variable.value s).name] ∧
        ∃ head, text
          = head ++ codeText (g.main s.node) [previewStmt ty (Variable.value s).name]) := by
  have hwell := hg.wellFormed
  constructor
  · intro text htext
    obtain ⟨hcycle, head, rfl⟩ := compile_eq_ok htext
    refine ⟨mainScoped hwell hcycle ?_ ?_, head, congrArg (head ++ ·) (g.mainText_steps _ [])⟩
    · exact List.forall_mem_nil _
    · exact List.forall_mem_nil _
  · intro s text htext
    obtain ⟨hcycle, head, node, ty, hnode, hty, rfl⟩ := preview_eq_ok htext
    refine ⟨ty, by rw [outputTy?, hnode, Option.bind_some, hty], mainScoped hwell hcycle ?_ ?_, head, ?_⟩
    · intro t ht
      obtain rfl := List.mem_singleton.mp ht
      exact declared_previewStmt ty _
    · intro t ht x hx
      obtain rfl := List.mem_singleton.mp ht
      rw [uses_previewStmt] at hx
      obtain rfl := List.mem_singleton.mp hx
      exact root_declared hcycle hnode hty
    · have htail : Circuit.previewTail s ty
          = String.join ([previewStmt ty (Variable.value s).name].map Stmt.render) := rfl
      rw [htail]
      exact congrArg (head ++ ·) (g.mainText_steps _ _)

/-- The coordinates, taken apart, choose between stand-ins in one node and are put together in another,
    which feeds the colour. -/
def chosen : List Call :=
  [.addNode 1 (.input .uv), .addNode 2 (.decompose .vec2), .addNode 3 .branch, .addNode 4 (.compose .vec4),
   .connect ⟨⟨1, 0⟩, ⟨2, 0⟩⟩, .connect ⟨⟨2, 0⟩, ⟨3, 0⟩⟩, .connect ⟨⟨2, 1⟩, ⟨3, 1⟩⟩,
   .connect ⟨⟨2, 0⟩, ⟨4, 0⟩⟩, .connect ⟨⟨2, 0⟩, ⟨4, 2⟩⟩, .connect ⟨⟨4, 0⟩, ⟨0, 0⟩⟩]

/-- The shader has stand-ins for two components of the colour and none for the choice, which it leaves out;
    the preview of the choice has stand-ins for four of its inputs. -/
theorem locals_scoped_chosen :
    (Graph.new.run chosen).Reachable ∧
    (∃ text, (Graph.new.run chosen).compile.result = .ok text) ∧
    (∃ text, ((Graph.new.run chosen).preview ⟨3, 0⟩).result = .ok text) ∧
    (Graph.new.run chosen).MainScoped outputId [] ∧
    (Graph.new.run chosen).MainScoped 3 [previewStmt .vec3 (Variable.value ⟨3, 0⟩).name] := by
  have hreachable : (Graph.new.run chosen).Reachable := Reachable.new.run chosen
  obtain ⟨hcompile, hpreview⟩ := locals_scoped hreachable
  obtain ⟨text, htext⟩ : ∃ text, (Graph.new.run chosen).compile.result = .ok text := ⟨_, rfl⟩
  obtain ⟨shown, hshown⟩ : ∃ text, ((Graph.new.run chosen).preview ⟨3, 0⟩).result = .ok text := ⟨_, rfl⟩
  obtain ⟨ty, hty, hscoped, _⟩ := hpreview _ _ hshown
  obtain rfl : ty = .vec3 := Option.some.inj (hty.symm.trans (by rfl))
  exact ⟨hreachable, ⟨text, htext⟩, ⟨shown, hshown⟩, (hcompile _ htext).1, hscoped⟩

end Graph

end FragmentGraph
