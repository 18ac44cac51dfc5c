/-
  The numbering of nodes does not show in the structure of a shader.

  Nodes, links and marks are all kept in the order of ids, and a shader that followed such an order
  anywhere would come out differently under other ids.  It does not: a walk follows the ports of a node in
  their order, and what it emits is told by the kinds of the nodes and by how they are joined.  So two
  graphs that are copies of each other have shaders that are.

  1. **The walk** — a graph under other ids is a copy of its circuit (`Renames.copies`), so the walk from
     the copy of a root emits the copies in the same order, or meets the copy of the same node again.

  2. **The main function** — every node does there under its new id what it did under the old one, with
     the same variables under new ids (`Renames.block`), so the steps are the same under new ids
     (`Renames.steps`).

  3. **Above it** — the sections are made from the emitters alone, which have no ids, and the output node
     is told apart by its id, which it keeps (`Renames.sameHead`).

  4. **The answers** — errors name the copies of the same nodes, and texts differ in the main function
     only (`answers_renamed`).
-/
import FragmentGraph.Proofs.Graph.Renaming
import FragmentGraph.Proofs.Shader.Locality
import FragmentGraph.Proofs.Shader.Steps
import Mathlib.Logic.Equiv.Basic

namespace FragmentGraph

open Function (Injective)
open Glsl

/-! ## Other ids in shaders -/

def Variable.rename (name : NodeId → NodeId) : Variable → Variable
  | value s => .value (s.rename name)
  | standIn s => .standIn (s.rename name)

/-- A block under other ids: the header has the new id, and the variables have new names. -/
def Block.rename (name : NodeId → NodeId) (b : Block) : Block where
  id := name b.id
  name := b.name
  operands := b.operands.map fun o => (o.1, o.2.rename name)
  results := b.results.map (Variable.rename name)

def Step.rename (name : NodeId → NodeId) (step : Step) : Step := ⟨step.kind, step.block.rename name⟩

def ShaderError.rename (name : NodeId → NodeId) : ShaderError → ShaderError
  | missingOutput => .missingOutput
  | unknownRoot id => .unknownRoot (name id)
  | noRootPort s => .noRootPort (s.rename name)
  | cyclic id => .cyclic (name id)

theorem ShaderError.rename_inj {name : NodeId → NodeId} (hname : Injective name) {e e' : ShaderError} :
    e.rename name = e'.rename name ↔ e = e' := by
  cases e <;> cases e' <;> simp [rename, hname.eq_iff, Socket.rename_inj hname]

/-- `Corresponds name same r r'` — the answers are errors that differ in ids only, or texts that `same`
    relates. -/
structure Corresponds (name : NodeId → NodeId) (same : String → String → Prop)
    (r r' : Except ShaderError String) : Prop where
  errors : ∀ e, r = .error e ↔ r' = .error (e.rename name)
  texts : ∀ text, r = .ok text → ∃ text', r' = .ok text' ∧ same text text'

section

variable {name : NodeId → NodeId} {same : String → String → Prop}

theorem corresponds_error (hname : Injective name) (e : ShaderError) :
    Corresponds name same (.error e) (.error (e.rename name)) where
  errors e' := by rw [Except.error.injEq, Except.error.injEq, ShaderError.rename_inj hname]
  texts _ h := by cases h

theorem corresponds_ok {text text' : String} (h : same text text') :
    Corresponds name same (.ok text) (.ok text') where
  errors _ := iff_of_false nofun nofun
  texts _ heq := ⟨text', rfl, Except.ok.inj heq ▸ h⟩

theorem Corresponds.mono {same' : String → String → Prop} {r r' : Except ShaderError String}
    (h : Corresponds name same r r') (himp : ∀ text text', same text text' → same' text text') :
    Corresponds name same' r r' where
  errors := h.errors
  texts text htext :=
    have ⟨text', htext', hsame⟩ := h.texts text htext
    ⟨text', htext', himp text text' hsame⟩

end

/-- The program with the colour declared. -/
def Program.withColor (p : Program) : Program := { p with deferred := share p.deferred colorDeclaration }

/-- The sections above the main function are the same. -/
structure Program.SameHead (p p' : Program) : Prop where
  declarations : p'.declarations = p.declarations
  ownCode : p'.ownCode = p.ownCode
  helpers : p'.helpers = p.helpers
  deferred : p'.deferred = p.deferred

namespace Graph

/-- The sections of the shader from a root. -/
def program (g : Graph) (root : NodeId) : Program := .ofOrder g.circuit (g.circuit.walk root).order

/-- `Renumbered name g g' root` — the shaders of `g` from `root` and of `g'` from its copy emit copies of
    the same nodes in the same order, have the same sections above the main function, and the main
    function of `g'` takes the steps of that of `g` under new ids. -/
structure Renumbered (name : NodeId → NodeId) (g g' : Graph) (root : NodeId) : Prop where
  order : (g'.circuit.walk (name root)).order = (g.circuit.walk root).order.map name
  head : (g.program root).SameHead (g'.program (name root))
  main : (g.program root).statements = String.join ((g.main root).map Step.text)
  main_renamed : (g'.program (name root)).statements
    = String.join (((g.main root).map (Step.rename name)).map Step.text)

variable {name : NodeId → NodeId} {g g' : Graph}

namespace Renames

variable (hcopy : g.Renames name g')
include hcopy

/-! ## The walk -/

/-- Nodes have the same emitters under new ids. -/
theorem emitter (id : NodeId) : g'.circuit.emitters[name id]? = g.circuit.emitters[id]? := by
  rw [emitters_circuit, emitters_circuit, hcopy.node id, Option.map_map]
  rfl

/-- Under new ids a graph is a copy, as far as walks can tell. -/
theorem copies (hname : Injective name) : g.circuit.Copies g'.circuit name fun _ => True where
  closed _ _ _ _ := trivial
  inj _ _ _ _ heq := hname heq
  inputCount id _ := by rw [Circuit.inputCount, Circuit.inputCount, hcopy.emitter id]
  feeder? id port _ _ := by
    have hfed : g'.circuit.wiring.feeding? ⟨name id, UInt32.ofNat port⟩
      = (g.circuit.wiring.feeding? ⟨id, UInt32.ofNat port⟩).map (Link.rename name) :=
        hcopy.fed ⟨id, UInt32.ofNat port⟩
    rw [Circuit.feeder?, Circuit.feeder?, hfed, Option.map_map, Option.map_map]
    rfl

/-! ## The main function -/

/-- An input reads the same variable under new ids. -/
theorem operand (s : Socket) : g'.circuit.operand (s.rename name) = (g.circuit.operand s).rename name := by
  have hfed : g'.circuit.wiring.feeding? (s.rename name)
    = (g.circuit.wiring.feeding? s).map (Link.rename name) := hcopy.fed s
  rw [Circuit.operand, Circuit.operand, hfed]
  cases g.circuit.wiring.feeding? s <;> rfl

theorem block (id : NodeId) (e : Emitter) :
    g'.circuit.block (name id) e = (g.circuit.block id e).rename name := by
  have hoperand : ∀ port, g'.circuit.operand ⟨name id, port⟩ = (g.circuit.operand ⟨id, port⟩).rename name :=
    fun port => hcopy.operand ⟨id, port⟩
  rw [Circuit.block, Circuit.block, Block.rename]
  simp only [hoperand, List.map_map]
  rfl

/-- **The steps of nodes are the same under new ids.** -/
theorem steps (order : List NodeId) :
    g'.steps (order.map name) = (g.steps order).map (Step.rename name) := by
  rw [Graph.steps, Graph.steps, List.filterMap_map, List.map_filterMap]
  congr 1
  funext id
  rw [Function.comp_apply, hcopy.node id, Option.map_map, Option.map_map]
  cases g.node? id with
  | none => rfl
  | some node => exact congrArg (fun block => some (Step.mk node.kind block)) (hcopy.block id _)

/-! ## Above it -/

section

variable (hname : Injective name) (houtput : name outputId = outputId)
include hname houtput

/-- A node and its copy add the same above the main function. -/
theorem sameHead_add {p p' : Program} (hp : p.SameHead p') (id : NodeId) :
    (p.add g.circuit id).SameHead (p'.add g'.circuit (name id)) := by
  rw [Program.add, Program.add, hcopy.emitter id]
  cases g.circuit.emitters[id]? with
  | none => exact hp
  | some e =>
    have hid : name id = outputId ↔ id = outputId := name_eq_outputId hname houtput
    exact {
      declarations := by simp only [hid, hp.declarations]
      ownCode := by simp only [hp.ownCode]
      helpers := by simp only [hp.helpers]
      deferred := by simp only [hid, hp.deferred] }

/-- So do nodes in order. -/
theorem sameHead (order : List NodeId) :
    (Program.ofOrder g.circuit order).SameHead (Program.ofOrder g'.circuit (order.map name)) := by
  induction order using List.reverseRecOn with
  | nil => exact ⟨rfl, rfl, rfl, rfl⟩
  | append_singleton order id ih =>
    rw [List.map_append, List.map_singleton, Program.ofOrder, Program.ofOrder, List.foldl_concat,
      List.foldl_concat]
    exact hcopy.sameHead_add hname houtput ih id

/-- Where walks emit copies of the same nodes in the same order, the shaders differ in ids only. -/
theorem renumbered {root : NodeId}
    (horder : (g'.circuit.walk (name root)).order = (g.circuit.walk root).order.map name) :
    g.Renumbered name g' root where
  order := horder
  head := by
    rw [program, program, horder]
    exact hcopy.sameHead hname houtput _
  main := by rw [program, Program.statements_ofOrder, join_blockText, Graph.main]
  main_renamed := by
    rw [program, Program.statements_ofOrder, join_blockText, horder, hcopy.steps, Graph.main]

end

/-! ## The answers -/

/-- An output is shown under the same type, or refused with the same error under new ids. -/
theorem previewTy (s : Socket) :
    g'.circuit.previewTy (s.rename name) = (g.circuit.previewTy s).mapError (ShaderError.rename name) := by
  have hnode : g'.circuit.nodes[name s.node]? = (g.circuit.nodes[s.node]?).map (Node.rename name) :=
    hcopy.node s.node
  rw [Circuit.previewTy, Circuit.previewTy, Socket.rename, hnode, hcopy.emitter s.node]
  cases g.circuit.nodes[s.node]? with
  | none => rfl
  | some node =>
    cases g.circuit.emitters[s.node]? with
    | none => rfl
    | some e =>
      dsimp only [Option.map_some]
      cases e.outputs[s.port.toNat]? with
      | none => rfl
      | some ty => rfl

theorem hasOutput (houtput : name outputId = outputId) : g'.circuit.hasOutput = g.circuit.hasOutput := by
  have hnode : g'.circuit.nodes[outputId]? = (g.circuit.nodes[outputId]?).map (Node.rename name) := by
    have h := hcopy.node outputId
    rwa [houtput] at h
  have hemitter := hcopy.emitter outputId
  rw [houtput] at hemitter
  rw [Circuit.hasOutput, Circuit.hasOutput, hnode, hemitter, Option.any_map]
  rfl

section

variable (hname : Injective name) (houtput : name outputId = outputId)
include hname houtput

/-- The programs from a root and its copy fail at copies of the same node, or their texts are those of
    shaders that differ in ids only. -/
theorem corresponds_program (root : NodeId) (text text' : Program → String) :
    Corresponds name
      (fun t t' => t = text (g.program root) ∧ t' = text' (g'.program (name root)) ∧
        g.Renumbered name g' root)
      ((g.circuit.program root).map text) ((g'.circuit.program (name root)).map text') := by
  have hwalk : (g'.circuit.walk (name root)).outcome
      = ((g.circuit.walk root).outcome.map (List.map name)).mapError name :=
    (hcopy.copies hname).outcome_walk trivial
  rw [Walk.outcome, Walk.outcome] at hwalk
  rw [Circuit.program, Circuit.program]
  cases hcycle : (g.circuit.walk root).cycle with
  | some id =>
    have hcycle' : (g'.circuit.walk (name root)).cycle = some (name id) := by
      cases h : (g'.circuit.walk (name root)).cycle with
      | none => simp [hcycle, h, Except.map, Except.mapError] at hwalk
      | some id' => simpa [hcycle, h, Except.map, Except.mapError] using hwalk
    simp only [hcycle']
    exact corresponds_error hname (.cyclic id)
  | none =>
    have hcycle' : (g'.circuit.walk (name root)).cycle = none := by
      cases h : (g'.circuit.walk (name root)).cycle with
      | none => rfl
      | some id' => simp [hcycle, h, Except.map, Except.mapError] at hwalk
    have horder : (g'.circuit.walk (name root)).order = (g.circuit.walk root).order.map name := by
      simpa [hcycle, hcycle', Except.map, Except.mapError] using hwalk
    simp only [hcycle']
    exact corresponds_ok ⟨rfl, rfl, hcopy.renumbered hname houtput horder⟩

/-- The shader of a graph and that of its copy fail alike, or differ in ids only. -/
theorem compile : Corresponds name
    (fun text text' => text = (g.program outputId).render "" ∧
      text' = (g'.program (name outputId)).render "" ∧ g.Renumbered name g' outputId)
    g.compile.result g'.compile.result := by
  have hprogram := hcopy.corresponds_program hname houtput outputId (fun p => p.render "") fun p => p.render ""
  rw [Graph.compile, Graph.compile, Circuit.compile, Circuit.compile, hcopy.hasOutput houtput]
  split
  · rw [houtput] at hprogram ⊢
    exact hprogram
  · exact corresponds_error hname .missingOutput

/-- So do the previews of an output and of its copy. -/
theorem preview (n : NodeId) (p : PortIndex) : Corresponds name
    (fun text text' => ∃ ty,
      text = (g.program n).withColor.render (Circuit.previewTail ⟨n, p⟩ ty) ∧
      text' = (g'.program (name n)).withColor.render (Circuit.previewTail ⟨name n, p⟩ ty) ∧
      g.Renumbered name g' n)
    (g.preview ⟨n, p⟩).result (g'.preview ⟨name n, p⟩).result := by
  have hty : g'.circuit.previewTy ⟨name n, p⟩
    = (g.circuit.previewTy ⟨n, p⟩).mapError (ShaderError.rename name) := hcopy.previewTy ⟨n, p⟩
  rw [Graph.preview, Graph.preview, Circuit.preview, Circuit.preview, hty]
  cases g.circuit.previewTy ⟨n, p⟩ with
  | error e => exact corresponds_error hname e
  | ok ty =>
    have hprogram := hcopy.corresponds_program hname houtput n
      (fun q => q.withColor.render (Circuit.previewTail ⟨n, p⟩ ty))
      fun q => q.withColor.render (Circuit.previewTail ⟨name n, p⟩ ty)
    exact hprogram.mono fun _ _ hsame => ⟨ty, hsame⟩

end

end Renames

/-- **The numbering of nodes does not show.**  Let `name` give different nodes different ids and the output
    its own.  A reachable graph has a reachable copy under the new ids.  In every such copy the shader, and
    the preview of every socket under its new id, is the same error under the new ids, or a text with the
    same sections above the main function, where the main function takes the same steps in the same order,
    under the new ids. -/
theorem answers_renamed (hg : g.Reachable) (hname : Injective name) (houtput : name outputId = outputId) :
    (∃ g', g'.Reachable ∧ g.Renames name g') ∧
    ∀ g', g.Renames name g' →
      Corresponds name
        (fun text text' => text = (g.program outputId).render "" ∧
          text' = (g'.program (name outputId)).render "" ∧ g.Renumbered name g' outputId)
        g.compile.result g'.compile.result ∧
      ∀ n p, Corresponds name
        (fun text text' => ∃ ty,
          text = (g.program n).withColor.render (Circuit.previewTail ⟨n, p⟩ ty) ∧
          text' = (g'.program (name n)).withColor.render (Circuit.previewTail ⟨name n, p⟩ ty) ∧
          g.Renumbered name g' n)
        (g.preview ⟨n, p⟩).result (g'.preview ⟨name n, p⟩).result :=
  ⟨hg.exists_renames hname houtput, fun _ hcopy =>
    ⟨hcopy.compile hname houtput, hcopy.preview hname houtput⟩⟩

/-- The time and the sum trade their ids.  The sine is still compiled after the time, and the cycle beside
    it is still met first at the sum. -/
theorem answers_renamed_besideCycle :
    let name : NodeId → NodeId := Equiv.swap 1 9
    besideCycle.Reachable ∧ Injective name ∧ name outputId = outputId ∧
    ∃ g', g'.Reachable ∧ besideCycle.Renames name g' ∧ (g'.circuit.walk outputId).order = [9, 2, 0] ∧
      (g'.preview ⟨1, 0⟩).result = .error (.cyclic 1) := by
  intro name
  have hg : besideCycle.Reachable := (Reachable.new.run _).run _
  have hname : Injective name := (Equiv.swap 1 9).injective
  have houtput : name outputId = outputId := by decide
  obtain ⟨⟨g', hg', hcopy⟩, hcopies⟩ := answers_renamed hg hname houtput
  obtain ⟨hcompile, hpreview⟩ := hcopies g' hcopy
  obtain ⟨text, htext⟩ : ∃ text, besideCycle.compile.result = .ok text := ⟨_, rfl⟩
  obtain ⟨_, _, _, _, hsame⟩ := hcompile.texts text htext
  refine ⟨hg, hname, houtput, g', hg', hcopy, ?_, ((hpreview 9 0).errors (.cyclic 9)).mp (by rfl)⟩
  rw [← houtput, hsame.order]
  rfl

end Graph

end FragmentGraph
