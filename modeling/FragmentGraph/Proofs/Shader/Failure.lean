/-
  When there is no shader.

  A compile fails for two reasons only.  What it is asked for may not be there: the output node, the root
  of a preview, or the port of the root.  Or the root reaches a cycle, and then the reported node is one
  that the root reaches and that lies on a cycle.  A cycle that the root does not reach does no harm.

  Nothing is asked of the circuit: its nodes, emitters and links need not fit together.

  The point that needs an argument is that no cycle is missed (`not_onCycle_of_mem_order`).  In an order
  that puts sources first, whatever a node depends on, through any number of links, stands before the
  node; a node of a cycle would stand before itself.
-/
import FragmentGraph.Proofs.Walk.Postorder
import FragmentGraph.Shader.Compile

namespace FragmentGraph

open Relation (TransGen)

namespace Circuit

variable {c : Circuit} {root id source : NodeId}

/-! ## Cycles and the walk -/

/-- The root reaches a cycle. -/
def ReachesCycle (c : Circuit) (root : NodeId) : Prop := ∃ id, c.Reaches root id ∧ c.OnCycle id

/-- What a node of the order depends on, through any number of links, stands before it. -/
theorem mem_before_of_transGen (h : (c.walk root).cycle = none) {before after : List NodeId}
    (hsplit : (c.walk root).order = before ++ id :: after)
    (hdep : TransGen c.DependsOn id source) : source ∈ before := by
  induction hdep with
  | single hdep => exact mem_before_of_dependsOn h hsplit hdep
  | tail _ hdep ih =>
    -- the node reached so far has its own place in `before`, and its source stands before that
    obtain ⟨front, rest, rfl⟩ := List.append_of_mem ih
    rw [List.append_assoc] at hsplit
    exact List.mem_append_left _ (mem_before_of_dependsOn h hsplit hdep)

/-- No node of the order lies on a cycle. -/
theorem not_onCycle_of_mem_order (h : (c.walk root).cycle = none)
    (hid : id ∈ (c.walk root).order) : ¬ c.OnCycle id := by
  intro hcycle
  obtain ⟨before, after, hsplit⟩ := List.append_of_mem hid
  have hbefore : id ∈ before := mem_before_of_transGen h hsplit hcycle
  have hnodup := walk_order_nodup h
  rw [hsplit, List.nodup_append] at hnodup
  exact hnodup.2.2 id hbefore id List.mem_cons_self rfl

/-- The walk meets a cycle exactly when the root reaches one. -/
theorem walk_cycle_eq_none_iff : (c.walk root).cycle = none ↔ ¬ c.ReachesCycle root := by
  constructor
  · rintro h ⟨id, hreach, hcycle⟩
    exact not_onCycle_of_mem_order h ((mem_walk_order_iff h).mpr hreach) hcycle
  · intro hnone
    cases hc : (c.walk root).cycle with
    | none => rfl
    | some id => exact absurd ⟨id, walk_met hc⟩ hnone

/-! ## What is asked for is there -/

/-- There is no output node, or it has no emitter. -/
def LacksOutput (c : Circuit) : Prop :=
  c.nodes[outputId]? = none ∨ (∃ node, c.nodes[outputId]? = some node ∧ node.kind ≠ .output) ∨
    c.emitters[outputId]? = none

/-- A node is not there, or it has no emitter. -/
def LacksRoot (c : Circuit) (id : NodeId) : Prop := c.nodes[id]? = none ∨ c.emitters[id]? = none

/-- `Settles c root r` — a compile from `root` comes to `r`: it fails at a cycle exactly when the root
    reaches one, names a node that the root reaches and that lies on a cycle, and else succeeds. -/
def Settles (c : Circuit) (root : NodeId) (r : Except ShaderError String) : Prop :=
  ((∃ id, r = .error (.cyclic id)) ↔ c.ReachesCycle root) ∧
  (∀ id, r = .error (.cyclic id) → c.Reaches root id ∧ c.OnCycle id) ∧
  ((∃ text, r = .ok text) ↔ ¬ c.ReachesCycle root)

/-- The program of a root settles, however its text is made. -/
theorem settles_program (c : Circuit) (root : NodeId) (text : Program → String) :
    c.Settles root ((c.program root).map text) := by
  cases hc : (c.walk root).cycle with
  | none =>
    have hr : (c.program root).map text = .ok (text (.ofOrder c (c.walk root).order)) := by
      simp only [program, hc, Except.map]
    have hnone : ¬ c.ReachesCycle root := walk_cycle_eq_none_iff.mp hc
    rw [hr]
    exact ⟨⟨fun ⟨_, h⟩ => by simp at h, fun h => absurd h hnone⟩, fun _ h => by simp at h,
      fun _ => hnone, fun _ => ⟨_, rfl⟩⟩
  | some id =>
    have hr : (c.program root).map text = .error (.cyclic id) := by
      simp only [program, hc, Except.map]
    have hmet : c.ReachesCycle root := ⟨id, walk_met hc⟩
    rw [hr]
    refine ⟨⟨fun _ => hmet, fun _ => ⟨id, rfl⟩⟩, fun id' h => ?_,
      fun ⟨_, h⟩ => by simp at h, fun h => absurd hmet h⟩
    obtain rfl : id = id' := by simpa using h
    exact walk_met hc

theorem hasOutput_eq_false_iff : c.hasOutput = false ↔ c.LacksOutput := by
  rw [hasOutput, LacksOutput]
  cases hn : c.nodes[outputId]? with
  | none => simp
  | some node =>
    cases he : c.emitters[outputId]? with
    | none => simp
    | some e => simp

/-- The shader of a circuit without output is missing, and any other settles. -/
theorem compile_cases (c : Circuit) :
    (c.LacksOutput ∧ c.compile.result = .error .missingOutput) ∨
    (¬ c.LacksOutput ∧ c.Settles outputId c.compile.result) := by
  cases ho : c.hasOutput with
  | false => exact Or.inl ⟨hasOutput_eq_false_iff.mp ho, by simp [compile, ho]⟩
  | true =>
    refine Or.inr ⟨fun h => ?_, ?_⟩
    · rw [← hasOutput_eq_false_iff, ho] at h
      simp at h
    · rw [compile, if_pos ho]
      exact settles_program c outputId _

/-- The root of a preview is unknown, or its port is, or the preview settles. -/
theorem preview_cases (c : Circuit) (s : Socket) :
    (c.LacksRoot s.node ∧ (c.preview s).result = .error (.unknownRoot s.node)) ∨
    (¬ c.LacksRoot s.node ∧ ∃ e, c.emitters[s.node]? = some e ∧
      ((e.outputs.length ≤ s.port.toNat ∧ (c.preview s).result = .error (.noRootPort s)) ∨
       (s.port.toNat < e.outputs.length ∧ c.Settles s.node (c.preview s).result))) := by
  cases hn : c.nodes[s.node]? with
  | none => exact Or.inl ⟨Or.inl hn, by simp [preview, previewTy, hn]⟩
  | some node =>
    cases he : c.emitters[s.node]? with
    | none => exact Or.inl ⟨Or.inr he, by simp [preview, previewTy, hn, he]⟩
    | some e =>
      refine Or.inr ⟨fun h => by simp [LacksRoot, hn, he] at h, e, rfl, ?_⟩
      cases hty : e.outputs[s.port.toNat]? with
      | none =>
        refine Or.inl ⟨List.getElem?_eq_none_iff.mp hty, ?_⟩
        simp [preview, previewTy, hn, he, hty]
      | some ty =>
        refine Or.inr ⟨(List.getElem?_eq_some_iff.mp hty).1, ?_⟩
        simp only [preview, previewTy, hn, he, hty]
        exact settles_program c s.node _

/-! ## The failures -/

/-- A compile that settles fails at cycles only. -/
theorem Settles.ne_error {r : Except ShaderError String} (h : c.Settles root r) {e : ShaderError}
    (he : ∀ id, e ≠ .cyclic id) : r ≠ .error e := by
  intro hr
  by_cases hcycle : c.ReachesCycle root
  · obtain ⟨id, hid⟩ := h.1.mpr hcycle
    exact he id (by simpa [hr] using hid)
  · obtain ⟨text, htext⟩ := h.2.2.mpr hcycle
    simp [hr] at htext

/-- **Failures are known exactly.**  A compile misses the output exactly when the circuit lacks it, and
    settles from the output node otherwise.  A preview does not know its root exactly when the circuit
    lacks that, then misses the port exactly when the root has too few outputs, and settles from the
    root otherwise. -/
theorem failure_iff (c : Circuit) :
    (c.compile.result = .error .missingOutput ↔ c.LacksOutput) ∧
    (¬ c.LacksOutput → c.Settles outputId c.compile.result) ∧
    ∀ s : Socket,
      ((c.preview s).result = .error (.unknownRoot s.node) ↔ c.LacksRoot s.node) ∧
      ∀ e, ¬ c.LacksRoot s.node → c.emitters[s.node]? = some e →
        ((c.preview s).result = .error (.noRootPort s) ↔ e.outputs.length ≤ s.port.toNat) ∧
        (s.port.toNat < e.outputs.length → c.Settles s.node (c.preview s).result) := by
  refine ⟨?_, ?_, fun s => ⟨?_, fun e hroot he => ?_⟩⟩
  · rcases compile_cases c with ⟨hlack, hr⟩ | ⟨hlack, hr⟩
    · exact ⟨fun _ => hlack, fun _ => hr⟩
    · exact ⟨fun h => absurd h (hr.ne_error (by simp)), fun h => absurd h hlack⟩
  · intro hlack
    rcases compile_cases c with ⟨h, _⟩ | ⟨_, hr⟩
    · exact absurd h hlack
    · exact hr
  · rcases preview_cases c s with ⟨hlack, hr⟩ | ⟨hlack, _, _, ⟨_, hr⟩ | ⟨_, hr⟩⟩
    · exact ⟨fun _ => hlack, fun _ => hr⟩
    · exact ⟨fun h => by simp [hr] at h, fun h => absurd h hlack⟩
    · exact ⟨fun h => absurd h (hr.ne_error (by simp)), fun h => absurd h hlack⟩
  · rcases preview_cases c s with ⟨hlack, _⟩ | ⟨_, e', he', hport⟩
    · exact absurd hlack hroot
    · obtain rfl : e' = e := Option.some.inj (he'.symm.trans he)
      rcases hport with ⟨hle, hr⟩ | ⟨hlt, hr⟩
      · exact ⟨⟨fun _ => hle, fun _ => hr⟩, fun hlt => by omega⟩
      · exact ⟨⟨fun h => absurd h (hr.ne_error (by simp)), fun hle => by omega⟩, fun _ => hr⟩

/-- The colour is the sine of a cosine of that same sine, and a third node reads the time. -/
def fedBack : Circuit :=
  let nodes : Nodes := [⟨0, .output⟩, ⟨1, .scalarFunc .cos⟩, ⟨2, .scalarFunc .sin⟩,
    ⟨3, .input .time⟩].foldl (fun nodes (node : Node) => nodes.insert node.id node) ∅
  let links : List Link := [⟨⟨1, 0⟩, ⟨2, 0⟩⟩, ⟨⟨2, 0⟩, ⟨1, 0⟩⟩, ⟨⟨2, 0⟩, ⟨0, 0⟩⟩]
  ⟨nodes, nodes.emitters, links.foldl Wiring.insert .empty⟩

/-- Compiling fails at the sine, which the output reaches and which depends on itself; the time reaches no
    cycle and has a preview. -/
theorem failure_iff_fedBack :
    fedBack.compile.result = .error (.cyclic 2) ∧ fedBack.Reaches 0 2 ∧ fedBack.OnCycle 2 ∧
    (∃ text, (fedBack.preview ⟨3, 0⟩).result = .ok text) ∧ ¬ fedBack.ReachesCycle 3 := by
  obtain ⟨hmissing, hsettles, hpreview⟩ := failure_iff fedBack
  have hr : fedBack.compile.result = .error (.cyclic 2) := by rfl
  have houtput : ¬ fedBack.LacksOutput := fun h => by simpa [hr] using hmissing.mpr h
  have htext : ∃ text, (fedBack.preview ⟨3, 0⟩).result = .ok text := ⟨_, rfl⟩
  have hroot : ¬ fedBack.LacksRoot 3 := fun h => by
    obtain ⟨text, ht⟩ := htext
    simpa [ht] using (hpreview ⟨3, 0⟩).1.mpr h
  have he : fedBack.emitters[(3 : NodeId)]? = some (Kind.input .time).emitter := by rfl
  have hpreviewed := ((hpreview ⟨3, 0⟩).2 _ hroot he).2 (by decide)
  exact ⟨hr, ((hsettles houtput).2.1 2 hr).1, ((hsettles houtput).2.1 2 hr).2, htext,
    hpreviewed.2.2.mp htext⟩

end Circuit

end FragmentGraph
