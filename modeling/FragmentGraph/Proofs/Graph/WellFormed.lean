/-
  Reachable graphs, and what holds of all of them.

  A graph begins as the new graph or as the graph of a document, and goes on by edits.  An edit that is
  refused gives no graph, so only those that succeed count (`Edit`).

  1. Loading a document is a run of edits too: an entry adds its node or does nothing, a link is made or
     left out (`edits_load`).  So what the new graph has and every edit keeps holds of every reachable
     graph, and documents need no proof of their own (`Reachable.induct`).
  2. `WellFormed` is such an invariant.  Its heart is `joined`: every live link joins an output and an
     input that are there.  An edit cannot break this from the side of the nodes, as no node is ever
     replaced and a node takes its links with it, nor from the side of the links, as `connect` asks for
     both ends first.
-/
import FragmentGraph.Document.Load
import FragmentGraph.Proofs.Wiring.History
import Mathlib.Logic.Relation

namespace FragmentGraph

open Std (ExtTreeMap)

/-- The result of taking items one by one, without the notices. -/
theorem Logged.result_foldl {σ α : Type} (f : σ → α → Logged σ) (start : σ) (items : List α) :
    (Logged.foldl f start items).result
      = items.foldl (fun state item => (f state item).result) start := by
  rw [Logged.foldl]
  exact (List.foldl_hom Logged.result fun _ _ => rfl).symm

namespace Graph

/-! ## Reachable graphs -/

/-- One edit that succeeds. -/
inductive Edit (g : Graph) : Graph → Prop where
  | addNode {id kind g'} (h : g.addNode id kind = .ok g') : Edit g g'
  | removeNode {id node g'} (h : g.removeNode id = .ok (node, g')) : Edit g g'
  | connect {l displaced g'} (h : g.connect l = .ok (displaced, g')) : Edit g g'
  | disconnect (target : Socket) : Edit g (g.disconnect target).2

/-- The graphs that come from the new graph or from a document by edits. -/
inductive Reachable : Graph → Prop where
  | new : Reachable .new
  | load {text d} (h : Document.parse? text = some d) : Reachable d.load.result
  | edit {g g'} (h : Reachable g) (he : g.Edit g') : Reachable g'

variable {g g' : Graph} {id : NodeId} {kind : Kind} {node : Node} {l : Link}

/-- Runs of edits. -/
abbrev Edits : Graph → Graph → Prop := Relation.ReflTransGen Edit

/-- Taking an entry is at most one edit. -/
theorem edits_addEntry (g : Graph) (e : Entry) : Edits g (g.addEntry e).result := by
  rw [addEntry]
  split
  · split <;> exact .refl
  · dsimp only
    cases Kind.read e.type e.params with
    | error cause => exact .refl
    | ok kind =>
      dsimp only
      cases h : g.addNode e.id kind with
      | error cause => exact .refl
      | ok g' => exact .single (.addNode h)

/-- Taking a link is at most one edit. -/
theorem edits_addLink (g : Graph) (l : Link) : Edits g (g.addLink l).result := by
  rw [addLink]
  cases h : g.connect l with
  | error cause => exact .refl
  | ok answer => exact .single (.connect h)

/-- Taking items one by one is a run of edits if taking one is. -/
theorem edits_foldl {α : Type} {f : Graph → α → Logged Graph} (hf : ∀ g x, Edits g (f g x).result)
    (g : Graph) (items : List α) : Edits g (Logged.foldl f g items).result := by
  rw [Logged.result_foldl]
  induction items generalizing g with
  | nil => exact .refl
  | cons x items ih => exact (hf g x).trans (ih _)

/-- A document's graph comes from the new one by edits. -/
theorem edits_load (d : Document) : Edits .new d.load.result :=
  (edits_foldl edits_addEntry .new d.entries).trans (edits_foldl edits_addLink _ d.links)

/-- What the new graph has and every edit keeps holds of every reachable graph. -/
theorem Reachable.induct {P : Graph → Prop} (hnew : P .new) (hedit : ∀ g g', P g → g.Edit g' → P g')
    (h : g.Reachable) : P g := by
  have hedits : ∀ g', Edits .new g' → P g' := by
    intro g' hg'
    induction hg' with
    | refl => exact hnew
    | tail _ he ih => exact hedit _ _ ih he
  induction h with
  | new => exact hnew
  | load _ => exact hedits _ (edits_load _)
  | edit _ he ih => exact hedit _ _ ih he

/-! ## Links that fit the nodes -/

/-- Both ends of the link are ports of nodes in the graph. -/
def Joins (g : Graph) (l : Link) : Prop :=
  ∃ source target, g.node? l.source.node = some source ∧ g.node? l.target.node = some target ∧
    l.source.port.toNat < source.kind.outputs.length ∧
    l.target.port.toNat < target.kind.inputs.length

/-- A link that is not refused joins ports that are there. -/
theorem joins_of_linkError? (h : g.linkError? l = none) : g.Joins l := by
  rw [linkError?] at h
  cases hs : g.node? l.source.node with
  | none => simp [hs] at h
  | some source =>
    cases ht : g.node? l.target.node with
    | none => simp [hs, ht] at h
    | some target =>
      simp only [hs, ht] at h
      cases hout : source.kind.outputs[l.source.port.toNat]? with
      | none => simp [hout] at h
      | some sourceTy =>
        cases hin : target.kind.inputs[l.target.port.toNat]? with
        | none => simp [hout, hin] at h
        | some targetTy =>
          exact ⟨source, target, hs, ht, (List.getElem?_eq_some_iff.mp hout).1,
            (List.getElem?_eq_some_iff.mp hin).1⟩

/-- A link is refused exactly if an end of it is missing. -/
theorem linkError?_eq_none_iff : g.linkError? l = none ↔ g.Joins l := by
  refine ⟨joins_of_linkError?, ?_⟩
  rintro ⟨source, target, hsource, htarget, houtput, hinput⟩
  rw [linkError?, hsource, htarget]
  dsimp only
  rw [List.getElem?_eq_getElem houtput, List.getElem?_eq_getElem hinput]
  simp

instance (g : Graph) (l : Link) : Decidable (g.Joins l) :=
  decidable_of_iff (g.linkError? l = none) linkError?_eq_none_iff

/-- A link fits every graph that has the nodes at its ends. -/
theorem Joins.congr (h : g.Joins l) (hs : g'.node? l.source.node = g.node? l.source.node)
    (ht : g'.node? l.target.node = g.node? l.target.node) : g'.Joins l := by
  obtain ⟨source, target, hsource, htarget, hports⟩ := h
  exact ⟨source, target, hs.trans hsource, ht.trans htarget, hports⟩

/-! ## What one edit does -/

theorem getElem?_insert_node (nodes : Nodes) (id : NodeId) (node : Node) (id' : NodeId) :
    (nodes.insert id node)[id']? = if id = id' then some node else nodes[id']? := by
  simp only [ExtTreeMap.getElem?_insert, Std.compare_eq_iff_eq]

theorem getElem?_erase_node (nodes : Nodes) (id id' : NodeId) :
    (nodes.erase id)[id']? = if id = id' then none else nodes[id']? := by
  simp only [ExtTreeMap.getElem?_erase, Std.compare_eq_iff_eq]

theorem node?_new (id : NodeId) :
    new.node? id = if outputId = id then some ⟨outputId, .output⟩ else none := by
  rw [node?, new, getElem?_insert_node, ExtTreeMap.getElem?_empty]

/-- Where a node is added, neither its id nor its kind is the output's, the id was free, and there are no
    other changes. -/
theorem addNode_cases (h : g.addNode id kind = .ok g') :
    id ≠ outputId ∧ kind ≠ .output ∧ g.node? id = none ∧
      g' = { g with nodes := g.nodes.insert id ⟨id, kind⟩ } := by
  rw [addNode] at h
  split at h
  · cases h
  · next hreserved =>
    obtain ⟨hid, hkind⟩ := not_or.mp hreserved
    split at h
    · cases h
    · next hfresh =>
      refine ⟨hid, hkind, by simpa using hfresh, ?_⟩
      exact (Except.ok.inj h).symm

/-- A node whose id and kind are not the output's is refused only if its id is taken. -/
theorem isSome_of_addNode_error {kind : Kind} {cause : EditError} (hid : id ≠ outputId)
    (hkind : kind ≠ .output) (h : g.addNode id kind = .error cause) : (g.node? id).isSome = true := by
  rw [addNode, if_neg (not_or.mpr ⟨hid, hkind⟩)] at h
  split at h
  · next hsome => exact hsome
  · cases h

/-- Where a node is removed, it was there and is not the output, and its links go with it. -/
theorem removeNode_cases (h : g.removeNode id = .ok (node, g')) :
    id ≠ outputId ∧ g.node? id = some node ∧ g' = ⟨g.nodes.erase id, g.wiring.removeNode id⟩ := by
  rw [removeNode] at h
  split at h
  · cases h
  · next hid =>
    cases hnode : g.node? id with
    | none => simp [hnode] at h
    | some found =>
      simp only [hnode, Except.ok.injEq, Prod.mk.injEq] at h
      obtain ⟨rfl, rfl⟩ := h
      exact ⟨hid, rfl, rfl⟩

/-- Where a link is made, it fits, and the answer is the link that fed the input before. -/
theorem connect_cases {displaced : Option Link} (h : g.connect l = .ok (displaced, g')) :
    g.Joins l ∧ displaced = g.wiring.feeding? l.target ∧
      g' = { g with wiring := g.wiring.insert l } := by
  rw [connect] at h
  cases hl : g.linkError? l with
  | some e => simp [hl] at h
  | none =>
    simp only [hl, Except.ok.injEq, Prod.mk.injEq] at h
    exact ⟨joins_of_linkError? hl, h.1.symm, h.2.symm⟩

/-- A link is made if it fits, without a notice, and else changes nothing. -/
theorem addLink_cases (g : Graph) (l : Link) :
    (g.Joins l ∧ g.addLink l = ⟨{ g with wiring := g.wiring.insert l }, []⟩) ∨
    (¬ g.Joins l ∧ (g.addLink l).result = g) := by
  rw [addLink]
  cases hconnect : g.connect l with
  | error cause =>
    refine Or.inr ⟨fun hjoins => ?_, rfl⟩
    rw [connect, linkError?_eq_none_iff.mpr hjoins] at hconnect
    cases hconnect
  | ok answer =>
    obtain ⟨hjoins, _, hg'⟩ := connect_cases hconnect
    exact Or.inl ⟨hjoins, by rw [← hg']⟩

theorem disconnect_snd (g : Graph) (target : Socket) :
    (g.disconnect target).2 = { g with wiring := g.wiring.removeInto target } := rfl

/-! ## The invariant -/

/-- What holds of every reachable graph: the output node is at its id, nodes are stored under their own
    ids and no other is an output, the wiring has a history, and links join ports that are there. -/
structure WellFormed (g : Graph) : Prop where
  output : g.node? outputId = some ⟨outputId, .output⟩
  own_id : ∀ id node, g.node? id = some node → node.id = id
  only_output : ∀ id node, g.node? id = some node → node.kind = .output → id = outputId
  wired : g.wiring.HasHistory
  joined : ∀ l, g.wiring.Live l → g.Joins l

namespace WellFormed

/-- The new graph is well-formed: it has the output, no other node and no links. -/
theorem new : Graph.new.WellFormed where
  output := rfl
  own_id id node h := by
    rw [node?_new] at h
    split at h
    · next hid => rw [← Option.some.inj h, hid]
    · cases h
  only_output id node h _ := by
    rw [node?_new] at h
    split at h
    · next hid => exact hid.symm
    · cases h
  wired := ⟨[], rfl⟩
  joined l h := by simp [Wiring.Live, Graph.new, Wiring.empty, Wiring.feeding?] at h

/-- Adding a node keeps a graph well-formed: the node is stored under its own id and is not an output. -/
theorem addNode (hg : g.WellFormed) (h : g.addNode id kind = .ok g') : g'.WellFormed := by
  obtain ⟨hid, hkind, hfresh, rfl⟩ := addNode_cases h
  -- the id was free, so the nodes that links have at their ends are the same as before
  have hkept : ∀ id' node, g.node? id' = some node →
      (g.nodes.insert id ⟨id, kind⟩)[id']? = some node := by
    intro id' node hnode
    rw [getElem?_insert_node, if_neg, ← node?, hnode]
    rintro rfl
    rw [hfresh] at hnode
    cases hnode
  have hcases : ∀ id' node, (g.nodes.insert id ⟨id, kind⟩)[id']? = some node →
      (id' = id ∧ node = ⟨id, kind⟩) ∨ g.node? id' = some node := by
    intro id' node hnode
    rw [getElem?_insert_node] at hnode
    split at hnode
    · next heq => exact Or.inl ⟨heq.symm, (Option.some.inj hnode).symm⟩
    · exact Or.inr hnode
  refine ⟨hkept _ _ hg.output, fun id' node hnode => ?_, fun id' node hnode hout => ?_, hg.wired,
    fun l hl => ?_⟩
  · rcases hcases id' node hnode with ⟨rfl, rfl⟩ | hold
    · rfl
    · exact hg.own_id id' node hold
  · rcases hcases id' node hnode with ⟨rfl, rfl⟩ | hold
    · exact absurd hout hkind
    · exact hg.only_output id' node hold hout
  · obtain ⟨source, target, hsource, htarget, hports⟩ := hg.joined l hl
    exact ⟨source, target, hkept _ _ hsource, hkept _ _ htarget, hports⟩

/-- Removing a node keeps a graph well-formed: the node is not the output, and no link is left at it. -/
theorem removeNode (hg : g.WellFormed) (h : g.removeNode id = .ok (node, g')) :
    g'.WellFormed := by
  obtain ⟨hid, hnode, rfl⟩ := removeNode_cases h
  have hkept : ∀ id', id ≠ id' → (g.nodes.erase id)[id']? = g.node? id' := fun id' hne => by
    rw [getElem?_erase_node, if_neg hne, node?]
  have hold : ∀ id' node, (g.nodes.erase id)[id']? = some node → g.node? id' = some node := by
    intro id' node hnode
    rw [getElem?_erase_node] at hnode
    split at hnode
    · cases hnode
    · exact hnode
  refine ⟨(hkept _ hid).trans hg.output, fun id' node hnode => hg.own_id id' node (hold _ _ hnode),
    fun id' node hnode => hg.only_output id' node (hold _ _ hnode),
    hg.wired.apply (.removeNode id), fun l hl => ?_⟩
  -- a link that is left has neither end at the removed node
  obtain ⟨hlive, hends⟩ := (Wiring.live_removeNode hg.wired.keyed).mp hl
  obtain ⟨hs, ht⟩ := not_or.mp hends
  exact (hg.joined l hlive).congr (hkept _ (Ne.symm hs)) (hkept _ (Ne.symm ht))

/-- Making a link keeps a graph well-formed, since a link that joins no ports is refused. -/
theorem connect {displaced : Option Link} (hg : g.WellFormed)
    (h : g.connect l = .ok (displaced, g')) : g'.WellFormed := by
  obtain ⟨hjoins, _, rfl⟩ := connect_cases h
  refine ⟨hg.output, hg.own_id, hg.only_output, hg.wired.apply (.insert l), fun l' hl' => ?_⟩
  rcases Wiring.live_insert.mp hl' with rfl | ⟨hlive, _⟩
  · exact hjoins.congr rfl rfl
  · exact (hg.joined l' hlive).congr rfl rfl

/-- Clearing an input keeps a graph well-formed. -/
theorem disconnect (hg : g.WellFormed) (target : Socket) : (g.disconnect target).2.WellFormed := by
  rw [disconnect_snd]
  refine ⟨hg.output, hg.own_id, hg.only_output, hg.wired.apply (.removeInto target), fun l hl => ?_⟩
  exact (hg.joined l (Wiring.live_removeInto.mp hl).1).congr rfl rfl

/-- Every edit keeps a graph well-formed. -/
theorem edit (hg : g.WellFormed) (he : g.Edit g') : g'.WellFormed := by
  cases he with
  | addNode h => exact hg.addNode h
  | removeNode h => exact hg.removeNode h
  | connect h => exact hg.connect h
  | disconnect target => exact hg.disconnect target

/-- So does a run of edits. -/
theorem edits (hg : g.WellFormed) (he : Edits g g') : g'.WellFormed := by
  induction he with
  | refl => exact hg
  | tail _ he ih => exact ih.edit he

end WellFormed

/-- **Every reachable graph is well-formed.** -/
theorem Reachable.wellFormed (h : g.Reachable) : g.WellFormed :=
  h.induct WellFormed.new fun _ _ hg he => hg.edit he

end Graph

/-- The graph of every document is well-formed. -/
theorem Document.wellFormed_load (d : Document) : d.load.result.WellFormed :=
  Graph.WellFormed.new.edits (Graph.edits_load d)

end FragmentGraph
