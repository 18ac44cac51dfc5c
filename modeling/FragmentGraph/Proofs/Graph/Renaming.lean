/-
  Graphs under other ids.

  The number of a node is a name, and a graph has a copy under any other choice of names, as long as
  different nodes keep different ones and the output keeps its own.

  1. **Copies** — `Renames name g g'` says that `g'` has the nodes and links of `g` under the ids that
     `name` gives.  Links are compared by target.  The index by source is left open: what it holds once
     a link is gone depends on which target has the least id, so it is not a copy, and nothing that is
     compared here reads it.

  2. **Edits** — an edit of a graph is followed by the same edit of the copy, under the new ids
     (`Renames.edit`), so every reachable graph has a reachable copy (`Reachable.exists_renames`).
-/
import FragmentGraph.Proofs.Graph.Edits

namespace FragmentGraph

open Function (Injective)

/-! ## Other ids -/

def Socket.rename (name : NodeId → NodeId) (s : Socket) : Socket := ⟨name s.node, s.port⟩

def Link.rename (name : NodeId → NodeId) (l : Link) : Link := ⟨l.source.rename name, l.target.rename name⟩

def Node.rename (name : NodeId → NodeId) (node : Node) : Node := ⟨name node.id, node.kind⟩

section

variable {name : NodeId → NodeId} (hname : Injective name)
include hname

theorem Socket.rename_inj {s t : Socket} : s.rename name = t.rename name ↔ s = t := by
  obtain ⟨id, port⟩ := s
  obtain ⟨id', port'⟩ := t
  simp only [Socket.rename, Socket.mk.injEq, hname.eq_iff]

theorem Link.touches_rename (l : Link) (id : NodeId) : (l.rename name).touches (name id) = l.touches id := by
  simp only [Link.touches, Link.rename, Socket.rename, beq_eq_decide, hname.eq_iff]

end

namespace Graph

/-- `Renames name g g'` — the graph `g'` has the nodes of `g`, and the links of `g` by target, under new
    ids. -/
structure Renames (name : NodeId → NodeId) (g g' : Graph) : Prop where
  node : ∀ id, g'.node? (name id) = (g.node? id).map (Node.rename name)
  fed : ∀ t, g'.wiring.feeding? (t.rename name) = (g.wiring.feeding? t).map (Link.rename name)

variable {name : NodeId → NodeId} {g g' h : Graph}

/-! ## Edits -/

/-- A change at one place is copied if the place and what is put there are. -/
theorem ite_eq_map_ite {α β : Type} {f : α → β} {p q : Prop} [Decidable p] [Decidable q] (hplace : p ↔ q)
    {put old : Option α} {put' old' : Option β} (hput : put' = put.map f) (hold : old' = old.map f) :
    (if p then put' else old') = (if q then put else old).map f := by
  by_cases hq : q
  · rw [if_pos hq, if_pos (hplace.mpr hq), hput]
  · rw [if_neg hq, if_neg (mt hplace.mp hq), hold]

/-- A link that fits a graph fits the copy. -/
theorem Renames.joins (hcopy : g.Renames name g') {l : Link} (hl : g.Joins l) :
    g'.Joins (l.rename name) := by
  obtain ⟨source, target, hsource, htarget, hports⟩ := hl
  refine ⟨source.rename name, target.rename name, ?_, ?_, hports⟩
  · exact (hcopy.node l.source.node).trans (by rw [hsource, Option.map_some])
  · exact (hcopy.node l.target.node).trans (by rw [htarget, Option.map_some])

section

variable (hname : Injective name) (houtput : name outputId = outputId)
include hname houtput

theorem name_eq_outputId {id : NodeId} : name id = outputId ↔ id = outputId :=
  ⟨fun h => hname (h.trans houtput.symm), fun h => h ▸ houtput⟩

/-- The new graph is its own copy. -/
theorem renames_new : new.Renames name new where
  node id := by
    have hid : outputId = name id ↔ outputId = id := by
      rw [eq_comm, name_eq_outputId hname houtput, eq_comm]
    rw [node?_new, node?_new]
    exact ite_eq_map_ite hid (by rw [Option.map_some, Node.rename, houtput]) rfl
  fed t := by simp [new, Wiring.empty, Wiring.feeding?]

/-- **An edit of a graph is an edit of its copy.** -/
theorem Renames.edit (hg : g.WellFormed) (hg' : g'.WellFormed) (hcopy : g.Renames name g')
    (he : g.Edit h) : ∃ h', g'.Edit h' ∧ h.Renames name h' := by
  cases he with
  | @addNode id kind _ hadd =>
    obtain ⟨hid, hkind, hfree, _⟩ := addNode_cases hadd
    have hid' : name id ≠ outputId := mt (name_eq_outputId hname houtput).mp hid
    have hadd' := addNode_of_free hid' hkind ((hcopy.node id).trans (by rw [hfree, Option.map_none]))
    refine ⟨_, .addNode hadd', fun id' => ?_, fun t => ?_⟩
    · rw [node?_addNode hadd', node?_addNode hadd]
      exact ite_eq_map_ite hname.eq_iff rfl (hcopy.node id')
    · obtain ⟨_, _, _, rfl⟩ := addNode_cases hadd
      exact hcopy.fed t
  | @removeNode id node _ hremove =>
    obtain ⟨hid, hnode, _⟩ := removeNode_cases hremove
    have hid' : name id ≠ outputId := mt (name_eq_outputId hname houtput).mp hid
    have hremove' := removeNode_of_node hid' ((hcopy.node id).trans (by rw [hnode, Option.map_some]))
    refine ⟨_, .removeNode hremove', fun id' => ?_, fun t => ?_⟩
    · rw [node?_removeNode hremove', node?_removeNode hremove]
      exact ite_eq_map_ite hname.eq_iff rfl (hcopy.node id')
    · rw [feeding?_removeNode hg' hremove', feeding?_removeNode hg hremove, hcopy.fed t, Option.filter_map]
      congr 2
      funext l
      exact congrArg not (Link.touches_rename hname l id)
  | @connect l _ _ hconnect =>
    obtain ⟨hjoins, _, rfl⟩ := connect_cases hconnect
    refine ⟨_, .connect (connect_of_joins (hcopy.joins hjoins)), hcopy.node, fun t => ?_⟩
    rw [Wiring.feeding?_insert, Wiring.feeding?_insert]
    exact ite_eq_map_ite (Socket.rename_inj hname) rfl (hcopy.fed t)
  | disconnect s =>
    refine ⟨_, .disconnect (s.rename name), hcopy.node, fun t => ?_⟩
    rw [disconnect_snd, disconnect_snd, Wiring.feeding?_removeInto, Wiring.feeding?_removeInto]
    exact ite_eq_map_ite (Socket.rename_inj hname) rfl (hcopy.fed t)

/-- Every reachable graph has a reachable copy. -/
theorem Reachable.exists_renames (hg : g.Reachable) : ∃ g', g'.Reachable ∧ g.Renames name g' := by
  -- an edit is copied from a well-formed graph, so the two go together
  have hboth : g.WellFormed ∧ ∃ g', g'.Reachable ∧ g.Renames name g' := by
    refine hg.induct (P := fun g => g.WellFormed ∧ ∃ g', g'.Reachable ∧ g.Renames name g') ?_ ?_
    · exact ⟨.new, Graph.new, .new, renames_new hname houtput⟩
    · rintro g h ⟨hwell, g', hg', hcopy⟩ he
      obtain ⟨h', he', hcopy'⟩ := hcopy.edit hname houtput hwell hg'.wellFormed he
      exact ⟨hwell.edit he, h', hg'.edit he', hcopy'⟩
  exact hboth.2

end

end Graph

end FragmentGraph
