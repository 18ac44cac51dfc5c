/-
  What an edit of a link gives back is enough to undo it.

  An editor that takes a step back knows what the step gave it: the link that was displaced, or the link
  that was removed.  It makes that link again, or clears the input if there was none.  The graph that it
  gets is not quite the graph that it had.  An output that feeds several inputs is known by the link made
  last, and a link that is made again is the last one, so the index by source may hold another link of the
  same output.  Nothing else differs, and nobody can tell from shaders, previews or ancestors
  (`Restores`).

  1. **The way back is open** — a link that was live joins ports that are there, and links do not change
     the nodes, so the link is not refused when it is made again (`connect_of_joins`).

  2. **What is restored** — after both steps every input is fed as before.  The index by target is
     determined by that, and in graphs that edits lead to, so are the outputs in the index by source
     (`restores_of_feeding`).

  3. **The three ways back** — one lemma for each (`disconnect_undoes_connect`, `connect_undoes_connect`,
     `connect_undoes_disconnect`).
-/
import FragmentGraph.Proofs.Document.Order
import FragmentGraph.Proofs.Graph.Edits

namespace FragmentGraph

namespace Graph

variable {g h : Graph} {l : Link}

/-! ## Graphs that cannot be told apart -/

/-- `Restores g h` — the graph `h` has the nodes of `g`, its links by target, and links by source for the
    same outputs, and it answers as `g` does. -/
structure Restores (g h : Graph) : Prop where
  nodes : h.nodes = g.nodes
  byTarget : h.wiring.byTarget = g.wiring.byTarget
  bySource : ∀ k, k ∈ h.wiring.bySource ↔ k ∈ g.wiring.bySource
  compile : h.compile.result = g.compile.result
  preview : ∀ s, (h.preview s).result = (g.preview s).result
  ancestors : ∀ id, h.ancestors id = g.ancestors id

/-- Well-formed graphs with the same nodes that feed every input alike cannot be told apart. -/
theorem restores_of_feeding (hg : g.WellFormed) (hh : h.WellFormed) (hnodes : h.nodes = g.nodes)
    (hfed : ∀ t, h.wiring.feeding? t = g.wiring.feeding? t) : g.Restores h := by
  have hnode : ∀ id, h.node? id = g.node? id := fun id => by rw [node?, node?, hnodes]
  have hagree := agreeOn_circuit_of_same hnode hfed
  exact {
    nodes := hnodes
    byTarget := byTarget_ext hfed
    bySource := hh.wired.mem_bySource_iff hg.wired hfed
    compile := (hagree.compile trivial).symm
    preview := fun _ => (hagree.preview trivial).symm
    ancestors := fun _ => Wiring.ancestors_congr fun id _ port => hfed ⟨id, port⟩ }

/-! ## The way back -/

/-- A link that was live can be made again as long as the nodes are the same. -/
theorem WellFormed.joins_again (hg : g.WellFormed) (hl : g.wiring.Live l) (hnodes : h.nodes = g.nodes) :
    h.Joins l := (joins_iff_of_nodes hnodes).mpr (hg.joined l hl)

/-- An input that is given what it had is fed as before, and so is every other. -/
theorem feeding?_given_back {t : Socket} {fed : Option Link} (hfed : g.wiring.feeding? t = fed) (s : Socket) :
    (if t = s then fed else g.wiring.feeding? s) = g.wiring.feeding? s := by
  split
  · next hs => rw [← hs, hfed]
  · rfl

/-- A connect that has displaced nothing is undone by clearing its target. -/
theorem WellFormed.disconnect_undoes_connect (hg : g.WellFormed) (hl : g.connect l = .ok (none, h)) :
    (h.disconnect l.target).1 = some l ∧ g.Restores (h.disconnect l.target).2 := by
  have hh := hg.connect hl
  obtain ⟨_, hfree, rfl⟩ := connect_cases hl
  refine ⟨?_, restores_of_feeding hg (hh.disconnect l.target) rfl fun s => ?_⟩
  · exact (Wiring.extract_fst _ _).trans ((Wiring.feeding?_insert _ _ _).trans (if_pos rfl))
  · rw [disconnect_snd, Wiring.feeding?_removeInto, Wiring.feeding?_insert]
    -- the new link is seen nowhere but at its target, which has been cleared
    calc (if l.target = s then none else if l.target = s then some l else g.wiring.feeding? s)
        = if l.target = s then none else g.wiring.feeding? s := by split <;> rfl
      _ = g.wiring.feeding? s := feeding?_given_back hfree.symm s

/-- A connect that has displaced a link is undone by making that link again. -/
theorem WellFormed.connect_undoes_connect (hg : g.WellFormed) {old : Link}
    (hl : g.connect l = .ok (some old, h)) :
    ∃ back, h.connect old = .ok (some l, back) ∧ g.Restores back := by
  have hh := hg.connect hl
  obtain ⟨_, hfed, rfl⟩ := connect_cases hl
  have htarget : old.target = l.target := hg.wired.keyed _ _ hfed.symm
  have hjoins : Joins { g with wiring := g.wiring.insert l } old :=
    hg.joins_again (hg.wired.keyed.live hfed.symm) rfl
  have hback := connect_of_joins hjoins
  rw [Wiring.feeding?_insert, if_pos htarget.symm] at hback
  refine ⟨_, hback, restores_of_feeding hg (hh.connect hback) rfl fun s => ?_⟩
  rw [Wiring.feeding?_insert, Wiring.feeding?_insert, htarget]
  calc (if l.target = s then some old else if l.target = s then some l else g.wiring.feeding? s)
      = if l.target = s then some old else g.wiring.feeding? s := by split <;> rfl
    _ = g.wiring.feeding? s := feeding?_given_back hfed.symm s

/-- A disconnect that has removed a link is undone by making that link again. -/
theorem WellFormed.connect_undoes_disconnect (hg : g.WellFormed) {t : Socket} {old : Link}
    (ht : (g.disconnect t).1 = some old) :
    ∃ back, (g.disconnect t).2.connect old = .ok (none, back) ∧ g.Restores back := by
  have hfed : g.wiring.feeding? t = some old := (Wiring.extract_fst _ _).symm.trans ht
  have htarget : old.target = t := hg.wired.keyed _ _ hfed
  have hjoins : (g.disconnect t).2.Joins old := hg.joins_again (hg.wired.keyed.live hfed) rfl
  have hback := connect_of_joins hjoins
  rw [disconnect_snd, Wiring.feeding?_removeInto, if_pos htarget.symm] at hback
  refine ⟨_, hback, restores_of_feeding hg ((hg.disconnect t).connect hback) rfl fun s => ?_⟩
  rw [Wiring.feeding?_insert, Wiring.feeding?_removeInto, htarget]
  calc (if t = s then some old else if t = s then none else g.wiring.feeding? s)
      = if t = s then some old else g.wiring.feeding? s := by split <;> rfl
    _ = g.wiring.feeding? s := feeding?_given_back hfed s

/-- **An edit of a link can be undone from what it gives back.**  If a connect displaces nothing, clearing
    its target gives back the new link and restores the graph.  If it displaces a link, making that link
    again succeeds, gives back the new link, and restores the graph.  If a disconnect removes a link, making
    that link again succeeds, displaces nothing, and restores the graph. -/
theorem links_undone (hg : g.Reachable) :
    (∀ l g', g.connect l = .ok (none, g') →
      (g'.disconnect l.target).1 = some l ∧ g.Restores (g'.disconnect l.target).2) ∧
    (∀ l old g', g.connect l = .ok (some old, g') →
      ∃ back, g'.connect old = .ok (some l, back) ∧ g.Restores back) ∧
    (∀ t old, (g.disconnect t).1 = some old →
      ∃ back, (g.disconnect t).2.connect old = .ok (none, back) ∧ g.Restores back) := by
  have hwell := hg.wellFormed
  exact ⟨fun _ _ hl => hwell.disconnect_undoes_connect hl, fun _ _ _ hl => hwell.connect_undoes_connect hl,
    fun _ _ ht => hwell.connect_undoes_disconnect ht⟩

/-- The cosine takes the place of the time before the sine, and the time is put back.  The time was known by
    its link to the cosine, and is now known by the one made last. -/
theorem links_undone_timeFannedOut :
    let g := Graph.new.run timeFannedOut
    g.Reachable ∧ ∃ g', g.connect ⟨⟨3, 0⟩, ⟨2, 0⟩⟩ = .ok (some ⟨⟨1, 0⟩, ⟨2, 0⟩⟩, g') ∧
      ∃ back, g'.connect ⟨⟨1, 0⟩, ⟨2, 0⟩⟩ = .ok (some ⟨⟨3, 0⟩, ⟨2, 0⟩⟩, back) ∧ g.Restores back ∧
        g.wiring.drivenBy? ⟨1, 0⟩ = some ⟨⟨1, 0⟩, ⟨3, 0⟩⟩ ∧
        back.wiring.drivenBy? ⟨1, 0⟩ = some ⟨⟨1, 0⟩, ⟨2, 0⟩⟩ := by
  intro g
  have hg : g.Reachable := Reachable.new.run timeFannedOut
  obtain ⟨g', hg'⟩ : ∃ g', g.connect ⟨⟨3, 0⟩, ⟨2, 0⟩⟩ = .ok (some ⟨⟨1, 0⟩, ⟨2, 0⟩⟩, g') := ⟨_, rfl⟩
  obtain ⟨back, hback, hrestores⟩ := (links_undone hg).2.1 _ _ g' hg'
  obtain ⟨_, _, hwiring⟩ := connect_cases hback
  refine ⟨hg, g', hg', back, hback, hrestores, by rfl, ?_⟩
  rw [hwiring]
  exact Wiring.drivenBy?_insert_self _ _

end Graph

end FragmentGraph
