/-
  The order in which a document lists things.

  Order decides only where two entries have one id, or two links one target: then the first entry counts,
  or the last link.  Without such clashes a document may list its entries in any order, and its links too.

  1. **Lookups** — what a document says of an id or of an input is read from the items with that key.
     When keys differ there is at most one, and in every order it is the same (`filter_key_perm`).

  2. **Graphs** — so both graphs have the same nodes and the same link into every input.  The link that an
     output is known by is the last one made, and there the orders may differ; but whether there is one is
     settled by the live links (`drivenBy?_eq_none_iff`).

  3. **Answers** — shaders, previews and ancestors are made from nodes and from links by target, so they
     come out the same.
-/
import FragmentGraph.Proofs.Document.Load
import FragmentGraph.Proofs.Shader.Locality

namespace FragmentGraph

open Std (ExtTreeMap)

/-! ## Lookups -/

/-- When keys differ, at most one item has a given key. -/
theorem length_filter_key {α κ : Type} [DecidableEq κ] {key : α → κ} {items : List α}
    (hkeys : (items.map key).Nodup) (k : κ) : (items.filter fun x => key x = k).length ≤ 1 := by
  have hsame : (items.filter fun x => key x = k).map key
      = List.replicate (items.filter fun x => key x = k).length k := by
    rw [List.eq_replicate_iff]
    refine ⟨List.length_map key, fun k' hk' => ?_⟩
    obtain ⟨x, hx, rfl⟩ := List.mem_map.mp hk'
    simpa using (List.mem_filter.mp hx).2
  have hnodup : ((items.filter fun x => key x = k).map key).Nodup :=
    hkeys.sublist (List.filter_sublist.map key)
  rw [hsame] at hnodup
  exact List.nodup_replicate.mp hnodup

/-- When keys differ, the items with a given key do not depend on the order. -/
theorem filter_key_perm {α κ : Type} [DecidableEq κ] {key : α → κ} {items items' : List α}
    (hperm : items.Perm items') (hkeys : (items.map key).Nodup) (k : κ) :
    (items.filter fun x => key x = k) = items'.filter fun x => key x = k := by
  have hfew := length_filter_key hkeys k
  have hfound := hperm.filter fun x => key x = k
  cases hitems : items.filter fun x => key x = k with
  | nil =>
    rw [hitems] at hfound
    exact hfound.nil_eq
  | cons x rest =>
    rw [hitems] at hfew hfound
    obtain rfl : rest = [] := List.length_eq_zero_iff.mp (by simpa using hfew)
    exact (List.singleton_perm.mp hfound)

/-! ## Graphs -/

/-- An output is known by a link exactly if it feeds an input. -/
theorem Wiring.HasHistory.drivenBy?_eq_none_iff {w : Wiring} (hw : w.HasHistory) (e : Socket) :
    w.drivenBy? e = none ↔ ∀ l, w.Live l → l.source ≠ e := by
  obtain ⟨history, rfl⟩ := hw
  exact (Wiring.tracks_replay history e).eq_none_iff (Wiring.keyed_replay history) fun _ h => h.1

/-- Wirings that feed every input alike know the same outputs. -/
theorem Wiring.HasHistory.mem_bySource_iff {w v : Wiring} (hw : w.HasHistory) (hv : v.HasHistory)
    (hfed : ∀ t, w.feeding? t = v.feeding? t) (k : SocketKey) : k ∈ w.bySource ↔ k ∈ v.bySource := by
  obtain ⟨e, rfl⟩ := SocketKey.exists_socket k
  have hnone : w.drivenBy? e = none ↔ v.drivenBy? e = none := by
    rw [hw.drivenBy?_eq_none_iff, hv.drivenBy?_eq_none_iff]
    simp only [Wiring.Live, hfed]
  rw [ExtTreeMap.mem_iff_isSome_getElem?, ExtTreeMap.mem_iff_isSome_getElem?,
    Option.isSome_iff_ne_none, Option.isSome_iff_ne_none]
  exact not_congr hnone

namespace Graph

variable {g h : Graph}

theorem nodes_ext (hnode : ∀ id, g.node? id = h.node? id) : g.nodes = h.nodes :=
  ExtTreeMap.ext_getElem? hnode

theorem byTarget_ext (hfed : ∀ t, g.wiring.feeding? t = h.wiring.feeding? t) :
    g.wiring.byTarget = h.wiring.byTarget := by
  refine ExtTreeMap.ext_getElem? fun k => ?_
  obtain ⟨t, rfl⟩ := SocketKey.exists_socket k
  exact hfed t

/-- Graphs with the same nodes and the same link into every input have circuits that agree. -/
theorem agreeOn_circuit_of_same (hnode : ∀ id, g.node? id = h.node? id)
    (hfed : ∀ t, g.wiring.feeding? t = h.wiring.feeding? t) :
    g.circuit.AgreeOn h.circuit fun _ => True :=
  agreeOn_circuit (fun _ _ _ _ => trivial) (fun id _ => by rw [hnode]) fun id port _ => hfed ⟨id, port⟩

end Graph

namespace Document

variable {d d' : Document}

/-- When ids differ, the order of the entries does not matter for the nodes. -/
theorem node?_load_perm (hentries : d.entries.Perm d'.entries) (hids : (d.entries.map Entry.id).Nodup)
    (id : NodeId) : d.load.result.node? id = d'.load.result.node? id := by
  rw [node?_load, node?_load, kindOf?, kindOf?, filter_key_perm hentries hids]

/-- When targets differ, the order of the links does not matter for what feeds an input. -/
theorem feeding?_load_perm (hnode : ∀ id, d.load.result.node? id = d'.load.result.node? id)
    (hlinks : d.links.Perm d'.links) (htargets : (d.links.map Link.target).Nodup) (t : Socket) :
    d.load.result.wiring.feeding? t = d'.load.result.wiring.feeding? t := by
  have hjoins : ∀ l, d.load.result.Joins l ↔ d'.load.result.Joins l :=
    fun l => Graph.joins_iff_of_nodes (Graph.nodes_ext hnode)
  have hsplit : ∀ links : List Link,
      (links.filter fun l => l.target = t ∧ d'.load.result.Joins l)
        = (links.filter fun l => l.target = t).filter fun l => d'.load.result.Joins l := by
    intro links
    rw [List.filter_filter]
    simp [Bool.and_comm]
  rw [feeding?_load, feeding?_load]
  simp only [hjoins]
  rw [hsplit, hsplit, filter_key_perm hlinks htargets]

/-- **Without clashes, order does not matter.**  Let two documents list the same entries, all of different
    ids, and the same links, all into different inputs, each in an order of its own.  Then their graphs
    have the same nodes, the same links by target, and links by source for the same outputs; and they
    give the same shader or error, the same preview or error of every socket, and the same ancestors of
    every node. -/
theorem load_perm (hentries : d.entries.Perm d'.entries) (hids : (d.entries.map Entry.id).Nodup)
    (hlinks : d.links.Perm d'.links) (htargets : (d.links.map Link.target).Nodup) :
    let g := d.load.result
    let g' := d'.load.result
    g.nodes = g'.nodes ∧
    g.wiring.byTarget = g'.wiring.byTarget ∧
    (∀ k, k ∈ g.wiring.bySource ↔ k ∈ g'.wiring.bySource) ∧
    g.compile.result = g'.compile.result ∧
    (∀ s, (g.preview s).result = (g'.preview s).result) ∧
    (∀ id, g.ancestors id = g'.ancestors id) := by
  intro g g'
  have hnode : ∀ id, g.node? id = g'.node? id := node?_load_perm hentries hids
  have hfed : ∀ t, g.wiring.feeding? t = g'.wiring.feeding? t :=
    feeding?_load_perm hnode hlinks htargets
  have hagree := Graph.agreeOn_circuit_of_same hnode hfed
  refine ⟨Graph.nodes_ext hnode, Graph.byTarget_ext hfed, fun k => ?_, (hagree.compile trivial).symm,
    fun s => (hagree.preview trivial).symm, fun id => ?_⟩
  · exact (wellFormed_load d).wired.mem_bySource_iff (wellFormed_load d').wired hfed k
  · exact Wiring.ancestors_congr fun id _ port => hfed ⟨id, port⟩

/-- A number is added to itself.  An entry has no kind, and the link from it does not fit. -/
def doubled : Document where
  version := none
  entries := [⟨1, "Constant", []⟩, ⟨2, "ScalarOp", []⟩, ⟨7, "Tangent", []⟩]
  links := [⟨⟨1, 0⟩, ⟨2, 0⟩⟩, ⟨⟨1, 0⟩, ⟨2, 1⟩⟩, ⟨⟨2, 0⟩, ⟨0, 0⟩⟩, ⟨⟨7, 0⟩, ⟨1, 0⟩⟩]

/-- The same, listed from the end. -/
def doubledBackwards : Document where
  version := none
  entries := doubled.entries.reverse
  links := doubled.links.reverse

/-- The number is known by the link made last, which is not the same one. -/
theorem load_perm_doubled :
    (doubled.entries.map Entry.id).Nodup ∧ (doubled.links.map Link.target).Nodup ∧
    doubled.load.result.wiring.drivenBy? ⟨1, 0⟩ ≠ doubledBackwards.load.result.wiring.drivenBy? ⟨1, 0⟩ ∧
    (∃ text, doubled.load.result.compile.result = .ok text ∧
      doubledBackwards.load.result.compile.result = .ok text) ∧
    doubledBackwards.load.result.ancestors 2 = [1, 2] := by
  have hids : (doubled.entries.map Entry.id).Nodup := by decide
  have htargets : (doubled.links.map Link.target).Nodup := by decide
  obtain ⟨_, _, _, hcompile, _, hancestors⟩ := @load_perm doubled doubledBackwards
    (List.reverse_perm _).symm hids (List.reverse_perm _).symm htargets
  obtain ⟨text, htext⟩ : ∃ text, doubled.load.result.compile.result = .ok text := ⟨_, rfl⟩
  exact ⟨hids, htargets, by decide, ⟨text, htext, hcompile.symm.trans htext⟩,
    (hancestors 2).symm.trans (by rfl)⟩

end Document

end FragmentGraph
