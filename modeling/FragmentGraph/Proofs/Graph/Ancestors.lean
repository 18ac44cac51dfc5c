/-
  The search finds what a node depends on, and nothing else.

  A node draws from the nodes that feed its inputs.  `Wiring.search` works off a list of nodes: one that
  is found already is passed over, and any other is found and has its sources put on the list.

  1. **What is left to find** — whatever the fuel, what the search gives is what it has found, together
     with all that the nodes on its list lead to, as long as the fuel covers the work (`mem_search`).
     The invariant is `Settled`: a node that is found has its sources found or on the list.

  2. **The work** — a round takes one node off the list, and puts on it one node for every link into a
     node that was not found before.  So the nodes on the list and the links into nodes not found yet
     lose at least one in each round (`openLinks_insert`), and there is enough fuel for all.

  So the ancestors of a node are the least set that has the node and is closed under sources
  (`mem_ancestors_iff`), in ascending order, and two wirings that feed those nodes alike give the same
  list (`ancestors_congr`).  Nothing is asked of the wiring.
-/
import FragmentGraph.Graph.Ancestors
import FragmentGraph.Proofs.Wiring.Range
import Mathlib.Logic.Relation

namespace FragmentGraph

open Std (ExtTreeMap ExtTreeSet)
open Relation (ReflTransGen)

namespace Wiring

variable {w v : Wiring} {id source root : NodeId}

/-! ## Sources -/

/-- `DrawsFrom w id source` — some input of `id` is fed by an output of `source`. -/
def DrawsFrom (w : Wiring) (id source : NodeId) : Prop :=
  ∃ port l, w.feeding? ⟨id, port⟩ = some l ∧ l.source.node = source

/-- The sources of a node are the nodes that it draws from. -/
theorem mem_sources : source ∈ w.sources id ↔ w.DrawsFrom id source := by
  constructor
  · intro h
    obtain ⟨l, hl, rfl⟩ := List.mem_map.mp h
    rw [LinkIndex.ofNode_eq_filter] at hl
    obtain ⟨⟨k, l'⟩, hentry, rfl⟩ := List.mem_map.mp hl
    obtain ⟨hin, hnode⟩ := List.mem_filter.mp hentry
    -- the key is that of some socket, whose node is the node of the key
    obtain ⟨⟨node, port⟩, rfl⟩ := SocketKey.exists_socket k
    obtain rfl : node = id := by simpa [Socket.node_key] using hnode
    exact ⟨port, l', ExtTreeMap.mem_toList_iff_getElem?_eq_some.mp hin, rfl⟩
  · rintro ⟨port, l, hl, rfl⟩
    rw [sources, LinkIndex.ofNode_eq_filter]
    refine List.mem_map.mpr ⟨l, List.mem_map.mpr ⟨((⟨id, port⟩ : Socket).key, l), ?_, rfl⟩, rfl⟩
    refine List.mem_filter.mpr ⟨ExtTreeMap.mem_toList_iff_getElem?_eq_some.mpr hl, ?_⟩
    simp [Socket.node_key]

/-! ## The work -/

/-- The links into nodes that are not found. -/
def openLinks (w : Wiring) (found : ExtTreeSet NodeId) : Nat :=
  w.byTarget.toList.countP fun entry => !found.contains entry.1.node

theorem openLinks_empty (w : Wiring) : w.openLinks ∅ = w.byTarget.size := by
  rw [openLinks, ← ExtTreeMap.length_toList, List.countP_eq_length]
  intro entry _
  simp

/-- Finding a node closes the links into it, of which there are as many as it has sources. -/
theorem openLinks_insert {found : ExtTreeSet NodeId} (hid : found.contains id = false) :
    w.openLinks (found.insert id) + (w.sources id).length = w.openLinks found := by
  have hsources : (w.sources id).length = w.byTarget.toList.countP fun entry => entry.1.node == id := by
    rw [sources, List.length_map, LinkIndex.ofNode_eq_filter, List.length_map,
      List.countP_eq_length_filter]
  rw [hsources, openLinks, openLinks]
  induction w.byTarget.toList with
  | nil => rfl
  | cons entry entries ih =>
    simp only [List.countP_cons, ExtTreeSet.contains_insert] at ih ⊢
    by_cases hnode : entry.1.node = id
    · simp only [hnode, hid, Std.ReflCmp.compare_self, beq_self_eq_true, Bool.true_or, Bool.not_true,
        Bool.not_false, Bool.false_eq_true, if_true, if_false]
      omega
    · have hcompare : (compare id entry.1.node == .eq) = false := by simpa using Ne.symm hnode
      have hbeq : (entry.1.node == id) = false := by simpa using hnode
      simp only [hcompare, hbeq, Bool.false_or, Bool.false_eq_true, if_false]
      omega

/-! ## The search -/

/-- `Settled w todo found` — every source of a node that is found is found as well, or on the list. -/
def Settled (w : Wiring) (todo : List NodeId) (found : ExtTreeSet NodeId) : Prop :=
  ∀ id ∈ found, ∀ source, w.DrawsFrom id source → source ∈ found ∨ source ∈ todo

/-- `Leads w todo found id` — the node is found, or some node on the list leads to it. -/
def Leads (w : Wiring) (todo : List NodeId) (found : ExtTreeSet NodeId) (id : NodeId) : Prop :=
  id ∈ found ∨ ∃ start ∈ todo, ReflTransGen w.DrawsFrom start id

variable {todo : List NodeId} {found : ExtTreeSet NodeId} {goal : NodeId}

/-- What a found node leads to is found, or the list leads to it. -/
theorem Settled.leads (h : w.Settled todo found) (hid : id ∈ found)
    (hpath : ReflTransGen w.DrawsFrom id goal) : w.Leads todo found goal := by
  induction hpath with
  | refl => exact Or.inl hid
  | tail _ hdraws ih =>
    rcases ih with hfound | ⟨start, hstart, hpath⟩
    · rcases h _ hfound _ hdraws with hsource | hsource
      · exact Or.inl hsource
      · exact Or.inr ⟨_, hsource, ReflTransGen.refl⟩
    · exact Or.inr ⟨start, hstart, hpath.tail hdraws⟩

/-- Nothing is lost when a node that is found is passed over. -/
theorem Settled.drop (h : w.Settled (id :: todo) found) (hid : id ∈ found) :
    w.Settled todo found := by
  intro id' hid' source hdraws
  rcases h id' hid' source hdraws with hsource | hsource
  · exact Or.inl hsource
  · rcases List.mem_cons.mp hsource with rfl | hsource
    · exact Or.inl hid
    · exact Or.inr hsource

/-- Passing over a node that is found changes nothing in what is found or led to. -/
theorem Settled.leads_drop (h : w.Settled (id :: todo) found) (hid : id ∈ found) :
    w.Leads (id :: todo) found goal ↔ w.Leads todo found goal := by
  constructor
  · rintro (hfound | ⟨start, hstart, hpath⟩)
    · exact Or.inl hfound
    · rcases List.mem_cons.mp hstart with rfl | hstart
      · exact (h.drop hid).leads hid hpath
      · exact Or.inr ⟨start, hstart, hpath⟩
  · rintro (hfound | ⟨start, hstart, hpath⟩)
    · exact Or.inl hfound
    · exact Or.inr ⟨start, List.mem_cons_of_mem _ hstart, hpath⟩

theorem mem_insert_found : goal ∈ found.insert id ↔ goal = id ∨ goal ∈ found := by
  rw [ExtTreeSet.mem_insert, Std.compare_eq_iff_eq, eq_comm]

/-- Nothing is lost when a node is found and its sources are put on the list. -/
theorem Settled.expand (h : w.Settled (id :: todo) found) :
    w.Settled (w.sources id ++ todo) (found.insert id) := by
  intro id' hid' source hdraws
  rcases mem_insert_found.mp hid' with rfl | hid'
  · exact Or.inr (List.mem_append_left _ (mem_sources.mpr hdraws))
  · rcases h id' hid' source hdraws with hsource | hsource
    · exact Or.inl (mem_insert_found.mpr (Or.inr hsource))
    · rcases List.mem_cons.mp hsource with rfl | hsource
      · exact Or.inl (mem_insert_found.mpr (Or.inl rfl))
      · exact Or.inr (List.mem_append_right _ hsource)

/-- Neither does finding a node and putting its sources on the list. -/
theorem leads_expand :
    w.Leads (id :: todo) found goal ↔ w.Leads (w.sources id ++ todo) (found.insert id) goal := by
  constructor
  · rintro (hfound | ⟨start, hstart, hpath⟩)
    · exact Or.inl (mem_insert_found.mpr (Or.inr hfound))
    · rcases List.mem_cons.mp hstart with rfl | hstart
      · -- a path from the node is empty, or begins with one of its sources
        rcases hpath.cases_head with rfl | ⟨source, hdraws, hpath⟩
        · exact Or.inl (mem_insert_found.mpr (Or.inl rfl))
        · exact Or.inr ⟨source, List.mem_append_left _ (mem_sources.mpr hdraws), hpath⟩
      · exact Or.inr ⟨start, List.mem_append_right _ hstart, hpath⟩
  · rintro (hfound | ⟨start, hstart, hpath⟩)
    · rcases mem_insert_found.mp hfound with rfl | hfound
      · exact Or.inr ⟨goal, List.mem_cons_self, ReflTransGen.refl⟩
      · exact Or.inl hfound
    · rcases List.mem_append.mp hstart with hstart | hstart
      · exact Or.inr ⟨id, List.mem_cons_self, hpath.head (mem_sources.mp hstart)⟩
      · exact Or.inr ⟨start, List.mem_cons_of_mem _ hstart, hpath⟩

/-- **The search is exact.**  With fuel for every node on the list and every link into a node not found
    yet, it gives what is found and what the list leads to. -/
theorem mem_search : ∀ (fuel : Nat) (todo : List NodeId) (found : ExtTreeSet NodeId),
    todo.length + w.openLinks found ≤ fuel → w.Settled todo found →
    (goal ∈ w.search fuel todo found ↔ w.Leads todo found goal) := by
  have hdone : ∀ found : ExtTreeSet NodeId, goal ∈ found ↔ w.Leads [] found goal := by
    intro found
    constructor
    · exact Or.inl
    · rintro (hfound | ⟨start, hstart, _⟩)
      · exact hfound
      · exact absurd hstart List.not_mem_nil
  intro fuel
  induction fuel with
  | zero =>
    intro todo found hfuel _
    obtain rfl : todo = [] := List.length_eq_zero_iff.mp (by omega)
    exact hdone found
  | succ fuel ih =>
    intro todo found hfuel hsettled
    cases todo with
    | nil => exact hdone found
    | cons id todo =>
      rw [List.length_cons] at hfuel
      rw [search]
      cases hid : found.contains id with
      | true =>
        have hmem : id ∈ found := ExtTreeSet.mem_iff_contains.mpr hid
        rw [if_pos rfl, hsettled.leads_drop hmem]
        exact ih todo found (by omega) (hsettled.drop hmem)
      | false =>
        have hlinks := openLinks_insert (w := w) hid
        rw [if_neg (by simp), leads_expand]
        refine ih _ _ ?_ hsettled.expand
        rw [List.length_append]
        omega

/-! ## Ancestors -/

/-- The nodes that the search from a single node finds. -/
theorem mem_search_start :
    goal ∈ w.search (w.byTarget.size + 1) [root] ∅ ↔ ReflTransGen w.DrawsFrom root goal := by
  have hfuel : [root].length + w.openLinks ∅ ≤ w.byTarget.size + 1 := by
    rw [openLinks_empty, List.length_singleton]
    omega
  have hsettled : w.Settled [root] ∅ := fun id hid => absurd hid ExtTreeSet.not_mem_empty
  rw [mem_search _ _ _ hfuel hsettled]
  constructor
  · rintro (hfound | ⟨start, hstart, hpath⟩)
    · exact absurd hfound ExtTreeSet.not_mem_empty
    · rw [← List.mem_singleton.mp hstart]
      exact hpath
  · intro hpath
    exact Or.inr ⟨root, List.mem_cons_self, hpath⟩

/-- The ancestors of a node are the node and all that it draws from, through any number of links. -/
theorem mem_ancestors_iff : goal ∈ w.ancestors root ↔ ReflTransGen w.DrawsFrom root goal := by
  rw [ancestors, ExtTreeSet.mem_toList]
  exact mem_search_start

/-- Wirings that feed the ancestors of a node alike give it the same ancestors. -/
theorem ancestors_congr
    (hfed : ∀ id ∈ w.ancestors root, ∀ port, v.feeding? ⟨id, port⟩ = w.feeding? ⟨id, port⟩) :
    v.ancestors root = w.ancestors root := by
  have hdraws : ∀ id source, ReflTransGen w.DrawsFrom root id →
      (v.DrawsFrom id source ↔ w.DrawsFrom id source) := by
    intro id source hpath
    have hport := hfed id (mem_ancestors_iff.mpr hpath)
    simp only [DrawsFrom, hport]
  have hpaths : ∀ id, ReflTransGen v.DrawsFrom root id ↔ ReflTransGen w.DrawsFrom root id := by
    intro id
    constructor
    · intro hpath
      induction hpath with
      | refl => exact ReflTransGen.refl
      | tail _ hstep ih => exact ih.tail ((hdraws _ _ ih).mp hstep)
    · intro hpath
      induction hpath with
      | refl => exact ReflTransGen.refl
      | tail hpath hstep ih => exact ih.tail ((hdraws _ _ hpath).mpr hstep)
  rw [ancestors, ancestors]
  refine congrArg ExtTreeSet.toList (ExtTreeSet.ext_mem fun id => ?_)
  rw [mem_search_start, mem_search_start]
  exact hpaths id

end Wiring

end FragmentGraph
