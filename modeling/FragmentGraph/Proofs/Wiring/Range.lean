/-
  The links of one node in an index.

  An index is one list in the order of its keys, and a node's links are looked up as a range of it.  That
  finds what it should because a key is a socket (`key_lt_iff`): the keys of a node lie side by side, from
  the key of its port 0 to the key of its last port, and no other key lies between (`mem_range_iff`), not
  at either end of the ids and not beside a node with all its ports taken.

  1. **One node** — the range is what is stored under the keys of the node, in the order of the ports
     (`range_eq_filter`).

  2. **All nodes** — the ranges of ascending ids stand one behind the other, so together they are the
     index again (`flatMap_filter_node`).

  3. **Histories** — nothing is asked of an index but that it comes from puts and takes, under any keys:
     a link need not be stored under a socket of its own.  What is under a key is settled by the last
     change there (`getElem?_replay`).
-/
import FragmentGraph.Proofs.Socket.Key
import FragmentGraph.Wiring.Index
import Mathlib.Data.List.Induction

namespace FragmentGraph

open Std (ExtTreeMap)

/-- All ids in ascending order. -/
def NodeId.all : List NodeId := (List.range UInt32.size).map UInt32.ofNat

theorem NodeId.mem_all (id : NodeId) : id ∈ NodeId.all :=
  List.mem_map.mpr ⟨id.toNat, List.mem_range.mpr id.toNat_lt, UInt32.ofNat_toNat⟩

theorem NodeId.pairwise_all : NodeId.all.Pairwise (· < ·) := by
  rw [NodeId.all, List.pairwise_map]
  refine List.pairwise_lt_range.imp_of_mem fun {a b} ha hb hlt => ?_
  rw [UInt32.lt_iff_toNat_lt, UInt32.toNat_ofNat_of_lt' (List.mem_range.mp ha),
    UInt32.toNat_ofNat_of_lt' (List.mem_range.mp hb)]
  exact hlt

/-- Every key is the key of just one socket. -/
theorem SocketKey.existsUnique_socket (k : SocketKey) : ∃! s : Socket, s.key = k := by
  obtain ⟨s, hs⟩ := SocketKey.exists_socket k
  refine ⟨s, hs, fun t ht => ?_⟩
  exact Socket.key_inj.mp (ht.trans hs.symm)

namespace LinkIndex

/-! ## One node -/

/-- A key lies between the first and the last key of a node exactly if the node is its own. -/
theorem mem_range_iff (k : SocketKey) (id : NodeId) :
    (Socket.key ⟨id, 0⟩ ≤ k ∧ k ≤ Socket.key ⟨id, lastPort⟩) ↔ k.node = id := by
  obtain ⟨s, rfl⟩ := SocketKey.exists_socket k
  have hport := s.port.toNat_lt
  rw [Socket.node_key, UInt64.le_iff_toNat_le, UInt64.le_iff_toNat_le, ← UInt32.toNat_inj,
    Socket.toNat_key, Socket.toNat_key, Socket.toNat_key]
  show id.toNat * 2 ^ 32 + 0 ≤ _ ∧ _ ≤ id.toNat * 2 ^ 32 + 0xffffffff ↔ _
  omega

theorem range_eq_filter (index : LinkIndex) (id : NodeId) :
    index.range (Socket.key ⟨id, 0⟩) (Socket.key ⟨id, lastPort⟩)
      = index.toList.filter fun entry => entry.1.node == id := by
  refine List.filter_congr fun entry _ => ?_
  rw [Bool.eq_iff_iff, Bool.and_eq_true, decide_eq_true_iff, decide_eq_true_iff, mem_range_iff,
    beq_iff_eq]

theorem ofNode_eq_filter (index : LinkIndex) (id : NodeId) :
    index.ofNode id = (index.toList.filter fun entry => entry.1.node == id).map Prod.snd := by
  rw [ofNode, range_eq_filter]

/-- The entries of an index are in the order of their keys. -/
theorem pairwise_toList (index : LinkIndex) : index.toList.Pairwise fun a b => a.1 < b.1 :=
  ExtTreeMap.ordered_keys_toList.imp fun h => Std.compare_eq_lt.mp h

/-- On one node the order of the keys is the order of the ports. -/
theorem port_lt_of_lt {k k' : SocketKey} (hnode : k.node = k'.node) (h : k < k') : k.port < k'.port := by
  obtain ⟨s, rfl⟩ := SocketKey.exists_socket k
  obtain ⟨t, rfl⟩ := SocketKey.exists_socket k'
  rw [Socket.node_key, Socket.node_key] at hnode
  rw [Socket.port_key, Socket.port_key]
  rcases Socket.key_lt_iff.mp h with hlt | ⟨_, hlt⟩
  · rw [hnode] at hlt
    exact absurd hlt (UInt32.lt_irrefl _)
  · exact hlt

/-- Of two keys with different nodes, the one with the lesser node is less. -/
theorem lt_of_node_lt {k k' : SocketKey} (h : k.node < k'.node) : k < k' := by
  obtain ⟨s, rfl⟩ := SocketKey.exists_socket k
  obtain ⟨t, rfl⟩ := SocketKey.exists_socket k'
  rw [Socket.node_key, Socket.node_key] at h
  exact Socket.key_lt_iff.mpr (Or.inl h)

/-- **The links of a node.**  They are those stored under the keys with that node, by ascending port. -/
theorem exists_entries_ofNode (index : LinkIndex) (id : NodeId) :
    ∃ entries : List (SocketKey × Link),
      (∀ k l, (k, l) ∈ entries ↔ k.node = id ∧ index[k]? = some l) ∧
      entries.Pairwise (fun a b => a.1.port < b.1.port) ∧
      index.ofNode id = entries.map Prod.snd := by
  refine ⟨index.toList.filter fun entry => entry.1.node == id, fun k l => ?_, ?_,
    ofNode_eq_filter index id⟩
  · rw [List.mem_filter, ExtTreeMap.mem_toList_iff_getElem?_eq_some, beq_iff_eq, and_comm]
  · refine (index.pairwise_toList.filter _).imp_of_mem fun {a b} ha hb hlt => ?_
    have hnodeA : a.1.node = id := by simpa using (List.mem_filter.mp ha).2
    have hnodeB : b.1.node = id := by simpa using (List.mem_filter.mp hb).2
    exact port_lt_of_lt (hnodeA.trans hnodeB.symm) hlt

/-! ## All nodes -/

/-- Lists in the order of their keys are the same if they hold the same entries. -/
theorem eq_of_mem_iff {entries entries' : List (SocketKey × Link)}
    (h : entries.Pairwise fun a b => a.1 < b.1) (h' : entries'.Pairwise fun a b => a.1 < b.1)
    (hmem : ∀ entry, entry ∈ entries ↔ entry ∈ entries') : entries = entries' := by
  have hnodup : ∀ {l : List (SocketKey × Link)}, l.Pairwise (fun a b => a.1 < b.1) → l.Nodup :=
    fun hl => hl.imp fun {a b} hlt heq => absurd (heq ▸ hlt) (UInt64.lt_irrefl _)
  have hperm := (List.perm_ext_iff_of_nodup (hnodup h) (hnodup h')).mpr hmem
  exact hperm.eq_of_pairwise (fun a b _ _ hab hba => absurd hba (UInt64.lt_asymm hab)) h h'

/-- Entries in the order of their keys, taken apart by node and put together again in the order of the
    nodes, are the same entries. -/
theorem flatMap_filter_node {entries : List (SocketKey × Link)} {ids : List NodeId}
    (hentries : entries.Pairwise fun a b => a.1 < b.1) (hids : ids.Pairwise (· < ·))
    (hall : ∀ entry ∈ entries, entry.1.node ∈ ids) :
    ids.flatMap (fun id => entries.filter fun entry => entry.1.node == id) = entries := by
  refine eq_of_mem_iff ?_ hentries fun entry => ?_
  · -- inside a node the order is that of the entries, and between nodes that of the ids
    refine List.pairwise_flatMap.mpr ⟨fun id _ => hentries.filter _, hids.imp fun {i j} hij => ?_⟩
    intro a ha b hb
    have hnodeA : a.1.node = i := by simpa using (List.mem_filter.mp ha).2
    have hnodeB : b.1.node = j := by simpa using (List.mem_filter.mp hb).2
    exact lt_of_node_lt (by rwa [hnodeA, hnodeB])
  · rw [List.mem_flatMap]
    constructor
    · rintro ⟨id, _, hentry⟩
      exact (List.mem_filter.mp hentry).1
    · intro hentry
      exact ⟨entry.1.node, hall entry hentry, List.mem_filter.mpr ⟨hentry, beq_self_eq_true _⟩⟩

/-- The links of ascending nodes, with no node left out that has any, are all links in order. -/
theorem flatMap_ofNode (index : LinkIndex) {ids : List NodeId} (hids : ids.Pairwise (· < ·))
    (hall : ∀ entry ∈ index.toList, entry.1.node ∈ ids) : ids.flatMap index.ofNode = index.links := by
  calc ids.flatMap index.ofNode
      = ids.flatMap fun id => (index.toList.filter fun entry => entry.1.node == id).map Prod.snd :=
        congrArg ids.flatMap (funext index.ofNode_eq_filter)
    _ = (ids.flatMap fun id => index.toList.filter fun entry => entry.1.node == id).map Prod.snd :=
        List.map_flatMap.symm
    _ = index.links := by rw [flatMap_filter_node index.pairwise_toList hids hall, links]

end LinkIndex

/-! ## Histories -/

/-- A change of an index. -/
inductive IndexChange where
  | put (key : SocketKey) (l : Link)
  | take (key : SocketKey)

namespace IndexChange

/-- The key that the change is about. -/
def key : IndexChange → SocketKey
  | put key _ => key
  | take key => key

/-- What the change leaves under its key. -/
def link? : IndexChange → Option Link
  | put _ l => some l
  | take _ => none

/-- The index after the change. -/
def apply (index : LinkIndex) : IndexChange → LinkIndex
  | put key l => (index.exchange key l).2
  | take key => (index.extract key).2

/-- A change settles what is under its key and leaves the rest alone. -/
theorem getElem?_apply (index : LinkIndex) (change : IndexChange) (k : SocketKey) :
    (change.apply index)[k]? = if change.key = k then change.link? else index[k]? := by
  cases change with
  | put key l =>
    show (index.insert key l)[k]? = _
    rw [ExtTreeMap.getElem?_insert]
    simp only [Std.compare_eq_iff_eq]
    rfl
  | take key =>
    show (index.erase key)[k]? = _
    rw [ExtTreeMap.getElem?_erase]
    simp only [Std.compare_eq_iff_eq]
    rfl

end IndexChange

namespace LinkIndex

/-- The index after a history that began with no links. -/
def replay (history : List IndexChange) : LinkIndex := history.foldl IndexChange.apply ∅

/-- What a history leaves under a key is what the last change there left. -/
theorem getElem?_replay (history : List IndexChange) (k : SocketKey) :
    (replay history)[k]? = ((history.filter fun c => c.key = k).getLast?).bind IndexChange.link? := by
  induction history using List.reverseRecOn with
  | nil => exact ExtTreeMap.getElem?_empty
  | append_singleton history change ih =>
    rw [replay, List.foldl_append, ← replay, List.filter_append]
    show (change.apply (replay history))[k]? = _
    rw [IndexChange.getElem?_apply]
    by_cases hkey : change.key = k
    · rw [if_pos hkey, List.filter_cons_of_pos (by simpa using hkey), List.filter_nil,
        List.getLast?_concat, Option.bind_some]
    · rw [if_neg hkey, List.filter_cons_of_neg (by simpa using hkey), List.filter_nil, List.append_nil,
        ih]

/-- **Keys and ranges are exact.**  A key gives back the node and the port that it was made from, every
    64-bit number is the key of just one socket, and keys are ordered by node first and by port second.
    So in every index that comes from puts and takes, whatever their keys, the links of a node are those
    stored under the keys with that node, by ascending port; and the links of all nodes, one node after
    the other, are the links of the index in order. -/
theorem keys_and_ranges_exact :
    (∀ (node : NodeId) (port : PortIndex),
      (Socket.key ⟨node, port⟩).node = node ∧ (Socket.key ⟨node, port⟩).port = port) ∧
    (∀ k : SocketKey, ∃! s : Socket, s.key = k) ∧
    (∀ s t : Socket, s.key < t.key ↔ s.node < t.node ∨ s.node = t.node ∧ s.port < t.port) ∧
    ∀ history : List IndexChange,
      let index := replay history
      (∀ k, index[k]? = ((history.filter fun c => c.key = k).getLast?).bind IndexChange.link?) ∧
      (∀ id, ∃ entries : List (SocketKey × Link),
        (∀ k l, (k, l) ∈ entries ↔ k.node = id ∧ index[k]? = some l) ∧
        entries.Pairwise (fun a b => a.1.port < b.1.port) ∧
        index.ofNode id = entries.map Prod.snd) ∧
      NodeId.all.flatMap index.ofNode = index.links ∧
      ∀ ids : List NodeId, ids.Pairwise (· < ·) → (∀ entry ∈ index.toList, entry.1.node ∈ ids) →
        ids.flatMap index.ofNode = index.links := by
  refine ⟨fun node port => ⟨Socket.node_key _, Socket.port_key _⟩, SocketKey.existsUnique_socket,
    fun s t => Socket.key_lt_iff, fun history => ?_⟩
  intro index
  refine ⟨getElem?_replay history, index.exists_entries_ofNode, ?_, fun ids hids hall => ?_⟩
  · exact index.flatMap_ofNode NodeId.pairwise_all fun entry _ => NodeId.mem_all _
  · exact index.flatMap_ofNode hids hall

/-- Keys at both ends of the ids and of the ports.  No link is under a key of its own; one key is put twice,
    and one is taken. -/
def cornered : List IndexChange :=
  [.put (Socket.key ⟨0xffffffff, lastPort⟩) ⟨⟨1, 0⟩, ⟨2, 0⟩⟩,
   .put (Socket.key ⟨0, lastPort⟩) ⟨⟨3, 0⟩, ⟨4, 0⟩⟩,
   .put (Socket.key ⟨1, 0⟩) ⟨⟨5, 0⟩, ⟨6, 0⟩⟩,
   .put (Socket.key ⟨0, 0⟩) ⟨⟨7, 0⟩, ⟨8, 0⟩⟩,
   .take (Socket.key ⟨1, 0⟩),
   .put (Socket.key ⟨0, 0⟩) ⟨⟨9, 0⟩, ⟨9, 1⟩⟩]

/-- The link at the first port of node 0 was put last and comes first, node 1 has no link left, and the
    first and the last id have all links of the index. -/
theorem keys_and_ranges_exact_cornered :
    [0, 0xffffffff].Pairwise (fun a b : NodeId => a < b) ∧
    (∀ entry ∈ (replay cornered).toList, entry.1.node ∈ [(0 : NodeId), 0xffffffff]) ∧
    [(0 : NodeId), 0xffffffff].flatMap (replay cornered).ofNode = (replay cornered).links ∧
    (replay cornered).ofNode 0 = [⟨⟨9, 0⟩, ⟨9, 1⟩⟩, ⟨⟨3, 0⟩, ⟨4, 0⟩⟩] ∧
    (replay cornered).ofNode 1 = [] := by
  have hids : [0, 0xffffffff].Pairwise (fun a b : NodeId => a < b) := by decide
  have hall : ∀ entry ∈ (replay cornered).toList, entry.1.node ∈ [(0 : NodeId), 0xffffffff] := by
    decide
  obtain ⟨_, _, _, hindex⟩ := keys_and_ranges_exact
  exact ⟨hids, hall, (hindex cornered).2.2.2 _ hids hall, by decide, by decide⟩

end LinkIndex

end FragmentGraph
