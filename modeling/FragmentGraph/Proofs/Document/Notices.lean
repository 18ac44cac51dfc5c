/-
  Nothing is skipped in silence.

  Loading takes what it can of a document and gives a notice for all else.  The notices tell exactly what
  was left out: there is one for every entry that brought no node of the graph, the output's own entries
  apart, and one for every link that does not fit the nodes.

  1. **One item** — an entry gives a notice if it asks booleans for an ordering (`readNotices_spec`), and
     then one if it is skipped; a link gives one if it is skipped.

  2. **All items** — the notices of a run are those of its items in order, each as it is met in the graph
     that the items before it have made (`Logged.getElem?_trace`).  Whether the entry at a place is
     skipped there can be told from the finished graph: it is, unless a node has come from it
     (`skipped_iff`).

  3. **The balance** — an entry is skipped, or is the output's own, or brings one node, and never two of
     these (`balance_addEntry`).  So notices, output entries and nodes add up to the entries.
-/
import FragmentGraph.Proofs.Document.Load

namespace FragmentGraph

open Glsl Json Numeric
open Std (ExtTreeMap)

/-- `OneIf P Q notices` — there is one notice, and it has `Q`, if `P` holds; and there is none if not. -/
def OneIf (P : Prop) (Q : Notice → Prop) (notices : List Notice) : Prop :=
  (P → ∃ notice, Q notice ∧ notices = [notice]) ∧ (¬ P → notices = [])

/-! ## Orderings asked of booleans -/

/-- The parameter is there and names `a`. -/
def ParamIs {α : Type} [Named α] (params : Members) (key : String) (a : α) : Prop :=
  ∃ value, params.get? key = some value ∧ readNamed value = .ok a

/-- A choice other than the default is made by its parameter. -/
theorem Kind.choice_eq_ok_iff {α : Type} [Named α] {params : Members} {key : String} {default a : α}
    (ha : a ≠ default) : Kind.choice params key default = .ok a ↔ ParamIs params key a := by
  rw [Kind.choice, parameter, ParamIs]
  cases params.get? key with
  | none => simpa using Ne.symm ha
  | some value =>
    simp only [Option.some.injEq, exists_eq_left']
    cases readNamed (α := α) value with
    | error cause => simp
    | ok b => simp

/-- `e.AsksOrdering op` — the entry, away from the output's id, is to compare booleans by an ordering. -/
def Entry.AsksOrdering (e : Entry) (op : Comparison) : Prop :=
  e.id ≠ outputId ∧ e.type = "Compare" ∧ ParamIs e.params "type" Ty.bool ∧ ParamIs e.params "op" op ∧
    op.isOrdering = true

theorem Kind.comparable_ne_iff {ty : Ty} {op : Comparison} :
    comparable ty op ≠ op ↔ ty = .bool ∧ op.isOrdering = true := by
  rw [comparable]
  split
  · next h =>
    refine ⟨fun _ => h, fun _ heq => ?_⟩
    rw [← heq] at h
    exact absurd h.2 (by decide)
  · next h => exact ⟨fun hne => absurd rfl hne, fun hcond => absurd hcond h⟩

/-- The fallback is the ordering that booleans are asked for. -/
theorem Kind.fallback?_eq_some_iff {type : String} {params : Members} {op : Comparison} :
    fallback? type params = some op ↔
      type = "Compare" ∧ ParamIs params "type" Ty.bool ∧ ParamIs params "op" op ∧ op.isOrdering = true := by
  have hdefault : ∀ {op : Comparison}, op.isOrdering = true → op ≠ .equal := by
    rintro op hop rfl
    cases hop
  rw [fallback?]
  split
  · next htype =>
    constructor
    · intro h
      cases hty : typeChoice params with
      | error cause => simp [hty] at h
      | ok ty =>
        cases hop : choice params "op" Comparison.equal with
        | error cause => simp [hty, hop] at h
        | ok found =>
          simp only [hty, hop] at h
          split at h
          · cases h
          · next hne =>
            obtain rfl : found = op := Option.some.inj h
            obtain ⟨rfl, hordering⟩ := comparable_ne_iff.mp hne
            exact ⟨htype, (choice_eq_ok_iff (by decide)).mp hty,
              (choice_eq_ok_iff (hdefault hordering)).mp hop, hordering⟩
    · rintro ⟨_, hty, hop, hordering⟩
      have hty' : typeChoice params = .ok .bool := (choice_eq_ok_iff (by decide)).mpr hty
      rw [hty', (choice_eq_ok_iff (hdefault hordering)).mpr hop]
      exact if_neg (comparable_ne_iff.mpr ⟨rfl, hordering⟩)
  · next htype => exact ⟨fun h => (by cases h), fun h => absurd h.1 htype⟩

/-- Reading an entry's kind gives a notice exactly if it asks booleans for an ordering. -/
theorem Entry.readNotices_spec (e : Entry) :
    OneIf (∃ op, e.AsksOrdering op) (fun notice => ∃ op, e.AsksOrdering op ∧ notice = .equalityOnly op)
      e.readNotices := by
  by_cases hid : e.id = outputId
  · have hnone : e.readNotices = [] := readNotices_of_reserved (Or.inl hid)
    exact ⟨fun ⟨_, hasks⟩ => absurd hid hasks.1, fun _ => hnone⟩
  · have hasks : ∀ op, e.AsksOrdering op ↔ Kind.fallback? e.type e.params = some op := by
      intro op
      rw [Kind.fallback?_eq_some_iff, AsksOrdering, and_iff_right hid]
    rw [readNotices_of_ne hid, Notice.ofKind]
    constructor
    · rintro ⟨op, hop⟩
      refine ⟨.equalityOnly op, ⟨op, hop, rfl⟩, ?_⟩
      rw [(hasks op).mp hop]
      rfl
    · intro hnot
      rw [Option.eq_none_iff_forall_ne_some.mpr fun op hop => hnot ⟨op, (hasks op).mpr hop⟩]
      rfl

/-! ## Runs -/

namespace Logged

variable {σ α : Type}

/-- The notices of each item when items are taken one after the other. -/
def trace (f : σ → α → Logged σ) (start : σ) : List α → List (List Notice)
  | [] => []
  | x :: items => (f start x).notices :: trace f (f start x).result items

theorem length_trace (f : σ → α → Logged σ) (start : σ) (items : List α) :
    (trace f start items).length = items.length := by
  induction items generalizing start with
  | nil => rfl
  | cons x items ih => rw [trace, List.length_cons, ih, List.length_cons]

/-- The notices of a run are those of its items, in order. -/
theorem flatten_trace (f : σ → α → Logged σ) (start : σ) (items : List α) :
    (trace f start items).flatten = (Logged.foldl f start items).notices := by
  induction items generalizing start with
  | nil => rfl
  | cons x items ih => rw [trace, List.flatten_cons, ih, notices_foldl_cons]

/-- An item gives the notices that it gives behind the items before it. -/
theorem getElem?_trace (f : σ → α → Logged σ) (start : σ) (items : List α) (i : Nat) :
    (trace f start items)[i]?
      = items[i]?.map fun x => (f (Logged.foldl f start (items.take i)).result x).notices := by
  induction items generalizing start i with
  | nil => rfl
  | cons x items ih =>
    cases i with
    | zero => rfl
    | succ i =>
      rw [trace, List.getElem?_cons_succ, ih, List.getElem?_cons_succ, List.take_succ_cons,
        result_foldl_cons]

end Logged

/-! ## Where nodes come from -/

/-- `d.Supplied i node` — the node is in the graph and comes from the entry at place `i`: the entry has the
    node's id and kind, and no entry before it has that id and a kind. -/
def Document.Supplied (d : Document) (i : Nat) (node : Node) : Prop :=
  d.load.result.node? node.id = some node ∧
  ∃ e, d.entries[i]? = some e ∧ e.id = node.id ∧ e.kind? = some node.kind ∧
    ∀ earlier ∈ d.entries.take i, earlier.id = node.id → earlier.kind? = none

theorem kindOf?_eq_none_iff {entries : List Entry} {id : NodeId} :
    kindOf? entries id = none ↔ ∀ e ∈ entries, e.id = id → e.kind? = none := by
  rw [kindOf?, List.findSome?_eq_none_iff]
  simp only [List.mem_filter, decide_eq_true_eq, and_imp]

/-- The kind at an id is that of the first entry with the id and a kind. -/
theorem kindOf?_eq_some_iff {entries : List Entry} {id : NodeId} {kind : Kind} :
    kindOf? entries id = some kind ↔
      ∃ i e, entries[i]? = some e ∧ e.id = id ∧ e.kind? = some kind ∧ kindOf? (entries.take i) id = none := by
  induction entries with
  | nil => simp [kindOf?]
  | cons first entries ih =>
    rw [kindOf?_cons]
    cases hfirst : if first.id = id then first.kind? else none with
    | some brought =>
      -- the first entry brings a kind, so no later place will do
      rw [Option.some_or]
      constructor
      · intro h
        split at hfirst
        · next hid => exact ⟨0, first, rfl, hid, hfirst.trans h, rfl⟩
        · cases hfirst
      · rintro ⟨i, e, he, hid, hkind, hbefore⟩
        cases i with
        | zero =>
          obtain rfl : first = e := Option.some.inj he
          rw [if_pos hid] at hfirst
          exact hfirst.symm.trans hkind
        | succ i =>
          rw [List.take_succ_cons, kindOf?_cons, hfirst, Option.some_or] at hbefore
          cases hbefore
    | none =>
      rw [Option.none_or, ih]
      constructor
      · rintro ⟨i, e, he, hid, hkind, hbefore⟩
        refine ⟨i + 1, e, he, hid, hkind, ?_⟩
        rw [List.take_succ_cons, kindOf?_cons, hfirst, Option.none_or]
        exact hbefore
      · rintro ⟨i, e, he, hid, hkind, hbefore⟩
        cases i with
        | zero =>
          obtain rfl : first = e := Option.some.inj he
          rw [if_pos hid, hkind] at hfirst
          cases hfirst
        | succ i =>
          rw [List.take_succ_cons, kindOf?_cons, hfirst, Option.none_or] at hbefore
          exact ⟨i, e, he, hid, hkind, hbefore⟩

namespace Document

variable {d : Document} {i : Nat} {e : Entry} {node : Node}

/-- What supplies a node is said by the entries alone: the entry has the node's id and kind, and no entry
    before it gives the id one. -/
theorem supplied_iff : d.Supplied i node ↔
    ∃ e, d.entries[i]? = some e ∧ e.id = node.id ∧ e.kind? = some node.kind ∧
      kindOf? (d.entries.take i) node.id = none := by
  rw [Supplied]
  simp only [kindOf?_eq_none_iff]
  refine ⟨fun h => h.2, fun h => ⟨?_, h⟩⟩
  obtain ⟨e, he, hid, hkind, hbefore⟩ := h
  have hne : outputId ≠ node.id := hid ▸ (Entry.id_ne_outputId hkind).symm
  have hfirst := kindOf?_eq_some_iff.mpr ⟨i, e, he, hid, hkind, kindOf?_eq_none_iff.mpr hbefore⟩
  rw [node?_load, Graph.node?_new, if_neg hne, Option.none_or, hfirst]
  rfl

/-- Every node but the output comes from just one entry. -/
theorem existsUnique_supplied (hnode : d.load.result.node? node.id = some node)
    (hkind : node.kind ≠ .output) : ∃! i, d.Supplied i node := by
  have hne : outputId ≠ node.id := by
    intro hid
    rw [← hid, (wellFormed_load d).output] at hnode
    exact hkind (Option.some.inj hnode ▸ rfl)
  rw [node?_load, Graph.node?_new, if_neg hne, Option.none_or, Option.map_eq_some_iff] at hnode
  obtain ⟨kind, hfirst, heq⟩ := hnode
  obtain rfl : kind = node.kind := congrArg Node.kind heq
  obtain ⟨i, hplace⟩ := kindOf?_eq_some_iff.mp hfirst
  refine ⟨i, supplied_iff.mpr hplace, fun j hj => ?_⟩
  -- of two places the later one would stand behind an entry with the id and a kind
  have hlate : ∀ {i j : Nat}, d.Supplied i node → d.Supplied j node → ¬ i < j := by
    rintro i j ⟨_, e, he, hid, hkind, _⟩ ⟨_, _, _, _, _, hbefore⟩ hlt
    have hmem : e ∈ d.entries.take j :=
      List.mem_of_getElem? ((List.getElem?_take_of_lt hlt).trans he)
    rw [hbefore e hmem hid] at hkind
    cases hkind
  have hi := supplied_iff.mpr hplace
  exact Nat.le_antisymm (Nat.le_of_not_lt (hlate hi hj)) (Nat.le_of_not_lt (hlate hj hi))

/-- The entry at a place is skipped there exactly if no node comes from it. -/
theorem skipped_iff (he : d.entries[i]? = some e) :
    e.Skipped (d.entries.take i) ↔ ∀ node, ¬ d.Supplied i node := by
  simp only [supplied_iff, he, Option.some.injEq, exists_eq_left', not_and]
  constructor
  · rintro (hnone | hbefore) node hid hkind
    · rw [hkind] at hnone
      cases hnone
    · rw [← hid]
      exact Option.isSome_iff_ne_none.mp hbefore
  · intro h
    cases hkind : e.kind? with
    | none => exact Or.inl hkind
    | some kind => exact Or.inr (Option.isSome_iff_ne_none.mpr (h ⟨e.id, kind⟩ rfl hkind))

end Document

/-! ## Links -/

/-- The notice is a warning that begins by naming the link as skipped. -/
def Notice.SkipsLink (notice : Notice) (l : Link) : Prop :=
  notice.level = .warn ∧
    ("skipping connection " ++ l.source.text ++ " -> " ++ l.target.text).toList <+: notice.message.toList

theorem Notice.skipsLink_noLink (l : Link) (cause : EditError) : (noLink l cause).SkipsLink l :=
  ⟨rfl, (toList_append_left _ _).trans (toList_append_left _ _)⟩

/-- A link gives a notice exactly if it does not fit the nodes. -/
theorem Graph.notices_addLink_spec (g : Graph) (l : Link) :
    OneIf (¬ g.Joins l) (fun notice => notice.SkipsLink l) (g.addLink l).notices := by
  rw [addLink, connect, ← linkError?_eq_none_iff]
  cases herror : g.linkError? l with
  | none => exact ⟨fun h => absurd rfl h, fun _ => rfl⟩
  | some cause => exact ⟨fun _ => ⟨_, Notice.skipsLink_noLink l cause, rfl⟩, fun h => absurd h (by simp)⟩

/-! ## The balance -/

/-- The message says that a node is skipped. -/
def Notice.isNodeSkip (notice : Notice) : Bool := "skipping node ".toList.isPrefixOf notice.message.toList

theorem Notice.SkipsNode.isNodeSkip {notice : Notice} {id : NodeId} (h : notice.SkipsNode id) :
    notice.isNodeSkip = true :=
  List.isPrefixOf_iff_prefix.mpr ((toList_append_left _ _).trans h.2)

/-- A message that begins otherwise does not say that a node is skipped. -/
theorem Notice.isNodeSkip_of_begins {notice : Notice} {text : String}
    (hbegins : text.toList <+: notice.message.toList) (hlength : 14 ≤ text.toList.length)
    (hother : "skipping node ".toList.isPrefixOf text.toList = false) : notice.isNodeSkip = false := by
  refine Bool.eq_false_iff.mpr fun hskip => ?_
  have hprefix := List.isPrefixOf_iff_prefix.mp hskip
  rw [List.isPrefixOf_iff_prefix.mpr (List.prefix_of_prefix_length_le hprefix hbegins hlength)] at hother
  cases hother

theorem Notice.SkipsLink.isNodeSkip {notice : Notice} {l : Link} (h : notice.SkipsLink l) :
    notice.isNodeSkip = false := by
  have hbegins : "skipping connection ".toList <+: notice.message.toList :=
    (((toList_append_left _ _).trans (toList_append_left _ _)).trans (toList_append_left _ _)).trans h.2
  exact isNodeSkip_of_begins hbegins (by decide) (by decide)

theorem Notice.isNodeSkip_equalityOnly (op : Comparison) : (equalityOnly op).isNodeSkip = false :=
  isNodeSkip_of_begins (toList_append_left _ _) (by decide) (by decide)

theorem Entry.countP_readNotices (e : Entry) : e.readNotices.countP Notice.isNodeSkip = 0 := by
  refine List.countP_eq_zero.mpr fun notice hnotice => ?_
  by_cases hasks : ∃ op, e.AsksOrdering op
  · obtain ⟨_, ⟨op, _, rfl⟩, hone⟩ := e.readNotices_spec.1 hasks
    rw [hone, List.mem_singleton] at hnotice
    rw [hnotice, Notice.isNodeSkip_equalityOnly]
    decide
  · rw [e.readNotices_spec.2 hasks] at hnotice
    cases hnotice

namespace Graph

/-- An entry is skipped, or is the output's own, or brings one node. -/
theorem balance_addEntry (g : Graph) (e : Entry) :
    (g.addEntry e).notices.countP Notice.isNodeSkip + (if e.IsOutput then 1 else 0)
      + (g.addEntry e).result.nodes.size = g.nodes.size + 1 := by
  rcases g.addEntry_outcome e with ⟨hout, heq⟩ | ⟨hout, _, notice, hskip, heq⟩ | ⟨kind, hkind, hfree, heq⟩
  · rw [heq, if_pos hout, List.countP_nil]
    show 0 + 1 + g.nodes.size = _
    omega
  · rw [heq, if_neg hout, List.countP_append, e.countP_readNotices, List.countP_singleton,
      if_pos hskip.isNodeSkip]
    show 0 + 1 + 0 + g.nodes.size = _
    omega
  · have hout : ¬ e.IsOutput := fun hout => Entry.id_ne_outputId hkind hout.1
    have hnew : ¬ e.id ∈ g.nodes := by
      rw [node?] at hfree
      rw [ExtTreeMap.mem_iff_isSome_getElem?, hfree]
      exact Bool.false_ne_true
    rw [heq, if_neg hout, e.countP_readNotices]
    show 0 + 0 + (g.nodes.insert e.id ⟨e.id, kind⟩).size = _
    rw [ExtTreeMap.size_insert, if_neg (mt ExtTreeMap.contains_iff_mem.mp hnew)]
    omega

/-- Entries are skipped, or the output's own, or bring a node each. -/
theorem balance_addEntries (g : Graph) (entries : List Entry) :
    (Logged.foldl addEntry g entries).notices.countP Notice.isNodeSkip
      + entries.countP (fun e => e.IsOutput) + (g.addEntries entries).nodes.size
      = g.nodes.size + entries.length := by
  induction entries generalizing g with
  | nil => exact Nat.zero_add _
  | cons e entries ih =>
    have hstep := g.balance_addEntry e
    have hrest := ih (g.addEntry e).result
    rw [Logged.notices_foldl_cons, List.countP_append, List.countP_cons, List.length_cons, addEntries,
      Logged.result_foldl_cons, ← addEntries]
    simp only [decide_eq_true_eq]
    omega

/-- The nodes of a graph are the output and the others. -/
theorem WellFormed.size_nodes {g : Graph} (hg : g.WellFormed) :
    g.nodes.size = (g.nodes.toList.countP fun entry => entry.2.kind ≠ .output) + 1 := by
  have hnodup : g.nodes.toList.Nodup :=
    ExtTreeMap.distinct_keys_toList.imp fun hne heq => hne (by rw [heq]; exact Std.ReflCmp.compare_self)
  have honly : (g.nodes.toList.filter fun entry => entry.2.kind = .output).Perm
      [(outputId, ⟨outputId, .output⟩)] := by
    refine (List.perm_ext_iff_of_nodup (hnodup.filter _) (List.pairwise_singleton _ _)).mpr fun entry => ?_
    obtain ⟨id, node⟩ := entry
    rw [List.mem_filter, ExtTreeMap.mem_toList_iff_getElem?_eq_some, List.mem_singleton,
      decide_eq_true_iff]
    constructor
    · rintro ⟨hnode, hkind⟩
      obtain rfl := hg.only_output id node hnode hkind
      rw [Option.some.inj (hnode.symm.trans hg.output)]
    · rintro ⟨⟩
      exact ⟨hg.output, rfl⟩
  have hone : (g.nodes.toList.countP fun entry => entry.2.kind = .output) = 1 := by
    rw [List.countP_eq_length_filter, honly.length_eq]
    rfl
  rw [← ExtTreeMap.length_toList,
    List.length_eq_countP_add_countP (fun entry : NodeId × Node => decide (entry.2.kind = .output)), hone,
    Nat.add_comm]
  simp

end Graph

/-! ## Documents -/

/-- Behind other entries, an entry is skipped if it brings no kind or finds its id taken. -/
theorem Entry.skipped_iff_taken {before : List Entry} {e : Entry} :
    e.Skipped before ↔
      e.kind? = none ∨ ((Graph.new.addEntries before).node? e.id).isSome = true := by
  rw [Skipped]
  cases hkind : e.kind? with
  | none => exact ⟨fun _ => Or.inl rfl, fun _ => Or.inl rfl⟩
  | some kind =>
    rw [Graph.node?_addEntries, Graph.node?_new, if_neg (id_ne_outputId hkind).symm, Option.none_or,
      Option.isSome_map]

/-- The notices of an entry behind other entries: that of an ordering asked of booleans, and that of its
    skip. -/
theorem Graph.notices_addEntry_spec (before : List Entry) (e : Entry) :
    ∃ skip, ((Graph.new.addEntries before).addEntry e).notices = e.readNotices ++ skip ∧
      OneIf (¬ e.IsOutput ∧ e.Skipped before) (fun notice => notice.SkipsNode e.id) skip := by
  rw [Entry.skipped_iff_taken]
  rcases (Graph.new.addEntries before).addEntry_outcome e with
    ⟨hout, heq⟩ | ⟨hout, hskip, notice, hnotice, heq⟩ | ⟨kind, hkind, hfree, heq⟩
  · have hread : e.readNotices = [] := Entry.readNotices_of_reserved (Or.inl hout.1)
    refine ⟨[], by rw [heq, hread]; rfl, fun h => absurd hout h.1, fun _ => rfl⟩
  · exact ⟨[notice], by rw [heq], fun _ => ⟨notice, hnotice, rfl⟩, fun h => absurd ⟨hout, hskip⟩ h⟩
  · refine ⟨[], by rw [heq, List.append_nil], fun h => ?_, fun _ => rfl⟩
    rcases h.2 with hnone | htaken
    · rw [hkind] at hnone
      cases hnone
    · rw [hfree] at htaken
      cases htaken

namespace Document

/-- The notices of links never say that a node is skipped. -/
theorem countP_notices_links (g : Graph) (links : List Link) :
    (Logged.foldl Graph.addLink g links).notices.countP Notice.isNodeSkip = 0 := by
  induction links generalizing g with
  | nil => rfl
  | cons l links ih =>
    have hfirst : (g.addLink l).notices.countP Notice.isNodeSkip = 0 := by
      by_cases hl : ¬ g.Joins l
      · obtain ⟨notice, hskip, hone⟩ := (g.notices_addLink_spec l).1 hl
        rw [hone, List.countP_singleton, hskip.isNodeSkip]
        rfl
      · rw [(g.notices_addLink_spec l).2 hl]
        rfl
    rw [Logged.notices_foldl_cons, List.countP_append, hfirst, ih]

/-- Notices of nodes skipped, the output's own entries and the other nodes of the graph. -/
theorem balance_load (d : Document) :
    d.load.notices.countP Notice.isNodeSkip + d.entries.countP (fun e => e.IsOutput)
      + d.load.result.nodes.toList.countP (fun entry => entry.2.kind ≠ .output) = d.entries.length := by
  have hentries := Graph.new.balance_addEntries d.entries
  have hlinks := countP_notices_links (Graph.new.addEntries d.entries) d.links
  have hnotices : d.load.notices.countP Notice.isNodeSkip
      = (Logged.foldl Graph.addEntry .new d.entries).notices.countP Notice.isNodeSkip
        + (Logged.foldl Graph.addLink (Graph.new.addEntries d.entries) d.links).notices.countP
          Notice.isNodeSkip := List.countP_append
  have hsize := (wellFormed_load d).size_nodes
  have hnodes : d.load.result.nodes.size = (Graph.new.addEntries d.entries).nodes.size := by rw [load_eq]
  have hnew : Graph.new.nodes.size = 1 := by rfl
  omega

/-- **Nothing is skipped in silence.**  The notices of loading are those of the entries in their order, then
    those of the links in theirs, and each item gives its own:

    * an entry one that it asks booleans for an ordering, if it does; then one that its node is skipped,
      if no node of the graph comes from it and it is not the output's own entry;
    * a link one that it is skipped, if a node or a port at its ends is not there.

    Every node but the output comes from just one entry, so the notices of nodes skipped, the output's own
    entries and the other nodes of the graph are together as many as the entries. -/
theorem load_accounts_for_all (d : Document) :
    let g := d.load.result
    (∃ ofEntries ofLinks : List (List Notice),
      d.load.notices = ofEntries.flatten ++ ofLinks.flatten ∧
      ofEntries.length = d.entries.length ∧ ofLinks.length = d.links.length ∧
      (∀ (i : Nat) e, d.entries[i]? = some e → ∃ asked skip, ofEntries[i]? = some (asked ++ skip) ∧
        OneIf (∃ op, e.AsksOrdering op)
          (fun notice => ∃ op, e.AsksOrdering op ∧ notice = .equalityOnly op) asked ∧
        OneIf (¬ e.IsOutput ∧ ∀ node, ¬ d.Supplied i node) (fun notice => notice.SkipsNode e.id) skip) ∧
      ∀ (i : Nat) l, d.links[i]? = some l → ∃ skip, ofLinks[i]? = some skip ∧
        OneIf (¬ g.Joins l) (fun notice => notice.SkipsLink l) skip) ∧
    (∀ node, g.node? node.id = some node → node.kind ≠ .output → ∃! i, d.Supplied i node) ∧
    d.load.notices.countP Notice.isNodeSkip + d.entries.countP (fun e => e.IsOutput)
      + g.nodes.toList.countP (fun entry => entry.2.kind ≠ .output) = d.entries.length := by
  intro g
  refine ⟨⟨Logged.trace Graph.addEntry .new d.entries,
    Logged.trace Graph.addLink (Graph.new.addEntries d.entries) d.links, ?_, Logged.length_trace _ _ _,
    Logged.length_trace _ _ _, fun i e he => ?_, fun i l hl => ?_⟩,
    fun node hnode hkind => existsUnique_supplied hnode hkind, balance_load d⟩
  · rw [Logged.flatten_trace, Logged.flatten_trace]
    rfl
  · obtain ⟨skip, hnotices, hskip⟩ := Graph.notices_addEntry_spec (d.entries.take i) e
    rw [skipped_iff he] at hskip
    refine ⟨e.readNotices, skip, ?_, e.readNotices_spec, hskip⟩
    rw [Logged.getElem?_trace, he, ← hnotices]
    rfl
  · refine ⟨_, by rw [Logged.getElem?_trace, hl]; rfl, ?_⟩
    -- links leave the nodes alone, so this one is judged as by the finished graph
    have hspec := (Logged.foldl Graph.addLink (Graph.new.addEntries d.entries)
      (d.links.take i)).result.notices_addLink_spec l
    rw [Graph.joins_foldl_addLink, ← joins_load] at hspec
    exact hspec

/-- Two entries of the output, one of them at another id; an entry of something else at the output's id;
    and three that compare booleans by an ordering, the first of which has no kind, and the last the id of
    the second.  Of three links one fits. -/
def troubled : Document where
  version := none
  entries :=
    [⟨0, "Output", []⟩, ⟨3, "Output", []⟩, ⟨0, "Input", []⟩,
     ⟨2, "Compare", [("condition", .text "most"), ("op", .text "less"), ("type", .text "bool")]⟩,
     ⟨2, "Compare", [("op", .text "less"), ("type", .text "bool")]⟩,
     ⟨2, "Compare", [("op", .text "less"), ("type", .text "bool")]⟩]
  links := [⟨⟨2, 0⟩, ⟨0, 0⟩⟩, ⟨⟨2, 1⟩, ⟨0, 0⟩⟩, ⟨⟨9, 0⟩, ⟨0, 0⟩⟩]

/-- Of six entries one is the output's own, one supplies a node, and four are skipped; the ordering of
    booleans is noticed also where the entry is skipped. -/
theorem load_accounts_for_all_troubled :
    troubled.load.notices.map Notice.message =
      ["skipping node 3 (Output): id 0 is reserved for the single Output node",
       "skipping node 0 (Input): id 0 is reserved for the single Output node",
       "boolean Compare only supports equal/not_equal; using equal instead of Less",
       "skipping node 2: invalid param 'condition' = \"most\": unknown variant `most`, expected `all` or `any`",
       "boolean Compare only supports equal/not_equal; using equal instead of Less",
       "boolean Compare only supports equal/not_equal; using equal instead of Less",
       "skipping node 2: duplicate node id: 2",
       "skipping connection 2:1 -> 0:0: node 2 has no output port 1",
       "skipping connection 9:0 -> 0:0: node not found: 9"] ∧
    (∃! i, troubled.Supplied i ⟨2, .compare .bool .equal .all⟩) ∧
    troubled.load.notices.countP Notice.isNodeSkip = 4 := by
  obtain ⟨_, hsupplied, hbalance⟩ := load_accounts_for_all troubled
  have hnode : troubled.load.result.node? 2 = some ⟨2, .compare .bool .equal .all⟩ := by rfl
  have houtputs : troubled.entries.countP (fun e => e.IsOutput) = 1 := by rfl
  have hothers : troubled.load.result.nodes.toList.countP (fun entry => entry.2.kind ≠ .output) = 1 := by
    rfl
  have hentries : troubled.entries.length = 6 := by rfl
  refine ⟨by rfl, hsupplied ⟨2, .compare .bool .equal .all⟩ hnode (by decide), ?_⟩
  omega

end Document

end FragmentGraph
