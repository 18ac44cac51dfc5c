/-
  What a document means.

  A document lists entries and links as they were entered, and loading takes what it can.  Two rules
  decide where they clash, and they point in opposite directions: of the entries with one id the FIRST
  that has a kind gives the node, and of the links into one input the LAST that fits feeds it.

  1. **Entries** — an entry adds its node or does nothing (`addEntry_cases`).  So after all entries the
     node at an id is the one that was there, or that of the first entry with a kind
     (`node?_addEntries`).

  2. **Links** — a link is judged by the nodes alone, and links leave these as they are.  So all links are
     judged alike, and taking them comes to making those that fit, one after the other
     (`foldl_addLink`).

  3. **Skips** — an entry without a kind, or behind one that has brought the node, changes nothing where
     it stands, and neither does a link that does not fit.  What changes nothing where it stands can be
     deleted (`Sifted.result_foldl`), and when all of it is deleted, nothing more is skipped
     (`notices_foldl_sift`).
-/
import FragmentGraph.Proofs.Document.Entry

namespace FragmentGraph

/-! ## Items that are skipped -/

/-- `Sifted skipped before items left` — `left` comes from `items`, which stand behind `before`, by
    deleting items that are skipped where they stand: some of them or all. -/
inductive Sifted {α : Type} (skipped : List α → α → Prop) : List α → List α → List α → Prop where
  | nil {before} : Sifted skipped before [] []
  | keep {before x items left} (h : Sifted skipped (before ++ [x]) items left) :
      Sifted skipped before (x :: items) (x :: left)
  | drop {before x items left} (hx : skipped before x) (h : Sifted skipped (before ++ [x]) items left) :
      Sifted skipped before (x :: items) left

/-- The items that are not skipped where they stand. -/
def sift {α : Type} (skipped : List α → α → Prop) [∀ before x, Decidable (skipped before x)]
    (before : List α) : List α → List α
  | [] => []
  | x :: items =>
    if skipped before x then sift skipped (before ++ [x]) items
    else x :: sift skipped (before ++ [x]) items

/-- Sifting deletes just what is skipped where it stands. -/
theorem sifted_sift {α : Type} (skipped : List α → α → Prop)
    [∀ before x, Decidable (skipped before x)] (before items : List α) :
    Sifted skipped before items (sift skipped before items) := by
  induction items generalizing before with
  | nil => exact .nil
  | cons x items ih =>
    rw [sift]
    split
    · next hx => exact .drop hx (ih _)
    · exact .keep (ih _)

namespace Logged

variable {σ α : Type}

theorem result_foldl_cons (f : σ → α → Logged σ) (start : σ) (x : α) (items : List α) :
    (Logged.foldl f start (x :: items)).result = (Logged.foldl f (f start x).result items).result := by
  rw [result_foldl, result_foldl, List.foldl_cons]

theorem result_foldl_concat (f : σ → α → Logged σ) (start : σ) (items : List α) (x : α) :
    (Logged.foldl f start (items ++ [x])).result = (f (Logged.foldl f start items).result x).result := by
  rw [result_foldl, result_foldl, List.foldl_append]
  rfl

/-- The notices of taking items: those of the first, then those of the rest. -/
theorem notices_foldl_cons (f : σ → α → Logged σ) (start : σ) (x : α) (items : List α) :
    (Logged.foldl f start (x :: items)).notices
      = (f start x).notices ++ (Logged.foldl f (f start x).result items).notices := by
  -- notices that are there already stay in front
  have hfront : ∀ (items : List α) (state : Logged σ),
      (items.foldl (fun state item => ⟨(f state.result item).result,
        state.notices ++ (f state.result item).notices⟩) state).notices
      = state.notices ++ (Logged.foldl f state.result items).notices := by
    intro items
    induction items with
    | nil => exact fun state => (List.append_nil _).symm
    | cons y items ih =>
      intro state
      rw [Logged.foldl, List.foldl_cons, List.foldl_cons, ih, ih]
      exact List.append_assoc _ _ _
  exact hfront items ⟨(f start x).result, [] ++ (f start x).notices⟩

end Logged

section Skips

variable {σ α : Type} {f : σ → α → Logged σ} {start : σ} {skipped : List α → α → Prop}
  (hskip : ∀ before x, skipped before x →
    (f (Logged.foldl f start before).result x).result = (Logged.foldl f start before).result)

include hskip

/-- Items that change nothing where they stand can be deleted. -/
theorem Sifted.result_foldl {before items left : List α} (h : Sifted skipped before items left) :
    (Logged.foldl f (Logged.foldl f start before).result left).result
      = (Logged.foldl f (Logged.foldl f start before).result items).result := by
  induction h with
  | nil => rfl
  | keep _ ih =>
    rw [Logged.result_foldl_concat] at ih
    rw [Logged.result_foldl_cons, Logged.result_foldl_cons, ih]
  | drop hx _ ih =>
    rw [Logged.result_foldl_concat, hskip _ _ hx] at ih
    rw [Logged.result_foldl_cons, hskip _ _ hx, ih]

/-- When they are all deleted, the only notices are those of items that are not skipped. -/
theorem notices_foldl_sift [∀ before x, Decidable (skipped before x)] {P : Notice → Prop}
    (hkeep : ∀ before x, ¬ skipped before x →
      ∀ notice ∈ (f (Logged.foldl f start before).result x).notices, P notice)
    (before items : List α) :
    ∀ notice ∈ (Logged.foldl f (Logged.foldl f start before).result
      (sift skipped before items)).notices, P notice := by
  induction items generalizing before with
  | nil => exact fun notice h => absurd h List.not_mem_nil
  | cons x items ih =>
    have hrest := ih (before ++ [x])
    rw [Logged.result_foldl_concat] at hrest
    rw [sift]
    split
    · next hx =>
      rw [hskip before x hx] at hrest
      exact hrest
    · next hx =>
      rw [Logged.notices_foldl_cons]
      intro notice h
      exact (List.mem_append.mp h).elim (hkeep before x hx notice) (hrest notice)

end Skips

/-- The notice says that an entry or a link is skipped. -/
def Notice.isSkip : Notice → Bool
  | reserved .. | noKind .. | noNode .. | noLink .. => true
  | _ => false

/-! ## Entries -/

/-- The kind that the first entry with the given id and any kind brings. -/
def kindOf? (entries : List Entry) (id : NodeId) : Option Kind :=
  (entries.filter fun e => e.id = id).findSome? Entry.kind?

theorem kindOf?_cons (e : Entry) (entries : List Entry) (id : NodeId) :
    kindOf? (e :: entries) id = (if e.id = id then e.kind? else none).or (kindOf? entries id) := by
  rw [kindOf?, kindOf?]
  by_cases hid : e.id = id
  · rw [List.filter_cons_of_pos (by simpa using hid), if_pos hid, List.findSome?_cons]
    cases e.kind? <;> rfl
  · rw [List.filter_cons_of_neg (by simpa using hid), if_neg hid, Option.none_or]

/-- `e.Skipped before` — behind the entries `before`, the entry brings no node: it has no kind, or one of
    them has brought the node of its id. -/
def Entry.Skipped (before : List Entry) (e : Entry) : Prop :=
  e.kind? = none ∨ (kindOf? before e.id).isSome = true

instance (before : List Entry) (e : Entry) : Decidable (e.Skipped before) :=
  inferInstanceAs (Decidable (_ ∨ _))

theorem Notice.isSkip_ofKind {type : String} {params : Json.Members} {notice : Notice}
    (h : notice ∈ Notice.ofKind type params) : notice.isSkip = false := by
  obtain ⟨op, _, rfl⟩ := Option.map_eq_some_iff.mp (Option.mem_toList.mp h)
  rfl

namespace Graph

variable {g : Graph} {e : Entry} {l : Link}

/-- An entry that brings no kind, or whose id is taken, changes nothing. -/
theorem addEntry_of_skipped (h : e.kind? = none ∨ (g.node? e.id).isSome = true) :
    (g.addEntry e).result = g := by
  rcases g.addEntry_cases e with ⟨_, hsame⟩ | ⟨kind, hkind, hfree, _⟩
  · exact hsame
  · rcases h with hnone | hsome
    · rw [hkind] at hnone
      cases hnone
    · rw [hfree] at hsome
      cases hsome

/-- An entry gives its id a node if it brings a kind and the id has none. -/
theorem node?_addEntry (g : Graph) (e : Entry) (id : NodeId) :
    (g.addEntry e).result.node? id
      = (g.node? id).or (if e.id = id then e.kind?.map (Node.mk id) else none) := by
  rcases g.addEntry_cases e with ⟨hskip, hsame⟩ | ⟨kind, hkind, hfree, hadded⟩
  · rw [hsame]
    split
    · next hid =>
      subst hid
      rcases hskip with hnone | hsome
      · rw [hnone, Option.map_none, Option.or_none]
      · rw [Option.or_of_isSome hsome]
    · rw [Option.or_none]
  · rw [hadded, node?, getElem?_insert_node]
    split
    · next hid =>
      subst hid
      rw [hfree, hkind, Option.none_or, Option.map_some]
    · rw [Option.or_none]
      rfl

theorem wiring_addEntry (g : Graph) (e : Entry) : (g.addEntry e).result.wiring = g.wiring := by
  rcases g.addEntry_cases e with ⟨_, hsame⟩ | ⟨_, _, _, hadded⟩
  · rw [hsame]
  · rw [hadded]

/-- The graph after entries are taken. -/
def addEntries (g : Graph) (entries : List Entry) : Graph := (Logged.foldl addEntry g entries).result

/-- After entries, the node at an id is the one that was there, or that of the first entry with a kind. -/
theorem node?_addEntries (g : Graph) (entries : List Entry) (id : NodeId) :
    (g.addEntries entries).node? id = (g.node? id).or ((kindOf? entries id).map (Node.mk id)) := by
  induction entries generalizing g with
  | nil => exact (Option.or_none).symm
  | cons e entries ih =>
    rw [addEntries, Logged.result_foldl_cons, ← addEntries, ih, node?_addEntry, kindOf?_cons,
      Option.or_assoc]
    split
    · cases e.kind? <;> rfl
    · rfl

theorem wiring_addEntries (g : Graph) (entries : List Entry) :
    (g.addEntries entries).wiring = g.wiring := by
  induction entries generalizing g with
  | nil => rfl
  | cons e entries ih => rw [addEntries, Logged.result_foldl_cons, ← addEntries, ih, wiring_addEntry]

/-- A skipped entry changes nothing where it stands. -/
theorem addEntry_addEntries_of_skipped {before : List Entry} (h : e.Skipped before) :
    ((g.addEntries before).addEntry e).result = g.addEntries before := by
  refine addEntry_of_skipped (Or.imp_right (fun hbrought => ?_) h)
  rw [node?_addEntries, Option.isSome_or, Option.isSome_map, hbrought, Bool.or_true]

/-- An entry that is not skipped gives no notice of a skip. -/
theorem isSkip_addEntry {before : List Entry} (h : ¬ e.Skipped before) {notice : Notice}
    (hnotice : notice ∈ ((Graph.new.addEntries before).addEntry e).notices) :
    notice.isSkip = false := by
  obtain ⟨hkind, hbefore⟩ := not_or.mp h
  have hid : outputId ≠ e.id := fun hid => hkind (Entry.kind?_of_reserved (Or.inl hid.symm))
  have hfree : (Graph.new.addEntries before).node? e.id = none := by
    rw [node?_addEntries, node?_new, if_neg hid, Option.none_or, Option.map_eq_none_iff]
    simpa using hbefore
  rcases (Graph.new.addEntries before).addEntry_cases e with ⟨hskip, _⟩ | ⟨_, _, _, hadded⟩
  · rw [hfree] at hskip
    exact absurd (hskip.resolve_right (by simp)) hkind
  · rw [hadded] at hnotice
    exact Notice.isSkip_ofKind hnotice

/-! ## Links -/

/-- Only the nodes decide whether a link fits. -/
theorem joins_iff_of_nodes {g' : Graph} (h : g'.nodes = g.nodes) : g'.Joins l ↔ g.Joins l := by
  have hnode : ∀ id, g'.node? id = g.node? id := fun id => by rw [node?, node?, h]
  exact ⟨fun hl => hl.congr (hnode _).symm (hnode _).symm, fun hl => hl.congr (hnode _) (hnode _)⟩

/-- Taking links comes to making those that fit the nodes, in their order. -/
theorem foldl_addLink (g : Graph) (links : List Link) :
    (Logged.foldl addLink g links).result
      = { g with wiring := (links.filter fun l => g.Joins l).foldl Wiring.insert g.wiring } := by
  induction links generalizing g with
  | nil => rfl
  | cons l links ih =>
    rw [Logged.result_foldl_cons]
    rcases g.addLink_cases l with ⟨hl, hmade⟩ | ⟨hl, hsame⟩
    · have hfits : ∀ l', { g with wiring := g.wiring.insert l }.Joins l' ↔ g.Joins l' :=
        fun l' => joins_iff_of_nodes rfl
      rw [hmade, ih, List.filter_cons_of_pos (by simpa using hl), List.foldl_cons]
      simp only [hfits]
    · rw [hsame, ih, List.filter_cons_of_neg (by simpa using hl)]

theorem joins_foldl_addLink (before : List Link) :
    (Logged.foldl addLink g before).result.Joins l ↔ g.Joins l :=
  joins_iff_of_nodes (by rw [foldl_addLink])

/-- A link that does not fit changes nothing where it stands. -/
theorem addLink_of_not_joins (before : List Link) (h : ¬ g.Joins l) :
    ((Logged.foldl addLink g before).result.addLink l).result
      = (Logged.foldl addLink g before).result := by
  rcases (Logged.foldl addLink g before).result.addLink_cases l with ⟨hl, _⟩ | ⟨_, hsame⟩
  · exact absurd ((joins_foldl_addLink before).mp hl) h
  · exact hsame

/-- A link that fits gives no notice. -/
theorem notices_addLink (before : List Link) (h : g.Joins l) :
    ((Logged.foldl addLink g before).result.addLink l).notices = [] := by
  rcases (Logged.foldl addLink g before).result.addLink_cases l with ⟨_, hmade⟩ | ⟨hl, _⟩
  · rw [hmade]
  · exact absurd ((joins_foldl_addLink before).mpr h) hl

end Graph

/-- Of links made one after the other, the last into an input feeds it. -/
theorem Wiring.feeding?_foldl_insert (w : Wiring) (links : List Link) (t : Socket) :
    (links.foldl Wiring.insert w).feeding? t
      = ((links.filter fun l => l.target = t).getLast?).or (w.feeding? t) := by
  induction links using List.reverseRecOn with
  | nil => rfl
  | append_singleton links l ih =>
    rw [List.foldl_append, List.foldl_cons, List.foldl_nil, feeding?_insert, List.filter_append]
    by_cases ht : l.target = t
    · rw [if_pos ht, List.filter_cons_of_pos (by simpa using ht), List.filter_nil,
        List.getLast?_concat, Option.some_or]
    · rw [if_neg ht, List.filter_cons_of_neg (by simpa using ht), List.filter_nil, List.append_nil, ih]

/-! ## Documents -/

namespace Document

open FragmentGraph.Graph

variable {d d' : Document}

/-- The graph of a document has the nodes of its entries and the links that fit them. -/
theorem load_eq (d : Document) :
    let g := Graph.new.addEntries d.entries
    d.load.result = ⟨g.nodes, (d.links.filter fun l => g.Joins l).foldl Wiring.insert .empty⟩ := by
  intro g
  have hwiring : g.wiring = .empty := wiring_addEntries .new d.entries
  rw [← hwiring]
  exact foldl_addLink g d.links

/-- A link fits the graph of a document if it fits the nodes of its entries. -/
theorem joins_load {l : Link} : d.load.result.Joins l ↔ (Graph.new.addEntries d.entries).Joins l :=
  joins_foldl_addLink d.links

/-- The node at an id: the output at its own, else that of the first entry that brings one. -/
theorem node?_load (d : Document) (id : NodeId) :
    d.load.result.node? id = (Graph.new.node? id).or ((kindOf? d.entries id).map (Node.mk id)) := by
  rw [load_eq, ← node?_addEntries]
  rfl

/-- The link into an input: the last one in the document that fits the nodes. -/
theorem feeding?_load (d : Document) (t : Socket) :
    d.load.result.wiring.feeding? t
      = (d.links.filter fun l => l.target = t ∧ d.load.result.Joins l).getLast? := by
  simp only [joins_load]
  rw [load_eq, Wiring.feeding?_foldl_insert, List.filter_filter]
  simp [Wiring.feeding?, Wiring.empty]

/-- `d.Thins d'` — `d'` is `d` without some or all of the entries and links that loading skips. -/
structure Thins (d d' : Document) : Prop where
  entries : Sifted Entry.Skipped [] d.entries d'.entries
  links : Sifted (fun _ l => ¬ d.load.result.Joins l) [] d.links d'.links

/-- The document without all that loading skips. -/
def thinned (d : Document) : Document where
  version := d.version
  entries := sift Entry.Skipped [] d.entries
  links := sift (fun _ l => ¬ d.load.result.Joins l) [] d.links

theorem thins_thinned (d : Document) : d.Thins d.thinned :=
  ⟨sifted_sift _ _ _, sifted_sift _ _ _⟩

/-- The entries that are left bring the same nodes. -/
theorem Thins.addEntries_eq (h : d.Thins d') :
    Graph.new.addEntries d'.entries = Graph.new.addEntries d.entries :=
  Sifted.result_foldl (f := addEntry) (fun _ _ he => addEntry_addEntries_of_skipped he) h.entries

/-- What is skipped leaves no trace. -/
theorem Thins.load_eq (h : d.Thins d') : d'.load.result = d.load.result :=
  calc d'.load.result
      = (Logged.foldl addLink (Graph.new.addEntries d'.entries) d'.links).result := rfl
    _ = (Logged.foldl addLink (Graph.new.addEntries d.entries) d'.links).result := by
      rw [h.addEntries_eq]
    _ = (Logged.foldl addLink (Graph.new.addEntries d.entries) d.links).result :=
      Sifted.result_foldl (f := addLink)
        (fun before _ hl => addLink_of_not_joins before (mt joins_load.mpr hl)) h.links
    _ = d.load.result := rfl

/-- Once all that is skipped is deleted, loading skips nothing. -/
theorem isSkip_load_thinned (d : Document) {notice : Notice} (h : notice ∈ d.thinned.load.notices) :
    notice.isSkip = false := by
  rcases List.mem_append.mp h with hentry | hlink
  · exact notices_foldl_sift (f := addEntry) (fun _ _ he => addEntry_addEntries_of_skipped he)
      (fun _ _ he _ hnotice => isSkip_addEntry he hnotice) [] d.entries notice hentry
  · change notice ∈ (Logged.foldl addLink (Graph.new.addEntries d.thinned.entries)
      d.thinned.links).notices at hlink
    rw [(thins_thinned d).addEntries_eq] at hlink
    refine notices_foldl_sift (f := addLink) (P := fun notice => notice.isSkip = false)
      (fun before _ hl => addLink_of_not_joins before (mt joins_load.mpr hl))
      (fun before l hl notice hnotice => ?_) [] d.links notice hlink
    rw [notices_addLink before (joins_load.mp (not_not.mp hl))] at hnotice
    cases hnotice

/-- **What a document means.**  The graph has the output at its id.  At another id it has the node whose
    kind the FIRST entry brings that has the id and a kind, and none if there is no such entry.  An input
    is fed by the LAST link into it whose ends are there when all entries are taken, and by none if there
    is no such link.  Deleting entries or links that are skipped, some or all, changes neither the nodes
    nor the two indexes; when all are deleted, loading skips nothing. -/
theorem load_first_entry_last_link (d : Document) :
    let g := d.load.result
    g.node? outputId = some ⟨outputId, .output⟩ ∧
    (∀ id, id ≠ outputId → g.node? id = (kindOf? d.entries id).map (Node.mk id)) ∧
    (∀ t, g.wiring.feeding? t = (d.links.filter fun l => l.target = t ∧ g.Joins l).getLast?) ∧
    (∀ d', d.Thins d' → d'.load.result = g) ∧
    d.thinned.load.result = g ∧
    (∀ notice ∈ d.thinned.load.notices, notice.isSkip = false) := by
  refine ⟨(wellFormed_load d).output, fun id hid => ?_, feeding?_load d, fun _ h => h.load_eq,
    (thins_thinned d).load_eq, fun _ h => isSkip_load_thinned d h⟩
  rw [node?_load, node?_new, if_neg (Ne.symm hid), Option.none_or]

/-- Entries and links that clash.  Entries: the output's id, a name that is no kind's, a node, another node
    with its id, the output's name.  Links into the output: one that fits, a second one, and one from a
    node that is not there. -/
def clashing : Document where
  version := none
  entries :=
    [⟨0, "Input", []⟩, ⟨1, "Tangent", []⟩, ⟨1, "Input", []⟩, ⟨1, "If", []⟩, ⟨2, "Output", []⟩,
     ⟨3, "Constant", []⟩]
  links := [⟨⟨1, 0⟩, ⟨0, 0⟩⟩, ⟨⟨3, 0⟩, ⟨0, 0⟩⟩, ⟨⟨2, 0⟩, ⟨0, 0⟩⟩]

/-- `clashing` without one of the entries that are skipped. -/
def lessClashing : Document where
  version := none
  entries :=
    [⟨0, "Input", []⟩, ⟨1, "Input", []⟩, ⟨1, "If", []⟩, ⟨2, "Output", []⟩, ⟨3, "Constant", []⟩]
  links := clashing.links

/-- Node 1 is that of its second entry, the first one with a kind, and the output is fed by the second
    link, the last one that fits.  Without the entry that has no kind the graph is the same. -/
theorem load_first_entry_last_link_clashing :
    clashing.load.result.node? 1 = some ⟨1, .input .uv⟩ ∧
    clashing.load.result.wiring.feeding? ⟨0, 0⟩ = some ⟨⟨3, 0⟩, ⟨0, 0⟩⟩ ∧
    clashing.Thins lessClashing ∧
    lessClashing.load.result = clashing.load.result ∧
    clashing.thinned.entries.map Entry.type = ["Input", "Constant"] := by
  obtain ⟨_, hnode, hfed, hthins, _⟩ := load_first_entry_last_link clashing
  have hkept : clashing.Thins lessClashing := by
    refine ⟨.keep (.drop (by decide) ?_), ?_⟩
    · exact .keep (.keep (.keep (.keep .nil)))
    · exact .keep (.keep (.keep .nil))
  refine ⟨(hnode 1 (by decide)).trans (by rfl), (hfed ⟨0, 0⟩).trans (by rfl), hkept,
    hthins lessClashing hkept, by rfl⟩

end Document

end FragmentGraph
