/-
  The entries of a document and the nodes that they add.

  An entry is the output's own, or is skipped with a notice, or adds a node of the kind it brings
  (`Graph.addEntry_outcome`), and links add no nodes.  So every node of a document's graph is the output
  or has a kind that can be read (`Document.documented_load`).
-/
import FragmentGraph.Proofs.Graph.WellFormed
import FragmentGraph.Proofs.Kind.Documented

namespace FragmentGraph

open Numeric

/-! ## Kinds of entries -/

/-- The kind that an entry brings: that of its name and parameters, unless its id or its name is the
    output's. -/
def Entry.kind? (e : Entry) : Option Kind :=
  if e.id = outputId ∨ e.type = outputName then none else (Kind.read e.type e.params).toOption

/-- An entry with the output's id or name brings no kind. -/
theorem Entry.kind?_of_reserved {e : Entry} (h : e.id = outputId ∨ e.type = outputName) :
    e.kind? = none := if_pos h

theorem Entry.id_ne_outputId {e : Entry} {kind : Kind} (h : e.kind? = some kind) : e.id ≠ outputId := by
  intro hid
  rw [kind?_of_reserved (Or.inl hid)] at h
  cases h

/-- An entry brings a kind for documents only. -/
theorem Entry.documented_of_kind? {e : Entry} {k : Kind} (h : e.kind? = some k) : k.Documented := by
  rw [Entry.kind?] at h
  split at h
  · cases h
  · cases hread : Kind.read e.type e.params with
    | error cause =>
      rw [hread] at h
      cases h
    | ok kind =>
      rw [hread] at h
      rw [← Option.some.inj h]
      exact (Kind.documented_of_read _ _ kind hread).2

/-! ## Graphs of documents -/

/-- The entry is the output's own. -/
def Entry.IsOutput (e : Entry) : Prop := e.id = outputId ∧ e.type = outputName

instance : DecidablePred Entry.IsOutput := fun _ => inferInstanceAs (Decidable (_ ∧ _))

/-- The notices of reading an entry's kind.  At the output's id nothing is read. -/
def Entry.readNotices (e : Entry) : List Notice :=
  if e.id = outputId then [] else Notice.ofKind e.type e.params

theorem Entry.readNotices_of_ne {e : Entry} (h : e.id ≠ outputId) :
    e.readNotices = Notice.ofKind e.type e.params := if_neg h

/-- An entry with the output's id or name has nothing read. -/
theorem Entry.readNotices_of_reserved {e : Entry} (h : e.id = outputId ∨ e.type = outputName) :
    e.readNotices = [] := by
  rw [Entry.readNotices]
  split
  · rfl
  · next hid =>
    rw [h.resolve_left hid]
    rfl

/-- The notice is a warning that begins by naming the node as skipped. -/
def Notice.SkipsNode (notice : Notice) (id : NodeId) : Prop :=
  notice.level = .warn ∧ ("skipping node " ++ decimal id.toNat).toList <+: notice.message.toList

theorem toList_append_left (text rest : String) : text.toList <+: (text ++ rest).toList := by
  rw [String.toList_append]
  exact List.prefix_append _ _

theorem Notice.skipsNode_reserved (id : NodeId) (type : String) : (reserved id type).SkipsNode id :=
  ⟨rfl, ((toList_append_left _ _).trans (toList_append_left _ _)).trans (toList_append_left _ _)⟩

theorem Notice.skipsNode_noKind (id : NodeId) (cause : KindError) : (noKind id cause).SkipsNode id :=
  ⟨rfl, (toList_append_left _ _).trans (toList_append_left _ _)⟩

theorem Notice.skipsNode_noNode (id : NodeId) (cause : EditError) : (noNode id cause).SkipsNode id :=
  ⟨rfl, (toList_append_left _ _).trans (toList_append_left _ _)⟩

namespace Graph

/-- An entry is the output's own and does nothing; or it brings no kind or its id is taken, and it is
    skipped with one notice more; or it adds the node of its kind. -/
theorem addEntry_outcome (g : Graph) (e : Entry) :
    (e.IsOutput ∧ g.addEntry e = ⟨g, []⟩) ∨
    (¬ e.IsOutput ∧ (e.kind? = none ∨ (g.node? e.id).isSome = true) ∧
      ∃ notice : Notice, notice.SkipsNode e.id ∧ g.addEntry e = ⟨g, e.readNotices ++ [notice]⟩) ∨
    ∃ kind, e.kind? = some kind ∧ g.node? e.id = none ∧
      g.addEntry e = ⟨{ g with nodes := g.nodes.insert e.id ⟨e.id, kind⟩ }, e.readNotices⟩ := by
  rw [addEntry]
  by_cases hreserved : e.id = outputId ∨ e.type = outputName
  · have hnone := Entry.kind?_of_reserved hreserved
    rw [if_pos hreserved]
    split
    · next hout => exact Or.inl ⟨hout, rfl⟩
    · next hout =>
      refine Or.inr (Or.inl ⟨hout, Or.inl hnone, _, Notice.skipsNode_reserved e.id e.type, ?_⟩)
      rw [Entry.readNotices_of_reserved hreserved]
      rfl
  · have hid : e.id ≠ outputId := fun hid => hreserved (Or.inl hid)
    have hout : ¬ e.IsOutput := fun hout => hid hout.1
    have hread : e.kind? = (Kind.read e.type e.params).toOption := by
      rw [Entry.kind?, if_neg hreserved]
    rw [if_neg hreserved, hread, Entry.readNotices_of_ne hid]
    dsimp only
    cases hkind : Kind.read e.type e.params with
    | error cause =>
      exact Or.inr (Or.inl ⟨hout, Or.inl rfl, _, Notice.skipsNode_noKind e.id cause, rfl⟩)
    | ok kind =>
      have houtput : kind ≠ .output := by
        rintro rfl
        exact (Kind.documented_of_read _ _ _ hkind).2
      dsimp only
      cases hadd : g.addNode e.id kind with
      | error cause =>
        have htaken := isSome_of_addNode_error hid houtput hadd
        exact Or.inr (Or.inl ⟨hout, Or.inr htaken, _, Notice.skipsNode_noNode e.id cause, rfl⟩)
      | ok g' =>
        obtain ⟨_, _, hfree, rfl⟩ := addNode_cases hadd
        exact Or.inr (Or.inr ⟨kind, rfl, hfree, rfl⟩)

/-- An entry changes nothing, as it brings no kind or its id is taken; or it adds the node of its kind,
    and there are no notices but those of reading the kind. -/
theorem addEntry_cases (g : Graph) (e : Entry) :
    ((e.kind? = none ∨ (g.node? e.id).isSome = true) ∧ (g.addEntry e).result = g) ∨
    ∃ kind, e.kind? = some kind ∧ g.node? e.id = none ∧
      g.addEntry e =
        ⟨{ g with nodes := g.nodes.insert e.id ⟨e.id, kind⟩ }, Notice.ofKind e.type e.params⟩ := by
  rcases g.addEntry_outcome e with ⟨hout, hsame⟩ | ⟨_, hskip, _, _, hsame⟩ | ⟨kind, hkind, hfree, hadded⟩
  · have hnone := Entry.kind?_of_reserved (Or.inl hout.1)
    exact Or.inl ⟨Or.inl hnone, congrArg Logged.result hsame⟩
  · exact Or.inl ⟨hskip, congrArg Logged.result hsame⟩
  · rw [Entry.readNotices_of_ne (Entry.id_ne_outputId hkind)] at hadded
    exact Or.inr ⟨kind, hkind, hfree, hadded⟩

/-- Every node is the output or has a kind for documents. -/
def Documented (g : Graph) : Prop :=
  ∀ id node, g.node? id = some node → node.kind = .output ∨ node.kind.Documented

theorem documented_new : Graph.new.Documented := by
  intro id node hnode
  rw [node?_new] at hnode
  split at hnode
  · rw [← Option.some.inj hnode]
    exact Or.inl rfl
  · cases hnode

/-- An entry adds no node, or one whose kind it brings. -/
theorem Documented.addEntry {g : Graph} (hg : g.Documented) (e : Entry) :
    (g.addEntry e).result.Documented := by
  rcases g.addEntry_cases e with ⟨_, hsame⟩ | ⟨kind, hkind, _, hadded⟩
  · rw [hsame]
    exact hg
  · rw [hadded]
    intro id node hnode
    rw [node?, getElem?_insert_node] at hnode
    split at hnode
    · rw [← Option.some.inj hnode]
      exact Or.inr (Entry.documented_of_kind? hkind)
    · exact hg id node hnode

/-- A link adds no node. -/
theorem Documented.addLink {g : Graph} (hg : g.Documented) (l : Link) :
    (g.addLink l).result.Documented := by
  rcases g.addLink_cases l with ⟨_, hmade⟩ | ⟨_, hsame⟩
  · rw [hmade]
    exact hg
  · rw [hsame]
    exact hg

end Graph

/-- Every node of a document's graph is the output or has a kind that can be read. -/
theorem Document.documented_load (d : Document) : d.load.result.Documented := by
  have hentries : ∀ (entries : List Entry) (g : Graph), g.Documented →
      (Logged.foldl Graph.addEntry g entries).result.Documented := by
    intro entries g hg
    rw [Logged.result_foldl]
    exact List.foldlRecOn entries _ hg fun g hg e _ => hg.addEntry e
  have hlinks : ∀ (links : List Link) (g : Graph), g.Documented →
      (Logged.foldl Graph.addLink g links).result.Documented := by
    intro links g hg
    rw [Logged.result_foldl]
    exact List.foldlRecOn links _ hg fun g hg l _ => hg.addLink l
  exact hlinks d.links _ (hentries d.entries _ Graph.documented_new)

end FragmentGraph
