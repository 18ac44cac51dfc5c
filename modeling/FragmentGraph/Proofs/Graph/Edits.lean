/-
  When an edit is refused, and what it changes when it is not.

  An editor that calls an edit has to know beforehand whether the call will go through, and afterwards
  what has to be drawn again.

  1. **Refusals** — an edit looks for its faults in a fixed order and is refused for the first one that
     applies (`FirstFault`).  So one equivalence for each edit tells both when it is refused and for what
     cause (`addNode_eq_error_iff`, `removeNode_eq_error_iff`, `connect_eq_error_iff`).  The types of a
     link's ports are looked at last, and never are a fault.

  2. **Successes** — an edit that has no fault goes through, and gives the graph that it should
     (`addNode_of_free`, `removeNode_of_node`, `connect_of_joins`).

  3. **Frames** — an edit that goes through changes a single node, or what feeds a single input, and
     removing a node takes along the links that touch it, in both directions, and no other
     (`feeding?_removeNode`).  That needs the graph's history: a link is found by its target, so it must
     be filed there.
-/
import FragmentGraph.Proofs.Graph.Calls

namespace FragmentGraph

open Glsl

/-- `FirstFault faults e` — of the faults in order, each with the condition under which it applies, `e`
    is the first that applies. -/
def FirstFault : List (Prop × EditError) → EditError → Prop
  | [], _ => False
  | (applies, cause) :: rest, e => (applies ∧ e = cause) ∨ (¬ applies ∧ FirstFault rest e)

namespace FirstFault

variable {applies : Prop} {cause e : EditError} {rest : List (Prop × EditError)}

theorem of_applies (h : applies) : FirstFault ((applies, cause) :: rest) e ↔ e = cause := by
  rw [FirstFault]
  exact ⟨fun hfirst => hfirst.elim And.right fun hrest => absurd h hrest.1, fun he => Or.inl ⟨h, he⟩⟩

theorem of_not_applies (h : ¬ applies) :
    FirstFault ((applies, cause) :: rest) e ↔ FirstFault rest e := by
  rw [FirstFault]
  exact ⟨fun hfirst => hfirst.elim (fun happlies => absurd happlies.1 h) And.right,
    fun hrest => Or.inr ⟨h, hrest⟩⟩

theorem not_nil : ¬ FirstFault [] e := id

end FirstFault

namespace Graph

variable {g g' : Graph} {id : NodeId} {kind : Kind} {node : Node} {l : Link} {s t : Socket}
  {e : EditError}

/-! ## Refusals -/

/-- The socket is an output of a node in the graph. -/
def HasOutput (g : Graph) (s : Socket) : Prop :=
  ∃ node, g.node? s.node = some node ∧ s.port.toNat < node.kind.outputs.length

/-- The socket is an input of a node in the graph. -/
def HasInput (g : Graph) (s : Socket) : Prop :=
  ∃ node, g.node? s.node = some node ∧ s.port.toNat < node.kind.inputs.length

theorem exists_node_iff {P : Node → Prop} (hnode : g.node? id = some node) :
    (∃ other, g.node? id = some other ∧ P other) ↔ P node := by
  constructor
  · rintro ⟨other, hother, h⟩
    obtain rfl : node = other := Option.some.inj (hnode.symm.trans hother)
    exact h
  · exact fun h => ⟨node, hnode, h⟩

theorem hasOutput_iff (hnode : g.node? s.node = some node) :
    g.HasOutput s ↔ s.port.toNat < node.kind.outputs.length :=
  exists_node_iff hnode

theorem hasInput_iff (hnode : g.node? s.node = some node) :
    g.HasInput s ↔ s.port.toNat < node.kind.inputs.length :=
  exists_node_iff hnode

/-- Adding a node fails by the first of two faults: its id or its kind is the output's, or the id is
    taken. -/
theorem addNode_eq_error_iff :
    g.addNode id kind = .error e ↔
      FirstFault [(id = outputId ∨ kind = .output, .reservedId),
        (∃ node, g.node? id = some node, .duplicateNode id)] e := by
  rw [addNode]
  by_cases hreserved : id = outputId ∨ kind = .output
  · rw [if_pos hreserved, FirstFault.of_applies hreserved, Except.error.injEq, eq_comm]
  · rw [if_neg hreserved, FirstFault.of_not_applies hreserved]
    cases hnode : g.node? id with
    | none =>
      rw [FirstFault.of_not_applies (by rintro ⟨node, hsome⟩; cases hsome)]
      exact ⟨fun h => (by cases h), fun h => absurd h FirstFault.not_nil⟩
    | some node =>
      rw [FirstFault.of_applies ⟨node, rfl⟩, Option.isSome_some, if_pos rfl, Except.error.injEq,
        eq_comm]

/-- Removing a node fails by the first of two faults: it is the output, or it is not there. -/
theorem removeNode_eq_error_iff :
    g.removeNode id = .error e ↔
      FirstFault [(id = outputId, .outputRemoval), (g.node? id = none, .unknownNode id)] e := by
  rw [removeNode]
  by_cases hid : id = outputId
  · rw [if_pos hid, FirstFault.of_applies hid, Except.error.injEq, eq_comm]
  · rw [if_neg hid, FirstFault.of_not_applies hid]
    cases hnode : g.node? id with
    | none => rw [FirstFault.of_applies rfl, Except.error.injEq, eq_comm]
    | some node =>
      rw [FirstFault.of_not_applies (by rintro ⟨⟩)]
      exact ⟨fun h => (by cases h), fun h => absurd h FirstFault.not_nil⟩

/-- The faults of a link in the order in which they are looked for. -/
def linkFaults (g : Graph) (l : Link) : List (Prop × EditError) :=
  [(g.node? l.source.node = none, .unknownNode l.source.node),
   (g.node? l.target.node = none, .unknownNode l.target.node),
   (¬ g.HasOutput l.source, .noSuchOutput l.source),
   (¬ g.HasInput l.target, .noSuchInput l.target)]

/-- The error of a link is that of its first fault.  The types of the two ports are looked at last, and are
    never a fault. -/
theorem linkError?_eq_some_iff : g.linkError? l = some e ↔ FirstFault (g.linkFaults l) e := by
  rw [linkFaults, linkError?]
  cases hsource : g.node? l.source.node with
  | none => rw [FirstFault.of_applies rfl, Option.some.injEq, eq_comm]
  | some source =>
    rw [FirstFault.of_not_applies (by rintro ⟨⟩)]
    cases htarget : g.node? l.target.node with
    | none => rw [FirstFault.of_applies rfl, Option.some.injEq, eq_comm]
    | some target =>
      rw [FirstFault.of_not_applies (by rintro ⟨⟩), hasOutput_iff hsource, hasInput_iff htarget]
      dsimp only
      by_cases hout : l.source.port.toNat < source.kind.outputs.length
      · rw [FirstFault.of_not_applies (not_not.mpr hout), List.getElem?_eq_getElem hout]
        by_cases hin : l.target.port.toNat < target.kind.inputs.length
        · -- both ports are there, and whatever their types are, the one accepts the other
          rw [FirstFault.of_not_applies (not_not.mpr hin), List.getElem?_eq_getElem hin]
          simp [FirstFault.not_nil]
        · rw [FirstFault.of_applies hin, List.getElem?_eq_none (Nat.le_of_not_lt hin),
            Option.some.injEq, eq_comm]
      · rw [FirstFault.of_applies hout, List.getElem?_eq_none (Nat.le_of_not_lt hout),
          Option.some.injEq, eq_comm]

theorem connect_eq_error_iff : g.connect l = .error e ↔ FirstFault (g.linkFaults l) e := by
  rw [← linkError?_eq_some_iff, connect]
  cases g.linkError? l with
  | none => exact ⟨fun h => (by cases h), fun h => (by cases h)⟩
  | some cause => rw [Except.error.injEq, Option.some.injEq]

/-- No link is refused for the types of its ports. -/
theorem connect_ne_incompatibleTypes (source target : Ty) :
    g.connect l ≠ .error (.incompatibleTypes source target) := by
  rw [ne_eq, connect_eq_error_iff]
  simp [linkFaults, FirstFault]

/-- Why a call is refused, if it is.  Nothing refuses to disconnect. -/
def refusal? (g : Graph) : Call → Option EditError
  | .addNode id kind =>
    match g.addNode id kind with
    | .ok _ => none
    | .error e => some e
  | .removeNode id =>
    match g.removeNode id with
    | .ok _ => none
    | .error e => some e
  | .connect l =>
    match g.connect l with
    | .ok _ => none
    | .error e => some e
  | .disconnect _ => none

/-- A call that is refused leaves the graph as it is. -/
theorem after_of_refusal? {call : Call} (h : g.refusal? call = some e) : g.after call = g := by
  cases call with
  | addNode id kind =>
    cases hresult : g.addNode id kind with
    | ok _ => simp [refusal?, hresult] at h
    | error _ => simp [after, hresult]
  | removeNode id =>
    cases hresult : g.removeNode id with
    | ok _ => simp [refusal?, hresult] at h
    | error _ => simp [after, hresult]
  | connect l =>
    cases hresult : g.connect l with
    | ok _ => simp [refusal?, hresult] at h
    | error _ => simp [after, hresult]
  | disconnect _ => cases h

/-! ## Edits that succeed -/

theorem addNode_of_free {id : NodeId} {kind : Kind} (hid : id ≠ outputId) (hkind : kind ≠ .output)
    (hfree : g.node? id = none) : g.addNode id kind = .ok { g with nodes := g.nodes.insert id ⟨id, kind⟩ } := by
  rw [addNode, if_neg (not_or.mpr ⟨hid, hkind⟩), hfree]
  rfl

theorem removeNode_of_node {id : NodeId} {node : Node} (hid : id ≠ outputId) (hnode : g.node? id = some node) :
    g.removeNode id = .ok (node, ⟨g.nodes.erase id, g.wiring.removeNode id⟩) := by
  rw [removeNode, if_neg hid, hnode]

/-- A link that joins ports is made, and gives back what fed its target. -/
theorem connect_of_joins (hl : g.Joins l) :
    g.connect l = .ok (g.wiring.feeding? l.target, { g with wiring := g.wiring.insert l }) := by
  rw [connect, linkError?_eq_none_iff.mpr hl]
  rfl

/-! ## Frames -/

theorem node?_addNode (h : g.addNode id kind = .ok g') (id' : NodeId) :
    g'.node? id' = if id' = id then some ⟨id, kind⟩ else g.node? id' := by
  obtain ⟨_, _, _, rfl⟩ := addNode_cases h
  rw [node?, getElem?_insert_node, node?]
  simp only [eq_comm]

theorem node?_removeNode (h : g.removeNode id = .ok (node, g')) (id' : NodeId) :
    g'.node? id' = if id' = id then none else g.node? id' := by
  obtain ⟨_, _, rfl⟩ := removeNode_cases h
  rw [node?, getElem?_erase_node, node?]
  simp only [eq_comm]

/-- Removing a node clears the inputs fed by links that touch it, and no others. -/
theorem feeding?_removeNode (hg : g.WellFormed) (h : g.removeNode id = .ok (node, g')) (t : Socket) :
    g'.wiring.feeding? t = (g.wiring.feeding? t).filter fun l => !l.touches id := by
  obtain ⟨_, _, rfl⟩ := removeNode_cases h
  have hkeyed : g.wiring.Keyed := hg.wired.keyed
  have hleft := hkeyed.removeNode id
  refine Option.ext fun l => ?_
  rw [Option.filter_eq_some_iff]
  constructor
  · intro hl
    obtain rfl : l.target = t := hleft t l hl
    obtain ⟨hlive, hends⟩ := (Wiring.live_removeNode hkeyed).mp hl
    exact ⟨hlive, by simpa [← Wiring.touches_iff] using hends⟩
  · rintro ⟨hl, hends⟩
    obtain rfl : l.target = t := hkeyed t l hl
    refine (Wiring.live_removeNode hkeyed).mpr ⟨hl, ?_⟩
    simpa [← Wiring.touches_iff] using hends

/-- **Edits are refused exactly when they should be, and change no more than they should.**  Each edit is
    refused exactly for the first of its faults, in order, and then leaves the nodes and both indexes as
    they are.  A node that is added changes its own entry only; one that is removed takes along the links
    that touch it and nothing else; a link that is made changes what feeds its target and nothing else,
    and is never refused for the types of its ports. -/
theorem edit_outcomes (hg : g.Reachable) :
    (∀ id kind,
      (∀ e, g.addNode id kind = .error e ↔
        FirstFault [(id = outputId ∨ kind = .output, .reservedId),
          (∃ node, g.node? id = some node, .duplicateNode id)] e) ∧
      ∀ g', g.addNode id kind = .ok g' → g'.wiring = g.wiring ∧
        ∀ id', g'.node? id' = if id' = id then some ⟨id, kind⟩ else g.node? id') ∧
    (∀ id,
      (∀ e, g.removeNode id = .error e ↔
        FirstFault [(id = outputId, .outputRemoval), (g.node? id = none, .unknownNode id)] e) ∧
      ∀ node g', g.removeNode id = .ok (node, g') → g.node? id = some node ∧
        (∀ id', g'.node? id' = if id' = id then none else g.node? id') ∧
        ∀ t, g'.wiring.feeding? t = (g.wiring.feeding? t).filter fun l => !l.touches id) ∧
    (∀ l,
      (∀ e, g.connect l = .error e ↔ FirstFault (g.linkFaults l) e) ∧
      (∀ source target, g.connect l ≠ .error (.incompatibleTypes source target)) ∧
      ∀ displaced g', g.connect l = .ok (displaced, g') → g'.nodes = g.nodes ∧
        displaced = g.wiring.feeding? l.target ∧
        ∀ t, g'.wiring.feeding? t = if t = l.target then some l else g.wiring.feeding? t) ∧
    (∀ s, (g.disconnect s).2.nodes = g.nodes ∧ (g.disconnect s).1 = g.wiring.feeding? s ∧
      (g.wiring.feeding? s = none → (g.disconnect s).2.wiring = g.wiring) ∧
      ∀ t, (g.disconnect s).2.wiring.feeding? t = if t = s then none else g.wiring.feeding? t) ∧
    (∀ call e, g.refusal? call = some e → (g.after call).nodes = g.nodes ∧
      (g.after call).wiring.byTarget = g.wiring.byTarget ∧
      (g.after call).wiring.bySource = g.wiring.bySource) := by
  refine ⟨fun id kind => ⟨fun e => addNode_eq_error_iff, fun g' h => ?_⟩,
    fun id => ⟨fun e => removeNode_eq_error_iff, fun node g' h => ?_⟩,
    fun l => ⟨fun e => connect_eq_error_iff, connect_ne_incompatibleTypes, fun displaced g' h => ?_⟩,
    fun s => ⟨rfl, Wiring.extract_fst g.wiring s, Wiring.removeInto_of_none, fun t => ?_⟩,
    fun call e h => ?_⟩
  · obtain ⟨_, _, _, hg'⟩ := addNode_cases h
    exact ⟨by rw [hg'], node?_addNode h⟩
  · obtain ⟨_, hnode, _⟩ := removeNode_cases h
    exact ⟨hnode, node?_removeNode h, feeding?_removeNode hg.wellFormed h⟩
  · obtain ⟨_, hdisplaced, rfl⟩ := connect_cases h
    refine ⟨rfl, hdisplaced, fun t => ?_⟩
    rw [Wiring.feeding?_insert]
    simp only [eq_comm]
  · rw [disconnect_snd, Wiring.feeding?_removeInto]
    simp only [eq_comm]
  · rw [after_of_refusal? h]
    exact ⟨rfl, rfl, rfl⟩

/-- The time feeds the sine and the cosine, and the sine feeds the colour. -/
def timeFannedOut : List Call :=
  [.addNode 1 (.input .time), .addNode 2 (.scalarFunc .sin), .addNode 3 (.scalarFunc .cos),
   .connect ⟨⟨1, 0⟩, ⟨2, 0⟩⟩, .connect ⟨⟨1, 0⟩, ⟨3, 0⟩⟩, .connect ⟨⟨2, 0⟩, ⟨0, 0⟩⟩]

/-- The first link has four faults and the second one two.  Removing the sine clears its input and the
    colour, and the cosine is fed as before. -/
theorem edit_outcomes_timeFannedOut :
    let g := Graph.new.run timeFannedOut
    g.Reachable ∧ g.connect ⟨⟨9, 4⟩, ⟨8, 4⟩⟩ = .error (.unknownNode 9) ∧
    g.connect ⟨⟨1, 1⟩, ⟨2, 7⟩⟩ = .error (.noSuchOutput ⟨1, 1⟩) ∧
    ∃ g', g.removeNode 2 = .ok (⟨2, .scalarFunc .sin⟩, g') ∧ g'.wiring.feeding? ⟨2, 0⟩ = none ∧
      g'.wiring.feeding? ⟨0, 0⟩ = none ∧ g'.wiring.feeding? ⟨3, 0⟩ = some ⟨⟨1, 0⟩, ⟨3, 0⟩⟩ := by
  intro g
  have hg : g.Reachable := Reachable.new.run timeFannedOut
  obtain ⟨_, hremove, hconnect, _⟩ := edit_outcomes hg
  obtain ⟨g', hremoved⟩ : ∃ g', g.removeNode 2 = .ok (⟨2, .scalarFunc .sin⟩, g') := ⟨_, rfl⟩
  obtain ⟨_, _, hfed⟩ := (hremove 2).2 _ g' hremoved
  have hnode : g.node? 1 = some ⟨1, .input .time⟩ := rfl
  refine ⟨hg, ((hconnect _).1 _).mpr (Or.inl ⟨rfl, rfl⟩), ((hconnect _).1 _).mpr ?_, g', hremoved, ?_⟩
  · refine Or.inr ⟨by rintro ⟨⟩, Or.inr ⟨by rintro ⟨⟩, Or.inl ⟨?_, rfl⟩⟩⟩
    rw [hasOutput_iff hnode]
    decide
  · rw [hfed, hfed, hfed]
    exact ⟨rfl, rfl, rfl⟩

end Graph

end FragmentGraph
