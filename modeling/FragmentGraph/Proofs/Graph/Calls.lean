/-
  Graphs under any calls.

  An editor may call the edits of a graph in any order and with any arguments.  A call that is refused
  leaves the graph as it is (`Graph.after`), so a run of calls is a run of edits with some calls left out,
  and what holds of reachable graphs holds after every run.

  1. **The graph** — `Consistent` says what the run keeps: of the nodes, that the output is at its id and
     nowhere else and that ids are right; of the links, in either index, that they are filed where they
     belong and join ports that are there.  A node takes its links along when it is removed, so one that
     comes back under the same id with fewer ports finds none of them.

  2. **Its shaders** — what follows for compiling.  The output is there, every node that a walk visits
     has an emitter, and a walk from any other root stays away from the output, since no link leaves it.
-/
import FragmentGraph.Proofs.Graph.Reach
import FragmentGraph.Proofs.Shader.Failure

namespace FragmentGraph

/-- A call of an edit. -/
inductive Call where
  | addNode (id : NodeId) (kind : Kind)
  | removeNode (id : NodeId)
  | connect (l : Link)
  | disconnect (target : Socket)

namespace Graph

variable {g start : Graph} {l : Link}

/-! ## Runs of calls -/

/-- The graph after a call, the same graph if the call is refused. -/
def after (g : Graph) : Call → Graph
  | .addNode id kind =>
    match g.addNode id kind with
    | .ok g' => g'
    | .error _ => g
  | .removeNode id =>
    match g.removeNode id with
    | .ok (_, g') => g'
    | .error _ => g
  | .connect l =>
    match g.connect l with
    | .ok (_, g') => g'
    | .error _ => g
  | .disconnect target => (g.disconnect target).2

/-- The graph after calls in order. -/
def run (g : Graph) (calls : List Call) : Graph := calls.foldl after g

/-- Where runs begin: the new graph, or the graph of a document. -/
def Initial (g : Graph) : Prop :=
  g = .new ∨ ∃ text d, Document.parse? text = some d ∧ g = d.load.result

theorem Initial.reachable (h : start.Initial) : start.Reachable := by
  rcases h with rfl | ⟨text, d, hparse, rfl⟩
  · exact .new
  · exact .load hparse

/-- A call is an edit or changes nothing. -/
theorem Reachable.after (h : g.Reachable) (call : Call) : (g.after call).Reachable := by
  cases call with
  | addNode id kind =>
    show Reachable (match g.addNode id kind with | .ok g' => g' | .error _ => g)
    cases hcall : g.addNode id kind with
    | error e => exact h
    | ok g' => exact h.edit (.addNode hcall)
  | removeNode id =>
    show Reachable (match g.removeNode id with | .ok (_, g') => g' | .error _ => g)
    cases hcall : g.removeNode id with
    | error e => exact h
    | ok answer => exact h.edit (.removeNode hcall)
  | connect l =>
    show Reachable (match g.connect l with | .ok (_, g') => g' | .error _ => g)
    cases hcall : g.connect l with
    | error e => exact h
    | ok answer => exact h.edit (.connect hcall)
  | disconnect target => exact h.edit (.disconnect target)

/-- What calls make of a reachable graph is reachable. -/
theorem Reachable.run (h : g.Reachable) (calls : List Call) : (g.run calls).Reachable := by
  induction calls generalizing g with
  | nil => exact h
  | cons call calls ih => exact ih (h.after call)

/-! ## The graph -/

/-- The link stands in one of the two indexes. -/
def Files (g : Graph) (l : Link) : Prop :=
  ∃ k : SocketKey, g.wiring.byTarget[k]? = some l ∨ g.wiring.bySource[k]? = some l

/-- What every run keeps of nodes and links. -/
structure Consistent (g : Graph) : Prop where
  /-- The output is at its id. -/
  output : g.node? outputId = some ⟨outputId, .output⟩
  /-- No other node is an output. -/
  only_output : ∀ id node, g.node? id = some node → node.kind = .output → id = outputId
  /-- Nodes are stored under their own ids. -/
  own_id : ∀ id node, g.node? id = some node → node.id = id
  /-- Links filed by target are under their own targets. -/
  own_target : ∀ (k : SocketKey) (l : Link), g.wiring.byTarget[k]? = some l → l.target.key = k
  /-- Links filed by source are under their own sources. -/
  own_source : ∀ (k : SocketKey) (l : Link), g.wiring.bySource[k]? = some l → l.source.key = k
  /-- Links of either index are filed by target. -/
  by_target : ∀ l, g.Files l → g.wiring.byTarget[l.target.key]? = some l
  /-- Links of either index join an output and an input that are there. -/
  joined : ∀ l, g.Files l → g.Joins l
  /-- No link of either index leaves the output. -/
  leaves_other : ∀ l, g.Files l → l.source.node ≠ outputId

namespace WellFormed

/-- A link filed by target is live, and filed under its own target. -/
theorem live_of_byTarget (hg : g.WellFormed) {k : SocketKey} (hl : g.wiring.byTarget[k]? = some l) :
    g.wiring.Live l ∧ l.target.key = k := by
  obtain ⟨t, rfl⟩ := SocketKey.exists_socket k
  have hfed : g.wiring.feeding? t = some l := hl
  exact ⟨hg.wired.keyed.live hfed, congrArg Socket.key (hg.wired.keyed t l hfed)⟩

/-- A link filed by source is live, and filed under its own source. -/
theorem live_of_bySource (hg : g.WellFormed) {k : SocketKey} (hl : g.wiring.bySource[k]? = some l) :
    g.wiring.Live l ∧ l.source.key = k := by
  obtain ⟨e, rfl⟩ := SocketKey.exists_socket k
  obtain ⟨history, hhistory⟩ := hg.wired
  rw [hhistory] at hl ⊢
  obtain ⟨hlive, hsource⟩ := (Wiring.tracks_replay history e).live (fun _ h => h.1) hl
  exact ⟨hlive, congrArg Socket.key hsource⟩

/-- A link of either index is live. -/
theorem live_of_files (hg : g.WellFormed) (hl : g.Files l) : g.wiring.Live l := by
  obtain ⟨k, h | h⟩ := hl
  · exact (hg.live_of_byTarget h).1
  · exact (hg.live_of_bySource h).1

theorem consistent (hg : g.WellFormed) : g.Consistent where
  output := hg.output
  only_output := hg.only_output
  own_id := hg.own_id
  own_target _ _ hl := (hg.live_of_byTarget hl).2
  own_source _ _ hl := (hg.live_of_bySource hl).2
  by_target _ hl := hg.live_of_files hl
  joined l hl := hg.joined l (hg.live_of_files hl)
  leaves_other l hl := hg.source_ne_outputId (hg.joined l (hg.live_of_files hl))

/-! ## Its shaders -/

/-- The shader of a well-formed graph does not miss the output. -/
theorem compile_ne_missingOutput (hg : g.WellFormed) :
    g.compile.result ≠ .error .missingOutput := by
  have hnode : g.circuit.nodes[outputId]? = some ⟨outputId, .output⟩ := hg.output
  have hemitter : g.circuit.emitters[outputId]? = some Kind.output.emitter := by
    rw [emitters_circuit, hg.output]
    rfl
  have hhas : ¬ g.circuit.LacksOutput := by
    rintro (h | ⟨node, h, hkind⟩ | h)
    · simp [hnode] at h
    · obtain rfl : ⟨outputId, .output⟩ = node := Option.some.inj (hnode.symm.trans h)
      exact hkind rfl
    · simp [hemitter] at h
  rcases g.circuit.compile_cases with ⟨hlack, _⟩ | ⟨_, hsettles⟩
  · exact absurd hlack hhas
  · exact hsettles.ne_error fun id h => by cases h

/-- A walk from a node of the graph passes over no node for want of an emitter. -/
theorem noEmitter_not_mem_notices (hg : g.WellFormed) {root : NodeId}
    (hroot : ∃ node, g.node? root = some node) (id : NodeId) :
    Notice.noEmitter id ∉ g.circuit.notices root := by
  intro hmem
  obtain ⟨id', hid', hnotice⟩ := List.mem_map.mp hmem
  have hreach := (Walk.within_run g.circuit root _).emitted id' (List.mem_reverse.mp hid')
  obtain ⟨node, hnode⟩ := exists_node_of_reaches hg hroot hreach
  rw [Circuit.notice, emitters_circuit, hnode] at hnotice
  cases hnotice

/-- The output node has no output to preview. -/
theorem preview_outputId (hg : g.WellFormed) (port : PortIndex) :
    (g.preview ⟨outputId, port⟩).result = .error (.noRootPort ⟨outputId, port⟩) := by
  have hty : g.circuit.previewTy ⟨outputId, port⟩ = .error (.noRootPort ⟨outputId, port⟩) := by
    have hnode : g.circuit.nodes[outputId]? = some ⟨outputId, .output⟩ := hg.output
    rw [Circuit.previewTy, emitters_circuit, hg.output, hnode]
    rfl
  rw [Graph.preview, Circuit.preview, hty]

end WellFormed

/-- The root of a preview that is begun is in the graph, and is not the output. -/
theorem root_of_previewTy (hg : g.WellFormed) {s : Socket} {ty : Glsl.Ty}
    (hty : g.circuit.previewTy s = .ok ty) :
    (∃ node, g.node? s.node = some node) ∧ s.node ≠ outputId := by
  constructor
  · cases hnode : g.node? s.node with
    | some node => exact ⟨node, rfl⟩
    | none =>
      have hmissing : g.circuit.nodes[s.node]? = none := hnode
      simp [Circuit.previewTy, hmissing] at hty
  · intro hid
    obtain ⟨id, port⟩ := s
    obtain rfl : id = outputId := hid
    have hresult := hg.preview_outputId port
    rw [preview, Circuit.preview, hty] at hresult
    -- a preview that is begun fails at cycles only
    exact (g.circuit.settles_program outputId _).ne_error (fun _ h => by cases h) hresult

/-- The notices of a preview are one of its own and those of its walk, or there are none. -/
theorem mem_notices_preview {s : Socket} {notice : Notice} (h : notice ∈ (g.preview s).notices) :
    ∃ ty, g.circuit.previewTy s = .ok ty ∧
      (notice = .previewing s ty ∨ notice ∈ g.circuit.notices s.node) := by
  rw [preview, Circuit.preview] at h
  cases hty : g.circuit.previewTy s with
  | error e => simp [hty] at h
  | ok ty =>
    simp only [hty] at h
    exact ⟨ty, rfl, List.mem_cons.mp h⟩

/-- **Every run of calls keeps a graph consistent.**  Whatever is called, and whether or not it is
    refused, nodes and links are as `Consistent` says.  So the shader of the graph never misses the
    output, no walk passes over a node for want of an emitter, no preview that is begun ever visits the
    output node, and a preview of that node finds no port. -/
theorem consistent_run (hstart : start.Initial) (calls : List Call) :
    let g := start.run calls
    g.Consistent ∧
    g.compile.result ≠ .error .missingOutput ∧
    (∀ id, .noEmitter id ∉ g.compile.notices) ∧
    (∀ s id, .noEmitter id ∉ (g.preview s).notices) ∧
    (∀ s ty, g.circuit.previewTy s = .ok ty →
      ∀ steps, ((Walk.start s.node).run g.circuit steps).marks[outputId]? = none) ∧
    (∀ s name, .emitting name outputId ∉ (g.preview s).notices) ∧
    ∀ port, (g.preview ⟨outputId, port⟩).result = .error (.noRootPort ⟨outputId, port⟩) := by
  intro g
  have hg : g.WellFormed := (hstart.reachable.run calls).wellFormed
  have hvisits : ∀ s ty, g.circuit.previewTy s = .ok ty →
      ∀ id, g.circuit.Reaches s.node id → id ≠ outputId := fun s ty hty id hreach =>
    ne_outputId_of_reaches hg (root_of_previewTy hg hty).2 hreach
  refine ⟨hg.consistent, hg.compile_ne_missingOutput, fun id hmem => ?_, fun s id hmem => ?_,
    fun s ty hty steps => ?_, fun s name hmem => ?_, hg.preview_outputId⟩
  · rw [compile, Circuit.compile] at hmem
    split at hmem
    · rcases List.mem_cons.mp hmem with h | h
      · cases h
      · exact hg.noEmitter_not_mem_notices ⟨_, hg.output⟩ id h
    · exact absurd hmem List.not_mem_nil
  · obtain ⟨ty, hty, h | h⟩ := mem_notices_preview hmem
    · cases h
    · exact hg.noEmitter_not_mem_notices (root_of_previewTy hg hty).1 id h
  · cases hmark : ((Walk.start s.node).run g.circuit steps).marks[outputId]? with
    | none => rfl
    | some mark =>
      have hreach := (Walk.within_run g.circuit s.node steps).marks outputId mark hmark
      exact absurd rfl (hvisits s ty hty outputId hreach)
  · obtain ⟨ty, hty, h | h⟩ := mem_notices_preview hmem
    · cases h
    · obtain ⟨id, hid, hnotice⟩ := List.mem_map.mp h
      have hreach := (Walk.within_run g.circuit s.node _).emitted id (List.mem_reverse.mp hid)
      have hsame : id = outputId := by
        rw [Circuit.notice] at hnotice
        split at hnotice
        · exact (Notice.emitting.inj hnotice).2
        · cases hnotice
      exact hvisits s ty hty id hreach hsame

/-- A node with four outputs feeds the colour with the last of them, goes, and comes back with one
    output; the last calls are all refused. -/
def replaced : List Call :=
  [.addNode 1 (.decompose .vec4), .connect ⟨⟨1, 3⟩, ⟨0, 0⟩⟩, .removeNode 1, .addNode 1 (.input .time),
   .connect ⟨⟨1, 3⟩, ⟨0, 0⟩⟩, .connect ⟨⟨0, 0⟩, ⟨1, 0⟩⟩, .addNode 0 (.input .uv), .addNode 2 .output,
   .removeNode 0, .removeNode 7]

/-- Six calls are refused and leave two nodes; the link does not come back with the id of the node it
    started from. -/
theorem consistent_run_replaced :
    Graph.new.Initial ∧ (Graph.new.run replaced).Consistent ∧
    (Graph.new.run replaced).nodes.size = 2 ∧ (Graph.new.run replaced).wiring.links = [] ∧
    ((Graph.new.run replaced).preview ⟨0, 5⟩).result = .error (.noRootPort ⟨0, 5⟩) := by
  obtain ⟨hconsistent, _, _, _, _, _, hport⟩ := consistent_run (Or.inl rfl : Graph.new.Initial) replaced
  exact ⟨Or.inl rfl, hconsistent, rfl, rfl, hport 5⟩

end Graph

end FragmentGraph
