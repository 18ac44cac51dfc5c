/-
  The shader of a graph and the preview of what feeds its colour.

  The output node writes the value of one output, and a preview of that output shows the same value.  The
  two are compiled from different roots, and they declare the colour in different ways: the output node
  brings the declaration along, while a preview adds it at the end.  Still they are one text up to the
  last statement, and they fail at the same node.

  1. **Results** — a shader and a preview are known exactly from the outcome of their walks, errors
     included (`compile_eq_sourceText`, `preview_eq_sourceText`).

  2. **Walks** — the output has one input, and nothing leads back to it, as no link leaves it.  So its
     walk is that of the node which feeds it, with the output at the end (`outcome_walk_outputId`).

  3. **Texts** — the output adds nothing above the main function that a preview has not, and its block is
     the one statement that writes the colour (`sourceText_output`).
-/
import FragmentGraph.Proofs.Shader.Locality
import FragmentGraph.Proofs.Shader.Source

namespace FragmentGraph

open Glsl Numeric

namespace Graph

variable {g : Graph} {l : Link}

/-! ## Results -/

/-- The shader of a well-formed graph is the text of the nodes in the order of the walk, or the error of
    the walk. -/
theorem compile_eq_sourceText (hg : g.WellFormed) :
    g.compile.result
      = ((g.circuit.walk outputId).outcome.map fun order => g.sourceText order "").mapError .cyclic := by
  have hprogram : g.compile.result = (g.circuit.program outputId).map fun p => p.render "" := by
    have hmissing := hg.compile_ne_missingOutput
    rw [compile, Circuit.compile] at hmissing ⊢
    split
    · rfl
    · next houtput => exact absurd (by rw [if_neg houtput]) hmissing
  rw [hprogram, Circuit.program_eq_of_outcome]
  cases hwalk : (g.circuit.walk outputId).outcome with
  | error id => rfl
  | ok order =>
    -- the root is in the order, so the colour is declared
    have hroot : outputId ∈ order :=
      (Circuit.mem_order_of_outcome hwalk).mpr Relation.ReflTransGen.refl
    have hdeferred := (sections_ofOrder hg order).deferred
    rw [if_pos hroot] at hdeferred
    show Except.ok ((Program.ofOrder g.circuit order).render "") = Except.ok (g.sourceText order "")
    rw [render_eq_sourceText hg order (by rw [← hdeferred])]

/-- A preview of an output that is there is the text of the nodes in the order of the walk, with the
    statement that shows the output, or the error of the walk. -/
theorem preview_eq_sourceText (hg : g.WellFormed) {s : Socket} {ty : Ty}
    (hty : g.outputTy? s = some ty) :
    (g.preview s).result
      = ((g.circuit.walk s.node).outcome.map fun order =>
          g.sourceText order (Circuit.previewTail s ty)).mapError .cyclic := by
  have hpreviewTy : g.circuit.previewTy s = .ok ty := by
    rw [outputTy?, Option.bind_eq_some_iff] at hty
    obtain ⟨node, hnode, hport⟩ := hty
    have hfound : g.circuit.nodes[s.node]? = some node := hnode
    have hemitted : node.kind.emitter.outputs[s.port.toNat]? = some ty := hport
    rw [Circuit.previewTy, emitters_circuit, hfound, hnode]
    simp only [Option.map_some, hemitted]
  rw [preview, Circuit.preview, hpreviewTy]
  show Except.map _ (g.circuit.program s.node) = _
  rw [Circuit.program_eq_of_outcome]
  cases hwalk : (g.circuit.walk s.node).outcome with
  | error id => rfl
  | ok order =>
    have hdeferred := (sections_ofOrder hg order).share_deferred
    refine congrArg Except.ok ?_
    exact render_eq_sourceText hg order (by rw [hdeferred]) _

/-! ## Walks -/

/-- A link that feeds a well-formed graph's colour starts at an output that is there. -/
theorem WellFormed.exists_outputTy (hg : g.WellFormed) {t : Socket}
    (hfed : g.wiring.feeding? t = some l) : ∃ ty, g.outputTy? l.source = some ty := by
  obtain ⟨source, _, hsource, _, hport, _⟩ := hg.joined l (hg.wired.keyed.live hfed)
  refine ⟨source.kind.outputs[l.source.port.toNat], ?_⟩
  rw [outputTy?, hsource, Option.bind_some]
  exact List.getElem?_eq_getElem hport

/-- The walk from the output is the walk from the node that feeds it, with the output at the end. -/
theorem outcome_walk_outputId (hg : g.WellFormed)
    (hfed : g.wiring.feeding? ⟨outputId, 0⟩ = some l) :
    (g.circuit.walk outputId).outcome
      = (g.circuit.walk l.source.node).outcome.map (· ++ [outputId]) := by
  have hcount : g.circuit.inputCount outputId = 1 := by
    rw [inputCount_circuit hg.output]
    rfl
  have hfeeder : g.circuit.feeder? outputId 0 = some l.source.node :=
    Circuit.feeder?_eq_some.mpr ⟨l, hfed, rfl⟩
  have hsource : l.source.node ≠ outputId :=
    hg.source_ne_outputId (hg.joined l (hg.wired.keyed.live hfed))
  refine Circuit.outcome_walk_single hcount hfeeder fun hback => ?_
  exact ne_outputId_of_reaches hg hsource hback rfl

/-! ## Texts -/

/-- What stands before the last statement: all above the main function, and the blocks. -/
def headText (g : Graph) (order : List NodeId) : String :=
  inputText (g.kinds order) ++ helperText (g.kinds order) ++ "\nout vec4 FragColor;\n"
    ++ "\nvoid main() \x7b\n" ++ String.join (g.blocks order)

theorem sourceText_eq_headText (g : Graph) (order : List NodeId) (tail : String) :
    g.sourceText order tail = g.headText order ++ tail ++ "\x7d\n\n" := rfl

/-- The statement of the output writes the colour. -/
theorem statement_output (x : String) : Kind.output.statement [x] [] = "\tFragColor = " ++ x ++ ";\n" := by
  have hopen : "\t" ++ colorVariable ++ " = " = "\tFragColor = " := by rfl
  rw [Kind.statement, if_neg (by simp [Kind.arity]), ← hopen]
  show String.join ["\t" ++ colorVariable ++ " = " ++ x ++ ";\n"] = _
  rw [String.join_cons, String.join_nil, String.append_empty]

/-- The block of an output that is fed writes the colour and declares nothing. -/
theorem blockText_output (hfed : g.wiring.feeding? ⟨outputId, 0⟩ = some l) :
    g.blockText outputId ⟨outputId, .output⟩
      = "// Output:0\n\tFragColor = " ++ (Variable.value l.source).name ++ ";\n\n" := by
  have hport : g.wiring.feeding? ⟨outputId, UInt32.ofNat 0⟩ = some l := hfed
  have hstandIns : g.standInText outputId ⟨outputId, .output⟩ = "" := by
    have hfree : ([(Ty.vec4, 0)].filter fun input =>
        (g.wiring.feeding? ⟨outputId, UInt32.ofNat input.2⟩).isNone) = [] := by
      rw [List.filter_cons_of_neg (by rw [hport]; simp), List.filter_nil]
    show String.join (([(Ty.vec4, 0)].filter fun input =>
      (g.wiring.feeding? ⟨outputId, UInt32.ofNat input.2⟩).isNone).map _) = ""
    rw [hfree]
    rfl
  have hstatement : g.statementText outputId ⟨outputId, .output⟩
      = "\tFragColor = " ++ (Variable.value l.source).name ++ ";\n" := by
    show Kind.output.statement [(g.circuit.operand ⟨outputId, UInt32.ofNat 0⟩).name] [] = _
    rw [Circuit.operand_of_some hport, statement_output]
  have hheader : "// " ++ Kind.output.name ++ ":" ++ decimal outputId.toNat ++ "\n" = "// Output:0\n" := by
    rfl
  have hopen : "// Output:0\n\tFragColor = " = "// Output:0\n" ++ "\tFragColor = " := by rfl
  have hend : ";\n\n" = ";\n" ++ "\n" := by rfl
  unfold blockText
  rw [hstandIns, hstatement, hheader, hopen, hend, String.append_empty]
  simp only [String.append_assoc]

/-- The text with the output at the end is what stands before, and the statement that writes the
    colour. -/
theorem sourceText_output (hg : g.WellFormed) (hfed : g.wiring.feeding? ⟨outputId, 0⟩ = some l)
    (order : List NodeId) :
    g.sourceText (order ++ [outputId]) ""
      = g.headText order ++ "// Output:0\n\tFragColor = " ++ (Variable.value l.source).name
          ++ ";\n\n\x7d\n\n" := by
  have hhelpers : helperText (g.kinds order ++ [.output]) = helperText (g.kinds order) := by
    rw [helperText_concat]
    exact share_empty _
  have hblocks : String.join (g.blocks (order ++ [outputId]))
      = String.join (g.blocks order) ++ g.blockText outputId ⟨outputId, .output⟩ := by
    rw [blocks, List.filterMap_append, String.join_append]
    simp [blocks, hg.output]
  have hend : ";\n\n\x7d\n\n" = ";\n\n" ++ "\x7d\n\n" := by rfl
  unfold sourceText headText
  rw [kinds_concat hg.output, inputText_output, hhelpers, hblocks, blockText_output hfed, hend,
    String.append_empty]
  simp only [String.append_assoc]

/-- **A shader and the preview of what feeds its colour agree.**  Let an output feed the colour.  Then the
    shader fails at a node on a cycle exactly if the preview of that output fails at the same node.
    Otherwise both are there, and up to the last statement they are the same text: the shader goes on with
    the block of the output node, and the preview with the statement that shows the output. -/
theorem preview_agrees (hg : g.Reachable) (hfed : g.wiring.feeding? ⟨outputId, 0⟩ = some l) :
    (∀ id, g.compile.result = .error (.cyclic id)
      ↔ (g.preview l.source).result = .error (.cyclic id)) ∧
    ((∀ id, g.compile.result ≠ .error (.cyclic id)) →
      ∃ ty common, g.outputTy? l.source = some ty ∧
        g.compile.result = .ok (common ++ "// Output:0\n\tFragColor = "
          ++ (Variable.value l.source).name ++ ";\n\n\x7d\n\n") ∧
        (g.preview l.source).result = .ok (common
          ++ (previewStmt ty (Variable.value l.source).name).render ++ "\x7d\n\n")) := by
  have hwell := hg.wellFormed
  obtain ⟨ty, hty⟩ := hwell.exists_outputTy hfed
  have hcompile := compile_eq_sourceText hwell
  have hpreview := preview_eq_sourceText hwell hty
  rw [outcome_walk_outputId hwell hfed] at hcompile
  cases hwalk : (g.circuit.walk l.source.node).outcome with
  | error id =>
    rw [hwalk] at hcompile hpreview
    have hcycle : g.compile.result = .error (.cyclic id) := hcompile
    have hcycle' : (g.preview l.source).result = .error (.cyclic id) := hpreview
    refine ⟨fun id' => by rw [hcycle, hcycle'], fun hnone => ?_⟩
    exact absurd hcycle (hnone id)
  | ok order =>
    rw [hwalk] at hcompile hpreview
    have htext : g.compile.result = .ok (g.sourceText (order ++ [outputId]) "") := hcompile
    have htext' : (g.preview l.source).result
        = .ok (g.sourceText order (Circuit.previewTail l.source ty)) := hpreview
    refine ⟨fun id => ?_, fun _ => ⟨ty, g.headText order, hty, ?_, ?_⟩⟩
    · rw [htext, htext']
      simp
    · rw [htext, sourceText_output hwell hfed]
    · rw [htext', sourceText_eq_headText]
      rfl

/-- The sine feeds the colour; where a node that depends on itself does, both fail at that node. -/
theorem preview_agrees_sineOfTime :
    sineOfTime.Reachable ∧ sineOfTime.wiring.feeding? ⟨outputId, 0⟩ = some ⟨⟨2, 0⟩, ⟨0, 0⟩⟩ ∧
    (∃ common, sineOfTime.compile.result
        = .ok (common ++ "// Output:0\n\tFragColor = " ++ "var_from_n2_p0" ++ ";\n\n\x7d\n\n") ∧
      (sineOfTime.preview ⟨2, 0⟩).result
        = .ok (common ++ "\tFragColor = vec4(vec3(var_from_n2_p0), 1.0);\n" ++ "\x7d\n\n")) ∧
    ((besideCycle.run [.connect ⟨⟨9, 0⟩, ⟨0, 0⟩⟩]).preview ⟨9, 0⟩).result = .error (.cyclic 9) := by
  have hreachable : sineOfTime.Reachable := Reachable.new.run _
  have hfed : sineOfTime.wiring.feeding? ⟨outputId, 0⟩ = some ⟨⟨2, 0⟩, ⟨0, 0⟩⟩ := by rfl
  obtain ⟨text, htext⟩ : ∃ text, sineOfTime.compile.result = .ok text := ⟨_, rfl⟩
  obtain ⟨_, hagrees⟩ := preview_agrees hreachable hfed
  obtain ⟨ty, common, hty, hcompile, hpreview⟩ := hagrees fun id hid => by simp [htext] at hid
  obtain rfl : ty = .float := Option.some.inj (hty.symm.trans (by rfl))
  have hcyclic : (besideCycle.run [.connect ⟨⟨9, 0⟩, ⟨0, 0⟩⟩]).Reachable := (hreachable.run _).run _
  have hcolor : (besideCycle.run [.connect ⟨⟨9, 0⟩, ⟨0, 0⟩⟩]).compile.result = .error (.cyclic 9) := by rfl
  refine ⟨hreachable, hfed, ⟨common, hcompile, hpreview⟩, ?_⟩
  exact ((preview_agrees (l := ⟨⟨9, 0⟩, ⟨0, 0⟩⟩) hcyclic (by rfl)).1 9).mp hcolor

end Graph

end FragmentGraph
