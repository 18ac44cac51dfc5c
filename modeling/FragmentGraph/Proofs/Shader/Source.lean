/-
  The whole text of a shader.

  `Graph.sourceText` says what a shader is, from the order in which its nodes come: what stands above the
  main function depends on the kinds in the order only, and the main function is the blocks of the nodes.
  Every shader that compiles is that text, and so is every preview, where a statement that shows the
  output ends the main function.

  1. **Blocks** — the text of a step is the block of its node (`Graph.text_step_eq`).

  2. **Headers** — the blocks begin with comments, and nothing else in the text does.  Statements are
     indented, and the texts above the main function hold no comment.  So reading the comments line by
     line gives the order back (`Graph.headerIds_sourceText`).
-/
import FragmentGraph.Proofs.Graph.Calls
import FragmentGraph.Proofs.Kind.Statement
import FragmentGraph.Proofs.Shader.Code
import FragmentGraph.Proofs.Shader.Sections
import FragmentGraph.Proofs.Shader.Scope

namespace FragmentGraph

open Glsl Text Numeric

/-! ## The text -/

namespace Graph

/-- The stand-ins of a node: a line for every input that nothing feeds, in the order of the ports. -/
def standInText (g : Graph) (id : NodeId) (node : Node) : String :=
  let free := node.kind.inputs.zipIdx.filter fun input =>
    (g.wiring.feeding? ⟨id, UInt32.ofNat input.2⟩).isNone
  String.join (free.map fun input =>
    "\t" ++ input.1.keyword ++ " " ++ (Variable.standIn ⟨id, UInt32.ofNat input.2⟩).name ++ " = "
      ++ input.1.zero.render ++ ";\n")

/-- The statement of a node, about the variables of its ports. -/
def statementText (g : Graph) (id : NodeId) (node : Node) : String :=
  node.kind.statement
    ((List.range node.kind.inputs.length).map fun i =>
      (g.circuit.operand ⟨id, UInt32.ofNat i⟩).name)
    ((List.range node.kind.outputs.length).map fun j => (Variable.value ⟨id, UInt32.ofNat j⟩).name)

/-- The block of a node: its header, its stand-ins, its statement and a blank line. -/
def blockText (g : Graph) (id : NodeId) (node : Node) : String :=
  "// " ++ node.kind.name ++ ":" ++ decimal id.toNat ++ "\n" ++ g.standInText id node
    ++ g.statementText id node ++ "\n"

/-- The blocks of nodes in order. -/
def blocks (g : Graph) (order : List NodeId) : List String :=
  order.filterMap fun id => (g.node? id).map (g.blockText id)

/-- The shader with nodes in order, whose main function ends with `tail`. -/
def sourceText (g : Graph) (order : List NodeId) (tail : String) : String :=
  inputText (g.kinds order) ++ helperText (g.kinds order) ++ "\nout vec4 FragColor;\n"
    ++ "\nvoid main() \x7b\n" ++ String.join (g.blocks order) ++ tail ++ "\x7d\n\n"

variable {g : Graph} {id : NodeId} {node : Node} {order : List NodeId}

/-- The text of a step is the block of its node. -/
theorem text_step_eq (g : Graph) (id : NodeId) (node : Node) :
    (g.step id node).text = g.blockText id node := by
  have hdefaults : (g.step id node).block.defaults = g.standInText id node := by
    rw [Block.defaults, standIns_step, List.map_map]
    rfl
  have hstatement : (g.step id node).kind.statement
      ((g.step id node).block.operands.map fun o => o.2.name)
      ((g.step id node).block.results.map Variable.name) = g.statementText id node := by
    rw [statementText, operands_step, results_step, List.map_map, List.map_map,
      List.range_eq_range' (n := node.kind.inputs.length), ← List.zipIdx_map_snd, List.map_map]
    rfl
  rw [Step.text, Block.render, hdefaults, hstatement]
  rfl

theorem blocks_eq (g : Graph) (order : List NodeId) :
    g.blocks order = (g.steps order).map Step.text := by
  rw [blocks, steps, List.map_filterMap]
  refine List.filterMap_congr fun id _ => ?_
  cases g.node? id with
  | none => rfl
  | some node => exact congrArg some (g.text_step_eq id node).symm

/-- The program of nodes in order is written as their text. -/
theorem render_eq_sourceText (hg : g.WellFormed) (order : List NodeId) {p : Program}
    (hp : p = { Program.ofOrder g.circuit order with deferred := colorDeclaration }) (tail : String) :
    p.render tail = g.sourceText order tail := by
  obtain ⟨hdeclarations, hown, hhelpers, _⟩ := sections_ofOrder hg order
  have hcolor : colorDeclaration = "\nout vec4 FragColor;\n" := rfl
  subst hp
  unfold Program.render sourceText
  rw [hdeclarations, hown, hhelpers, Program.statements_ofOrder, join_blockText, ← blocks_eq,
    String.append_empty, hcolor]

end Graph

/-! ## Headers -/

/-- The node that a line is the header of: the line begins a comment, and the number behind its colon is
    the node's. -/
def headerId? (line : List Char) : Option NodeId :=
  if ['/', '/', ' '].isPrefixOf line then
    some (UInt32.ofNat (Nat.ofDigitChars 10 ((line.dropWhile (· ≠ ':')).drop 1) 0))
  else none

/-- The nodes whose headers stand in a text, in order. -/
def headerIds (text : String) : List NodeId := collect headerId? text

theorem headerIds_append {a : String} (ha : WholeLines a) (b : String) :
    headerIds (a ++ b) = headerIds a ++ headerIds b := collect_append rfl ha b

/-- Nothing in the text reads as a header, and what follows begins a new line. -/
structure Plain (text : String) : Prop where
  whole : WholeLines text
  bare : headerIds text = []

namespace Plain

theorem of_indented {text : String} (h : Indented text) : Plain text :=
  ⟨h.wholeLines, collect_indented rfl (fun _ => rfl) h⟩

theorem append {a b : String} (ha : Plain a) (hb : Plain b) : Plain (a ++ b) where
  whole := ha.whole.append hb.whole
  bare := by rw [headerIds_append ha.whole, ha.bare, hb.bare, List.append_nil]

theorem join {parts : List String} (h : ∀ part ∈ parts, Plain part) : Plain (String.join parts) where
  whole := .join fun part hpart => (h part hpart).whole
  bare := by
    rw [headerIds, collect_join rfl fun part hpart => (h part hpart).whole,
      List.flatMap_eq_nil_iff]
    exact fun part hpart => (h part hpart).bare

/-- For a text that is written out it is a matter of looking through it. -/
theorem of_toList {text : String} (h : text.toList.getLast? = some '\n' ∧
    (text.toList.splitOn '\n').filterMap headerId? = []) : Plain text :=
  ⟨wholeLines_of_getLast? h.1, h.2⟩

end Plain

/-- The definition of a noise function is whole lines, none of them a header. -/
theorem plain_definition (n : Noise) : Plain n.definition := by
  refine .of_toList ?_
  cases n with
  | value =>
    unfold Noise.definition Noise.valueDefinition
    rw [String.toList_ofList]
    decide +kernel
  | gradient =>
    unfold Noise.definition Noise.gradientDefinition
    rw [String.toList_ofList]
    decide +kernel
  | simplex =>
    unfold Noise.definition Noise.simplexDefinition
    rw [String.toList_ofList]
    decide +kernel

theorem plain_helperText (kinds : List Kind) : Plain (helperText kinds) := by
  refine .join fun part hpart => ?_
  obtain ⟨n, _, rfl⟩ := List.mem_map.mp hpart
  exact plain_definition n

theorem plain_inputText (kinds : List Kind) : Plain (inputText kinds) := by
  rw [inputText]
  split
  · have hdeclarations :
        ShaderInput.declarations = "in vec2 FragCoord;\nuniform float uTime;\n" := by rfl
    rw [hdeclarations]
    exact .of_toList (by decide)
  · exact ⟨Or.inl rfl, rfl⟩

/-! ## Headers of blocks -/

theorem Variable.oneLine_name (x : Variable) : OneLine x.name := by
  have hsuffix : ∀ s : Socket, OneLine s.suffix := by
    intro s
    simp only [Socket.suffix, oneLine_append]
    exact ⟨⟨⟨by decide, oneLine_decimal _⟩, by decide⟩, oneLine_decimal _⟩
  cases x with
  | value s => exact oneLine_append.mpr ⟨by decide, hsuffix s⟩
  | standIn s => exact oneLine_append.mpr ⟨by decide, hsuffix s⟩

theorem Kind.not_mem_name (k : Kind) : '\n' ∉ k.name.toList ∧ ':' ∉ k.name.toList := by
  cases k with
  | noise flavour => cases flavour <;> decide
  | _ => simp only [name]; decide

/-- A header is read as the id in it, since the name holds no colon and the first one stands before the
    id. -/
theorem headerId?_header {name : String} (hname : ':' ∉ name.toList) (id : NodeId) :
    headerId? ("// " ++ name ++ ":" ++ decimal id.toNat).toList = some id := by
  have hchars : ("// " ++ name ++ ":" ++ decimal id.toNat).toList
      = ('/' :: '/' :: ' ' :: name.toList) ++ ':' :: Nat.toDigits 10 id.toNat := by
    simp [toList_decimal]
  have hcolon : ∀ c ∈ '/' :: '/' :: ' ' :: name.toList, decide (c ≠ ':') = true := by
    intro c hc
    refine decide_eq_true fun h => ?_
    subst h
    simp only [List.mem_cons] at hc
    rcases hc with h | h | h | h
    · cases h
    · cases h
    · cases h
    · exact hname h
  rw [headerId?, hchars, if_pos (by rfl), List.dropWhile_append_of_pos hcolon]
  simp

namespace Graph

variable {g : Graph} {id : NodeId} {node : Node} {order : List NodeId}

theorem indented_standInText (g : Graph) (id : NodeId) (node : Node) :
    Indented (g.standInText id node) := by
  refine Indented.join fun line hline => ?_
  obtain ⟨⟨ty, i⟩, _, rfl⟩ := List.mem_map.mp hline
  -- the line is a declaration with the name for its only variable
  have hdeclare := Stmt.indented_render
    (f := fun _ : Unit => (Variable.standIn ⟨id, UInt32.ofNat i⟩).name) (s := .declare ty () ty.zero)
    (fun _ => (Variable.standIn _).oneLine_name) (List.forall_mem_singleton.mpr ty.flat_zero)
  rwa [Stmt.map, Ty.map_zero] at hdeclare

theorem indented_statementText (g : Graph) (id : NodeId) (node : Node) :
    Indented (g.statementText id node) := by
  refine node.kind.indented_statement (fun name hname => ?_) fun name hname => ?_
  · obtain ⟨i, _, rfl⟩ := List.mem_map.mp hname
    exact Variable.oneLine_name _
  · obtain ⟨j, _, rfl⟩ := List.mem_map.mp hname
    exact Variable.oneLine_name _

/-- The header of a block is its node's, and there is no other in it. -/
theorem headerIds_blockText (g : Graph) (id : NodeId) (node : Node) :
    headerIds (g.blockText id node) = [id] := by
  obtain ⟨hnewline, hcolon⟩ := node.kind.not_mem_name
  have hline : OneLine ("// " ++ node.kind.name ++ ":" ++ decimal id.toNat) := by
    simp only [oneLine_append]
    exact ⟨⟨⟨by decide, hnewline⟩, by decide⟩, oneLine_decimal _⟩
  have hheader : WholeLines ("// " ++ node.kind.name ++ ":" ++ decimal id.toNat ++ "\n") :=
    wholeLines_of_newline _
  have hdefaults := Plain.of_indented (g.indented_standInText id node)
  have hstatement := Plain.of_indented (g.indented_statementText id node)
  have hblank : headerIds "\n" = [] := rfl
  unfold blockText
  rw [headerIds_append ((hheader.append hdefaults.whole).append hstatement.whole), hblank,
    headerIds_append (hheader.append hdefaults.whole), hstatement.bare, headerIds_append hheader,
    hdefaults.bare, headerIds, collect_line rfl hline, headerId?_header hcolon]
  rfl

theorem wholeLines_blocks (g : Graph) (order : List NodeId) :
    ∀ block ∈ g.blocks order, WholeLines block := by
  intro block hblock
  obtain ⟨id, _, hid⟩ := List.mem_filterMap.mp hblock
  obtain ⟨node, _, rfl⟩ := Option.map_eq_some_iff.mp hid
  exact wholeLines_of_newline _

/-- The headers of blocks are read as the order of their nodes. -/
theorem headerIds_blocks (horder : ∀ id ∈ order, ∃ node, g.node? id = some node) :
    headerIds (String.join (g.blocks order)) = order := by
  rw [headerIds, collect_join rfl (g.wholeLines_blocks order)]
  induction order with
  | nil => rfl
  | cons id order ih =>
    obtain ⟨node, hnode⟩ := horder id List.mem_cons_self
    rw [blocks, List.filterMap_cons, hnode, Option.map_some]
    show headerIds (g.blockText id node) ++ (g.blocks order).flatMap (collect headerId?) = _
    rw [headerIds_blockText, ih fun id hid => horder id (List.mem_cons_of_mem _ hid)]
    rfl

/-- Reading the headers of a shader gives back the order of its nodes. -/
theorem headerIds_sourceText (horder : ∀ id ∈ order, ∃ node, g.node? id = some node) {tail : String}
    (htail : Plain tail) : headerIds (g.sourceText order tail) = order := by
  have hblocks : WholeLines (String.join (g.blocks order)) := .join (g.wholeLines_blocks order)
  have hhead : Plain (inputText (g.kinds order) ++ helperText (g.kinds order) ++ "\nout vec4 FragColor;\n"
      ++ "\nvoid main() \x7b\n") :=
    (((plain_inputText _).append (plain_helperText _)).append (.of_toList (by decide))).append
      (.of_toList (by decide))
  have hend : Plain "\x7d\n\n" := .of_toList (by decide)
  unfold sourceText
  rw [headerIds_append ((hhead.whole.append hblocks).append htail.whole), hend.bare,
    headerIds_append (hhead.whole.append hblocks), htail.bare, headerIds_append hhead.whole,
    hhead.bare, headerIds_blocks horder, List.nil_append, List.append_nil, List.append_nil]

end Graph

/-! ## The whole text -/

/-- The recursive walk emits the nodes in this order, at every depth that is enough for it. -/
def Circuit.IsPostorder (c : Circuit) (root : NodeId) (order : List NodeId) : Prop :=
  ∀ depth, c.budget root < depth → c.postorder depth root = some (.ok order)

theorem Circuit.isPostorder_walk {c : Circuit} {root : NodeId} (h : (c.walk root).cycle = none) :
    c.IsPostorder root (c.walk root).order := by
  intro depth hdepth
  rw [postorder_eq c root hdepth, Walk.outcome, h]

namespace Graph

variable {g : Graph} {root : NodeId}

/-- The shader from `root` whose main function ends with `tail`: the text of the nodes in post-order,
    which can be read off its headers. -/
structure IsSource (g : Graph) (root : NodeId) (tail text : String) (order : List NodeId) : Prop where
  isPostorder : g.circuit.IsPostorder root order
  text_eq : text = g.sourceText order tail
  headers : headerIds text = order

theorem isSource_walk (hg : g.WellFormed) (hroot : ∃ node, g.node? root = some node)
    (hcycle : (g.circuit.walk root).cycle = none) {tail : String} (htail : Plain tail) :
    g.IsSource root tail (g.sourceText (g.circuit.walk root).order tail)
      (g.circuit.walk root).order where
  isPostorder := Circuit.isPostorder_walk hcycle
  text_eq := rfl
  headers := by
    refine headerIds_sourceText (fun id hid => ?_) htail
    exact exists_node_of_reaches hg hroot ((Circuit.mem_walk_order_iff hcycle).mp hid)

/-- **The text of a shader is its declarative definition.**  A shader that compiles is the text of its
    nodes in post-order from the output.  A preview is that from the node it shows, with a statement at
    the end that shows the output.  In both the headers read as the order. -/
theorem source_eq (hg : g.Reachable) :
    (∀ text, g.compile.result = .ok text → ∃ order, g.IsSource outputId "" text order) ∧
    (∀ s text, (g.preview s).result = .ok text →
      ∃ ty order, g.outputTy? s = some ty ∧
        g.IsSource s.node (previewStmt ty (Variable.value s).name).render text order) := by
  have hwell := hg.wellFormed
  constructor
  · intro text htext
    obtain ⟨hcycle, rfl⟩ := compile_eq_render htext
    have hroot : outputId ∈ (g.circuit.walk outputId).order :=
      List.mem_of_getLast? (Circuit.walk_order_getLast? hcycle)
    have hdeferred := (sections_ofOrder hwell (g.circuit.walk outputId).order).deferred
    rw [if_pos hroot] at hdeferred
    rw [render_eq_sourceText hwell _ (by rw [← hdeferred])]
    exact ⟨_, isSource_walk hwell ⟨_, hwell.output⟩ hcycle ⟨Or.inl rfl, rfl⟩⟩
  · intro s text htext
    obtain ⟨hcycle, node, ty, hnode, hty, rfl⟩ := preview_eq_render htext
    have hdeferred := (sections_ofOrder hwell (g.circuit.walk s.node).order).share_deferred
    have htail : Plain (Circuit.previewTail s ty) :=
      .of_indented (indented_previewStmt ty (Variable.value s).oneLine_name)
    rw [render_eq_sourceText hwell _ (by rw [hdeferred])]
    refine ⟨ty, _, ?_, isSource_walk hwell ⟨node, hnode⟩ hcycle htail⟩
    rw [outputTy?, hnode, Option.bind_some, hty]

/-- Two flavours of noise at the coordinates are added; the sum is stepped at an edge that is noise of one
    of the flavours again, without a place of its own, and becomes a component of the colour. -/
def noisy : List Call :=
  [.addNode 1 (.input .uv), .addNode 2 (.noise .simplex), .addNode 3 (.noise .value),
   .addNode 4 (.noise .simplex), .addNode 5 (.scalarOp .add .float), .addNode 6 (.step .float),
   .addNode 12 (.compose .vec4), .connect ⟨⟨1, 0⟩, ⟨2, 0⟩⟩, .connect ⟨⟨1, 0⟩, ⟨3, 0⟩⟩,
   .connect ⟨⟨2, 0⟩, ⟨5, 1⟩⟩, .connect ⟨⟨3, 0⟩, ⟨5, 0⟩⟩, .connect ⟨⟨5, 0⟩, ⟨6, 1⟩⟩,
   .connect ⟨⟨4, 0⟩, ⟨6, 0⟩⟩, .connect ⟨⟨6, 0⟩, ⟨12, 2⟩⟩, .connect ⟨⟨12, 0⟩, ⟨0, 0⟩⟩]

/-- The flavour that is met twice is defined once, and first, as the walk meets it first.  The preview of
    the sum lists what the sum draws from and nothing above it. -/
theorem source_eq_noisy :
    (Graph.new.run noisy).Reachable ∧
    (∃ text, (Graph.new.run noisy).compile.result = .ok text ∧
      (Graph.new.run noisy).IsSource outputId "" text [4, 1, 3, 2, 5, 6, 12, 0]) ∧
    (((Graph.new.run noisy).kinds [4, 1, 3, 2, 5, 6, 12, 0]).filterMap Kind.noise?).eraseDups
      = [.simplex, .value] ∧
    ∃ text, ((Graph.new.run noisy).preview ⟨5, 0⟩).result = .ok text ∧
      (Graph.new.run noisy).IsSource 5 "\tFragColor = vec4(vec3(var_from_n5_p0), 1.0);\n" text
        [1, 3, 2, 5] := by
  have hreachable : (Graph.new.run noisy).Reachable := Reachable.new.run noisy
  obtain ⟨hcompile, hpreview⟩ := source_eq hreachable
  obtain ⟨text, htext⟩ : ∃ text, (Graph.new.run noisy).compile.result = .ok text := ⟨_, rfl⟩
  obtain ⟨shown, hshown⟩ : ∃ text, ((Graph.new.run noisy).preview ⟨5, 0⟩).result = .ok text := ⟨_, rfl⟩
  obtain ⟨order, hsource⟩ := hcompile text htext
  obtain ⟨ty, shownOrder, hty, hshownSource⟩ := hpreview _ shown hshown
  have horder : some (Except.ok order) = some (.ok [4, 1, 3, 2, 5, 6, 12, 0]) :=
    (hsource.isPostorder 100 (by decide)).symm.trans (by rfl)
  have hshownOrder : some (Except.ok shownOrder) = some (.ok [1, 3, 2, 5]) :=
    (hshownSource.isPostorder 100 (by decide)).symm.trans (by rfl)
  obtain rfl : order = _ := Except.ok.inj (Option.some.inj horder)
  obtain rfl : shownOrder = _ := Except.ok.inj (Option.some.inj hshownOrder)
  obtain rfl : ty = .float := Option.some.inj (hty.symm.trans (by rfl))
  exact ⟨hreachable, ⟨text, htext, hsource⟩, by rfl, shown, hshown, hshownSource⟩

end Graph

end FragmentGraph
