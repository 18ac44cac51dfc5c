/-
  The sections above the main function.

  Nodes share declarations and helpers: a text that occurs in its section is not added again.  That is
  right only if a text occurs when it has been added and not otherwise, which has to be seen from the
  texts.

  1. **Occurrence** — `occursIn` finds a text anywhere in another one.

  2. **Noise** — a definition holds the name of its own flavour's function and of no other flavour's.  The
     name has no newline and every definition begins with one, so the name cannot stand across the border
     of two definitions: in a section of definitions it stands in one of them
     (`Noise.definition_infix_definitions`).

  3. **Sections** — so the helpers are the definitions of the flavours in the order in which they first
     come (`helperText`), the declarations are there if an input is read (`inputText`), and the colour is
     declared once (`Graph.sections_ofOrder`).
-/
import FragmentGraph.Proofs.Graph.WellFormed
import FragmentGraph.Proofs.Shader.Steps

namespace FragmentGraph

open Glsl

/-! ## Occurrence -/

theorem occursIn_iff {part text : List Char} : occursIn part text = true ↔ part <:+: text := by
  induction text with
  | nil => rw [occursIn, List.isEmpty_iff, List.infix_nil]
  | cons c rest ih =>
    rw [occursIn, Bool.or_eq_true, List.isPrefixOf_iff_prefix, ih, List.infix_cons_iff]

theorem share_of_occurs {known text : String} (h : text.toList <:+: known.toList) :
    share known text = known := by
  rw [share, occursIn_iff.mpr h, Bool.or_true]
  rfl

theorem share_of_not_occurs {known text : String} (h : ¬ text.toList <:+: known.toList) :
    share known text = known ++ text := by
  have htext : text.isEmpty = false := by
    refine Bool.eq_false_iff.mpr fun hempty => h ?_
    rw [String.isEmpty_iff.mp hempty]
    exact List.nil_infix
  rw [share, htext, Bool.eq_false_iff.mpr (mt occursIn_iff.mp h)]
  rfl

@[simp] theorem share_empty (known : String) : share known "" = known := share_of_occurs List.nil_infix

@[simp] theorem share_self (text : String) : share text text = text := share_of_occurs (List.infix_refl _)

theorem empty_share (text : String) : share "" text = text := by
  rw [share]
  split
  · next h =>
    rcases Bool.or_eq_true_iff.mp h with h | h
    · exact (String.isEmpty_iff.mp h).symm
    · exact (String.toList_eq_nil_iff.mp (List.infix_nil.mp (occursIn_iff.mp h))).symm
  · exact String.empty_append

/-- A word that cannot begin with the second text's first character stands in one of the two. -/
theorem infix_append_cons {α : Type} {word front back : List α} {c : α} (hc : c ∉ word)
    (h : word <:+: front ++ c :: back) : word <:+: front ∨ word <:+: c :: back := by
  rcases List.infix_append_iff.mp h with h | h | ⟨left, right, rfl, hleft, hright⟩
  · exact Or.inl h
  · exact Or.inr h
  · cases right with
    | nil =>
      rw [List.append_nil]
      exact Or.inl hleft.isInfix
    | cons d right =>
      obtain ⟨rfl, _⟩ := List.cons_prefix_cons.mp hright
      exact absurd (List.mem_append_right _ List.mem_cons_self) hc

/-! ## Definitions of noise -/

namespace Glsl.Noise

theorem head_definition (n : Noise) : n.definition.toList.head? = some '\n' := by
  cases n with
  | value => unfold definition valueDefinition; rw [String.toList_ofList]; rfl
  | gradient => unfold definition gradientDefinition; rw [String.toList_ofList]; rfl
  | simplex => unfold definition simplexDefinition; rw [String.toList_ofList]; rfl

theorem newline_not_mem_function (n : Noise) : '\n' ∉ n.function.toList := by cases n <;> decide

/-- A definition holds the names of its own flavour only. -/
theorem function_infix_definition {m n : Noise} :
    n.function.toList <:+: m.definition.toList ↔ n = m := by
  rw [← occursIn_iff]
  cases m with
  | value =>
    unfold definition valueDefinition
    rw [String.toList_ofList]
    cases n <;> decide +kernel
  | gradient =>
    unfold definition gradientDefinition
    rw [String.toList_ofList]
    cases n <;> decide +kernel
  | simplex =>
    unfold definition simplexDefinition
    rw [String.toList_ofList]
    cases n <;> decide +kernel

/-- The section of the definitions of some flavours. -/
def definitions (ns : List Noise) : String := String.join (ns.map definition)

theorem toList_definitions (ns : List Noise) :
    (definitions ns).toList = ns.flatMap fun n => n.definition.toList := by
  rw [definitions, String.toList_join, List.flatMap_map]

/-- A function's name stands in the definition of its flavour or nowhere in the section. -/
theorem mem_of_function_occurs {ns : List Noise} {n : Noise}
    (h : n.function.toList <:+: (definitions ns).toList) : n ∈ ns := by
  rw [toList_definitions] at h
  induction ns with
  | nil =>
    rw [List.flatMap_nil, List.infix_nil] at h
    cases n <;> revert h <;> decide
  | cons m ns ih =>
    rw [List.flatMap_cons] at h
    have hsplit : n.function.toList <:+: m.definition.toList
        ∨ n.function.toList <:+: ns.flatMap fun n => n.definition.toList := by
      cases ns with
      | nil => exact Or.inl (by rwa [List.flatMap_nil, List.append_nil] at h)
      | cons m' ns =>
        -- the rest begins with a newline, which the name has not
        obtain ⟨back, hback⟩ := List.head?_eq_some_iff.mp m'.head_definition
        rw [List.flatMap_cons, hback, List.cons_append] at h ⊢
        exact infix_append_cons n.newline_not_mem_function h
    rcases hsplit with h | h
    · rw [function_infix_definition.mp h]
      exact List.mem_cons_self
    · exact List.mem_cons_of_mem _ (ih h)

/-- A definition occurs in a section exactly if it has been put there. -/
theorem definition_infix_definitions {ns : List Noise} {n : Noise} :
    n.definition.toList <:+: (definitions ns).toList ↔ n ∈ ns := by
  constructor
  · intro h
    exact mem_of_function_occurs ((function_infix_definition.mpr rfl).trans h)
  · intro h
    rw [toList_definitions, List.flatMap_def]
    exact List.infix_of_mem_flatten (List.mem_map_of_mem h)

/-- Sharing adds the flavours that are new. -/
theorem definitions_concat (ns : List Noise) (n : Noise) :
    definitions (ns ++ [n]).eraseDups = share (definitions ns.eraseDups) n.definition := by
  rw [List.eraseDups_append]
  by_cases hmem : n ∈ ns
  · have hold : [n].removeAll ns = [] := by simp [List.removeAll, hmem]
    rw [hold, List.eraseDups_nil, List.append_nil]
    exact (share_of_occurs (definition_infix_definitions.mpr (List.mem_eraseDups.mpr hmem))).symm
  · have hnew : ([n].removeAll ns).eraseDups = [n] := by
      simp [List.removeAll, hmem, List.eraseDups_cons]
    have hinfix : ¬ n.definition.toList <:+: (definitions ns.eraseDups).toList :=
      mt definition_infix_definitions.mp (mt List.mem_eraseDups.mp hmem)
    rw [hnew, share_of_not_occurs hinfix, definitions, List.map_append, String.join_append,
      List.map_singleton, String.join_cons, String.join_nil, String.append_empty]
    rfl

end Glsl.Noise

/-! ## The sections -/

namespace Kind

/-- The flavour of a noise. -/
def noise? : Kind → Option Noise
  | noise flavour => some flavour
  | _ => none

/-- Reads an input of the shader. -/
def isInput : Kind → Bool
  | input _ => true
  | _ => false

end Kind

/-- The helpers of kinds in order: the definition of every flavour of noise among them, each at its first
    occurrence. -/
def helperText (kinds : List Kind) : String := Noise.definitions (kinds.filterMap Kind.noise?).eraseDups

/-- The declarations that kinds need: all inputs, if one of them is read. -/
def inputText (kinds : List Kind) : String :=
  if kinds.any Kind.isInput then ShaderInput.declarations else ""

theorem helperText_concat (kinds : List Kind) (k : Kind) :
    helperText (kinds ++ [k]) = share (helperText kinds) k.helper := by
  rw [helperText, List.filterMap_append]
  cases k with
  | noise n => exact Noise.definitions_concat _ n
  | _ => exact (List.append_nil _).symm ▸ (share_empty _).symm

/-- A kind adds the declarations of the inputs if it reads one and they are not there yet, and else
    nothing.  The output is apart, since its declarations are of the colour. -/
theorem inputText_concat (kinds : List Kind) {k : Kind} (hk : k ≠ .output) :
    inputText (kinds ++ [k]) = share (inputText kinds) k.declarations := by
  rw [inputText, inputText, List.any_append]
  cases hinput : k.isInput with
  | true =>
    have hdeclarations : k.declarations = ShaderInput.declarations := by
      cases k with
      | input source => rfl
      | _ => cases hinput
    rw [hdeclarations]
    cases kinds.any Kind.isInput with
    | true => simp
    | false => simp [hinput, empty_share]
  | false =>
    have hdeclarations : k.declarations = "" := by
      cases k with
      | input source => cases hinput
      | output => exact absurd rfl hk
      | _ => rfl
    simp [hdeclarations, hinput]

/-- The output reads no input. -/
theorem inputText_output (kinds : List Kind) : inputText (kinds ++ [.output]) = inputText kinds := by
  rw [inputText, inputText, List.any_append]
  simp [Kind.isInput]

namespace Graph

variable {g : Graph}

/-- The kinds of nodes in order. -/
def kinds (g : Graph) (order : List NodeId) : List Kind :=
  order.filterMap fun id => (g.node? id).map Node.kind

theorem kinds_concat {id : NodeId} {node : Node} (hnode : g.node? id = some node)
    (order : List NodeId) : g.kinds (order ++ [id]) = g.kinds order ++ [node.kind] := by
  rw [kinds, List.filterMap_append, kinds]
  simp [hnode]

/-- The sections above the main function of a program that has taken nodes in order. -/
structure Sections (g : Graph) (order : List NodeId) (p : Program) : Prop where
  declarations : p.declarations = inputText (g.kinds order)
  ownCode : p.ownCode = ""
  helpers : p.helpers = helperText (g.kinds order)
  deferred : p.deferred = if outputId ∈ order then colorDeclaration else ""

theorem sections_empty (g : Graph) : g.Sections [] .empty := ⟨rfl, rfl, rfl, rfl⟩

/-- Whether or not the colour is declared, sharing its declaration leaves it declared once. -/
theorem Sections.share_deferred {order : List NodeId} {p : Program} (h : g.Sections order p) :
    share p.deferred colorDeclaration = colorDeclaration := by
  rw [h.deferred]
  split
  · exact share_self _
  · exact empty_share _

/-- Taking the output node adds the declaration of the colour. -/
theorem Sections.add_output {order : List NodeId} {p : Program} (hg : g.WellFormed)
    (h : g.Sections order p) : g.Sections (order ++ [outputId]) (p.add g.circuit outputId) := by
  rw [Program.add, emitters_circuit, hg.output]
  constructor
  · rw [kinds_concat hg.output, inputText_output]
    exact h.declarations
  · rw [h.ownCode]
    rfl
  · rw [kinds_concat hg.output, helperText_concat, h.helpers]
    rfl
  · rw [if_pos (List.mem_append_right _ List.mem_cons_self)]
    exact h.share_deferred

/-- Taking another node adds what its kind needs and the program does not have. -/
theorem Sections.add {order : List NodeId} {p : Program} (hg : g.WellFormed) (h : g.Sections order p)
    {id : NodeId} (hid : id ≠ outputId) : g.Sections (order ++ [id]) (p.add g.circuit id) := by
  have hdeferred : p.deferred = if outputId ∈ order ++ [id] then colorDeclaration else "" := by
    rw [h.deferred]
    simp [Ne.symm hid]
  rw [Program.add, emitters_circuit]
  cases hnode : g.node? id with
  | none =>
    have hkinds : g.kinds (order ++ [id]) = g.kinds order := by
      rw [kinds, List.filterMap_append, kinds]
      simp [hnode]
    exact ⟨hkinds ▸ h.declarations, h.ownCode, hkinds ▸ h.helpers, hdeferred⟩
  | some node =>
    have hkind : node.kind ≠ .output := fun hkind => hid (hg.only_output id node hnode hkind)
    constructor
    · rw [kinds_concat hnode, inputText_concat _ hkind, ← h.declarations]
      exact if_neg hid
    · rw [h.ownCode]
      rfl
    · rw [kinds_concat hnode, helperText_concat, ← h.helpers]
      rfl
    · rw [← hdeferred]
      exact if_neg hid

/-- A program that takes nodes in order has the sections of their kinds. -/
theorem sections_ofOrder (hg : g.WellFormed) (order : List NodeId) :
    g.Sections order (Program.ofOrder g.circuit order) := by
  induction order using List.reverseRecOn with
  | nil => exact g.sections_empty
  | append_singleton order id ih =>
    rw [Program.ofOrder, List.foldl_append]
    by_cases hid : id = outputId
    · subst hid
      exact ih.add_output hg
    · exact ih.add hg hid

end Graph

end FragmentGraph
