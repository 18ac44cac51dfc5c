/-
  Sections of any emitters.

  A circuit may have emitters with any texts.  Declarations and helpers are shared by occurrence, so a text
  may be left out although no node brought it before: it can stand inside a longer text, or across the
  border of two.  What can still be said of such a section is `Shares`: it is put together from some of
  the texts in their order, nothing is added that is there already, and nothing is missing.

  1. **One text** — sharing one more text keeps this so (`Shares.share`).

  2. **One node** — a node with an emitter adds to every section, and one without to none.  The output's
     declarations go to the deferred section and all others to the declarations (`Assembles.add`).

  3. **A walk** — so the sections are those of the emitters in the order of the walk (`assembles_ofOrder`).
-/
import FragmentGraph.Proofs.Shader.Sections

namespace FragmentGraph

open Glsl

/-! ## Shared texts -/

/-- `Shares texts known` — the section `known` consists of some of the texts, in their order.  None of them
    occurs in what stands before it, and every text occurs in the section. -/
structure Shares (texts : List String) (known : String) : Prop where
  parts : ∃ kept : List String, kept.Sublist texts ∧ known = String.join kept ∧
    ∀ i text, kept[i]? = some text → ¬ text.toList <:+: (String.join (kept.take i)).toList
  occurs : ∀ text ∈ texts, text.toList <:+: known.toList

theorem shares_nil : Shares [] "" where
  parts := ⟨[], .slnil, String.join_nil.symm, fun i text h => by simp at h⟩
  occurs text h := absurd h List.not_mem_nil

/-- Sharing one more text. -/
theorem Shares.share {texts : List String} {known : String} (h : Shares texts known) (text : String) :
    Shares (texts ++ [text]) (share known text) := by
  obtain ⟨kept, hsublist, hknown, hfresh⟩ := h.parts
  by_cases htext : text.toList <:+: known.toList
  · rw [share_of_occurs htext]
    refine ⟨⟨kept, hsublist.trans (List.sublist_append_left _ _), hknown, hfresh⟩, fun other hother => ?_⟩
    rcases List.mem_append.mp hother with hother | hother
    · exact h.occurs other hother
    · rw [List.mem_singleton.mp hother]
      exact htext
  · rw [share_of_not_occurs htext]
    refine ⟨⟨kept ++ [text], hsublist.append (List.Sublist.refl _), ?_, fun i other hother => ?_⟩,
      fun other hother => ?_⟩
    · rw [String.join_append, hknown, String.join_cons, String.join_nil, String.append_empty]
    · -- the text at `i` is one that was there, or the new one behind all of them
      rcases Nat.lt_or_ge i kept.length with hi | hi
      · rw [List.getElem?_append_left hi] at hother
        rw [List.take_append_of_le_length (Nat.le_of_lt hi)]
        exact hfresh i other hother
      · rw [List.getElem?_append_right hi, List.getElem?_singleton] at hother
        split at hother
        · next hzero =>
          obtain rfl : i = kept.length := by omega
          obtain rfl : text = other := Option.some.inj hother
          rw [List.take_left, ← hknown]
          exact htext
        · cases hother
    · rw [String.toList_append]
      rcases List.mem_append.mp hother with hother | hother
      · exact (h.occurs other hother).trans (List.infix_append' [] _ _)
      · rw [List.mem_singleton.mp hother]
        exact (List.suffix_append _ _).isInfix

/-! ## The sections of emitters -/

/-- The emitters of nodes in order; nodes without emitter are passed over. -/
def Circuit.contributors (c : Circuit) (order : List NodeId) : List (NodeId × Emitter) :=
  order.filterMap fun id => (c.emitters[id]?).map (Prod.mk id)

/-- The declarations of the nodes other than the output. -/
def declarationTexts (emitters : List (NodeId × Emitter)) : List String :=
  (emitters.filter fun e => e.1 ≠ outputId).map fun e => e.2.declarations

/-- The declarations of the output. -/
def deferredTexts (emitters : List (NodeId × Emitter)) : List String :=
  (emitters.filter fun e => e.1 = outputId).map fun e => e.2.declarations

theorem declarationTexts_concat (emitters : List (NodeId × Emitter)) (id : NodeId) (e : Emitter) :
    declarationTexts (emitters ++ [(id, e)])
      = declarationTexts emitters ++ if id = outputId then [] else [e.declarations] := by
  rw [declarationTexts, List.filter_append, List.map_append, ← declarationTexts]
  by_cases hid : id = outputId <;> simp [hid]

theorem deferredTexts_concat (emitters : List (NodeId × Emitter)) (id : NodeId) (e : Emitter) :
    deferredTexts (emitters ++ [(id, e)])
      = deferredTexts emitters ++ if id = outputId then [e.declarations] else [] := by
  rw [deferredTexts, List.filter_append, List.map_append, ← deferredTexts]
  by_cases hid : id = outputId <;> simp [hid]

/-- `c.Assembles emitters last p` — the sections of `p` come from the emitters in order, and the deferred
    one from the texts `last`. -/
structure Circuit.Assembles (c : Circuit) (emitters : List (NodeId × Emitter)) (last : List String)
    (p : Program) : Prop where
  declarations : Shares (declarationTexts emitters) p.declarations
  ownCode : p.ownCode = String.join (emitters.map fun e => e.2.ownCode)
  helpers : Shares (emitters.map fun e => e.2.helper) p.helpers
  deferred : Shares last p.deferred
  statements : p.statements = String.join (emitters.map fun e => (c.block e.1 e.2).render e.2.statement)

namespace Circuit

variable {c : Circuit} {emitters : List (NodeId × Emitter)} {p : Program} {id : NodeId} {e : Emitter}

theorem assembles_nil (c : Circuit) : c.Assembles [] (deferredTexts []) .empty :=
  ⟨shares_nil, rfl, shares_nil, shares_nil, rfl⟩

/-- A node with an emitter adds to every section. -/
theorem Assembles.add (h : c.Assembles emitters (deferredTexts emitters) p)
    (he : c.emitters[id]? = some e) :
    c.Assembles (emitters ++ [(id, e)]) (deferredTexts (emitters ++ [(id, e)])) (p.add c id) := by
  have hjoin : ∀ f : NodeId × Emitter → String,
      String.join (emitters.map f) ++ f (id, e) = String.join ((emitters ++ [(id, e)]).map f) := by
    intro f
    rw [List.map_append, String.join_append, List.map_singleton, String.join_cons, String.join_nil,
      String.append_empty]
  rw [Program.add, he]
  constructor
  · rw [declarationTexts_concat]
    split
    · rw [List.append_nil]
      exact h.declarations
    · exact h.declarations.share e.declarations
  · rw [← hjoin, ← h.ownCode]
  · rw [List.map_append]
    exact h.helpers.share e.helper
  · rw [deferredTexts_concat]
    split
    · exact h.deferred.share e.declarations
    · rw [List.append_nil]
      exact h.deferred
  · rw [← hjoin, ← h.statements]

/-- The sections of nodes in order are those of their emitters. -/
theorem assembles_ofOrder (c : Circuit) (order : List NodeId) :
    c.Assembles (c.contributors order) (deferredTexts (c.contributors order)) (.ofOrder c order) := by
  induction order using List.reverseRecOn with
  | nil => exact c.assembles_nil
  | append_singleton order id ih =>
    rw [contributors, List.filterMap_append, ← contributors, Program.ofOrder, List.foldl_append,
      ← Program.ofOrder]
    cases he : c.emitters[id]? with
    | none =>
      have hadd : Program.add c (Program.ofOrder c order) id = Program.ofOrder c order := by
        rw [Program.add, he]
      simpa [he, hadd] using ih
    | some e => simpa [he] using ih.add he

/-- A preview's sections have the colour declared. -/
theorem Assembles.declareColor {last : List String} (h : c.Assembles emitters last p) :
    c.Assembles emitters (last ++ [colorDeclaration])
      { p with deferred := share p.deferred colorDeclaration } :=
  ⟨h.declarations, h.ownCode, h.helpers, h.deferred.share colorDeclaration, h.statements⟩

/-- What a preview shows is an output of a node's emitter. -/
theorem emitter_of_previewTy {s : Socket} {ty : Ty} (h : c.previewTy s = .ok ty) :
    ∃ e, c.emitters[s.node]? = some e ∧ e.outputs[s.port.toNat]? = some ty := by
  rw [previewTy] at h
  cases hnode : c.nodes[s.node]? with
  | none => simp [hnode] at h
  | some node =>
    cases he : c.emitters[s.node]? with
    | none => simp [hnode, he] at h
    | some e =>
      cases hport : e.outputs[s.port.toNat]? with
      | none => simp [hnode, he, hport] at h
      | some found =>
        obtain rfl : found = ty := by simpa [hnode, he, hport] using h
        exact ⟨e, rfl, hport⟩

/-- **Sections lose nothing and repeat nothing**, whatever the emitters.  A shader that compiles consists
    of its sections in a fixed order.  The declarations and the helpers are shared by the emitters in the
    order of the walk; own code and blocks are all there, in that order, however often they repeat; the
    output's declarations go to the deferred section alone.  A preview has the colour declared there
    besides, and ends its main function by showing the socket. -/
theorem sections_of_emitters (c : Circuit) (text : String) :
    (c.compile.result = .ok text →
      let emitters := c.contributors (c.walk outputId).order
      ∃ p, c.Assembles emitters (deferredTexts emitters) p ∧
        text = p.declarations ++ p.ownCode ++ p.helpers ++ p.deferred ++ "\nvoid main() \x7b\n"
          ++ p.statements ++ "\x7d\n\n") ∧
    ∀ s : Socket, (c.preview s).result = .ok text →
      let emitters := c.contributors (c.walk s.node).order
      ∃ p e ty, c.Assembles emitters (deferredTexts emitters ++ [colorDeclaration]) p ∧
        colorDeclaration.toList <:+: p.deferred.toList ∧
        c.emitters[s.node]? = some e ∧ e.outputs[s.port.toNat]? = some ty ∧
        text = p.declarations ++ p.ownCode ++ p.helpers ++ p.deferred ++ "\nvoid main() \x7b\n"
          ++ p.statements ++ previewTail s ty ++ "\x7d\n\n" := by
  refine ⟨fun h => ?_, fun s h => ?_⟩
  · rw [compile] at h
    split at h
    · obtain ⟨_, rfl⟩ := program_eq_ok h
      exact ⟨_, assembles_ofOrder c _, by rw [Program.render, String.append_empty]⟩
    · cases h
  · rw [preview] at h
    cases hty : c.previewTy s with
    | error cause => simp [hty] at h
    | ok ty =>
      simp only [hty] at h
      obtain ⟨_, rfl⟩ := program_eq_ok h
      obtain ⟨e, he, hport⟩ := emitter_of_previewTy hty
      have hassembles := (assembles_ofOrder c (c.walk s.node).order).declareColor
      exact ⟨_, e, ty, hassembles, hassembles.deferred.occurs _ (by simp), he, hport, rfl⟩

/-- Emitters with texts that overlap.  The declarations of node 3 stand across the border of those of nodes
    1 and 2, whose own code is the same; node 4 has no emitter. -/
def overlapping : Circuit where
  nodes := ((∅ : Nodes).insert outputId ⟨outputId, .output⟩).insert 3 ⟨3, .branch⟩
  emitters :=
    [(outputId, ⟨"Out", [.float, .float, .float, .float], [], "out;", "", "", fun _ _ => ""⟩),
     (1, ⟨"One", [], [.float], "ab", "own;", "f", fun _ _ => ""⟩),
     (2, ⟨"Two", [], [.float], "cd", "own;", "fg", fun _ _ => ""⟩),
     (3, ⟨"Three", [], [.float], "bc", "", "f", fun _ _ => ""⟩)].foldl
      (fun emitters (e : NodeId × Emitter) => emitters.insert e.1 e.2) (∅ : Emitters)
  wiring :=
    [⟨⟨1, 0⟩, ⟨0, 0⟩⟩, ⟨⟨2, 0⟩, ⟨0, 1⟩⟩, ⟨⟨3, 0⟩, ⟨0, 2⟩⟩, ⟨⟨4, 0⟩, ⟨0, 3⟩⟩].foldl Wiring.insert .empty

/-- The shader of `overlapping`: declarations, own code, helpers, deferred, main function. -/
def overlappingText : String :=
  "abcd" ++ "own;own;" ++ "ffg" ++ "out;" ++ "\nvoid main() \x7b\n"
    ++ "// One:1\n\n// Two:2\n\n// Three:3\n\n// Out:0\n\n" ++ "\x7d\n\n"

/-- The declarations of node 3 are there before it comes, and so is its helper; the own code is there
    twice, and the node without an emitter leaves no trace.  A preview has the colour declared last. -/
theorem sections_of_emitters_overlapping :
    overlapping.compile.result = .ok overlappingText ∧
    (overlapping.walk outputId).order = [1, 2, 3, 4, 0] ∧
    (∃ p, overlapping.Assembles (overlapping.contributors [1, 2, 3, 4, 0]) ["out;"] p ∧
      overlappingText = p.declarations ++ p.ownCode ++ p.helpers ++ p.deferred ++ "\nvoid main() \x7b\n"
        ++ p.statements ++ "\x7d\n\n") ∧
    ∃ text p, (overlapping.preview ⟨3, 0⟩).result = .ok text ∧
      overlapping.Assembles (overlapping.contributors [3]) [colorDeclaration] p ∧
      colorDeclaration.toList <:+: p.deferred.toList := by
  have htext : overlapping.compile.result = .ok overlappingText := by rfl
  have horder : (overlapping.walk outputId).order = [1, 2, 3, 4, 0] := by rfl
  have hsections := (sections_of_emitters overlapping overlappingText).1 htext
  rw [horder] at hsections
  obtain ⟨text, hpreview⟩ : ∃ text, (overlapping.preview ⟨3, 0⟩).result = .ok text := ⟨_, rfl⟩
  obtain ⟨p, _, _, hassembles, hcolor, _⟩ :=
    (sections_of_emitters overlapping text).2 ⟨3, 0⟩ hpreview
  have hroot : (overlapping.walk 3).order = [3] := by rfl
  rw [hroot] at hassembles
  exact ⟨htext, horder, hsections, text, p, hpreview, hassembles, hcolor⟩

end Circuit

end FragmentGraph
