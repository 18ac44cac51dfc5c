/-
  Which previews are well typed.

  A preview ends with a statement that shows an output as the colour.  The first three components of a
  `vec4` are taken, and every other value is handed to the constructor of `vec3`.  That constructor spreads
  a scalar over the components and takes a `vec3` as it is, but a `vec2` has too few components for it.

  1. **The statement** — under the type of the output it is well typed for every type but `vec2`
     (`wellTyped_previewStmt_iff`).

  2. **The preview** — the walk has declared the output with its type, once, so that is the type in force
     where the statement stands (`Graph.context_root`).  What stands before is well typed, whatever is
     shown.

  The coordinates are a `vec2`, so there are previews that are not well typed.
-/
import FragmentGraph.Proofs.Shader.Typing

namespace FragmentGraph

open Glsl

/-! ## The statement -/

/-- A value can be shown if it is a scalar, or has a component for each of the three colours. -/
theorem Glsl.wellTyped_previewStmt_iff {ν : Type} {types : ν → Option Ty} {x : ν} {ty : Ty}
    (hx : types x = some ty) : (previewStmt ty x).WellTyped types ↔ ty ≠ .vec2 := by
  cases ty with
  | vec4 =>
    refine iff_of_true ?_ (by decide)
    show Expr.ty? types (.construct .vec4 [.swizzle (.var x) "xyz", .whole 1]) = _
    simp only [Expr.ty?, Expr.allTy?, hx]
    decide
  | _ =>
    show Expr.ty? types (.construct .vec4 [.construct .vec3 [.var x], .whole 1]) = _ ↔ _
    simp only [Expr.ty?, Expr.allTy?, hx]
    decide

/-- A statement may follow exactly if it is well typed under what is declared before. -/
theorem wellTypedCode_concat {code : List (Stmt String)} {last : Stmt String} :
    WellTypedCode (code ++ [last]) ↔ WellTypedCode code ∧ last.WellTyped (Stmt.context code) := by
  constructor
  · intro h
    refine ⟨fun earlier s later hsplit => h earlier s (later ++ [last]) ?_, h code last [] rfl⟩
    rw [hsplit, List.append_assoc, List.cons_append]
  · rintro ⟨hcode, hlast⟩ earlier s later hsplit
    rcases List.eq_nil_or_concat later with rfl | ⟨rest, final, rfl⟩
    · obtain ⟨rfl, hs⟩ := List.append_inj' hsplit rfl
      obtain rfl : last = s := by simpa using hs
      exact hlast
    · rw [List.concat_eq_append, ← List.cons_append, ← List.append_assoc] at hsplit
      exact hcode earlier s rest (List.append_inj' hsplit rfl).1

/-! ## The preview -/

namespace Graph

variable {g : Graph} {s : Socket} {ty : Ty}

/-- Behind the steps of a walk from its node, an output has its type. -/
theorem context_root (hg : g.WellFormed) (hcycle : (g.circuit.walk s.node).cycle = none)
    (hty : g.outputTy? s = some ty) :
    Stmt.context ((g.main s.node).flatMap Step.code) (Variable.value s).name = some ty := by
  obtain ⟨node, hnode, hport⟩ := Option.bind_eq_some_iff.mp hty
  have hroot : s.node ∈ (g.circuit.walk s.node).order :=
    List.mem_of_getLast? (Circuit.walk_order_getLast? hcycle)
  have hlocal : (ty, Variable.value s) ∈ g.locals (g.circuit.walk s.node).order := by
    refine mem_locals.mpr ⟨s.node, hroot, node, hnode, mem_locals_step.mpr (Or.inr ?_)⟩
    exact ⟨s.port.toNat, hport, by rw [UInt32.ofNat_toNat]⟩
  refine Stmt.context_eq (scoped_main hg hcycle).once ?_
  rw [main, declarations_steps]
  exact List.mem_map.mpr ⟨_, hlocal, rfl⟩

end Graph

/-- **A preview is well typed exactly if it does not show a `vec2`.**  Where the links of a document's graph
    join ports of one type, let a preview of an output compile.  Its main function is the text of the steps
    and a last statement, which uses the output under the type that it was declared with, the type of the
    port.  That statement is well typed exactly if the type is not `vec2`, and so is the main function as a
    whole. -/
theorem Document.preview_wellTyped_iff (d : Document) (hmatched : d.load.result.Matched) {s : Socket}
    {text : String} (htext : (d.load.result.preview s).result = .ok text) :
    let steps := d.load.result.main s.node
    let types := Stmt.context (mainCode steps [])
    ∃ ty, d.load.result.outputTy? s = some ty ∧ types (Variable.value s).name = some ty ∧
      (∃ head, text = head ++ codeText steps [previewStmt ty (Variable.value s).name]) ∧
      ((previewStmt ty (Variable.value s).name).WellTyped types ↔ ty ≠ .vec2) ∧
      (WellTypedCode (mainCode steps [previewStmt ty (Variable.value s).name]) ↔ ty ≠ .vec2) := by
  intro steps types
  have hwell : d.load.result.WellFormed := d.wellFormed_load
  obtain ⟨hcycle, head, node, ty, hnode, hport, rfl⟩ := Graph.preview_eq_ok htext
  have hty : d.load.result.outputTy? s = some ty := by
    rw [Graph.outputTy?, hnode, Option.bind_some, hport]
  have hcode : mainCode steps [] = steps.flatMap Step.code := List.append_nil _
  have hdeclared : types (Variable.value s).name = some ty := by
    show Stmt.context (mainCode steps []) _ = _
    rw [hcode]
    exact Graph.context_root hwell hcycle hty
  have hlast := wellTyped_previewStmt_iff hdeclared
  refine ⟨ty, hty, hdeclared, ⟨head, ?_⟩, hlast, ?_⟩
  · have htail : Circuit.previewTail s ty
        = String.join ([previewStmt ty (Variable.value s).name].map Stmt.render) := rfl
    rw [htail]
    exact congrArg (head ++ ·) (Graph.mainText_steps _ _ _)
  · rw [← hlast, mainCode, wellTypedCode_concat, ← hcode]
    refine and_iff_right ?_
    rw [hcode]
    exact Graph.wellTyped_main hwell d.documented_load hmatched hcycle

/-- The coordinates are taken apart and put together as a colour. -/
def Document.coordinates : Document where
  version := none
  entries :=
    [⟨1, "Input", []⟩, ⟨2, "Decompose", [("vector", .text "vec2")]⟩,
     ⟨3, "Compose", [("vector", .text "vec4")]⟩]
  links := [⟨⟨1, 0⟩, ⟨2, 0⟩⟩, ⟨⟨2, 0⟩, ⟨3, 0⟩⟩, ⟨⟨2, 1⟩, ⟨3, 1⟩⟩]

theorem Document.matched_coordinates : coordinates.load.result.Matched := by
  have hlinks : ∀ l ∈ coordinates.load.result.wiring.links,
      coordinates.load.result.outputTy? l.source = coordinates.load.result.inputTy? l.target := by
    decide
  exact hlinks

/-- The colour can be shown, and so can a coordinate by itself. -/
theorem Document.preview_wellTyped_iff_coordinates :
    coordinates.load.result.Matched ∧
    (∃ text, (coordinates.load.result.preview ⟨3, 0⟩).result = .ok text) ∧
    WellTypedCode (mainCode (coordinates.load.result.main 3) [previewStmt .vec4 "var_from_n3_p0"]) ∧
    (∃ text, (coordinates.load.result.preview ⟨2, 1⟩).result = .ok text) ∧
    WellTypedCode (mainCode (coordinates.load.result.main 2) [previewStmt .float "var_from_n2_p1"]) := by
  obtain ⟨text, htext⟩ : ∃ text, (coordinates.load.result.preview ⟨3, 0⟩).result = .ok text := ⟨_, rfl⟩
  obtain ⟨part, hpart⟩ : ∃ text, (coordinates.load.result.preview ⟨2, 1⟩).result = .ok text := ⟨_, rfl⟩
  obtain ⟨ty, hty, _, _, _, hwhole⟩ := preview_wellTyped_iff coordinates matched_coordinates htext
  obtain ⟨ty', hty', _, _, _, hwhole'⟩ := preview_wellTyped_iff coordinates matched_coordinates hpart
  obtain rfl : ty = .vec4 := Option.some.inj (hty.symm.trans (by rfl))
  obtain rfl : ty' = .float := Option.some.inj (hty'.symm.trans (by rfl))
  exact ⟨matched_coordinates, ⟨text, htext⟩, hwhole.mpr (by decide), ⟨part, hpart⟩,
    hwhole'.mpr (by decide)⟩

/-- The text that spells it. -/
def Document.coordinatesText : String :=
  "\x7b\"nodes\": [[1, \"Input\"], [2, \"Decompose\", \x7b\"vector\": \"vec2\"\x7d], "
    ++ "[3, \"Compose\", \x7b\"vector\": \"vec4\"\x7d]], \"connections\": [[[1, 0], [2, 0]], "
    ++ "[[2, 0], [3, 0]], [[2, 1], [3, 1]]]\x7d"

/-- The coordinates themselves cannot be shown.  There is a preview of them, but it hands a `vec2` to the
    constructor of `vec3`. -/
theorem Document.not_wellTyped_coordinates :
    parse? coordinatesText = some coordinates ∧ coordinates.load.result.Matched ∧
    coordinates.load.result.outputTy? ⟨1, 0⟩ = some .vec2 ∧
    (coordinates.load.result.preview ⟨1, 0⟩).result
      = .ok ("in vec2 FragCoord;\nuniform float uTime;\n\nout vec4 FragColor;\n\nvoid main() \x7b\n"
        ++ "// Input:1\n\tvec2 var_from_n1_p0 = FragCoord;\n\n"
        ++ (previewStmt .vec2 "var_from_n1_p0").render ++ "\x7d\n\n") ∧
    (previewStmt .vec2 "var_from_n1_p0").render = "\tFragColor = vec4(vec3(var_from_n1_p0), 1.0);\n" ∧
    ¬ (previewStmt .vec2 "var_from_n1_p0").WellTyped
      (Stmt.context (mainCode (coordinates.load.result.main 1) [])) := by
  have hparse : parse? coordinatesText = some coordinates := by
    unfold coordinatesText parse? Json.Tree.parse?
    rw [String.toList_append, String.toList_append, String.toList_ofList, String.toList_ofList,
      String.toList_ofList]
    rfl
  have htype : Stmt.context (mainCode (coordinates.load.result.main 1) []) "var_from_n1_p0" = some .vec2 := by
    rfl
  refine ⟨hparse, matched_coordinates, by rfl, by rfl, by rfl, fun htyped => ?_⟩
  exact (wellTyped_previewStmt_iff htype).mp htyped rfl

end FragmentGraph
