/-
  The main function of a document's shader is well typed.

  1. **Templates** — under the types of a kind's ports, the statements of its template are well typed
     (`Kind.wellTyped_template`).  Some kinds need more than their ports say, as there is no overload for
     every type; documents have no kinds but those that have one.

  2. **Names** — where links join ports of one type, the name in a slot has been declared with the type
     of the slot (`Graph.uses_declared`), and as no name is declared twice that is the type it has
     (`Stmt.context_eq`).

  So the rules that hold of a template hold of the code that it is filled to, step by step along the
  order in which the walk emits the nodes.
-/
import FragmentGraph.Proofs.Document.Entry
import FragmentGraph.Proofs.Glsl.Typing
import FragmentGraph.Proofs.Shader.Scope

namespace FragmentGraph

open Glsl

/-! ## Types of what kinds compute -/

namespace Glsl

variable {ν : Type} {types : ν → Option Ty} {a b : Expr ν} {x y z : ValueTy}

theorem Expr.ty?_binary {op : Operator} (ha : a.ty? types = some x) (hb : b.ty? types = some y)
    (hop : op.ty? x y = some z) : (binary op a b).ty? types = some z := by
  rw [ty?, ha, hb]
  exact hop

theorem Expr.ty?_call {function : String} {arguments : List (Expr ν)} {tys : List ValueTy}
    (harguments : allTy? types arguments = some tys) (hcall : callTy? function tys = some z) :
    (call function arguments).ty? types = some z := by
  rw [ty?, harguments]
  exact hcall

theorem Expr.allTy?_cons {es : List (Expr ν)} {xs : List ValueTy} (ha : a.ty? types = some x)
    (hes : allTy? types es = some xs) : allTy? types (a :: es) = some (x :: xs) := by
  rw [allTy?, ha, hes]
  rfl

/-- The types of floats: a scalar, and vectors of three sizes. -/
def floatTys : List ValueTy := [⟨.float, 1⟩, ⟨.float, 2⟩, ⟨.float, 3⟩, ⟨.float, 4⟩]

/-- The types of numbers at ports. -/
def numberTys : List ValueTy := floatTys ++ [⟨.int, 1⟩, ⟨.uint, 1⟩]

theorem Ty.value_mem_numberTys {ty : Ty} (hbool : ty ≠ .bool) : ty.value ∈ numberTys := by
  cases ty with
  | bool => exact absurd rfl hbool
  | _ => decide

theorem Ty.value_mem_floatTys {ty : Ty} (hbool : ty ≠ .bool) (hintegral : ty.isIntegral = false) :
    ty.value ∈ floatTys := by
  cases ty with
  | bool => exact absurd rfl hbool
  | int | uint => cases hintegral
  | float | vec2 | vec3 | vec4 => decide

theorem VectorTy.value_mem_floatTys (vector : VectorTy) : vector.ty.value ∈ floatTys := by
  cases vector <;> decide

/-! The overloads that kinds rely on, looked up in the table. -/

theorem callTy?_floatFunction {function : String} (h : function ∈ floatFunctions) :
    ∀ z ∈ floatTys, callTy? function [z] = some z := by
  unfold callTy? overloads
  rw [if_pos h]
  decide

theorem callTy?_one : ∀ f ∈ ["abs", "sign", "atan"], ∀ z ∈ floatTys, callTy? f [z] = some z := by
  decide

theorem callTy?_two : ∀ f ∈ ["mod", "pow", "atan", "reflect", "step"], ∀ z ∈ floatTys,
    callTy? f [z, z] = some z := by decide

theorem callTy?_three : ∀ f ∈ ["smoothstep", "mix"], ∀ z ∈ floatTys, callTy? f [z, z, z] = some z := by
  decide

theorem callTy?_bound : ∀ f ∈ ["max", "min"], ∀ z ∈ numberTys, callTy? f [z, z] = some z := by
  decide

theorem callTy?_clamp : ∀ z ∈ numberTys, callTy? "clamp" [z, z, z] = some z := by decide

-- truth values are no numbers, so documents must not clamp them
example : callTy? "clamp" [.bool, .bool, .bool] = none := by decide

theorem callTy?_saturate : ∀ z ∈ floatTys, callTy? "clamp" [z, .float, .float] = some z := by
  decide

theorem callTy?_product : ∀ f ∈ ["dot", "distance"], ∀ z ∈ floatTys,
    callTy? f [z, z] = some .float := by decide

theorem callTy?_length : ∀ z ∈ floatTys, callTy? "length" [z] = some .float := by decide

theorem callTy?_comparison (c : Comparison) : ∀ n ∈ [2, 3, 4],
    callTy? c.function [⟨.float, n⟩, ⟨.float, n⟩] = some ⟨.bool, n⟩ := by cases c <;> decide

theorem callTy?_quantifier (q : Quantifier) : ∀ n ∈ [2, 3, 4],
    callTy? (Named.name q) [⟨.bool, n⟩] = some .bool := by cases q <;> decide

end Glsl

variable {ν : Type} {types : ν → Option Ty} {a b : Expr ν} {ty : Ty}

namespace BinaryOp

/-- The functions that have float overloads only are reached from integers by conversion. -/
theorem ty?_applyFloat {function : String} (hty : ty ≠ .bool) (ha : a.ty? types = some ty.value)
    (hb : b.ty? types = some ty.value)
    (hcall : ∀ z ∈ floatTys, callTy? function [z, z] = some z) :
    (applyFloat function ty a b).ty? types = some ty.value := by
  rw [applyFloat]
  split
  · next hintegral =>
    have hconvert : ∀ e : Expr ν, e.ty? types = some ty.value →
        (Expr.construct .float [e]).ty? types = some .float := by
      intro e he
      rw [Expr.ty?, Expr.allTy?_cons he rfl]
      cases ty <;> rfl
    have hfloat : (Expr.call function [.construct .float [a], .construct .float [b]]).ty? types
        = some .float :=
      Expr.ty?_call (Expr.allTy?_cons (hconvert a ha) (Expr.allTy?_cons (hconvert b hb) rfl))
        (hcall .float (by decide))
    rw [Expr.ty?, Expr.allTy?_cons hfloat rfl]
    cases ty with
    | int | uint => rfl
    | float | vec2 | vec3 | vec4 | bool => cases hintegral
  · next hintegral =>
    exact Expr.ty?_call (Expr.allTy?_cons ha (Expr.allTy?_cons hb rfl))
      (hcall _ (Ty.value_mem_floatTys hty (Bool.not_eq_true _ ▸ hintegral)))

/-- An operator on two numbers of one type gives that type. -/
theorem ty?_apply (op : BinaryOp) (hty : ty ≠ .bool) (ha : a.ty? types = some ty.value)
    (hb : b.ty? types = some ty.value) : (op.apply ty a b).ty? types = some ty.value := by
  have hboth : Expr.allTy? types [a, b] = some [ty.value, ty.value] :=
    Expr.allTy?_cons ha (Expr.allTy?_cons hb rfl)
  cases op with
  | add | sub | mul | div =>
    refine Expr.ty?_binary ha hb ?_
    cases ty with
    | bool => exact absurd rfl hty
    | _ => rfl
  | max | min =>
    exact Expr.ty?_call hboth (callTy?_bound _ (by decide) _ (Ty.value_mem_numberTys hty))
  | mod =>
    rw [apply]
    split
    · next hintegral =>
      refine Expr.ty?_binary ha hb ?_
      cases ty with
      | int | uint => rfl
      | float | vec2 | vec3 | vec4 | bool => cases hintegral
    · next hintegral =>
      have hfloat := Ty.value_mem_floatTys hty (Bool.not_eq_true _ ▸ hintegral)
      exact Expr.ty?_call hboth (callTy?_two _ (by decide) _ hfloat)
  | pow | atan2 | reflect => exact ty?_applyFloat hty ha hb (callTy?_two _ (by decide))

end BinaryOp

/-- A function of floats keeps the type of its operand. -/
theorem UnaryFn.ty?_apply (fn : UnaryFn) (hty : ty.value ∈ floatTys) (ha : a.ty? types = some ty.value) :
    (fn.apply a).ty? types = some ty.value := by
  have hwhole : ∀ n, (Expr.whole n : Expr ν).ty? types = some .float := fun _ => rfl
  have hone : Expr.allTy? types [a] = some [ty.value] := Expr.allTy?_cons ha rfl
  cases fn with
  | saturate =>
    refine Expr.ty?_call ?_ (callTy?_saturate _ hty)
    exact Expr.allTy?_cons ha (Expr.allTy?_cons (hwhole 0) (Expr.allTy?_cons (hwhole 1) rfl))
  | negate =>
    have hbase : ∀ z ∈ floatTys, z.base ≠ .bool := by decide
    rw [apply, Expr.ty?, ha]
    exact if_neg (hbase _ hty)
  | reciprocal =>
    have hdiv : ∀ z ∈ floatTys, Operator.div.ty? .float z = some z := by decide
    exact Expr.ty?_binary (hwhole 1) ha (hdiv _ hty)
  | oneMinus =>
    have hsub : ∀ z ∈ floatTys, Operator.sub.ty? .float z = some z := by decide
    exact Expr.ty?_binary (hwhole 1) ha (hsub _ hty)
  | abs | sign | atan => exact Expr.ty?_call hone (callTy?_one _ (by decide) _ hty)
  | _ => exact Expr.ty?_call hone (callTy?_floatFunction (by decide) _ hty)

/-- A comparison of two values of one type is a truth value. -/
theorem Comparison.ty?_apply (c : Comparison) (q : Quantifier) (ha : a.ty? types = some ty.value)
    (hb : b.ty? types = some ty.value) : (c.apply ty q a b).ty? types = some .bool := by
  rw [apply]
  split
  · next hvector =>
    obtain ⟨n, hn, hvalue⟩ : ∃ n ∈ [2, 3, 4], ty.value = ⟨.float, n⟩ := by
      cases ty with
      | float | int | uint | bool => cases hvector
      | vec2 => exact ⟨2, by decide, rfl⟩
      | vec3 => exact ⟨3, by decide, rfl⟩
      | vec4 => exact ⟨4, by decide, rfl⟩
    rw [hvalue] at ha hb
    have hcompare : (Expr.call c.function [a, b]).ty? types = some ⟨.bool, n⟩ :=
      Expr.ty?_call (Expr.allTy?_cons ha (Expr.allTy?_cons hb rfl)) (callTy?_comparison c n hn)
    exact Expr.ty?_call (Expr.allTy?_cons hcompare rfl) (callTy?_quantifier q n hn)
  · next hvector =>
    refine Expr.ty?_binary ha hb ?_
    cases ty with
    | vec2 | vec3 | vec4 => exact absurd rfl hvector
    | float | int | uint | bool => cases c <;> rfl

/-! ## Templates -/

theorem Constant.ty?_expr (value : Constant) : (value.expr : Expr ν).ty? types = some value.ty.value := by
  cases value <;> rfl

namespace Kind

theorem wellTyped_result {k : Kind} (ty : Ty) {value : Expr Slot}
    (h : value.ty? k.slotTy? = some ty.value) : ∀ s ∈ result ty value, s.WellTyped k.slotTy? := by
  intro s hs
  obtain rfl := List.mem_singleton.mp hs
  exact h

/-- Under the types of its ports, the template of a kind in a document is well typed. -/
theorem wellTyped_template {k : Kind} (hk : k = .output ∨ k.Documented) :
    ∀ s ∈ k.template, s.WellTyped k.slotTy? := by
  cases k with
  | input source => exact wellTyped_result source.ty rfl
  | constant value => exact wellTyped_result value.ty value.ty?_expr
  | scalarOp op scalar =>
    exact wellTyped_result _ (op.ty?_apply (by cases scalar <;> decide) rfl rfl)
  | vectorOp op vector =>
    exact wellTyped_result _ (op.ty?_apply (by cases vector <;> decide) rfl rfl)
  | scalarFunc fn => exact wellTyped_result .float (fn.ty?_apply (by decide) rfl)
  | vectorFunc fn vector => exact wellTyped_result _ (fn.ty?_apply vector.value_mem_floatTys rfl)
  | compare ty op quantifier => exact wellTyped_result .bool (op.ty?_apply quantifier rfl rfl)
  | compose vector => exact wellTyped_result _ (by cases vector <;> rfl)
  | switch ty => exact wellTyped_result ty (if_pos ⟨rfl, rfl⟩)
  | output =>
    intro s hs
    obtain rfl := List.mem_singleton.mp hs
    rfl
  | noise flavour =>
    refine wellTyped_result .float (Expr.ty?_call (Expr.allTy?_cons rfl rfl) ?_)
    cases flavour <;> decide
  | floatTest test =>
    refine wellTyped_result .bool (Expr.ty?_call (Expr.allTy?_cons rfl rfl) ?_)
    cases test <;> decide
  | length vector =>
    exact wellTyped_result .float (Expr.ty?_call (Expr.allTy?_cons rfl rfl)
      (callTy?_length _ vector.value_mem_floatTys))
  | dot vector | distance vector =>
    exact wellTyped_result .float (Expr.ty?_call (Expr.allTy?_cons rfl (Expr.allTy?_cons rfl rfl))
      (callTy?_product _ (by decide) _ vector.value_mem_floatTys))
  | clamp ty =>
    have hty : ty ≠ .bool := hk.resolve_left (by rintro ⟨⟩)
    exact wellTyped_result ty (Expr.ty?_call
      (Expr.allTy?_cons rfl (Expr.allTy?_cons rfl (Expr.allTy?_cons rfl rfl)))
      (callTy?_clamp _ (Ty.value_mem_numberTys hty)))
  | step ty =>
    obtain ⟨hbool, hintegral⟩ := hk.resolve_left (by rintro ⟨⟩)
    exact wellTyped_result ty (Expr.ty?_call (Expr.allTy?_cons rfl (Expr.allTy?_cons rfl rfl))
      (callTy?_two _ (by decide) _ (Ty.value_mem_floatTys hbool hintegral)))
  | smoothStep ty | mix ty =>
    obtain ⟨hbool, hintegral⟩ := hk.resolve_left (by rintro ⟨⟩)
    exact wellTyped_result ty (Expr.ty?_call
      (Expr.allTy?_cons rfl (Expr.allTy?_cons rfl (Expr.allTy?_cons rfl rfl)))
      (callTy?_three _ (by decide) _ (Ty.value_mem_floatTys hbool hintegral)))
  | decompose vector =>
    have hletters : (List.range vector.ty.components).all fun j =>
        swizzleTy? vector.ty.value (letters.getD j "") = some .float := by
      cases vector <;> decide
    intro s hs
    obtain ⟨j, hj, rfl⟩ := List.mem_map.mp hs
    have hletter : swizzleTy? vector.ty.value (letters.getD j "") = some .float :=
      of_decide_eq_true (List.all_eq_true.mp hletters j hj)
    exact hletter
  | branch =>
    intro s hs
    rcases List.mem_cons.mp hs with rfl | hs
    · trivial
    · obtain rfl := List.mem_singleton.mp hs
      have hdifference : (Expr.call "abs" [.binary .sub (operand 0) (operand 1)]).ty? branch.slotTy?
          = some .float :=
        Expr.ty?_call (Expr.allTy?_cons (Expr.ty?_binary rfl rfl rfl) rfl)
          (callTy?_one _ (by decide) .float (by decide))
      exact ⟨Expr.ty?_binary hdifference rfl rfl, Expr.ty?_binary rfl rfl rfl, .vec3, rfl, rfl, rfl, rfl⟩

end Kind

/-! ## The types of names -/

/-- The type that statements give a name. -/
def Glsl.Stmt.context (code : List (Stmt String)) (x : String) : Option Ty :=
  ((declarations code).find? fun d => d.2 = x).map Prod.fst

/-- A name that is declared once has the type of its declaration. -/
theorem Glsl.Stmt.context_eq {code : List (Stmt String)} {x : String}
    (honce : ((declarations code).map Prod.snd).Nodup) (hx : (ty, x) ∈ declarations code) :
    context code x = some ty := by
  have hfind : (declarations code).find? (fun d => d.2 = x) = some (ty, x) := by
    obtain ⟨before, after, hsplit⟩ := List.append_of_mem hx
    rw [hsplit, List.map_append, List.map_cons, List.nodup_append] at honce
    rw [hsplit, List.find?_append, List.find?_eq_none.mpr, Option.none_or]
    · simp
    · intro d hd
      simpa using honce.2.2 d.2 (List.mem_map_of_mem hd) x List.mem_cons_self
  rw [context, hfind]
  rfl

/-- Every statement is well typed under the types that the statements before it give. -/
def WellTypedCode (code : List (Stmt String)) : Prop :=
  ∀ earlier s later, code = earlier ++ s :: later → s.WellTyped (Stmt.context earlier)

namespace Graph

variable {g : Graph} {root : NodeId}

/-- Where links join ports of one type and kinds are those of documents, the steps of a walk are well
    typed. -/
theorem wellTyped_main (hg : g.WellFormed) (hkinds : g.Documented) (hmatched : g.Matched)
    (hcycle : (g.circuit.walk root).cycle = none) : WellTypedCode ((g.main root).flatMap Step.code) := by
  intro earlier s later hsplit
  have honce : ((Stmt.declarations earlier).map Prod.snd).Nodup := by
    have hall := (scoped_main hg hcycle).once
    rw [hsplit, Stmt.declarations_append, List.map_append] at hall
    exact (List.nodup_append.mp hall).1
  obtain ⟨before, id, after, node, horder, hnode, ⟨ty, x, rfl⟩ | ⟨above, t, below, ht, rfl, rfl⟩⟩ :=
    exists_place hsplit
  · exact Ty.ty?_zero _ ty
  · have htyped : t.WellTyped node.kind.slotTy? :=
      Kind.wellTyped_template (hkinds id node hnode) t (by rw [ht]; simp)
    refine Stmt.wellTyped_map (fun x hx => ?_) htyped
    obtain ⟨ty, hdeclared, hty⟩ := uses_declared hg hcycle horder hnode ht hx
    rw [hty hmatched, Stmt.context_eq honce hdeclared]

/-- The last statement of a main function from the output writes the colour. -/
theorem exists_color (hg : g.WellFormed) (hcycle : (g.circuit.walk outputId).cycle = none) :
    ∃ earlier x, (g.main outputId).flatMap Step.code = earlier ++ [.color (.var x)] := by
  obtain ⟨before, hbefore⟩ := List.getLast?_eq_some_iff.mp (Circuit.walk_order_getLast? hcycle)
  refine ⟨(g.steps before).flatMap Step.code ++ (g.step outputId ⟨outputId, .output⟩).defaults,
    (g.step outputId ⟨outputId, .output⟩).fill (.input 0), ?_⟩
  rw [main, hbefore, steps_concat hg.output, List.flatMap_append, List.flatMap_singleton,
    List.append_assoc]
  rfl

end Graph

/-- **Shaders of documents are well typed.**  Where the links of a document's graph join ports of one type
    and its shader compiles, the main function is the text of well-typed code, whose last statement
    writes the colour. -/
theorem Document.main_wellTyped (d : Document) (hmatched : d.load.result.Matched) {text : String}
    (htext : d.load.result.compile.result = .ok text) :
    (∃ head, text = head ++ codeText (d.load.result.main outputId) []) ∧
    WellTypedCode (mainCode (d.load.result.main outputId) []) ∧
    ∃ earlier x, mainCode (d.load.result.main outputId) [] = earlier ++ [.color (.var x)] := by
  have hwell : d.load.result.WellFormed := d.wellFormed_load
  obtain ⟨hcycle, head, rfl⟩ := Graph.compile_eq_ok htext
  rw [mainCode, List.append_nil]
  exact ⟨⟨head, congrArg (head ++ ·) (Graph.mainText_steps _ _ [])⟩,
    Graph.wellTyped_main hwell d.documented_load hmatched hcycle, Graph.exists_color hwell hcycle⟩

/-- Noise at the coordinates, compared with one of them, chooses a colour; the colour is taken apart and
    put together with the noise. -/
def Document.chosenColor : Document where
  version := none
  entries :=
    [⟨0, "Output", []⟩, ⟨1, "Input", []⟩, ⟨2, "Decompose", [("vector", .text "vec2")]⟩,
     ⟨3, "ValueNoise", []⟩, ⟨4, "If", []⟩, ⟨5, "Decompose", []⟩,
     ⟨6, "Compose", [("vector", .text "vec4")]⟩]
  links :=
    [⟨⟨1, 0⟩, ⟨2, 0⟩⟩, ⟨⟨1, 0⟩, ⟨3, 0⟩⟩, ⟨⟨2, 0⟩, ⟨4, 0⟩⟩, ⟨⟨3, 0⟩, ⟨4, 1⟩⟩, ⟨⟨4, 0⟩, ⟨5, 0⟩⟩,
     ⟨⟨5, 0⟩, ⟨6, 0⟩⟩, ⟨⟨5, 1⟩, ⟨6, 1⟩⟩, ⟨⟨3, 0⟩, ⟨6, 3⟩⟩, ⟨⟨6, 0⟩, ⟨0, 0⟩⟩]

/-- All links join ports of one type, and all seven nodes are in the main function, which is well typed. -/
theorem Document.main_wellTyped_chosenColor :
    chosenColor.load.result.Matched ∧
    (chosenColor.load.result.main outputId).map (fun step => step.block.id) = [1, 2, 3, 4, 5, 6, 0] ∧
    (∃ text, chosenColor.load.result.compile.result = .ok text) ∧
    WellTypedCode (mainCode (chosenColor.load.result.main outputId) []) := by
  have hmatched : ∀ l ∈ chosenColor.load.result.wiring.links,
      chosenColor.load.result.outputTy? l.source = chosenColor.load.result.inputTy? l.target := by
    decide
  obtain ⟨text, htext⟩ : ∃ text, chosenColor.load.result.compile.result = .ok text := ⟨_, rfl⟩
  exact ⟨hmatched, by decide, ⟨text, htext⟩, (main_wellTyped chosenColor hmatched htext).2.1⟩

end FragmentGraph
