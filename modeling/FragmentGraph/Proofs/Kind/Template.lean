/-
  The templates of the kinds.

  The statements of a kind declare its outputs in order, each once (`Kind.declarations_template`), and use
  inputs of the kind or what they have declared before (`Kind.uses_template`).  Here every kind is looked
  at once; what is said of main functions knows templates by these two facts.
-/
import FragmentGraph.Emitter
import FragmentGraph.Proofs.Glsl.Variables

namespace FragmentGraph

open Glsl

/-! ## Variables of values -/

theorem BinaryOp.vars_applyFloat {ν : Type} (function : String) (ty : Ty) (a b : Expr ν) :
    (applyFloat function ty a b).vars = a.vars ++ b.vars := by
  rw [applyFloat]
  split <;> simp [Expr.vars, Expr.allVars]

@[simp] theorem BinaryOp.vars_apply {ν : Type} (op : BinaryOp) (ty : Ty) (a b : Expr ν) :
    (op.apply ty a b).vars = a.vars ++ b.vars := by
  cases op with
  | mod =>
    rw [apply]
    split <;> simp [Expr.vars, Expr.allVars]
  | pow | atan2 | reflect => exact vars_applyFloat _ ty a b
  | _ => simp [apply, Expr.vars, Expr.allVars]

@[simp] theorem UnaryFn.vars_apply {ν : Type} (fn : UnaryFn) (x : Expr ν) : (fn.apply x).vars = x.vars := by
  cases fn <;> simp [apply, Expr.vars, Expr.allVars]

@[simp] theorem Comparison.vars_apply {ν : Type} (c : Comparison) (ty : Ty) (q : Quantifier) (a b : Expr ν) :
    (c.apply ty q a b).vars = a.vars ++ b.vars := by
  rw [apply]
  split <;> simp [Expr.vars, Expr.allVars]

@[simp] theorem Constant.vars_expr {ν : Type} (value : Constant) : (value.expr : Expr ν).vars = [] := by
  cases value <;> rfl

/-! ## Statements of a kind -/

namespace Kind

/-- The statements of a kind declare its outputs in order. -/
theorem declarations_template (k : Kind) :
    Stmt.declarations k.template = k.outputs.zipIdx.map fun o => (o.1, .output o.2) := by
  cases k with
  | decompose vector => cases vector <;> rfl
  | _ => rfl

/-- Operands are variables of their own inputs. -/
@[simp] theorem vars_operand (i : Nat) : (operand i).vars = [.input i] := by rw [operand, Expr.vars]

@[simp] theorem allVars_operands (is : List Nat) :
    Expr.allVars (is.map operand) = is.map Slot.input := by
  induction is with
  | nil => rfl
  | cons i is ih => rw [List.map_cons, Expr.allVars, ih, vars_operand]; rfl

/-- The statements of a kind read its inputs only. -/
theorem reads_template (k : Kind) :
    ∀ s ∈ k.template, ∀ x ∈ s.reads, ∃ i < k.inputs.length, x = .input i := by
  cases k <;> simp [template, result, Stmt.reads, Expr.vars, Expr.allVars, inputs]

/-- Only a branch has a statement that assigns. -/
theorem eq_branch_of_assigned {k : Kind} {s : Stmt Slot} (hs : s ∈ k.template) {x : Slot}
    (hx : s.assigned = some x) : k = .branch := by
  cases k with
  | branch => rfl
  | decompose vector =>
    obtain ⟨j, _, rfl⟩ := List.mem_map.mp hs
    cases hx
  | _ =>
    obtain rfl := List.mem_singleton.mp hs
    cases hx

/-- What a statement of a kind uses is an input, or is declared by a statement before it. -/
theorem uses_template {k : Kind} {before after : Template} {s : Stmt Slot}
    (hsplit : k.template = before ++ s :: after) {x : Slot} (hx : x ∈ s.uses) :
    (∃ i < k.inputs.length, x = .input i) ∨ x ∈ (Stmt.declarations before).map Prod.snd := by
  have hmem : s ∈ k.template := by rw [hsplit]; simp
  rcases List.mem_append.mp hx with hassigned | hread
  · -- the first statement of a branch declares the result, the second one assigns it
    right
    have hassigned := Option.mem_toList.mp hassigned
    obtain rfl := eq_branch_of_assigned hmem hassigned
    cases before with
    | nil =>
      obtain ⟨rfl, _⟩ := List.cons.inj hsplit
      cases hassigned
    | cons first before =>
      obtain ⟨rfl, hrest⟩ := List.cons.inj hsplit
      cases before with
      | nil =>
        obtain ⟨rfl, _⟩ := List.cons.inj hrest
        obtain rfl := Option.some.inj hassigned
        exact List.mem_singleton.mpr rfl
      | cons _ before => simp at hrest
  · exact Or.inl (k.reads_template s hmem x hread)

end Kind

end FragmentGraph
