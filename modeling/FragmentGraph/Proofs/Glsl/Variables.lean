/-
  The variables of expressions and statements.

  Code is read for its variables in three ways: the variable that a statement declares, the one that it
  gives a value without declaring it, and those in its expressions.  The last two have to be declared
  before (`Stmt.uses`).

  Renaming commutes with all three (`Stmt.declarations_map`, `Stmt.uses_map`), and looks at nothing but
  variables (`Stmt.map_congr`).  So what is known of a template holds of the code that it becomes once
  names are in its slots.
-/
import FragmentGraph.Glsl.Expr
import Mathlib.Data.List.Basic

namespace FragmentGraph.Glsl

variable {ν μ : Type}

/-! ## Expressions -/

namespace Expr

mutual

/-- The variables of a renamed expression are the renamed variables, in the same order. -/
theorem vars_map (f : ν → μ) : ∀ e : Expr ν, (e.map f).vars = e.vars.map f
  | var _ => rfl
  | input _ => rfl
  | scalar _ => rfl
  | whole _ => rfl
  | binary _ left right => by
    rw [map, vars, vars, left.vars_map f, right.vars_map f, List.map_append]
  | negate operand => operand.vars_map f
  | call _ arguments => allVars_mapAll f arguments
  | construct _ arguments => allVars_mapAll f arguments
  | swizzle vector _ => vector.vars_map f
  | select condition yes no => by
    rw [map, vars, vars, condition.vars_map f, yes.vars_map f, no.vars_map f, List.map_append,
      List.map_append]

theorem allVars_mapAll (f : ν → μ) : ∀ es : List (Expr ν), allVars (mapAll f es) = (allVars es).map f
  | [] => rfl
  | e :: es => by
    rw [mapAll, allVars, allVars, e.vars_map f, allVars_mapAll f es, List.map_append]

end

variable {f g : ν → μ}

mutual

/-- Renaming an expression looks at its variables only. -/
theorem map_congr : ∀ e : Expr ν, (∀ x ∈ e.vars, f x = g x) → e.map f = e.map g
  | var x, h => by rw [map, map, h x (by simp [vars])]
  | input _, _ => rfl
  | scalar _, _ => rfl
  | whole _, _ => rfl
  | binary _ left right, h => by
    obtain ⟨hleft, hright⟩ := List.forall_mem_append.mp h
    rw [map, map, left.map_congr hleft, right.map_congr hright]
  | negate operand, h => by rw [map, map, operand.map_congr h]
  | call _ arguments, h => by rw [map, map, mapAll_congr arguments h]
  | construct _ arguments, h => by rw [map, map, mapAll_congr arguments h]
  | swizzle vector _, h => by rw [map, map, vector.map_congr h]
  | select condition yes no, h => by
    obtain ⟨hfront, hno⟩ := List.forall_mem_append.mp h
    obtain ⟨hcondition, hyes⟩ := List.forall_mem_append.mp hfront
    rw [map, map, condition.map_congr hcondition, yes.map_congr hyes, no.map_congr hno]

theorem mapAll_congr : ∀ es : List (Expr ν), (∀ x ∈ allVars es, f x = g x) → mapAll f es = mapAll g es
  | [], _ => rfl
  | e :: es, h => by
    obtain ⟨hfirst, hrest⟩ := List.forall_mem_append.mp h
    rw [mapAll, mapAll, e.map_congr hfirst, mapAll_congr es hrest]

end

end Expr

/-- The stand-in for a missing input is a constant. -/
theorem Ty.vars_zero (ty : Ty) : (ty.zero : Expr ν).vars = [] := by cases ty <;> rfl

/-! ## Statements -/

namespace Stmt

/-- The declarations of statements, in order. -/
def declarations (code : List (Stmt ν)) : List (Ty × ν) := code.filterMap declared

/-- The variable that the statement gives a value without declaring it. -/
def assigned : Stmt ν → Option ν
  | choose x .. => some x
  | _ => none

/-- The variables that have to be declared before the statement. -/
def uses (s : Stmt ν) : List ν := s.assigned.toList ++ s.reads

/-- The variables of a statement: the one that it declares, and those that it uses. -/
def slots (s : Stmt ν) : List ν := (s.declared.map Prod.snd).toList ++ s.uses

theorem declarations_append (a b : List (Stmt ν)) :
    declarations (a ++ b) = declarations a ++ declarations b := List.filterMap_append

theorem declarations_map (f : ν → μ) (code : List (Stmt ν)) :
    declarations (code.map (Stmt.map f)) = (declarations code).map fun d => (d.1, f d.2) := by
  rw [declarations, declarations, List.filterMap_map, List.map_filterMap]
  refine List.filterMap_congr fun s _ => ?_
  cases s <;> rfl

theorem uses_map (f : ν → μ) (s : Stmt ν) : (s.map f).uses = s.uses.map f := by
  cases s <;> simp [uses, assigned, Stmt.map, reads, Expr.vars_map]

/-- A choice reads the variables of its five expressions. -/
theorem mem_reads_choose {x y : ν} {first onFirst second onSecond otherwise e : Expr ν}
    (he : e ∈ [first, onFirst, second, onSecond, otherwise]) (hy : y ∈ e.vars) :
    y ∈ (choose x first onFirst second onSecond otherwise).reads := by
  simp only [List.mem_cons, List.not_mem_nil, or_false] at he
  rcases he with rfl | rfl | rfl | rfl | rfl <;> simp [reads, hy]

/-- Renaming a statement looks at its variables only. -/
theorem map_congr {f g : ν → μ} {s : Stmt ν} (h : ∀ x ∈ s.slots, f x = g x) : s.map f = s.map g := by
  cases s with
  | declare ty x value =>
    have hvalue : value.map f = value.map g :=
      value.map_congr fun y hy => h y (by simp [slots, uses, reads, hy])
    rw [map, map, h x (by simp [slots, declared]), hvalue]
  | reserve ty x => rw [map, map, h x (by simp [slots, declared])]
  | color value =>
    rw [map, map, value.map_congr fun y hy => h y (by simp [slots, uses, reads, hy])]
  | choose x first onFirst second onSecond otherwise =>
    have hread : ∀ e ∈ [first, onFirst, second, onSecond, otherwise], e.map f = e.map g := by
      intro e he
      refine e.map_congr fun y hy => h y (List.mem_append_right _ (List.mem_append_right _ ?_))
      exact mem_reads_choose he hy
    simp only [List.forall_mem_cons] at hread
    obtain ⟨hfirst, honFirst, hsecond, honSecond, hotherwise, _⟩ := hread
    rw [map, map, h x (by simp [slots, uses, assigned]), hfirst, honFirst, hsecond, honSecond,
      hotherwise]

end Stmt

theorem declared_previewStmt (ty : Ty) (x : ν) : (previewStmt ty x).declared = none := by
  cases ty <;> rfl

theorem uses_previewStmt (ty : Ty) (x : ν) : (previewStmt ty x).uses = [x] := by cases ty <;> rfl

end FragmentGraph.Glsl
