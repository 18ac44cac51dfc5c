/-
  The text of a statement is whole lines, each indented by a tab.

  Everything that a statement writes stands on its line: literals are digits, and the names of functions
  and components hold no newline (`Expr.Flat`).  So only the names of variables could break a line, and
  where they do not, the lines of the text are those that the statement means to write
  (`Stmt.indented_render`, `Kind.indented_statement`).
-/
import FragmentGraph.Emitter
import FragmentGraph.Proofs.Text.Lines

namespace FragmentGraph

open Glsl Text

namespace Glsl

variable {ν μ : Type}

/-! ## Expressions -/

theorem Scalar.oneLine_render (s : Scalar) : OneLine s.render := by
  cases s with
  | float x => exact oneLine_fixed x
  | int i => exact oneLine_signedDecimal _
  | uint n => exact oneLine_append.mpr ⟨oneLine_decimal _, by decide⟩
  | bool b => cases b <;> decide

theorem Ty.oneLine_keyword (ty : Ty) : OneLine ty.keyword := by cases ty <;> decide

theorem ShaderInput.oneLine_identifier (i : ShaderInput) : OneLine i.identifier := by cases i <;> decide

namespace Expr

mutual

/-- The names of functions and components in the expression hold no newline. -/
def Flat : Expr ν → Prop
  | var _ | input _ | scalar _ | whole _ => True
  | binary _ left right => left.Flat ∧ right.Flat
  | negate operand => operand.Flat
  | call function arguments => OneLine function ∧ AllFlat arguments
  | construct _ arguments => AllFlat arguments
  | swizzle vector letters => vector.Flat ∧ OneLine letters
  | select condition yes no => condition.Flat ∧ yes.Flat ∧ no.Flat

def AllFlat : List (Expr ν) → Prop
  | [] => True
  | e :: rest => e.Flat ∧ AllFlat rest

end

mutual

/-- If the names of variables hold no newline, the text of the expression holds none. -/
theorem oneLine_render {f : ν → String} (hf : ∀ x, OneLine (f x)) :
    ∀ e : Expr ν, e.Flat → OneLine (e.map f).render
  | var x, _ => hf x
  | input i, _ => i.oneLine_identifier
  | scalar s, _ => s.oneLine_render
  | whole n, _ => oneLine_append.mpr ⟨oneLine_decimal n, by decide⟩
  | binary op left right, h => by
    have hsymbol : OneLine op.symbol := by cases op <;> decide
    simp only [map, render, oneLine_append]
    exact ⟨⟨⟨⟨left.oneLine_render hf h.1, by decide⟩, hsymbol⟩, by decide⟩, right.oneLine_render hf h.2⟩
  | negate operand, h => by
    simp only [map, render, oneLine_append]
    exact ⟨⟨by decide, operand.oneLine_render hf h⟩, by decide⟩
  | call function arguments, h => by
    simp only [map, render, oneLine_append]
    exact ⟨⟨⟨h.1, by decide⟩, oneLine_intercalate (by decide) (allOneLine_render hf arguments h.2)⟩,
      by decide⟩
  | construct ty arguments, h => by
    simp only [map, render, oneLine_append]
    exact ⟨⟨⟨ty.oneLine_keyword, by decide⟩,
      oneLine_intercalate (by decide) (allOneLine_render hf arguments h)⟩, by decide⟩
  | swizzle vector letters, h => by
    simp only [map, render, oneLine_append]
    exact ⟨⟨vector.oneLine_render hf h.1, by decide⟩, h.2⟩
  | select condition yes no, h => by
    simp only [map, render, oneLine_append]
    exact ⟨⟨⟨⟨condition.oneLine_render hf h.1, by decide⟩, yes.oneLine_render hf h.2.1⟩, by decide⟩,
      no.oneLine_render hf h.2.2⟩

theorem allOneLine_render {f : ν → String} (hf : ∀ x, OneLine (f x)) :
    ∀ es : List (Expr ν), AllFlat es → ∀ text ∈ renderAll (mapAll f es), OneLine text
  | [], _ => List.forall_mem_nil _
  | e :: es, h =>
    List.forall_mem_cons.mpr ⟨e.oneLine_render hf h.1, allOneLine_render hf es h.2⟩

end

theorem allFlat_iff {es : List (Expr ν)} : AllFlat es ↔ ∀ e ∈ es, e.Flat := by
  induction es with
  | nil => exact ⟨fun _ => List.forall_mem_nil _, fun _ => trivial⟩
  | cons e es ih => rw [AllFlat, ih, List.forall_mem_cons]

end Expr

theorem Ty.flat_zero (ty : Ty) : (ty.zero : Expr ν).Flat := by
  cases ty <;> simp [zero, Expr.Flat, Expr.allFlat_iff]

theorem Ty.map_zero (f : ν → μ) (ty : Ty) : (ty.zero : Expr ν).map f = ty.zero := by cases ty <;> rfl

/-! ## Statements -/

namespace Stmt

/-- The expressions of the statement. -/
def values : Stmt ν → List (Expr ν)
  | declare _ _ value => [value]
  | reserve _ _ => []
  | choose _ first onFirst second onSecond otherwise => [first, onFirst, second, onSecond, otherwise]
  | color value => [value]

/-- If the names of variables hold no newline, the statement is written in indented lines. -/
theorem indented_render {f : ν → String} (hf : ∀ x, OneLine (f x)) {s : Stmt ν}
    (hs : ∀ e ∈ s.values, e.Flat) : Indented (s.map f).render := by
  have hvalue : ∀ e ∈ s.values, OneLine (e.map f).render := fun e he => e.oneLine_render hf (hs e he)
  cases s with
  | declare ty x value =>
    refine ⟨[ty.keyword ++ " " ++ f x ++ " = " ++ (value.map f).render ++ ";"], ?_, ?_⟩
    · have hline : OneLine (value.map f).render := hvalue value List.mem_cons_self
      simp only [List.forall_mem_singleton, oneLine_append]
      exact ⟨⟨⟨⟨⟨ty.oneLine_keyword, by decide⟩, hf x⟩, by decide⟩, hline⟩, by decide⟩
    · show "\t" ++ ty.keyword ++ " " ++ f x ++ " = " ++ (value.map f).render ++ ";\n" = _
      simp only [indent_cons, indent_nil, String.append_assoc]
      rfl
  | reserve ty x =>
    refine ⟨[ty.keyword ++ " " ++ f x ++ ";"], ?_, ?_⟩
    · simp only [List.forall_mem_singleton, oneLine_append]
      exact ⟨⟨⟨ty.oneLine_keyword, by decide⟩, hf x⟩, by decide⟩
    · show "\t" ++ ty.keyword ++ " " ++ f x ++ ";\n" = _
      simp only [indent_cons, indent_nil, String.append_assoc]
      rfl
  | color value =>
    refine ⟨[colorVariable ++ " = " ++ (value.map f).render ++ ";"], ?_, ?_⟩
    · have hline : OneLine (value.map f).render := hvalue value List.mem_cons_self
      simp only [List.forall_mem_singleton, oneLine_append]
      exact ⟨⟨⟨by decide, by decide⟩, hline⟩, by decide⟩
    · show "\t" ++ colorVariable ++ " = " ++ (value.map f).render ++ ";\n" = _
      simp only [indent_cons, indent_nil, String.append_assoc]
      rfl
  | choose x first onFirst second onSecond otherwise =>
    obtain ⟨hfirst, honFirst, hsecond, honSecond, hotherwise, _⟩ := by
      simpa only [values, List.forall_mem_cons] using hvalue
    let assign (e : Expr ν) : String := "\t" ++ f x ++ " = " ++ (e.map f).render ++ ";"
    have hassign : ∀ e : Expr ν, OneLine (e.map f).render → OneLine (assign e) := by
      intro e he
      simp only [assign, oneLine_append]
      exact ⟨⟨⟨⟨by decide, hf x⟩, by decide⟩, he⟩, by decide⟩
    refine ⟨["if (" ++ (first.map f).render ++ ") \x7b", assign onFirst,
      "\x7d else if (" ++ (second.map f).render ++ ") \x7b", assign onSecond,
      "\x7d else \x7b", assign otherwise, "\x7d"], ?_, ?_⟩
    · simp only [List.forall_mem_cons, oneLine_append]
      exact ⟨⟨⟨by decide, hfirst⟩, by decide⟩, hassign _ honFirst, ⟨⟨by decide, hsecond⟩, by decide⟩,
        hassign _ honSecond, by decide, hassign _ hotherwise, by decide, List.forall_mem_nil _⟩
    · -- the literals at the ends of lines are cut there
      show ("\t" ++ "if (") ++ (first.map f).render ++ (") \x7b" ++ "\n")
          ++ ("\t" ++ "\t") ++ f x ++ " = " ++ (onFirst.map f).render ++ (";" ++ "\n")
          ++ ("\t" ++ "\x7d else if (") ++ (second.map f).render ++ (") \x7b" ++ "\n")
          ++ ("\t" ++ "\t") ++ f x ++ " = " ++ (onSecond.map f).render ++ (";" ++ "\n")
          ++ ("\t" ++ "\x7d else \x7b" ++ "\n")
          ++ ("\t" ++ "\t") ++ f x ++ " = " ++ (otherwise.map f).render ++ (";" ++ "\n")
          ++ ("\t" ++ "\x7d" ++ "\n") = _
      simp only [-String.reduceAppend, indent_cons, indent_nil, String.append_assoc,
        String.append_empty, assign]

/-- A statement ends with a newline, whatever the names are. -/
theorem render_ne_empty (s : Stmt String) : s.render ≠ "" := by
  intro h
  cases s <;>
  · unfold render at h
    exact absurd (String.append_eq_empty_iff.mp h).2 (by decide)

end Stmt

/-- The text of the statement that shows a variable is whole lines, each indented by a tab. -/
theorem indented_previewStmt (ty : Ty) {x : String} (hx : OneLine x) :
    Indented (previewStmt ty x).render := by
  have hflat : ∀ e ∈ (previewStmt ty ()).values, e.Flat := by
    cases ty with
    | vec4 =>
      simp only [previewStmt, Stmt.values, List.forall_mem_singleton, Expr.Flat, Expr.AllFlat]
      decide
    | _ => simp [previewStmt, Stmt.values, Expr.Flat, Expr.AllFlat]
  have hrender := Stmt.indented_render (f := fun _ => x) (fun _ => hx) hflat
  cases ty <;> exact hrender

end Glsl

/-! ## Kinds -/

variable {ν : Type} {a b : Expr ν}

/-- An operation on flat operands is flat, also where these are converted to floats and the result is
    converted back. -/
theorem BinaryOp.flat_apply (op : BinaryOp) (ty : Ty) (ha : a.Flat) (hb : b.Flat) :
    (op.apply ty a b).Flat := by
  cases op with
  | add | sub | mul | div => exact ⟨ha, hb⟩
  | max | min => exact ⟨by decide, ha, hb, trivial⟩
  | mod =>
    rw [apply]
    split
    · exact ⟨ha, hb⟩
    · exact ⟨by decide, ha, hb, trivial⟩
  | pow | atan2 | reflect =>
    rw [apply, applyFloat]
    split
    · exact ⟨⟨by decide, ⟨ha, trivial⟩, ⟨hb, trivial⟩, trivial⟩, trivial⟩
    · exact ⟨by decide, ha, hb, trivial⟩

theorem UnaryFn.flat_apply (fn : UnaryFn) (ha : a.Flat) : (fn.apply a).Flat := by
  cases fn with
  | negate => exact ha
  | saturate => exact ⟨by decide, ha, trivial, trivial, trivial⟩
  | reciprocal | oneMinus => exact ⟨trivial, ha⟩
  | _ => exact ⟨by decide, ha, trivial⟩

theorem Comparison.flat_apply (c : Comparison) (ty : Ty) (q : Quantifier) (ha : a.Flat) (hb : b.Flat) :
    (c.apply ty q a b).Flat := by
  have hfunction : OneLine c.function := by cases c <;> decide
  have hquantifier : OneLine (Named.name q) := by cases q <;> decide
  rw [apply]
  split
  · exact ⟨hquantifier, ⟨hfunction, ha, hb, trivial⟩, trivial⟩
  · exact ⟨ha, hb⟩

theorem Constant.flat_expr (value : Constant) : (value.expr : Expr ν).Flat := by
  cases value <;> simp [expr, vector, Expr.Flat, Expr.allFlat_iff]

namespace Kind

theorem flat_operand (i : Nat) : (operand i).Flat := by rw [operand, Expr.Flat]; trivial

/-- The expressions in the template of a kind hold no newline of their own. -/
theorem flat_template (k : Kind) : ∀ s ∈ k.template, ∀ e ∈ s.values, e.Flat := by
  have hx := flat_operand
  cases k with
  | constant value => simpa [template, result, Stmt.values] using value.flat_expr
  | scalarOp op scalar =>
    simpa [template, result, Stmt.values] using op.flat_apply scalar.ty (hx 0) (hx 1)
  | vectorOp op vector =>
    simpa [template, result, Stmt.values] using op.flat_apply vector.ty (hx 0) (hx 1)
  | scalarFunc fn => simpa [template, result, Stmt.values] using fn.flat_apply (hx 0)
  | vectorFunc fn vector => simpa [template, result, Stmt.values] using fn.flat_apply (hx 0)
  | compare ty op quantifier =>
    simpa [template, result, Stmt.values] using op.flat_apply ty quantifier (hx 0) (hx 1)
  | noise flavour =>
    have hfunction : OneLine flavour.function := by cases flavour <;> decide
    simp [template, result, Stmt.values, Expr.Flat, Expr.AllFlat, hx, hfunction]
  | floatTest test =>
    have hfunction : OneLine test.function := by cases test <;> decide
    simp [template, result, Stmt.values, Expr.Flat, Expr.AllFlat, hx, hfunction]
  | decompose vector =>
    have hletter : ∀ j ∈ List.range vector.ty.components, OneLine (letters.getD j "") := by
      cases vector <;> decide
    intro s hs e he
    obtain ⟨j, hj, rfl⟩ := List.mem_map.mp hs
    obtain rfl := List.mem_singleton.mp he
    exact ⟨hx 0, hletter j hj⟩
  | dot _ | length _ | distance _ | clamp _ | step _ | smoothStep _ | mix _ | branch =>
    simp only [template, result, Stmt.values, List.forall_mem_cons, List.not_mem_nil, Expr.Flat,
      Expr.AllFlat, hx, and_true, true_and, false_imp_iff, implies_true]
    decide
  | input _ | output | compose _ | switch _ =>
    simp [template, result, Stmt.values, Expr.Flat, Expr.allFlat_iff, hx]

/-- Names without newlines make indented lines. -/
theorem indented_statement (k : Kind) {inputs outputs : List String}
    (hinputs : ∀ name ∈ inputs, OneLine name) (houtputs : ∀ name ∈ outputs, OneLine name) :
    Indented (k.statement inputs outputs) := by
  have hgetD : ∀ (names : List String) i, (∀ name ∈ names, OneLine name) → OneLine (names.getD i "") := by
    intro names i hnames
    rw [List.getD_eq_getElem?_getD]
    cases h : names[i]? with
    | none => decide
    | some name => exact hnames name (List.mem_of_getElem? h)
  have hfill : ∀ slot : Slot, OneLine (slot.fill inputs outputs) := by
    intro slot
    cases slot with
    | input i => exact hgetD inputs i hinputs
    | output j => exact hgetD outputs j houtputs
  rw [statement]
  split
  · exact ⟨[], List.forall_mem_nil _, rfl⟩
  · refine Indented.join fun text htext => ?_
    obtain ⟨s, hs, rfl⟩ := List.mem_map.mp htext
    exact Stmt.indented_render hfill (k.flat_template s hs)

end Kind

end FragmentGraph
