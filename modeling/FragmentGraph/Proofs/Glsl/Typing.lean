/-
  The typing rules of GLSL, as far as shaders of graphs need them.

  A port has one of seven types, but an expression may pass through others on the way: comparing two
  vectors gives a vector of truth values.  So the type of an expression is a `ValueTy`, a base with a
  number of components.

  1. **Overloads** — a built-in function has overloads, and most of them are families: one for every
     number of components, which the parameters of the family share.  A call has the type of the overload
     whose parameters are exactly the types of the arguments; no argument is converted.

  2. **Expressions** — `Expr.ty?` computes the type from the types of the variables; an expression
     without a type is one that does not compile.

  3. **Statements** — `Stmt.WellTyped` asks that a value has exactly the type of what it is given to.
     Renaming keeps both, if variables keep their types (`Expr.ty?_map`, `Stmt.wellTyped_map`).
-/
import FragmentGraph.Glsl.Noise
import FragmentGraph.Proofs.Glsl.Variables
import Mathlib.Algebra.GroupWithZero.Nat

namespace FragmentGraph.Glsl

/-! ## Types of values -/

/-- The type of a component. -/
inductive Base where
  | float
  | int
  | uint
  | bool
deriving DecidableEq, Repr

/-- The type of a value: a scalar if it has one component, a vector if it has more. -/
structure ValueTy where
  base : Base
  size : Nat
deriving DecidableEq, Repr

namespace ValueTy

def float : ValueTy := ⟨.float, 1⟩

def bool : ValueTy := ⟨.bool, 1⟩

end ValueTy

/-- The type of values at a port. -/
def Ty.value : Ty → ValueTy
  | float => .float
  | int => ⟨.int, 1⟩
  | uint => ⟨.uint, 1⟩
  | vec2 => ⟨.float, 2⟩
  | vec3 => ⟨.float, 3⟩
  | vec4 => ⟨.float, 4⟩
  | bool => .bool

/-! ## Overloads -/

/-- A parameter or the result of an overload. -/
inductive Param where
  /-- As many components as all parameters of this sort have. -/
  | shared (base : Base)
  /-- A type of its own. -/
  | fixed (ty : ValueTy)

/-- The parameter where the family has `n` components. -/
def Param.at (n : Nat) : Param → ValueTy
  | shared base => ⟨base, n⟩
  | fixed ty => ty

/-- A family of overloads of a function, for all sizes from `least` to four. -/
structure Overload where
  least : Nat
  params : List Param
  result : Param

namespace Overload

/-- A family for scalars and vectors. -/
def general (params : List Param) (result : Param) : Overload := ⟨1, params, result⟩

/-- A family for vectors only. -/
def vectors (params : List Param) (result : Param) : Overload := ⟨2, params, result⟩

/-- The type of the result at arguments of the given types. -/
def result? (o : Overload) (arguments : List ValueTy) : Option ValueTy :=
  ((List.range' o.least (5 - o.least)).find? fun n => o.params.map (Param.at n) = arguments).map
    fun n => o.result.at n

end Overload

/-- The parameters of `count` values that all have the same size. -/
def Param.all (count : Nat) (base : Base) : List Param := List.replicate count (.shared base)

/-- A scalar. -/
def Param.scalar (base : Base) : Param := .fixed ⟨base, 1⟩

/-- Functions that have one overload family, from floats to floats. -/
def floatFunctions : List String :=
  ["sin", "cos", "tan", "asin", "acos", "sinh", "cosh", "tanh", "log", "exp", "sqrt", "inversesqrt",
   "floor", "round", "ceil", "trunc", "fract", "degrees", "radians", "log2", "exp2", "normalize"]

open Overload Param in
/-- The overloads of the built-in functions and of the noise functions. -/
def overloads (function : String) : List Overload :=
  if function ∈ floatFunctions then [general [shared .float] (shared .float)]
  else match function with
    | "abs" | "sign" => [.float, .int].map fun b => general [shared b] (shared b)
    | "atan" => [general [shared .float] (shared .float), general (all 2 .float) (shared .float)]
    | "pow" | "reflect" => [general (all 2 .float) (shared .float)]
    | "mod" =>
      [general (all 2 .float) (shared .float), general [shared .float, scalar .float] (shared .float)]
    | "min" | "max" =>
      [.float, .int, .uint].flatMap fun b =>
        [general (all 2 b) (shared b), general [shared b, scalar b] (shared b)]
    | "clamp" =>
      [.float, .int, .uint].flatMap fun b =>
        [general (all 3 b) (shared b), general [shared b, scalar b, scalar b] (shared b)]
    | "mix" =>
      [general (all 3 .float) (shared .float),
       general [shared .float, shared .float, scalar .float] (shared .float),
       general [shared .float, shared .float, shared .bool] (shared .float)]
    | "step" =>
      [general (all 2 .float) (shared .float), general [scalar .float, shared .float] (shared .float)]
    | "smoothstep" =>
      [general (all 3 .float) (shared .float),
       general [scalar .float, scalar .float, shared .float] (shared .float)]
    | "dot" | "distance" => [general (all 2 .float) (scalar .float)]
    | "length" => [general [shared .float] (scalar .float)]
    | "isinf" | "isnan" => [general [shared .float] (shared .bool)]
    | "equal" | "notEqual" =>
      [.float, .int, .uint, .bool].map fun b => vectors (all 2 b) (shared .bool)
    | "lessThan" | "lessThanEqual" | "greaterThan" | "greaterThanEqual" =>
      [.float, .int, .uint].map fun b => vectors (all 2 b) (shared .bool)
    | "any" | "all" => [vectors [shared .bool] (scalar .bool)]
    | "value_noise" | "gradient_noise" | "simplex_noise" => [general [fixed ⟨.float, 2⟩] (scalar .float)]
    | _ => []

/-- The type of a call. -/
def callTy? (function : String) (arguments : List ValueTy) : Option ValueTy :=
  (overloads function).findSome? fun o => o.result? arguments

/-! ## Expressions -/

/-- The type of two operands with an operator between them.  Arithmetic goes by component; a scalar goes
    with every component of a vector. -/
def Operator.ty? (op : Operator) (a b : ValueTy) : Option ValueTy :=
  let fits : Bool := a.base = b.base ∧ (a.size = b.size ∨ a.size = 1 ∨ b.size = 1)
  match op with
  | add | sub | mul | div => if fits ∧ a.base ≠ .bool then some ⟨a.base, max a.size b.size⟩ else none
  | rem =>
    if fits ∧ (a.base = .int ∨ a.base = .uint) then some ⟨a.base, max a.size b.size⟩ else none
  | eq | ne => if a = b then some .bool else none
  | gt | ge | lt | le => if a = b ∧ a.size = 1 ∧ a.base ≠ .bool then some .bool else none

/-- The type of a constructor call.  One scalar fills all components; otherwise the arguments have enough
    components together, and none of them is left without use. -/
def constructTy? (ty : Ty) (arguments : List ValueTy) : Option ValueTy :=
  let sizes := arguments.map ValueTy.size
  if sizes = [1] ∨ (ty.value.size ≤ sizes.sum ∧ sizes.dropLast.sum < ty.value.size) then some ty.value
  else none

/-- The type of components of a vector: the letters are among those of the vector's size. -/
def swizzleTy? (vector : ValueTy) (letters : String) : Option ValueTy :=
  let chosen := letters.toList
  if 2 ≤ vector.size ∧ 1 ≤ chosen.length ∧ chosen.length ≤ 4 ∧
      chosen.all (['x', 'y', 'z', 'w'].take vector.size).contains then
    some ⟨vector.base, chosen.length⟩
  else none

/-- The type of a choice: the condition is a truth value and both sides have the type. -/
def selectTy? (condition yes no : ValueTy) : Option ValueTy :=
  if condition = .bool ∧ yes = no then some yes else none

variable {ν μ : Type}

namespace Expr

mutual

/-- The type of an expression, from the types of the variables. -/
def ty? (types : ν → Option Ty) : Expr ν → Option ValueTy
  | var x => (types x).map Ty.value
  | input i => some i.ty.value
  | scalar s => some s.ty.value
  | whole _ => some .float
  | binary op left right =>
    (left.ty? types).bind fun a => (right.ty? types).bind fun b => op.ty? a b
  | negate operand => (operand.ty? types).bind fun a => if a.base = .bool then none else some a
  | call function arguments => (allTy? types arguments).bind (callTy? function)
  | construct ty arguments => (allTy? types arguments).bind (constructTy? ty)
  | swizzle vector letters => (vector.ty? types).bind fun a => swizzleTy? a letters
  | select condition yes no =>
    (condition.ty? types).bind fun c => (yes.ty? types).bind fun a => (no.ty? types).bind fun b =>
      selectTy? c a b

/-- The types of several expressions. -/
def allTy? (types : ν → Option Ty) : List (Expr ν) → Option (List ValueTy)
  | [] => some []
  | e :: rest => (e.ty? types).bind fun a => (allTy? types rest).map (a :: ·)

end

variable {f : ν → μ} {types : ν → Option Ty} {types' : μ → Option Ty}

mutual

/-- Renaming keeps the type, if the variables keep theirs. -/
theorem ty?_map : ∀ e : Expr ν, (∀ x ∈ e.vars, types' (f x) = types x) →
    (e.map f).ty? types' = e.ty? types
  | var x, h => by rw [map, ty?, ty?, h x (List.mem_singleton.mpr rfl)]
  | input _, _ => rfl
  | scalar _, _ => rfl
  | whole _, _ => rfl
  | binary op left right, h => by
    rw [vars] at h
    rw [map, ty?, ty?, left.ty?_map fun x hx => h x (List.mem_append_left _ hx),
      right.ty?_map fun x hx => h x (List.mem_append_right _ hx)]
  | negate operand, h => by rw [map, ty?, ty?, operand.ty?_map h]
  | call function arguments, h => by rw [map, ty?, ty?, allTy?_mapAll arguments h]
  | construct ty arguments, h => by rw [map, ty?, ty?, allTy?_mapAll arguments h]
  | swizzle vector letters, h => by rw [map, ty?, ty?, vector.ty?_map h]
  | select condition yes no, h => by
    rw [vars] at h
    rw [map, ty?, ty?,
      condition.ty?_map fun x hx => h x (List.mem_append_left _ (List.mem_append_left _ hx)),
      yes.ty?_map fun x hx => h x (List.mem_append_left _ (List.mem_append_right _ hx)),
      no.ty?_map fun x hx => h x (List.mem_append_right _ hx)]

theorem allTy?_mapAll : ∀ es : List (Expr ν), (∀ x ∈ allVars es, types' (f x) = types x) →
    allTy? types' (mapAll f es) = allTy? types es
  | [], _ => rfl
  | e :: es, h => by
    rw [allVars] at h
    rw [mapAll, allTy?, allTy?, e.ty?_map fun x hx => h x (List.mem_append_left _ hx),
      allTy?_mapAll es fun x hx => h x (List.mem_append_right _ hx)]

end

end Expr

/-! ## Statements -/

namespace Stmt

/-- The values in the statement have exactly the types of what they are given to. -/
def WellTyped (types : ν → Option Ty) : Stmt ν → Prop
  | declare ty _ value => value.ty? types = some ty.value
  | reserve _ _ => True
  | choose x first onFirst second onSecond otherwise =>
    first.ty? types = some .bool ∧ second.ty? types = some .bool ∧
      ∃ ty, types x = some ty ∧ onFirst.ty? types = some ty.value ∧
        onSecond.ty? types = some ty.value ∧ otherwise.ty? types = some ty.value
  | color value => value.ty? types = some Ty.vec4.value

/-- Renaming keeps a statement well typed, if what it uses keeps its type. -/
theorem wellTyped_map {f : ν → μ} {types : ν → Option Ty} {types' : μ → Option Ty} {s : Stmt ν}
    (huses : ∀ x ∈ s.uses, types' (f x) = types x) (hs : s.WellTyped types) :
    (s.map f).WellTyped types' := by
  cases s with
  | declare ty x value => exact (value.ty?_map huses).trans hs
  | reserve ty x => exact hs
  | color value => exact (value.ty?_map huses).trans hs
  | choose x first onFirst second onSecond otherwise =>
    have hvalue : ∀ e ∈ [first, onFirst, second, onSecond, otherwise],
        (e.map f).ty? types' = e.ty? types := by
      intro e he
      exact e.ty?_map fun y hy => huses y (List.mem_append_right _ (mem_reads_choose he hy))
    obtain ⟨hfirst, hsecond, ty, hx, honFirst, honSecond, hotherwise⟩ := hs
    refine ⟨?_, ?_, ty, ?_, ?_, ?_, ?_⟩
    · rw [hvalue _ (by simp), hfirst]
    · rw [hvalue _ (by simp), hsecond]
    · rw [huses x (List.mem_append_left _ (List.mem_singleton.mpr rfl)), hx]
    · rw [hvalue _ (by simp), honFirst]
    · rw [hvalue _ (by simp), honSecond]
    · rw [hvalue _ (by simp), hotherwise]

end Stmt

/-- The value that stands in for a missing input has the input's type. -/
theorem Ty.ty?_zero (types : ν → Option Ty) (ty : Ty) : (ty.zero : Expr ν).ty? types = some ty.value := by
  cases ty <;> rfl

end FragmentGraph.Glsl
