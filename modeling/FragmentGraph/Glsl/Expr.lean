/-
  Expressions and statements of GLSL, as far as node kinds write them.

  `Expr` and `Stmt` are taken over a type of variables.  A template uses SLOTS, the numbered inputs and
  outputs of a node; filling the slots with names (`map`) gives code, and `render` writes its text.  A
  statement takes whole lines, each indented by a tab.
-/
import FragmentGraph.Glsl.ShaderInput
import FragmentGraph.Numeric.Fixed

namespace FragmentGraph.Glsl

open Numeric (Single decimal signedDecimal)

/-! ## Expressions -/

/-- A scalar constant. -/
inductive Scalar where
  | float (x : Single)
  | int (i : Int32)
  | uint (n : UInt32)
  | bool (b : Bool)
deriving DecidableEq, Repr

namespace Scalar

def ty : Scalar → Ty
  | float _ => .float
  | int _ => .int
  | uint _ => .uint
  | bool _ => .bool

/-- The literal that denotes the constant; a float has five places. -/
def render : Scalar → String
  | float x => x.fixed
  | int i => signedDecimal i.toInt
  | uint n => decimal n.toNat ++ "u"
  | bool b => if b then "true" else "false"

end Scalar

/-- Operators written between their operands. -/
inductive Operator where
  | add
  | sub
  | mul
  | div
  | rem
  | eq
  | ne
  | gt
  | ge
  | lt
  | le
deriving DecidableEq, Repr

def Operator.symbol : Operator → String
  | add => "+"
  | sub => "-"
  | mul => "*"
  | div => "/"
  | rem => "%"
  | eq => "=="
  | ne => "!="
  | gt => ">"
  | ge => ">="
  | lt => "<"
  | le => "<="

/-- An expression over variables of type `ν`. -/
inductive Expr (ν : Type) where
  /-- A local variable. -/
  | var (x : ν)
  /-- An input of the whole shader. -/
  | input (i : ShaderInput)
  /-- A scalar constant. -/
  | scalar (s : Scalar)
  /-- A float literal with a natural value, written with one place. -/
  | whole (n : Nat)
  /-- Two operands with an operator between them. -/
  | binary (op : Operator) (left right : Expr ν)
  /-- The operand with its sign changed. -/
  | negate (operand : Expr ν)
  /-- A function applied to arguments. -/
  | call (function : String) (arguments : List (Expr ν))
  /-- A type's constructor applied to arguments. -/
  | construct (ty : Ty) (arguments : List (Expr ν))
  /-- Components of a vector, named by letters. -/
  | swizzle (vector : Expr ν) (letters : String)
  /-- One of two values, by a condition. -/
  | select (condition yes no : Expr ν)

namespace Expr

mutual

/-- Renames the variables. -/
def map {ν μ : Type} (f : ν → μ) : Expr ν → Expr μ
  | var x => var (f x)
  | input i => input i
  | scalar s => scalar s
  | whole n => whole n
  | binary op left right => binary op (left.map f) (right.map f)
  | negate operand => negate (operand.map f)
  | call function arguments => call function (mapAll f arguments)
  | construct ty arguments => construct ty (mapAll f arguments)
  | swizzle vector letters => swizzle (vector.map f) letters
  | select condition yes no => select (condition.map f) (yes.map f) (no.map f)

/-- Renames the variables of several expressions. -/
def mapAll {ν μ : Type} (f : ν → μ) : List (Expr ν) → List (Expr μ)
  | [] => []
  | e :: rest => e.map f :: mapAll f rest

end

mutual

/-- The variables of an expression, in the order in which they are written. -/
def vars {ν : Type} : Expr ν → List ν
  | var x => [x]
  | input _ => []
  | scalar _ => []
  | whole _ => []
  | binary _ left right => left.vars ++ right.vars
  | negate operand => operand.vars
  | call _ arguments => allVars arguments
  | construct _ arguments => allVars arguments
  | swizzle vector _ => vector.vars
  | select condition yes no => condition.vars ++ yes.vars ++ no.vars

/-- The variables of several expressions. -/
def allVars {ν : Type} : List (Expr ν) → List ν
  | [] => []
  | e :: rest => e.vars ++ allVars rest

end

mutual

/-- The text of an expression. -/
def render : Expr String → String
  | var x => x
  | input i => i.identifier
  | scalar s => s.render
  | whole n => decimal n ++ ".0"
  | binary op left right => left.render ++ " " ++ op.symbol ++ " " ++ right.render
  | negate operand => "-(" ++ operand.render ++ ")"
  | call function arguments => function ++ "(" ++ ", ".intercalate (renderAll arguments) ++ ")"
  | construct ty arguments => ty.keyword ++ "(" ++ ", ".intercalate (renderAll arguments) ++ ")"
  | swizzle vector letters => vector.render ++ "." ++ letters
  | select condition yes no => condition.render ++ " ? " ++ yes.render ++ " : " ++ no.render

/-- The texts of several expressions. -/
def renderAll : List (Expr String) → List String
  | [] => []
  | e :: rest => e.render :: renderAll rest

end

end Expr

/-- The value that stands in for a missing input of the given type: zero, or false. -/
def Ty.zero {ν : Type} : Ty → Expr ν
  | .float => .scalar (.float .zero)
  | .int => .scalar (.int 0)
  | .uint => .scalar (.uint 0)
  | .bool => .scalar (.bool false)
  | .vec2 => .construct .vec2 (List.replicate 2 (.scalar (.float .zero)))
  | .vec3 => .construct .vec3 (List.replicate 3 (.scalar (.float .zero)))
  | .vec4 => .construct .vec4 (List.replicate 4 (.scalar (.float .zero)))

/-! ## Statements -/

/-- The variable that holds the colour of the fragment. -/
def colorVariable : String := "FragColor"

/-- The declaration of the colour. -/
def colorDeclaration : String := "\nout vec4 " ++ colorVariable ++ ";\n"

/-- A statement over variables of type `ν`. -/
inductive Stmt (ν : Type) where
  /-- Declares a local variable with its value. -/
  | declare (ty : Ty) (x : ν) (value : Expr ν)
  /-- Declares a local variable that gets its value later. -/
  | reserve (ty : Ty) (x : ν)
  /-- Gives a variable one of three values, by two conditions tried in turn. -/
  | choose (x : ν) (first : Expr ν) (onFirst : Expr ν) (second : Expr ν) (onSecond : Expr ν)
      (otherwise : Expr ν)
  /-- Writes the colour of the fragment. -/
  | color (value : Expr ν)

namespace Stmt

/-- Renames the variables. -/
def map {ν μ : Type} (f : ν → μ) : Stmt ν → Stmt μ
  | declare ty x value => declare ty (f x) (value.map f)
  | reserve ty x => reserve ty (f x)
  | choose x first onFirst second onSecond otherwise =>
    choose (f x) (first.map f) (onFirst.map f) (second.map f) (onSecond.map f) (otherwise.map f)
  | color value => color (value.map f)

/-- The variable that the statement declares, with its type. -/
def declared {ν : Type} : Stmt ν → Option (Ty × ν)
  | declare ty x _ => some (ty, x)
  | reserve ty x => some (ty, x)
  | _ => none

/-- The variables that the statement reads. -/
def reads {ν : Type} : Stmt ν → List ν
  | declare _ _ value => value.vars
  | reserve _ _ => []
  | choose _ first onFirst second onSecond otherwise =>
    first.vars ++ onFirst.vars ++ second.vars ++ onSecond.vars
      ++ otherwise.vars
  | color value => value.vars

/-- The lines of a statement. -/
def render : Stmt String → String
  | declare ty x value => "\t" ++ ty.keyword ++ " " ++ x ++ " = " ++ value.render ++ ";\n"
  | reserve ty x => "\t" ++ ty.keyword ++ " " ++ x ++ ";\n"
  | choose x first onFirst second onSecond otherwise =>
    "\tif (" ++ first.render ++ ") \x7b\n"
      ++ "\t\t" ++ x ++ " = " ++ onFirst.render ++ ";\n"
      ++ "\t\x7d else if (" ++ second.render ++ ") \x7b\n"
      ++ "\t\t" ++ x ++ " = " ++ onSecond.render ++ ";\n"
      ++ "\t\x7d else \x7b\n"
      ++ "\t\t" ++ x ++ " = " ++ otherwise.render ++ ";\n"
      ++ "\t\x7d\n"
  | color value => "\t" ++ colorVariable ++ " = " ++ value.render ++ ";\n"

end Stmt

/-! ## Templates -/

/-- A place in a template: an input or an output of the node, by its index. -/
inductive Slot where
  | input (i : Nat)
  | output (j : Nat)
deriving DecidableEq, Repr

namespace Slot

/-- The name that a slot gets from the names of the node's inputs and outputs. -/
def fill (inputs outputs : List String) : Slot → String
  | input i => inputs.getD i ""
  | output j => outputs.getD j ""

end Slot

/-- Statements with slots. -/
abbrev Template := List (Stmt Slot)

/-- The text of a template with its slots filled. -/
def Template.render (t : Template) (inputs outputs : List String) : String :=
  String.join (t.map fun s => (s.map (Slot.fill inputs outputs)).render)

/-- The statement that shows a value of the given type as a colour: the first three components of a
    `vec4`, every other value spread over three components. -/
def previewStmt {ν : Type} (ty : Ty) (x : ν) : Stmt ν :=
  match ty with
  | .vec4 => .color (.construct .vec4 [.swizzle (.var x) "xyz", .whole 1])
  | _ => .color (.construct .vec4 [.construct .vec3 [.var x], .whole 1])

end FragmentGraph.Glsl
