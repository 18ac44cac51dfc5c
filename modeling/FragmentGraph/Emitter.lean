/-
  What a node contributes to a shader.

  An `Emitter` belongs to one node.  It has ports, texts for the sections of the shader, and a function
  from the names of its input and output variables to its statement.  `Kind.emitter` gives the emitter
  of a kind: its statement is the kind's template with the names in the slots, and is empty when there
  are fewer names than the template is written from.
-/
import FragmentGraph.Kind.Basic

namespace FragmentGraph

open Glsl

/-- The contribution of one node. -/
structure Emitter where
  /-- Name in the header of the node's block. -/
  name : String
  /-- Types of the input ports. -/
  inputs : List Ty
  /-- Types of the output ports. -/
  outputs : List Ty
  /-- Declarations that nodes share. -/
  declarations : String := ""
  /-- Code at the top level that belongs to this node alone. -/
  ownCode : String := ""
  /-- Function definitions that nodes share. -/
  helper : String := ""
  /-- The statement, from the names of inputs and outputs. -/
  statement : List String → List String → String

namespace Kind

/-- The value of an input port. -/
def operand (i : Nat) : Expr Slot := .var (.input i)

/-- A template that declares the only output with the given value. -/
def result (ty : Ty) (value : Expr Slot) : Template := [.declare ty (.output 0) value]

/-- The letters that name the components of a vector. -/
def letters : List String := ["x", "y", "z", "w"]

/-- The statements of a kind, with slots for the names of its ports. -/
def template : Kind → Template
  | input source => result source.ty (.input source)
  | output => [.color (operand 0)]
  | constant value => result value.ty value.expr
  | scalarOp op scalar => result scalar.ty (op.apply scalar.ty (operand 0) (operand 1))
  | vectorOp op vector => result vector.ty (op.apply vector.ty (operand 0) (operand 1))
  | scalarFunc fn => result .float (fn.apply (operand 0))
  | vectorFunc fn vector => result vector.ty (fn.apply (operand 0))
  | noise flavour => result .float (.call flavour.function [operand 0])
  | dot _ => result .float (.call "dot" [operand 0, operand 1])
  | length _ => result .float (.call "length" [operand 0])
  | distance _ => result .float (.call "distance" [operand 0, operand 1])
  | clamp ty => result ty (.call "clamp" [operand 0, operand 1, operand 2])
  | step ty => result ty (.call "step" [operand 0, operand 1])
  | smoothStep ty => result ty (.call "smoothstep" [operand 0, operand 1, operand 2])
  | mix ty => result ty (.call "mix" [operand 0, operand 1, operand 2])
  | compose vector =>
    result vector.ty (.construct vector.ty ((List.range vector.ty.components).map operand))
  | decompose vector =>
    (List.range vector.ty.components).map fun j =>
      .declare .float (.output j) (.swizzle (operand 0) (letters.getD j ""))
  | branch =>
    [.reserve .vec3 (.output 0),
     .choose (.output 0)
       (.binary .lt (.call "abs" [.binary .sub (operand 0) (operand 1)]) (operand 2)) (operand 3)
       (.binary .lt (operand 0) (operand 1)) (operand 5)
       (operand 4)]
  | switch ty => result ty (.select (operand 0) (operand 1) (operand 2))
  | floatTest test => result .bool (.call test.function [operand 0])
  | compare ty op quantifier => result .bool (op.apply ty quantifier (operand 0) (operand 1))

/-- How many names of inputs, and how many of outputs, the statement of a kind is written from. -/
def arity : Kind → Nat × Nat
  | input _ => (0, 1)
  | output => (1, 0)
  | constant _ => (0, 1)
  | scalarOp .. => (2, 1)
  | vectorOp .. => (2, 1)
  | scalarFunc _ => (1, 1)
  | vectorFunc .. => (1, 1)
  | noise _ => (1, 1)
  | dot _ => (2, 1)
  | length _ => (1, 1)
  | distance _ => (2, 1)
  | clamp _ => (3, 1)
  | step _ => (2, 1)
  | smoothStep _ => (3, 1)
  | mix _ => (3, 1)
  | compose vector => (vector.ty.components, 1)
  | decompose vector => (1, vector.ty.components)
  | branch => (6, 1)
  | switch _ => (3, 1)
  | floatTest _ => (1, 1)
  | compare .. => (2, 1)

/-- A statement is written from a name for every port. -/
theorem arity_eq (k : Kind) : k.arity = (k.inputs.length, k.outputs.length) := by
  cases k with
  | compose vector => cases vector <;> rfl
  | decompose vector => cases vector <;> rfl
  | _ => rfl

/-- The text of the statement; empty where there are fewer names than it is written from. -/
def statement (k : Kind) (inputs outputs : List String) : String :=
  if inputs.length < k.arity.1 ∨ outputs.length < k.arity.2 then ""
  else k.template.render inputs outputs

/-- The declarations that the kind needs. -/
def declarations : Kind → String
  | input _ => ShaderInput.declarations
  | output => colorDeclaration
  | _ => ""

/-- The function definitions that the kind needs. -/
def helper : Kind → String
  | noise flavour => flavour.definition
  | _ => ""

/-- The emitter of a node of this kind. -/
def emitter (k : Kind) : Emitter where
  name := k.name
  inputs := k.inputs
  outputs := k.outputs
  declarations := k.declarations
  helper := k.helper
  statement := k.statement

end Kind

end FragmentGraph
