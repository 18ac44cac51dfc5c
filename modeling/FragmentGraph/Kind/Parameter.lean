/-
  Parameters of node kinds: operators, functions, comparisons, constants, and the expressions they build.
-/
import FragmentGraph.Glsl.Expr

namespace FragmentGraph

open Glsl Numeric

/-! ## Operators and functions -/

/-- An operator on two values of one type. -/
inductive BinaryOp where
  | add
  | sub
  | mul
  | div
  | mod
  | pow
  | max
  | min
  | atan2
  | reflect
deriving DecidableEq, Repr

namespace BinaryOp

instance : Named BinaryOp where
  all := [add, sub, mul, div, mod, pow, max, min, atan2, reflect]
  name
    | add => "add"
    | sub => "sub"
    | mul => "mul"
    | div => "div"
    | mod => "mod"
    | pow => "pow"
    | max => "max"
    | min => "min"
    | atan2 => "atan2"
    | reflect => "reflect"
  find_name a := by cases a <;> decide

/-- Applies a function that has float overloads only: integers are converted there and back. -/
def applyFloat {ν : Type} (function : String) (ty : Ty) (a b : Expr ν) : Expr ν :=
  if ty.isIntegral then
    .construct ty [.call function [.construct .float [a], .construct .float [b]]]
  else .call function [a, b]

/-- The operator applied to operands of the given type. -/
def apply {ν : Type} (op : BinaryOp) (ty : Ty) (a b : Expr ν) : Expr ν :=
  match op with
  | add => .binary .add a b
  | sub => .binary .sub a b
  | mul => .binary .mul a b
  | div => .binary .div a b
  | mod => if ty.isIntegral then .binary .rem a b else .call "mod" [a, b]
  | max => .call "max" [a, b]
  | min => .call "min" [a, b]
  | pow => applyFloat "pow" ty a b
  | atan2 => applyFloat "atan" ty a b
  | reflect => applyFloat "reflect" ty a b

end BinaryOp

/-- A function of one float or float vector. -/
inductive UnaryFn where
  | sin
  | cos
  | tan
  | asin
  | acos
  | atan
  | sinh
  | cosh
  | tanh
  | log
  | exp
  | sqrt
  | inverseSqrt
  | abs
  | sign
  | floor
  | round
  | ceil
  | trunc
  | fract
  | saturate
  | negate
  | reciprocal
  | oneMinus
  | degrees
  | radians
  | log2
  | exp2
  | normalize
deriving DecidableEq, Repr

namespace UnaryFn

instance : Named UnaryFn where
  all := [sin, cos, tan, asin, acos, atan, sinh, cosh, tanh, log, exp, sqrt, inverseSqrt, abs, sign,
    floor, round, ceil, trunc, fract, saturate, negate, reciprocal, oneMinus, degrees, radians, log2,
    exp2, normalize]
  name
    | sin => "sin"
    | cos => "cos"
    | tan => "tan"
    | asin => "asin"
    | acos => "acos"
    | atan => "atan"
    | sinh => "sinh"
    | cosh => "cosh"
    | tanh => "tanh"
    | log => "log"
    | exp => "exp"
    | sqrt => "sqrt"
    | inverseSqrt => "inverse_sqrt"
    | abs => "abs"
    | sign => "sign"
    | floor => "floor"
    | round => "round"
    | ceil => "ceil"
    | trunc => "trunc"
    | fract => "fract"
    | saturate => "saturate"
    | negate => "negate"
    | reciprocal => "reciprocal"
    | oneMinus => "one_minus"
    | degrees => "degrees"
    | radians => "radians"
    | log2 => "log2"
    | exp2 => "exp2"
    | normalize => "normalize"
  find_name a := by cases a <;> decide

/-- The function applied to an operand.  Five functions have no built-in of their own; the others are
    called by their name. -/
def apply {ν : Type} (fn : UnaryFn) (x : Expr ν) : Expr ν :=
  match fn with
  | inverseSqrt => .call "inversesqrt" [x]
  | saturate => .call "clamp" [x, .whole 0, .whole 1]
  | negate => .negate x
  | reciprocal => .binary .div (.whole 1) x
  | oneMinus => .binary .sub (.whole 1) x
  | fn => .call (Named.name fn) [x]

end UnaryFn

/-! ## Comparisons -/

/-- A comparison of two values. -/
inductive Comparison where
  | equal
  | notEqual
  | greater
  | greaterEqual
  | less
  | lessEqual
deriving DecidableEq, Repr

namespace Comparison

instance : Named Comparison where
  all := [equal, notEqual, greater, greaterEqual, less, lessEqual]
  name
    | equal => "equal"
    | notEqual => "not_equal"
    | greater => "greater"
    | greaterEqual => "greater_equal"
    | less => "less"
    | lessEqual => "less_equal"
  find_name a := by cases a <;> decide

/-- The comparison's name in messages. -/
def title : Comparison → String
  | equal => "Equal"
  | notEqual => "NotEqual"
  | greater => "Greater"
  | greaterEqual => "GreaterEqual"
  | less => "Less"
  | lessEqual => "LessEqual"

/-- Asks for an order, which booleans do not have. -/
def isOrdering : Comparison → Bool
  | equal | notEqual => false
  | _ => true

/-- The operator that compares two scalars of the given type.  On booleans every ordering compares for
    equality. -/
def operator (c : Comparison) (ty : Ty) : Operator :=
  match ty, c with
  | .bool, notEqual => .ne
  | .bool, _ => .eq
  | _, equal => .eq
  | _, notEqual => .ne
  | _, greater => .gt
  | _, greaterEqual => .ge
  | _, less => .lt
  | _, lessEqual => .le

/-- The function that compares two vectors component by component. -/
def function : Comparison → String
  | equal => "equal"
  | notEqual => "notEqual"
  | greater => "greaterThan"
  | greaterEqual => "greaterThanEqual"
  | less => "lessThan"
  | lessEqual => "lessThanEqual"

end Comparison

/-- How the comparisons of a vector's components become one truth value. -/
inductive Quantifier where
  | all
  | any
deriving DecidableEq, Repr

namespace Quantifier

instance : Named Quantifier where
  all := [all, any]
  name
    | all => "all"
    | any => "any"
  find_name a := by cases a <;> decide

end Quantifier

/-- The comparison of two operands of the given type. -/
def Comparison.apply {ν : Type} (c : Comparison) (ty : Ty) (quantifier : Quantifier) (a b : Expr ν) :
    Expr ν :=
  if ty.isVector then .call (Named.name quantifier) [.call c.function [a, b]]
  else .binary (c.operator ty) a b

/-- A test for a float that is no ordinary number. -/
inductive FloatTest where
  | isInf
  | isNan
deriving DecidableEq, Repr

namespace FloatTest

instance : Named FloatTest where
  all := [isInf, isNan]
  name
    | isInf => "is_inf"
    | isNan => "is_nan"
  find_name a := by cases a <;> decide

def function : FloatTest → String
  | isInf => "isinf"
  | isNan => "isnan"

end FloatTest

/-! ## Constants -/

/-- A constant of one of the port types. -/
inductive Constant where
  | float (x : Single)
  | int (i : Int32)
  | uint (n : UInt32)
  | bool (b : Bool)
  | vec2 (x y : Single)
  | vec3 (x y z : Single)
  | vec4 (x y z w : Single)
deriving DecidableEq, Repr

namespace Constant

def ty : Constant → Ty
  | float _ => .float
  | int _ => .int
  | uint _ => .uint
  | bool _ => .bool
  | vec2 .. => .vec2
  | vec3 .. => .vec3
  | vec4 .. => .vec4

/-- A vector constructor with float literals. -/
def vector {ν : Type} (ty : Ty) (parts : List Single) : Expr ν :=
  .construct ty (parts.map fun x => .scalar (.float x))

/-- The expression that denotes the constant. -/
def expr {ν : Type} : Constant → Expr ν
  | float x => .scalar (.float x)
  | int i => .scalar (.int i)
  | uint n => .scalar (.uint n)
  | bool b => .scalar (.bool b)
  | vec2 x y => vector .vec2 [x, y]
  | vec3 x y z => vector .vec3 [x, y, z]
  | vec4 x y z w => vector .vec4 [x, y, z, w]

end Constant

end FragmentGraph
