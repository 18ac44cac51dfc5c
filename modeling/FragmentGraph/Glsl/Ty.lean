/-
  The GLSL types that ports carry.
-/
import FragmentGraph.Named

namespace FragmentGraph.Glsl

/-- A type of a port. -/
inductive Ty where
  | float
  | int
  | uint
  | vec2
  | vec3
  | vec4
  | bool
deriving DecidableEq, Repr

namespace Ty

/-- The type's keyword. -/
def keyword : Ty → String
  | float => "float"
  | int => "int"
  | uint => "uint"
  | vec2 => "vec2"
  | vec3 => "vec3"
  | vec4 => "vec4"
  | bool => "bool"

instance : Named Ty where
  all := [float, int, uint, vec2, vec3, vec4, bool]
  name := keyword
  find_name a := by cases a <;> decide

/-- The type's name in messages. -/
def title : Ty → String
  | float => "Float"
  | int => "Int"
  | uint => "UInt"
  | vec2 => "Vec2"
  | vec3 => "Vec3"
  | vec4 => "Vec4"
  | bool => "Bool"

def isVector : Ty → Bool
  | vec2 | vec3 | vec4 => true
  | _ => false

/-- Count of scalar components; one for scalars. -/
def components : Ty → Nat
  | vec2 => 2
  | vec3 => 3
  | vec4 => 4
  | _ => 1

/-- Integers, signed or not. -/
def isIntegral : Ty → Bool
  | int | uint => true
  | _ => false

/-- The types of outputs that may feed an input of the given type: all of them, and no conversion is
    written where the two differ. -/
def acceptedSources : Ty → List Ty
  | float | int | uint | vec2 | vec3 | vec4 | bool => Named.all

/-- An input of type `target` may be fed by an output of type `source`. -/
def accepts (target source : Ty) : Bool := source == target || target.acceptedSources.contains source

/-- Every type feeds every type. -/
@[simp] theorem accepts_eq_true (target source : Ty) : target.accepts source = true := by
  cases target <;> cases source <;> rfl

end Ty

/-- The scalar types with arithmetic. -/
inductive ScalarTy where
  | float
  | int
  | uint
deriving DecidableEq, Repr

namespace ScalarTy

def ty : ScalarTy → Ty
  | float => .float
  | int => .int
  | uint => .uint

instance : Named ScalarTy where
  all := [float, int, uint]
  name s := s.ty.keyword
  find_name a := by cases a <;> decide

end ScalarTy

/-- The vector types. -/
inductive VectorTy where
  | vec2
  | vec3
  | vec4
deriving DecidableEq, Repr

namespace VectorTy

def ty : VectorTy → Ty
  | vec2 => .vec2
  | vec3 => .vec3
  | vec4 => .vec4

instance : Named VectorTy where
  all := [vec2, vec3, vec4]
  name v := v.ty.keyword
  find_name a := by cases a <;> decide

end VectorTy

end FragmentGraph.Glsl
