/-
  The kinds of nodes and their ports.
-/
import FragmentGraph.Kind.Parameter
import FragmentGraph.Glsl.Noise

namespace FragmentGraph

open Glsl

/-- What a node does, with its fixed parameters. -/
inductive Kind where
  /-- Reads an input of the shader. -/
  | input (source : ShaderInput)
  /-- Writes the colour of the fragment. -/
  | output
  /-- A constant. -/
  | constant (value : Constant)
  /-- An operator on two scalars. -/
  | scalarOp (op : BinaryOp) (scalar : ScalarTy)
  /-- An operator on two vectors. -/
  | vectorOp (op : BinaryOp) (vector : VectorTy)
  /-- A function of a float. -/
  | scalarFunc (fn : UnaryFn)
  /-- A function of a vector. -/
  | vectorFunc (fn : UnaryFn) (vector : VectorTy)
  /-- Noise at a point. -/
  | noise (flavour : Noise)
  /-- The dot product of two vectors. -/
  | dot (vector : VectorTy)
  /-- The length of a vector. -/
  | length (vector : VectorTy)
  /-- The distance of two points. -/
  | distance (vector : VectorTy)
  /-- A value kept between two bounds. -/
  | clamp (ty : Ty)
  /-- Zero below an edge and one above. -/
  | step (ty : Ty)
  /-- A smooth passage from zero to one between two edges. -/
  | smoothStep (ty : Ty)
  /-- A weighted mean of two values. -/
  | mix (ty : Ty)
  /-- A vector from its components. -/
  | compose (vector : VectorTy)
  /-- The components of a vector. -/
  | decompose (vector : VectorTy)
  /-- One of three values, by comparing two floats within a tolerance. -/
  | branch
  /-- One of two values, by a condition. -/
  | switch (ty : Ty)
  /-- A test for infinities or NaNs. -/
  | floatTest (test : FloatTest)
  /-- A comparison of two values. -/
  | compare (ty : Ty) (op : Comparison) (quantifier : Quantifier)
deriving DecidableEq, Repr

namespace Kind

/-- The kind's name in documents and in the header of its block. -/
def name : Kind → String
  | input _ => "Input"
  | output => "Output"
  | constant _ => "Constant"
  | scalarOp .. => "ScalarOp"
  | vectorOp .. => "VectorOp"
  | scalarFunc _ => "ScalarFunc"
  | vectorFunc .. => "VectorFunc"
  | noise .value => "ValueNoise"
  | noise .gradient => "GradientNoise"
  | noise .simplex => "SimplexNoise"
  | dot _ => "Dot"
  | length _ => "Length"
  | distance _ => "Distance"
  | clamp _ => "Clamp"
  | step _ => "Step"
  | smoothStep _ => "SmoothStep"
  | mix _ => "Mix"
  | compose _ => "Compose"
  | decompose _ => "Decompose"
  | branch => "If"
  | switch _ => "Switch"
  | floatTest _ => "IsInfNan"
  | compare .. => "Compare"

/-- Types of the input ports.  A `branch` takes the two compared floats, the tolerance, and the values
    for equal, greater and less. -/
def inputs : Kind → List Ty
  | input _ => []
  | output => [.vec4]
  | constant _ => []
  | scalarOp _ scalar => [scalar.ty, scalar.ty]
  | vectorOp _ vector => [vector.ty, vector.ty]
  | scalarFunc _ => [.float]
  | vectorFunc _ vector => [vector.ty]
  | noise _ => [.vec2]
  | dot vector => [vector.ty, vector.ty]
  | length vector => [vector.ty]
  | distance vector => [vector.ty, vector.ty]
  | clamp ty => [ty, ty, ty]
  | step ty => [ty, ty]
  | smoothStep ty => [ty, ty, ty]
  | mix ty => [ty, ty, ty]
  | compose vector => List.replicate vector.ty.components .float
  | decompose vector => [vector.ty]
  | branch => [.float, .float, .float, .vec3, .vec3, .vec3]
  | switch ty => [.bool, ty, ty]
  | floatTest _ => [.float]
  | compare ty _ _ => [ty, ty]

/-- Types of the output ports. -/
def outputs : Kind → List Ty
  | input source => [source.ty]
  | output => []
  | constant value => [value.ty]
  | scalarOp _ scalar => [scalar.ty]
  | vectorOp _ vector => [vector.ty]
  | scalarFunc _ => [.float]
  | vectorFunc _ vector => [vector.ty]
  | noise _ => [.float]
  | dot _ => [.float]
  | length _ => [.float]
  | distance _ => [.float]
  | clamp ty => [ty]
  | step ty => [ty]
  | smoothStep ty => [ty]
  | mix ty => [ty]
  | compose vector => [vector.ty]
  | decompose vector => List.replicate vector.ty.components .float
  | branch => [.vec3]
  | switch ty => [ty]
  | floatTest _ => [.bool]
  | compare .. => [.bool]

end Kind

end FragmentGraph
