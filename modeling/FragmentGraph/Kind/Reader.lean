/-
  Kinds from their names in documents and their parameters.

  A parameter that is missing has a default.  Parameters are read in a fixed order and the first fault
  is reported.  Not every kind can be read: `clamp` takes no booleans, `step`, `smoothStep` and `mix`
  take floats and vectors only, the output has no entry of its own, and booleans are compared for
  equality only: an ordering asked of them is read as `equal` (`Kind.fallback?` tells when).
-/
import FragmentGraph.Kind.Basic
import FragmentGraph.Json.Mismatch

namespace FragmentGraph

open Glsl Json Numeric

/-- Why an entry has no kind. -/
inductive KindError where
  /-- A parameter that cannot be read. -/
  | badParameter (key : String) (value : Value) (cause : Mismatch)
  /-- Booleans where numbers are needed. -/
  | boolOperands (type : String)
  /-- Integers where only floats and vectors are known. -/
  | noOverload (type : String) (ty : Ty)
  /-- The output, which no entry can add. -/
  | outputEntry
  /-- A name that no kind has. -/
  | unsupported (type : String)

def KindError.message : KindError → String
  | badParameter key value cause =>
    "invalid param '" ++ key ++ "' = " ++ value.render ++ ": " ++ cause.message
  | boolOperands type => type ++ " does not accept bool operands"
  | noOverload type ty => type ++ " has no " ++ ty.keyword ++ " overload"
  | outputEntry => "Output nodes are only allowed at id 0"
  | unsupported type => "unsupported node type: " ++ type

/-- The parameter under `key`, or the default if there is none. -/
def parameter {α : Type} (params : Members) (key : String) (read : Value → Except Mismatch α)
    (default : α) : Except KindError α :=
  match params.get? key with
  | none => .ok default
  | some value =>
    match read value with
    | .ok a => .ok a
    | .error cause => .error (.badParameter key value cause)

namespace Kind

/-- The named parameter under `key`. -/
def choice {α : Type} [Named α] (params : Members) (key : String) (default : α) :
    Except KindError α :=
  parameter params key readNamed default

/-- The parameter `vector`. -/
def vectorChoice (params : Members) : Except KindError VectorTy := choice params "vector" .vec3

/-- The parameter `type`. -/
def typeChoice (params : Members) : Except KindError Ty := choice params "type" .float

/-- The floats of the parameter `value`, zeros if there is none. -/
def floatParts (params : Members) (count : Nat) : Except KindError (List Single) :=
  parameter params "value" (readSingles count) (List.replicate count .zero)

/-- The constant of a `constant` node: its type, then its value. -/
def readConstant (params : Members) : Except KindError Constant := do
  match ← typeChoice params with
  | .float => return .float (← parameter params "value" readSingle .zero)
  | .int => return .int (← parameter params "value" readInt 0)
  | .uint => return .uint (← parameter params "value" readUInt 0)
  | .bool => return .bool (← parameter params "value" readBool false)
  | .vec2 =>
    let parts ← floatParts params 2
    return .vec2 (parts.getD 0 .zero) (parts.getD 1 .zero)
  | .vec3 =>
    let parts ← floatParts params 3
    return .vec3 (parts.getD 0 .zero) (parts.getD 1 .zero) (parts.getD 2 .zero)
  | .vec4 =>
    let parts ← floatParts params 4
    return .vec4 (parts.getD 0 .zero) (parts.getD 1 .zero) (parts.getD 2 .zero) (parts.getD 3 .zero)

/-- A type other than `bool`. -/
def numeric (type : String) (ty : Ty) : Except KindError Ty :=
  if ty = .bool then .error (.boolOperands type) else .ok ty

/-- A float or a vector. -/
def floatBased (type : String) (ty : Ty) : Except KindError Ty :=
  if ty.isIntegral then .error (.noOverload type ty) else numeric type ty

/-- The comparison that is made of values of the given type when `op` is asked for. -/
def comparable (ty : Ty) (op : Comparison) : Comparison :=
  if ty = .bool ∧ op.isOrdering then .equal else op

/-- The kind with the given name and parameters. -/
def read (type : String) (params : Members) : Except KindError Kind := do
  match type with
  | "Input" => return .input (← choice params "input" .uv)
  | "Constant" => return .constant (← readConstant params)
  | "ScalarOp" =>
    let op ← choice params "op" BinaryOp.add
    return .scalarOp op (← choice params "scalar" .float)
  | "VectorOp" =>
    let op ← choice params "op" BinaryOp.add
    return .vectorOp op (← vectorChoice params)
  | "ScalarFunc" => return .scalarFunc (← choice params "func" .sin)
  | "VectorFunc" =>
    let fn ← choice params "func" UnaryFn.normalize
    return .vectorFunc fn (← vectorChoice params)
  | "ValueNoise" => return .noise .value
  | "GradientNoise" => return .noise .gradient
  | "SimplexNoise" => return .noise .simplex
  | "Dot" => return .dot (← vectorChoice params)
  | "Length" => return .length (← vectorChoice params)
  | "Distance" => return .distance (← vectorChoice params)
  | "Clamp" => return .clamp (← numeric type (← typeChoice params))
  | "Step" => return .step (← floatBased type (← typeChoice params))
  | "SmoothStep" => return .smoothStep (← floatBased type (← typeChoice params))
  | "Mix" => return .mix (← floatBased type (← typeChoice params))
  | "Compose" => return .compose (← vectorChoice params)
  | "Decompose" => return .decompose (← vectorChoice params)
  | "If" => return .branch
  | "Switch" => return .switch (← typeChoice params)
  | "IsInfNan" => return .floatTest (← choice params "check" .isNan)
  | "Compare" =>
    let ty ← typeChoice params
    let op ← choice params "op" Comparison.equal
    return .compare ty (comparable ty op) (← choice params "condition" .all)
  | "Output" => .error .outputEntry
  | _ => .error (.unsupported type)

/-- The ordering that an entry asks of booleans and does not get. -/
def fallback? (type : String) (params : Members) : Option Comparison :=
  if type = "Compare" then
    match typeChoice params, (choice params "op" .equal : Except KindError Comparison) with
    | .ok ty, .ok op => if comparable ty op = op then none else some op
    | _, _ => none
  else none

end Kind

end FragmentGraph
