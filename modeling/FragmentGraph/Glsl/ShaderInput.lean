/-
  Inputs that every fragment shader may read: the coordinate of the fragment and the time.
-/
import FragmentGraph.Glsl.Ty

namespace FragmentGraph.Glsl

/-- An input of the whole shader. -/
inductive ShaderInput where
  | uv
  | time
deriving DecidableEq, Repr

namespace ShaderInput

instance : Named ShaderInput where
  all := [uv, time]
  name
    | uv => "uv"
    | time => "time"
  find_name a := by cases a <;> decide

def ty : ShaderInput → Ty
  | uv => .vec2
  | time => .float

/-- The variable that holds the input. -/
def identifier : ShaderInput → String
  | uv => "FragCoord"
  | time => "uTime"

/-- The storage qualifier of the variable. -/
def qualifier : ShaderInput → String
  | uv => "in"
  | time => "uniform"

def declaration (i : ShaderInput) : String :=
  i.qualifier ++ " " ++ i.ty.keyword ++ " " ++ i.identifier ++ ";\n"

/-- The declarations of all inputs.  A shader that reads one declares all of them. -/
def declarations : String :=
  String.join ((Named.all : List ShaderInput).map declaration)

end ShaderInput

end FragmentGraph.Glsl
