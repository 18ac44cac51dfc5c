/-
  Procedural noise in two dimensions: the functions that a shader defines to sample it.

  Every flavour names its functions after itself, so that several flavours fit into one shader.
-/
namespace FragmentGraph.Glsl

/-- A flavour of noise. -/
inductive Noise where
  | value
  | gradient
  | simplex
deriving DecidableEq, Repr

namespace Noise

/-- The function that samples the noise at a point. -/
def function : Noise → String
  | value => "value_noise"
  | gradient => "gradient_noise"
  | simplex => "simplex_noise"

/-- Interpolates random values at the corners of a unit cell. -/
def valueDefinition : String := "
float value_noise_hash(vec2 p) \x7b
\treturn fract(sin(dot(p, vec2(12.9898, 78.233))) * 43758.5453);
\x7d

float value_noise(vec2 uv) \x7b
\tvec2 i = floor(uv);
\tvec2 f = fract(uv);
\tfloat a = value_noise_hash(i);
\tfloat b = value_noise_hash(i + vec2(1.0, 0.0));
\tfloat c = value_noise_hash(i + vec2(0.0, 1.0));
\tfloat d = value_noise_hash(i + vec2(1.0, 1.0));
\tvec2 u = f * f * (3.0 - 2.0 * f);
\treturn mix(a, b, u.x) + (c - a) * u.y * (1.0 - u.x) + (d - b) * u.x * u.y;
\x7d
"

/-- Interpolates random gradients at the corners of a unit cell. -/
def gradientDefinition : String := "
vec2 gradient_noise_dir(vec2 p) \x7b
\tp = mod(p, 289.0);
\tfloat x = mod((34.0 * p.x + 1.0) * p.x, 289.0) + p.y;
\tx = mod((34.0 * x + 1.0) * x, 289.0);
\tx = fract(x / 41.0) * 2.0 - 1.0;
\treturn normalize(vec2(x - floor(x + 0.5), abs(x) - 0.5));
\x7d

float gradient_noise(vec2 uv) \x7b
\tvec2 ip = floor(uv);
\tvec2 fp = fract(uv);
\tfloat d00 = dot(gradient_noise_dir(ip), fp);
\tfloat d01 = dot(gradient_noise_dir(ip + vec2(0.0, 1.0)), fp - vec2(0.0, 1.0));
\tfloat d10 = dot(gradient_noise_dir(ip + vec2(1.0, 0.0)), fp - vec2(1.0, 0.0));
\tfloat d11 = dot(gradient_noise_dir(ip + vec2(1.0, 1.0)), fp - vec2(1.0, 1.0));
\tfp = fp * fp * fp * (fp * (fp * 6.0 - 15.0) + 10.0);
\treturn mix(mix(d00, d01, fp.y), mix(d10, d11, fp.y), fp.x) + 0.5;
\x7d
"

/-- Sums contributions of the three corners of a simplex. -/
def simplexDefinition : String := "
vec3 simplex_noise_permute(vec3 x) \x7b
\treturn mod(((x * 34.0) + 1.0) * x, 289.0);
\x7d

float simplex_noise(vec2 v) \x7b
\tconst vec4 C = vec4(0.211324865405187, 0.366025403784439, -0.577350269189626, 0.024390243902439);
\tvec2 i = floor(v + dot(v, C.yy));
\tvec2 x0 = v - i + dot(i, C.xx);
\tvec2 i1 = (x0.x > x0.y) ? vec2(1.0, 0.0) : vec2(0.0, 1.0);
\tvec4 x12 = x0.xyxy + C.xxzz;
\tx12.xy -= i1;
\ti = mod(i, 289.0);
\tvec3 p = simplex_noise_permute(simplex_noise_permute(i.y + vec3(0.0, i1.y, 1.0)) + i.x + vec3(0.0, i1.x, 1.0));
\tvec3 m = max(0.5 - vec3(dot(x0, x0), dot(x12.xy, x12.xy), dot(x12.zw, x12.zw)), 0.0);
\tm = m * m;
\tm = m * m;
\tvec3 x = 2.0 * fract(p * C.www) - 1.0;
\tvec3 h = abs(x) - 0.5;
\tvec3 ox = floor(x + 0.5);
\tvec3 a0 = x - ox;
\tm *= 1.79284291400159 - 0.85373472095314 * (a0 * a0 + h * h);
\tvec3 g;
\tg.x = a0.x * x0.x + h.x * x0.y;
\tg.yz = a0.yz * x12.xz + h.yz * x12.yw;
\treturn 130.0 * dot(m, g);
\x7d
"

/-- The definitions of the function and of what it calls. -/
def definition : Noise → String
  | value => valueDefinition
  | gradient => gradientDefinition
  | simplex => simplexDefinition

end Noise

end FragmentGraph.Glsl
