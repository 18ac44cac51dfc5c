/-
  Runs of the command line, over any way of reading and writing files.

  `run` is given the files as two operations and answers with an exit code and what to print.  Over a
  disk in memory (`Disk.files`) a run is a function from the disk before to the disk after.
-/
import FragmentGraph.CommandLine.Arguments
import FragmentGraph.CommandLine.Files
import FragmentGraph.Document.Load
import FragmentGraph.Graph.Ancestors

namespace FragmentGraph.CommandLine

open Numeric (decimal)

/-! ## Runs -/

/-- How a run ends. -/
structure Outcome where
  code : Nat
  stdout : String
  stderr : String
deriving DecidableEq, Repr

namespace Outcome

def success (stdout : String) : Outcome := ⟨0, stdout, ""⟩

/-- A failure with its cause. -/
def failure (what cause : String) : Outcome :=
  ⟨1, "", "Error: " ++ what ++ "\n\nCaused by:\n    " ++ cause ++ "\n"⟩

/-- A text that spells no document. -/
def parseFailure (path : String) : Outcome :=
  ⟨1, "", "Error: in " ++ path ++ "\n\nCaused by:\n    0: " ++ Document.parseFailure⟩

/-- Arguments that cannot be used. -/
def usage (e : UsageError) : Outcome := ⟨2, "", "error: " ++ e.message ++ "\n"⟩

end Outcome

def versionText : String := "shader-graph 0.1.0\n"

def helpText : String :=
  "Compile a shader graph JSON document into GLSL fragment shader source\n"
    ++ "\n"
    ++ "Usage: shader-graph [OPTIONS] <GRAPH>\n"
    ++ "\n"
    ++ "Arguments:\n"
    ++ "  <GRAPH>  Shader graph JSON document\n"
    ++ "\n"
    ++ "Options:\n"
    ++ "      --preview <PREVIEW>                "
    ++ "Compile a preview of one output port instead of the whole graph (`<node>:<port>`)\n"
    ++ "  -o, --output <OUTPUT>                  Write the source here instead of stdout\n"
    ++ "      --list-ancestors <LIST_ANCESTORS>  "
    ++ "Print the ids a node depends on (itself included) and exit\n"
    ++ "  -h, --help                             Print help\n"
    ++ "  -V, --version                          Print version\n"

/-- The line that lists ids. -/
def idLine (ids : List NodeId) : String :=
  " ".intercalate (ids.map fun id => decimal id.toNat) ++ "\n"

/-- What a task makes of a graph: a line to print, a shader's source, or a failure. -/
inductive Product where
  | line (text : String)
  | source (text : String)
  | failed (what : String) (cause : ShaderError)

/-- Does a task with a graph. -/
def Task.perform (g : Graph) : Task → Product
  | .listAncestors id => .line (idLine (g.ancestors id))
  | .preview s =>
    match (g.preview s).result with
    | .ok source => .source source
    | .error e => .failed ("preview of " ++ s.text ++ " failed") e
  | .compile =>
    match g.compile.result with
    | .ok source => .source source
    | .error e => .failed "shader compilation failed" e

section

variable {m : Type → Type} [Monad m]

/-- Hands over a shader's source: to a file if one is named, else to print. -/
def deliver (files : Files m) (source : String) : Option String → m Outcome
  | none => return .success source
  | some path => do
    match ← files.write path source with
    | .ok _ => return .success ""
    | .error e => return .failure ("failed to write " ++ path) e.message

/-- Reads a graph and does the task with it. -/
def runTask (files : Files m) (path : String) (task : Task) (output : Option String) : m Outcome := do
  match ← files.read path with
  | .error e => return .failure ("failed to read shader graph json at " ++ path) e.message
  | .ok text =>
    match Document.parse? text with
    | none => return .parseFailure path
    | some document =>
      match task.perform document.load.result with
      | .line text => return .success text
      | .failed what cause => return .failure what cause.message
      | .source source => deliver files source output

/-- A run with the given arguments. -/
def run (files : Files m) (arguments : List String) : m Outcome :=
  match read arguments with
  | .error e => return .usage e
  | .ok .version => return .success versionText
  | .ok .help => return .success helpText
  | .ok (.run path task output) => runTask files path task output

end

end FragmentGraph.CommandLine
