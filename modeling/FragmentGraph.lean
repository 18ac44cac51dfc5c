import FragmentGraph.CommandLine.Arguments
import FragmentGraph.CommandLine.Files
import FragmentGraph.CommandLine.Run
import FragmentGraph.Document.Basic
import FragmentGraph.Document.Load
import FragmentGraph.Document.Reader
import FragmentGraph.Emitter
import FragmentGraph.Glsl.Expr
import FragmentGraph.Glsl.Noise
import FragmentGraph.Glsl.ShaderInput
import FragmentGraph.Glsl.Ty
import FragmentGraph.Graph.Ancestors
import FragmentGraph.Graph.Basic
import FragmentGraph.Graph.Error
import FragmentGraph.Json.Mismatch
import FragmentGraph.Json.Numeral
import FragmentGraph.Json.Printer
import FragmentGraph.Json.Token
import FragmentGraph.Json.Tree
import FragmentGraph.Json.Value
import FragmentGraph.Kind.Basic
import FragmentGraph.Kind.Parameter
import FragmentGraph.Kind.Reader
import FragmentGraph.Main
import FragmentGraph.Named
import FragmentGraph.Notice
import FragmentGraph.Numeric.Binary
import FragmentGraph.Numeric.Fixed
import FragmentGraph.Numeric.Rounding
import FragmentGraph.Numeric.Scientific
import FragmentGraph.Numeric.Shortest
import FragmentGraph.Shader.Circuit
import FragmentGraph.Shader.Compile
import FragmentGraph.Shader.Error
import FragmentGraph.Shader.Program
import FragmentGraph.Shader.Walk
import FragmentGraph.Socket
import FragmentGraph.Socket.Reader
import FragmentGraph.Text.Blank
import FragmentGraph.Text.Invisible
import FragmentGraph.Text.Quoted
import FragmentGraph.Wiring.Basic
import FragmentGraph.Wiring.Index
import FragmentGraph.Proofs.Numeric.Digits
import FragmentGraph.Proofs.Graph.Reach
import FragmentGraph.Proofs.Graph.WellFormed
import FragmentGraph.Proofs.Shader.Failure
import FragmentGraph.Proofs.Shader.Meaning
import FragmentGraph.Proofs.Shader.Steps
import FragmentGraph.Proofs.Socket.Key
import FragmentGraph.Proofs.Socket.Name
import FragmentGraph.Proofs.Walk.Invariant
import FragmentGraph.Proofs.Walk.Postorder
import FragmentGraph.Proofs.Wiring.History
import FragmentGraph.Proofs.Wiring.Live
import FragmentGraph.Proofs.Graph.Calls
import FragmentGraph.Proofs.Glsl.Variables
import FragmentGraph.Proofs.Kind.Template
import FragmentGraph.Proofs.Shader.Code
import FragmentGraph.Proofs.Shader.Scope
import FragmentGraph.Proofs.Glsl.Typing
import FragmentGraph.Proofs.Kind.Documented
import FragmentGraph.Proofs.Document.Entry
import FragmentGraph.Proofs.Shader.Typing
import FragmentGraph.Proofs.Kind.Statement
import FragmentGraph.Proofs.Shader.Sections
import FragmentGraph.Proofs.Shader.Source
import FragmentGraph.Proofs.Graph.Ancestors
import FragmentGraph.Proofs.Walk.Locality
import FragmentGraph.Proofs.Shader.Locality
import FragmentGraph.Proofs.Shader.Preview
import FragmentGraph.Proofs.Document.Load
import FragmentGraph.Proofs.Document.Order
import FragmentGraph.Proofs.Json.Numeral
import FragmentGraph.Proofs.Json.Scan
import FragmentGraph.Proofs.Json.Tree
import FragmentGraph.Proofs.Json.Value
import FragmentGraph.Proofs.Document.RoundTrip
import FragmentGraph.Proofs.Graph.Edits
import FragmentGraph.Proofs.Shader.Emitted
import FragmentGraph.Proofs.Kind.Signature
import FragmentGraph.Proofs.Shader.Swatch
import FragmentGraph.Proofs.Graph.Undo
import FragmentGraph.Proofs.Graph.Renaming
import FragmentGraph.Proofs.Shader.Renaming
import FragmentGraph.Proofs.Numeric.Exact
import FragmentGraph.Proofs.Kind.Range
import FragmentGraph.Proofs.Shader.Sharing
import FragmentGraph.Proofs.Document.Notices
import FragmentGraph.Proofs.Numeric.Literal
import FragmentGraph.Proofs.Socket.Grammar
import FragmentGraph.Proofs.Walk.Iterations
