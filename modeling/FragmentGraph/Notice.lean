/-
  Notices: what loading and compiling report besides their results.

  A notice has a cause and a level; `Notice.message` has the wording of all of them.  A computation that
  gives notices returns them with its result (`Logged`), in the order in which they arose.
-/
import FragmentGraph.Kind.Reader
import FragmentGraph.Wiring.Index
import FragmentGraph.Graph.Error

namespace FragmentGraph

open Glsl Numeric

/-- How much a notice matters. -/
inductive Level where
  | warn
  | debug
  | trace
deriving DecidableEq, Repr

def Level.text : Level → String
  | warn => "WARN"
  | debug => "DEBUG"
  | trace => "TRACE"

/-- What happened. -/
inductive Notice where
  /-- An entry has the id or the kind of the output, and not both. -/
  | reserved (id : NodeId) (type : String)
  /-- An entry has no kind. -/
  | noKind (id : NodeId) (cause : KindError)
  /-- An entry's node cannot be added. -/
  | noNode (id : NodeId) (cause : EditError)
  /-- A link cannot be made. -/
  | noLink (link : Link) (cause : EditError)
  /-- An ordering is asked of booleans; they are compared for equality. -/
  | equalityOnly (op : Comparison)
  /-- A shader of so many nodes and links is compiled. -/
  | compiling (nodes links : Nat)
  /-- A preview of a socket of the given type is compiled. -/
  | previewing (s : Socket) (ty : Ty)
  /-- The block of a node is written. -/
  | emitting (name : String) (id : NodeId)
  /-- A node without emitter is passed over. -/
  | noEmitter (id : NodeId)

namespace Notice

def level : Notice → Level
  | compiling .. => .debug
  | previewing .. => .debug
  | emitting .. => .trace
  | _ => .warn

def message : Notice → String
  | reserved id type =>
    "skipping node " ++ decimal id.toNat ++ " (" ++ type
      ++ "): id 0 is reserved for the single Output node"
  | noKind id cause => "skipping node " ++ decimal id.toNat ++ ": " ++ cause.message
  | noNode id cause => "skipping node " ++ decimal id.toNat ++ ": " ++ cause.message
  | noLink link cause =>
    "skipping connection " ++ link.source.text ++ " -> " ++ link.target.text ++ ": " ++ cause.message
  | equalityOnly op =>
    "boolean Compare only supports equal/not_equal; using equal instead of " ++ op.title
  | compiling nodes links =>
    "compiling shader: " ++ decimal nodes ++ " node(s), " ++ decimal links ++ " connection(s)"
  | previewing s ty => "compiling preview of " ++ s.text ++ " (" ++ ty.title ++ ")"
  | emitting name id => "emitting " ++ name ++ ":" ++ decimal id.toNat
  | noEmitter id =>
    "node " ++ decimal id.toNat ++ " has no code generator; skipping its contribution"

/-- The level and the message. -/
def text (n : Notice) : String := n.level.text ++ ": " ++ n.message

/-- The notices of reading a kind. -/
def ofKind (type : String) (params : Json.Members) : List Notice :=
  ((Kind.fallback? type params).map equalityOnly).toList

end Notice

/-- A result with the notices of its computation. -/
structure Logged (α : Type) where
  result : α
  notices : List Notice

/-- Takes items into a state one after the other; the notices come in the order of the items. -/
def Logged.foldl {σ α : Type} (f : σ → α → Logged σ) (start : σ) (items : List α) : Logged σ :=
  let take (state : Logged σ) (item : α) : Logged σ :=
    let next := f state.result item
    ⟨next.result, state.notices ++ next.notices⟩
  items.foldl take ⟨start, []⟩

end FragmentGraph
