/-
  JSON texts as trees that keep everything: numbers as they are spelled, members in their order, repeated
  keys, strings without a text.

  `Tree.ofTokens?` builds the tree with a stack of the containers that are still open, one token at a
  time, so the depth of a text is bounded by nothing but memory.  `Tree.parse?` takes a whole text: one
  value with white space around it.
-/
import FragmentGraph.Json.Token

namespace FragmentGraph.Json

/-- A JSON text. -/
inductive Tree where
  | null
  | bool (b : Bool)
  | numeral (n : Numeral)
  | text (content : Option String)
  | array (items : List Tree)
  | object (members : List (Option String × Tree))

/-- A container that is still open, with what it holds so far (last first). -/
inductive Frame where
  | items (done : List Tree)
  | members (done : List (Option String × Tree))
  | member (done : List (Option String × Tree)) (name : Option String)

/-- What may come next.  The stack holds the open containers, innermost first. -/
inductive Builder where
  /-- A value. -/
  | value (stack : List Frame)
  /-- The first item of an array, or its end. -/
  | firstItem (stack : List Frame)
  /-- The first key of an object, or its end. -/
  | firstKey (stack : List Frame)
  /-- A key. -/
  | key (done : List (Option String × Tree)) (stack : List Frame)
  /-- The colon behind a key. -/
  | colon (stack : List Frame)
  /-- A comma or the end of the innermost container. -/
  | separator (stack : List Frame)
  /-- Nothing: the text is complete. -/
  | complete (tree : Tree)

namespace Builder

/-- A finished value goes to the innermost open container. -/
def deliver (tree : Tree) : List Frame → Option Builder
  | [] => some (complete tree)
  | .items done :: stack => some (separator (.items (tree :: done) :: stack))
  | .member done name :: stack => some (separator (.members ((name, tree) :: done) :: stack))
  | .members _ :: _ => none

/-- A token where a value is wanted. -/
def begin? (stack : List Frame) : Token → Option Builder
  | .null => deliver .null stack
  | .bool b => deliver (.bool b) stack
  | .numeral n => deliver (.numeral n) stack
  | .text content => deliver (.text content) stack
  | .openArray => some (firstItem stack)
  | .openObject => some (firstKey stack)
  | _ => none

/-- A token where a key is wanted. -/
def beginMember? (done : List (Option String × Tree)) (stack : List Frame) : Token → Option Builder
  | .text name => some (colon (.member done name :: stack))
  | _ => none

/-- One token. -/
def next? (token : Token) : Builder → Option Builder
  | value stack => begin? stack token
  | firstItem stack =>
    if token = .closeArray then deliver (.array []) stack else begin? (.items [] :: stack) token
  | firstKey stack =>
    if token = .closeObject then deliver (.object []) stack else beginMember? [] stack token
  | key done stack => beginMember? done stack token
  | colon stack => if token = .colon then some (value stack) else none
  | separator (.items done :: stack) =>
    if token = .comma then some (value (.items done :: stack))
    else if token = .closeArray then deliver (.array done.reverse) stack
    else none
  | separator (.members done :: stack) =>
    if token = .comma then some (key done stack)
    else if token = .closeObject then deliver (.object done.reverse) stack
    else none
  | separator _ => none
  | complete _ => none

/-- Takes all tokens in turn. -/
def run? (state : Builder) : List Token → Option Builder
  | [] => some state
  | token :: rest =>
    match state.next? token with
    | none => none
    | some state => run? state rest

end Builder

namespace Tree

/-- The one value that the tokens spell. -/
def ofTokens? (tokens : List Token) : Option Tree :=
  match (Builder.value []).run? tokens with
  | some (.complete tree) => some tree
  | _ => none

/-- The one value that the text spells. -/
def parse? (text : String) : Option Tree := do
  ofTokens? (← Token.scan? text.toList)

end Tree

end FragmentGraph.Json
