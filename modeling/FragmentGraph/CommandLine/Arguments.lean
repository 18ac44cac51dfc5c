/-
  The arguments of the command line.

  Arguments are taken from left to right, and the first fault ends the reading.  A value stands in the
  argument behind its option, or behind an equals sign in the same argument, or, for a short option,
  directly behind the letter.  A value in an argument of its own must not start with a hyphen unless it
  is one.  Asking for the version or for help ends the reading where it is met; only then are missing
  and conflicting arguments looked for.
-/
import FragmentGraph.Socket.Reader

namespace FragmentGraph.CommandLine

/-- Why the arguments cannot be used. -/
inductive UsageError where
  | unknownOption (option : String)
  | missingValue (option : String)
  | unwantedValue (option : String)
  | repeated (option : String)
  | badValue (option : String) (value : String)
  | extraArgument (argument : String)
  | emptyPath
  | noGraph
  | conflict
deriving DecidableEq, Repr

def UsageError.message : UsageError → String
  | unknownOption option => "unexpected argument '" ++ option ++ "' found"
  | missingValue option => "a value is required for '" ++ option ++ "' but none was supplied"
  | unwantedValue option => "'" ++ option ++ "' takes no value"
  | repeated option => "the argument '" ++ option ++ "' cannot be used multiple times"
  | badValue option value => "invalid value '" ++ value ++ "' for '" ++ option ++ "'"
  | extraArgument argument => "unexpected argument '" ++ argument ++ "' found"
  | emptyPath => "a value is required for '<GRAPH>' but none was supplied"
  | noGraph => "the following required arguments were not provided: <GRAPH>"
  | conflict => "the argument '--list-ancestors' cannot be used with '--preview'"

/-- Options that take a value. -/
inductive Key where
  | preview
  | output
  | listAncestors
deriving DecidableEq, Repr

def Key.option : Key → String
  | preview => "--preview"
  | output => "--output"
  | listAncestors => "--list-ancestors"

/-- What has been read so far. -/
structure Settings where
  graph : Option String := none
  preview : Option Socket := none
  output : Option String := none
  listAncestors : Option NodeId := none
deriving DecidableEq, Repr

/-- What a run is to do with the graph. -/
inductive Task where
  | compile
  | preview (s : Socket)
  | listAncestors (id : NodeId)
deriving DecidableEq, Repr

/-- What the arguments ask for. -/
inductive Request where
  | version
  | help
  | run (graph : String) (task : Task) (output : Option String)
deriving DecidableEq, Repr

/-! ## Values -/

/-- A node id: decimal digits with an optional sign, in range. -/
def readId (value : String) : Option NodeId :=
  let (negative, digits) :=
    match value.toList with
    | '-' :: rest => (true, rest)
    | '+' :: rest => (false, rest)
    | rest => (false, rest)
  if digits.isEmpty then none
  else match readDigits 0 digits with
    | .error _ => none
    | .ok n => if negative && n != 0 then none else some (UInt32.ofNat n)

namespace Settings

/-- Gives an option its value. -/
def set (s : Settings) (key : Key) (value : String) : Except UsageError Settings :=
  match key with
  | .preview =>
    match Socket.read value with
    | .error _ => .error (.badValue key.option value)
    | .ok socket =>
      if s.preview.isSome then .error (.repeated key.option)
      else .ok { s with preview := some socket }
  | .listAncestors =>
    match readId value with
    | none => .error (.badValue key.option value)
    | some id =>
      if s.listAncestors.isSome then .error (.repeated key.option)
      else .ok { s with listAncestors := some id }
  | .output =>
    if value.isEmpty then .error (.missingValue key.option)
    else if s.output.isSome then .error (.repeated key.option)
    else .ok { s with output := some value }

/-- Takes an argument that belongs to no option. -/
def setGraph (s : Settings) (path : String) : Except UsageError Settings :=
  if s.graph.isSome then .error (.extraArgument path)
  else if path.isEmpty then .error .emptyPath
  else .ok { s with graph := some path }

/-- Takes the arguments behind the one that ends the options. -/
def setGraphs (s : Settings) : List String → Except UsageError Settings
  | [] => .ok s
  | path :: rest =>
    match s.setGraph path with
    | .error e => .error e
    | .ok s => s.setGraphs rest

/-- The request, once all arguments are read. -/
def request (s : Settings) : Except UsageError Request :=
  match s.graph, s.preview, s.listAncestors with
  | _, some _, some _ => .error .conflict
  | none, _, _ => .error .noGraph
  | some graph, some socket, none => .ok (.run graph (.preview socket) s.output)
  | some graph, none, some id => .ok (.run graph (.listAncestors id) s.output)
  | some graph, none, none => .ok (.run graph .compile s.output)

end Settings

/-! ## Arguments -/

/-- An argument by its form. -/
inductive Argument where
  /-- An option with a value, or one that waits for it. -/
  | option (key : Key) (value : Option String)
  | version
  | help
  /-- The end of the options. -/
  | endOfOptions
  /-- A path. -/
  | path (text : String)
  | faulty (cause : UsageError)
deriving DecidableEq, Repr

namespace Argument

/-- An argument that starts with two hyphens; what follows them is split at the first equals sign. -/
def long (text : List Char) : Argument :=
  let name := String.ofList (text.takeWhile (· != '='))
  let value := match text.dropWhile (· != '=') with
    | [] => none
    | _ :: value => some (String.ofList value)
  let flag (a : Argument) : Argument :=
    if value.isSome then faulty (.unwantedValue ("--" ++ name)) else a
  match name with
  | "preview" => option .preview value
  | "output" => option .output value
  | "list-ancestors" => option .listAncestors value
  | "version" => flag version
  | "help" => flag help
  | _ => faulty (.unknownOption ("--" ++ name))

/-- An argument that starts with one hyphen and has the given letter behind it. -/
def short (letter : Char) (rest : List Char) : Argument :=
  match letter with
  | 'o' =>
    match rest with
    | [] => option .output none
    | '=' :: value => option .output (some (String.ofList value))
    | value => option .output (some (String.ofList value))
  | 'V' => version
  | 'h' => help
  | letter => faulty (.unknownOption (String.ofList ['-', letter]))

/-- The form of an argument. -/
def ofString (text : String) : Argument :=
  match text.toList with
  | ['-', '-'] => endOfOptions
  | '-' :: '-' :: rest => long rest
  | '-' :: letter :: rest => short letter rest
  | _ => path text

end Argument

/-- Reads arguments behind what is read already. -/
def readFrom (s : Settings) : List String → Except UsageError Request
  | [] => s.request
  | argument :: rest =>
    match Argument.ofString argument with
    | .version => .ok .version
    | .help => .ok .help
    | .faulty cause => .error cause
    | .endOfOptions =>
      match s.setGraphs rest with
      | .error e => .error e
      | .ok s => s.request
    | .path text =>
      match s.setGraph text with
      | .error e => .error e
      | .ok s => readFrom s rest
    | .option key (some value) =>
      match s.set key value with
      | .error e => .error e
      | .ok s => readFrom s rest
    | .option key none =>
      match rest with
      | [] => .error (.missingValue key.option)
      | value :: rest =>
        match Argument.ofString value with
        | .path value =>
          match s.set key value with
          | .error e => .error e
          | .ok s => readFrom s rest
        | _ => .error (.missingValue key.option)

/-- Reads the arguments of a run. -/
def read (arguments : List String) : Except UsageError Request := readFrom {} arguments

end FragmentGraph.CommandLine
