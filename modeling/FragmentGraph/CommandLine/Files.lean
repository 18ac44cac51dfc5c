/-
  Files by path: reading and writing them, and a disk in memory on which both are functions.

  A path is taken step by step from the current folder, or from the root if it starts with a slash.
  Every step but the last has to lead to a folder; `name/.` has two steps, so it asks for a folder
  `name`.  A slash at the end asks for a folder too, and there is no writing to a folder.
-/
namespace FragmentGraph.CommandLine

/-! ## Access -/

/-- Why a file cannot be read or written. -/
inductive FileError where
  | notFound
  | isDirectory
  | notDirectory
  | other (text : String)
deriving DecidableEq, Repr

def FileError.message : FileError → String
  | notFound => "No such file or directory (os error 2)"
  | isDirectory => "Is a directory (os error 21)"
  | notDirectory => "Not a directory (os error 20)"
  | other text => text

/-- Access to files by path. -/
structure Files (m : Type → Type) where
  read : String → m (Except FileError String)
  write : String → String → m (Except FileError Unit)

/-! ## Paths -/

/-- A step of a path. -/
inductive Step where
  | stay
  | up
  | into (name : String)
deriving DecidableEq, Repr

/-- The step that a part of a path spells. -/
def Step.ofPart (part : String) : Step :=
  if part = "." then .stay else if part = ".." then .up else .into part

/-- A path by its steps. -/
structure Path where
  fromRoot : Bool
  steps : List Step
  /-- A slash stands at the end. -/
  slash : Bool
deriving DecidableEq, Repr

/-- The path that a text spells.  Several slashes count as one; the empty text is no path. -/
def Path.ofString? (text : String) : Option Path :=
  if text.isEmpty then none
  else some
    ⟨text.startsWith "/", ((text.splitOn "/").filter (· ≠ "")).map Step.ofPart, text.endsWith "/"⟩

/-! ## A disk in memory -/

/-- The current folder, those above it, and the root.  How many levels lie between is not known, so no
    two of these are taken for the same. -/
inductive Folder where
  | above (levels : Nat)
  | root
deriving DecidableEq, Repr

namespace Folder

def current : Folder := above 0

/-- The folder one level up; the root is above itself. -/
def parent : Folder → Folder
  | above levels => above (levels + 1)
  | root => root

end Folder

/-- Where a path leads. -/
inductive Place where
  | folder (f : Folder)
  | entry (f : Folder) (name : String)
deriving DecidableEq, Repr

/-- Files in folders.  A folder holds no other folders that a path could name. -/
structure Disk where
  entries : List ((Folder × String) × String)

namespace Disk

/-- A disk with the given files in the current folder. -/
def ofFiles (files : List (String × String)) : Disk :=
  ⟨files.map fun file => ((.current, file.1), file.2)⟩

/-- The content of a file. -/
def get? (d : Disk) (f : Folder) (name : String) : Option String :=
  (d.entries.find? fun e => e.1 = (f, name)).map Prod.snd

/-- Gives a file its content, whether or not it was there. -/
def put (d : Disk) (f : Folder) (name content : String) : Disk :=
  ⟨((f, name), content) :: d.entries.filter fun e => e.1 ≠ (f, name)⟩

/-- Takes steps from a folder. -/
def follow (d : Disk) (f : Folder) : List Step → Except FileError Place
  | [] => .ok (.folder f)
  | .stay :: rest => d.follow f rest
  | .up :: rest => d.follow f.parent rest
  | [.into name] => .ok (.entry f name)
  | .into name :: _ :: _ => .error (if (d.get? f name).isSome then .notDirectory else .notFound)

/-- Follows a path from where it starts. -/
def locate (d : Disk) (path : Path) : Except FileError Place :=
  d.follow (if path.fromRoot then .root else .current) path.steps

def read (d : Disk) (text : String) : Except FileError String := do
  let some path := Path.ofString? text | .error .notFound
  match ← d.locate path with
  | .folder _ => .error .isDirectory
  | .entry f name =>
    match d.get? f name with
    | none => .error .notFound
    | some content => if path.slash then .error .notDirectory else .ok content

def write (d : Disk) (text content : String) : Except FileError Disk := do
  let some path := Path.ofString? text | .error .notFound
  match ← d.locate path with
  | .folder _ => .error .isDirectory
  | .entry f name => if path.slash then .error .isDirectory else .ok (d.put f name content)

/-- The disk's files to read and write. -/
def files : Files (StateM Disk) where
  read text := do return (← get).read text
  write text content := do
    match (← get).write text content with
    | .error e => return .error e
    | .ok d => set d; return .ok ()

end Disk

end FragmentGraph.CommandLine
