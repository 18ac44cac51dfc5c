/-
  The program: the command line over the files of the system.
-/
import FragmentGraph.CommandLine.Run

namespace FragmentGraph.CommandLine

/-- A failure of the system, by its cause. -/
def FileError.ofSystem : IO.Error → FileError
  | .noFileOrDirectory .. => .notFound
  | .inappropriateType _ 21 _ => .isDirectory
  | .inappropriateType .. => .notDirectory
  | e => .other (toString e)

/-- The files of the system. -/
def systemFiles : Files IO where
  read path := do
    try
      return .ok (← IO.FS.readFile path)
    catch e => return .error (.ofSystem e)
  write path content := do
    try
      IO.FS.writeFile path content
      return .ok ()
    catch e => return .error (.ofSystem e)

end FragmentGraph.CommandLine

/-- Runs the program with the arguments of the process. -/
def main (arguments : List String) : IO UInt32 := do
  let outcome ← FragmentGraph.CommandLine.run FragmentGraph.CommandLine.systemFiles arguments
  IO.print outcome.stdout
  IO.eprint outcome.stderr
  return outcome.code.toUInt32
