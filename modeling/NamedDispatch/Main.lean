/-
The program: it reads the command line, generates the header and writes it to the file system.
-/
import NamedDispatch.CommandLine

namespace NamedDispatch.CommandLine

/-- The directory a path lies in, if the path names one. -/
def directoryOf (path : String) : Option String :=
  match FilePath.parentParts path with
  | [] => none
  | parts => some ((if path.toList.head? == some '/' then "/" else "") ++ "/".intercalate parts)

/-- Writes a text to a path, creating the directories on the way to it. -/
def writeText (path text : String) : IO Unit := do
  match directoryOf path with
  | some directory => IO.FS.createDirAll directory
  | none => pure ()
  IO.FS.writeFile path text

/-- Prints what a run leaves to print and gives its exit code. -/
def finish (e : Ending) : IO UInt32 := do
  IO.print e.stdout
  IO.eprint e.stderr
  return e.exit

/-- Runs the program on its arguments, and gives its exit code. -/
def perform (args : List String) : IO UInt32 := do
  match read args with
  | .error fault => finish (.ofUsage fault)
  | .ok .version => finish (.ofLine versionText)
  | .ok (.generate c path) =>
    match Header.generate c with
    | .error fault => finish (.ofFault fault)
    | .ok h =>
      try
        writeText path h.render
        finish (.ofLine path)
      catch cause =>
        IO.eprintln ("Error: Failed to write " ++ path ++ ": " ++ toString cause)
        return 1

end NamedDispatch.CommandLine

/-- The program. -/
def main (args : List String) : IO UInt32 := NamedDispatch.CommandLine.perform args
