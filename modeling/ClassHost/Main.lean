import ClassHost.Command.Report

/-!
# The program

Reads the files that the command line calls for, prints the report, and exits with its status.
-/

namespace ClassHost

/-- The files at some paths, as they are now. -/
def readFiles (paths : List String) : IO FileSystem := do
  let mut found : List (String × Bytes) := []
  for path in paths do
    try
      found := (path, (← IO.FS.readBinFile path).toList) :: found
    catch _ => pure ()
  let files := found
  return fun path => files.lookup path

def runMain (arguments : List String) : IO UInt32 := do
  let paths := match Command.ofArguments arguments with
    | .ok command => command.reads
    | .error _ => []
  let outcome := Command.runArguments (← readFiles paths) arguments
  IO.print outcome.output
  if let some complaint := outcome.complaint then IO.eprintln ("error: " ++ complaint)
  return outcome.status.toUInt32

end ClassHost

def main (arguments : List String) : IO UInt32 := ClassHost.runMain arguments
