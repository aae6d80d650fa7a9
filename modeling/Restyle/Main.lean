import Restyle.CommandLine

/-!
# Restyle.Main

The program: files are read from the file system, the result goes to standard output and problems
to standard error.
-/

namespace Restyle.CommandLine

/-- How the program is called. -/
def usage : String :=
  "Applies an XSLT 1.0 stylesheet to an XML document.\n\n" ++
  "Usage: restyle <stylesheet.xsl> <document.xml> [name=value ...] [--params <params.json>]\n\n" ++
  "Environment:\n  TRIREME_MAX_DEPTH  maximum template nesting (default 256)"

/-- What the system says about a file that cannot be read. -/
def problemOf : IO.Error → FileProblem
  | .noFileOrDirectory .. => .missing
  | .permissionDenied .. => .system "Permission denied" 13
  | .inappropriateType _ code words => .system words code.toNat
  | .otherError code words => .system words code.toNat
  | error => .system (toString error) 0

/-- The contents of a file. -/
def readFile (name : String) : IO (Except FileProblem (List UInt8)) := do
  try
    let bytes ← IO.FS.readBinFile name
    return .ok bytes.toList
  catch error =>
    return .error (problemOf error)

/-- Do what the arguments ask for. -/
def answer (stylesheet document : String) (arguments : List String) : IO UInt32 := do
  let names := stylesheet :: document :: arguments
  let contents ← names.mapM fun name => do return (name, ← readFile name)
  let files : Files := fun name => (contents.lookup name).getD (.error .missing)
  let depth ← IO.getEnv "TRIREME_MAX_DEPTH"
  match result files depth stylesheet document arguments with
  | .ok text =>
    IO.println text
    return 0
  | .error problem =>
    IO.eprintln s!"Error: {problem.message}"
    return 1

end Restyle.CommandLine

def main (args : List String) : IO UInt32 :=
  match args with
  | stylesheet :: document :: arguments =>
    Restyle.CommandLine.answer stylesheet document arguments
  | _ => do
    IO.eprintln Restyle.CommandLine.usage
    return 1
