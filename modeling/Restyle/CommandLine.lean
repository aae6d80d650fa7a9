import Restyle.Transform
import Restyle.Text.Search

/-!
# Restyle.CommandLine

A transformation as it is asked for on a command line: the name of a stylesheet, the name of a
document, and parameters, each given as `name=value` or, many at once, as `--params` with the name
of a JSON file.

The files are a function from names to contents, so that everything here is a plain computation.
-/

namespace Restyle.CommandLine

/-- Why a file cannot be used. -/
inductive FileProblem where
  /-- The system refuses, with its own words and number. -/
  | system (words : String) (number : Nat)
  | nulInName
  | notUtf8
deriving DecidableEq, Repr

/-- There is no such file. -/
def FileProblem.missing : FileProblem := .system "No such file or directory" 2

/-- The words for a problem. -/
def FileProblem.message : FileProblem → String
  | .system words number => s!"{words} (os error {number})"
  | .nulInName => "file name contained an unexpected NUL byte"
  | .notUtf8 => "stream did not contain valid UTF-8"

/-- Why there is no result. -/
inductive Problem where
  | file (name : String) (problem : FileProblem)
  | json (name message : String)
  | failure (reason : Failure)
  /-- `--params` is the last argument. -/
  | noParamsFile
  /-- An argument has no equals sign. -/
  | notAssignment (argument : String)
  | badDepth (text : String)

/-- The words for a problem. -/
def Problem.message : Problem → String
  | .file name problem => s!"{name}: {problem.message}"
  | .json name message => s!"{name}: {message}"
  | .failure reason => reason.message
  | .noParamsFile => "--params needs a file argument"
  | .notAssignment argument => s!"Expected name=value, got '{argument}'"
  | .badDepth text => s!"TRIREME_MAX_DEPTH must be a positive integer, got '{text}'"

/-- The contents of files by name. -/
abbrev Files := String → Except FileProblem (List UInt8)

/-- The text in a file. -/
def Files.text (files : Files) (name : String) : Except Problem String :=
  match files name with
  | .error problem => .error (.file name problem)
  | .ok bytes => (Text.decodeUtf8 bytes).mapError fun _ => .file name .notUtf8

/-- The parameters in a JSON file. -/
def Files.parameters (files : Files) (name : String) : Except Problem Parameters := do
  let text ← files.text name
  let json ← (Json.parse text).mapError (.json name)
  (Parameters.ofJson json).mapError .failure

/-- The name and the value in an argument, on the two sides of its first equals sign. -/
def assignment? (argument : String) : Option (String × String) :=
  match argument.toList.dropWhile (· != '=') with
  | [] => none
  | _ :: value =>
    some (String.ofList (argument.toList.takeWhile (· != '=')), String.ofList value)

/-- The given parameters and those in arguments; where a name comes again, the last value counts. -/
def readParameters (files : Files) (params : Parameters) :
    List String → Except Problem Parameters
  | [] => .ok params
  | ["--params"] => .error .noParamsFile
  | "--params" :: name :: others => do
    let new ← files.parameters name
    readParameters files (new.foldl (fun all (name, value) => all.insert name value) params) others
  | argument :: others =>
    match assignment? argument with
    | some (name, value) => readParameters files (params.insert name (.string value)) others
    | none => .error (.notAssignment argument)

/-- The largest depth limit there is. -/
def maxDepthLimit : Nat := Nat.pow 2 64 - 1

/-- The number that a text states as the depth limit: digits, with a plus sign or without. -/
def readDepth? (text : String) : Option Nat :=
  let digits := match text.toList with
    | '+' :: cs => cs
    | cs => cs
  if digits.isEmpty || !digits.all Char.isDigit then none
  else if maxDepthLimit < digitsValue digits then none
  else some (digitsValue digits)

/-- The settings where a depth limit may be stated. -/
def settings (depth : Option String) : Except Problem Settings :=
  match depth with
  | none => .ok .standard
  | some text =>
    match readDepth? text with
    | some n => .ok { Settings.standard with maxDepth := n }
    | none => .error (.badDepth text)

/-- The result that a command line asks for. -/
def result (files : Files) (depth : Option String) (stylesheet document : String)
    (arguments : List String) : Except Problem String := do
  let params ← readParameters files [] arguments
  let settings ← settings depth
  let style ← files.text stylesheet
  let source ← files.text document
  let stylesheet ← (Stylesheet.ofText style).mapError .failure
  (stylesheet.transform settings params source).mapError .failure

end Restyle.CommandLine
