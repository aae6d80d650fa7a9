import Restyle.CommandLine

/-!
# Restyle.CommandLine.Directory

Directories of files that are known beforehand, and what a path leads to in them.

A path is read name by name.  An empty name and a dot stay in the directory, two dots lead to the
one around it, and a name in front of a slash must be a directory.  Outside the outermost directory
nothing is known.
-/

namespace Restyle.CommandLine

/-- The path leads to a directory. -/
def FileProblem.directory : FileProblem := .system "Is a directory" 21

/-- A name in front of a slash is a file. -/
def FileProblem.notDirectory : FileProblem := .system "Not a directory" 20

/-- The path or a name in it has too many bytes. -/
def FileProblem.tooLong : FileProblem := .system "File name too long" 36

/-- The parts of a path between its slashes. -/
def pathParts : List Char → List String
  | [] => [""]
  | '/' :: cs => "" :: pathParts cs
  | c :: cs =>
    match pathParts cs with
    | [] => [String.ofList [c]]
    | part :: parts => String.ofList (c :: part.toList) :: parts

/-- The files in a directory and below it, each with the names that lead to it. -/
abbrev Directory := List (List String × List UInt8)

namespace Directory

/-- The directory of files with these paths. -/
def ofPaths (files : List (String × List UInt8)) : Directory :=
  files.map fun (path, bytes) => (pathParts path.toList, bytes)

/-- What has the name in a directory: a file has no further names. -/
def enter (here : Directory) (name : String) : Directory :=
  here.filterMap fun (path, bytes) =>
    match path with
    | [] => none
    | first :: rest => if first = name then some (rest, bytes) else none

/-- The file itself, if no further names lead to it. -/
def file? (found : Directory) : Option (List UInt8) := found.lookup []

/-- How many bytes a name may have. -/
def nameLimit : Nat := 255

/-- How many bytes a path may have. -/
def pathLimit : Nat := 4095

/-- The file that names lead to from a directory with others around it, innermost first. -/
def follow (above : List Directory) (here : Directory) :
    List String → Except FileProblem (List UInt8)
  | [] => .error .directory
  | name :: names =>
    if name = "" || name = "." then follow above here names
    else if name = ".." then follow above.tail (above.headD []) names
    else if nameLimit < name.utf8ByteSize then .error .tooLong
    else
      let found := here.enter name
      match found.file? with
      | some bytes => if names.isEmpty then .ok bytes else .error .notDirectory
      | none => if found.isEmpty then .error .missing else follow (here :: above) found names

/-- The files of a directory by their paths. -/
def files (here : Directory) : Files := fun path =>
  if path.toList.contains '\x00' then .error .nulInName
  else if path.isEmpty then .error .missing
  else if pathLimit < path.utf8ByteSize then .error .tooLong
  else if path.toList.head? = some '/' then follow [] [] (pathParts path.toList)
  else follow [] here (pathParts path.toList)

end Directory

end Restyle.CommandLine
