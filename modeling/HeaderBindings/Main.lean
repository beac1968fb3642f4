import HeaderBindings.CommandLine

/-!
# The program

The command line on the files of the computer it runs on.
-/

set_option autoImplicit false

namespace HeaderBindings

/-- The file error that a system error amounts to. -/
def fileErrorOf (e : IO.Error) : FileError :=
  match e with
  | .noFileOrDirectory _ _ _ => .notFound
  | .inappropriateType _ 20 _ => .notDirectory
  | .inappropriateType _ 21 _ => .isDirectory
  | .invalidArgument _ 36 _ => .tooLong
  | e => .other e.toString.toList

/-- An access to the file at a path with its system error caught. -/
def catchFileError {α : Type} (path : Text) (access : IO α) : IO (Except FileError α) := do
  if '\x00' ∈ path then return .error .nulInPath
  try
    return .ok (← access)
  catch e =>
    return .error (fileErrorOf e)

/-- The text of a file. -/
def readTextFile (path : Text) : IO (Except FileError Text) := do
  match ← catchFileError path (IO.FS.readBinFile (String.ofList path)) with
  | .error e => return .error e
  | .ok bytes =>
    match String.fromUTF8? bytes with
    | some s => return .ok s.toList
    | none => return .error .notText

/-- The names of the files in a directory. -/
def fileNamesIn (path : Text) : IO (List Text) := do
  let here ← IO.currentDir
  let mut names := []
  for entry in ← (here / String.ofList path).readDir do
    unless ← entry.path.isDir do
      names := entry.fileName.toList :: names
  return names

/-- A run on the files of the computer. -/
instance : FileAccess IO where
  currentDirectory := return (← IO.currentDir).toString.toList
  isDirectory path := do
    if path.isEmpty ∨ '\x00' ∈ path then return false
    (← IO.currentDir) / String.ofList path |>.isDir
  filesIn path := catchFileError path (fileNamesIn path)
  readText := readTextFile
  writeText path t :=
    catchFileError path (IO.FS.writeFile (String.ofList path) (String.ofList t))
  print t := do (← IO.getStdout).putStr (String.ofList t)

end HeaderBindings

open HeaderBindings in
/-- The program: its exit status is the number of diagnostics, or tells a failure. -/
def main (arguments : List String) : IO UInt32 := do
  let result : ProgramResult ← runProgram (arguments.map String.toList)
  (← IO.getStdout).putStr (String.ofList result.stdout)
  (← IO.getStderr).putStr (String.ofList result.stderr)
  return UInt32.ofNat result.status
