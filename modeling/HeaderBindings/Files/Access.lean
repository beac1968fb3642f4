import HeaderBindings.Text.Basic

/-!
# Access to files

What a run needs of the world around it: to read, list and write files, and to print.  A run is
written for any monad that offers this, and so it runs on the files of a computer just as on a
file tree that is a value.
-/

set_option autoImplicit false

namespace HeaderBindings

/-- Why a file cannot be read or written. -/
inductive FileError where
  | notFound
  | notDirectory
  | isDirectory
  /-- The path or a name in it is longer than the system takes. -/
  | tooLong
  /-- The path has a character in it that no path may have. -/
  | nulInPath
  /-- The bytes of the file are no text. -/
  | notText
  /-- Anything else, as the system says it. -/
  | other (message : Text)
deriving DecidableEq

/-- The message for a file error. -/
def FileError.message : FileError → Text
  | notFound => "No such file or directory (os error 2)"
  | notDirectory => "Not a directory (os error 20)"
  | isDirectory => "Is a directory (os error 21)"
  | tooLong => "File name too long (os error 36)"
  | nulInPath => "file name contained an unexpected NUL byte"
  | notText => "stream did not contain valid UTF-8"
  | other message => message

/-- A monad with access to files. -/
class FileAccess (m : Type → Type) where
  /-- The path of the current directory. -/
  currentDirectory : m Text
  /-- The path leads to a directory. -/
  isDirectory : Text → m Bool
  /-- The names of the files in a directory, in any order. -/
  filesIn : Text → m (Except FileError (List Text))
  /-- The text of a file. -/
  readText : Text → m (Except FileError Text)
  /-- Make a file with the given text, in place of one that is there. -/
  writeText : Text → Text → m (Except FileError Unit)
  /-- Print a text on standard output. -/
  print : Text → m Unit

end HeaderBindings
