import HeaderBindings.Files.Access

/-!
# Failures

What stops a run before it has a result.  The message of a failure is a chain: what was being done
comes first, and what went wrong with it second.
-/

set_option autoImplicit false

namespace HeaderBindings

/-- Why there is no configuration. -/
inductive ConfigFailure where
  | unreadable (path : Text) (error : FileError)
  | malformed (path : Text)
deriving DecidableEq

/-- What is wrong with a configuration file. -/
def ConfigFailure.message : ConfigFailure → Text
  | unreadable path error => "failed to read config file " ++ path ++ ": " ++ error.message
  | malformed path => "failed to parse config file " ++ path

/-- Why a run has no result. -/
inductive Failure where
  /-- Neither a configuration nor a header is given. -/
  | nothingToDo
  /-- The configuration at a path cannot be loaded. -/
  | config (path : Text) (cause : ConfigFailure)
  /-- A directory of headers cannot be listed. -/
  | listing (path : Text) (error : FileError)
  /-- There are no headers. -/
  | noHeaders
  | header (path : Text) (error : FileError)
  | overrides (path : Text) (error : FileError)
  | template (path : Text) (error : FileError)
  | output (path : Text) (error : FileError)
  /-- Linking the documentation of a method does not get past a mention of a function. -/
  | endlessLinks
deriving DecidableEq

namespace Failure

/-- The messages for a failure, what was being done first. -/
def messages : Failure → List Text
  | nothingToDo => ["nothing to do: pass --config or at least one header input"]
  | config path cause => ["loading config from " ++ path, cause.message]
  | listing path error => ["failed to list " ++ path ++ ": " ++ error.message]
  | noHeaders => ["no header files to parse"]
  | header path error => ["reading header " ++ path, error.message]
  | overrides path error => ["reading overrides " ++ path, error.message]
  | template path error => ["reading template " ++ path, error.message]
  | output path error => ["writing output to " ++ path, error.message]
  | endlessLinks => ["linking documentation does not end"]

/-- The messages for a failure on one line. -/
def message (f : Failure) : Text := Text.joinWith ": " f.messages

/-- A message with every line of it indented. -/
def indented (message : Text) : Text :=
  (message.splitOn '\n').flatMap fun line ↦ ("    " ++ line ++ "\n" : Text)

/-- The messages for a failure as the program prints them. -/
def report (f : Failure) : Text :=
  match f.messages with
  | [] => []
  | [only] => "Error: " ++ only ++ "\n"
  | doing :: causes => "Error: " ++ doing ++ "\n\nCaused by:\n" ++ causes.flatMap indented

end Failure

end HeaderBindings
