import HeaderBindings.Text.Basic

/-!
# Paths

A path is text whose parts stand between slashes.  Paths are joined and shortened as text, so that
one that was written with dots or doubled slashes keeps them.
-/

set_option autoImplicit false

namespace HeaderBindings.Path

/-- The path starts at the root. -/
def isAbsolute (path : Text) : Bool := path.head? == some '/'

/-- The path as seen from a base: an absolute path by itself, any other one behind the base. -/
def join (base path : Text) : Text :=
  if isAbsolute path || base.isEmpty then path
  else if base.getLast? == some '/' then base ++ path
  else base ++ '/' :: path

/-- A reversed path without the slashes and single dots at its end; the root stays. -/
def trimSeparators : Text → Text
  | ['/'] => ['/']
  | '/' :: rest => trimSeparators rest
  | '.' :: '/' :: rest => trimSeparators ('/' :: rest)
  | path => path

/-- The path without its last part, unless it has none. -/
def parent? (path : Text) : Option Text :=
  match trimSeparators path.reverse with
  | [] => none
  | ['/'] => none
  | trimmed => some (trimSeparators (trimmed.dropWhile (· != '/'))).reverse

/-- The file name has the given extension, with a name in front of it. -/
def hasExtension (extension name : Text) : Bool :=
  (name.beforeTail? ('.' :: extension)).any (!·.isEmpty)

end HeaderBindings.Path
