import HeaderBindings.Header.Enums
import HeaderBindings.Conventions
import HeaderBindings.Diagnostic

/-!
# Structs in a header

The fields of a struct are its declarators between semicolons.  A constructor among them is passed
over, and a field that cannot be read is left out with a diagnostic.
-/

set_option autoImplicit false

namespace HeaderBindings

/-- The first line of a struct: its name, and whatever follows an opening brace. -/
def structStart : Pattern :=
  .textStart ++ .optionalTypedef ++ "struct" ++ .blanks₁ ++ .word₁ ++ .blanks ++
  .optional ("\x7b" ++ .anything) ++ .textEnd

/-- A whole struct: its name, its fields and its type name. -/
def structPattern : Pattern :=
  .textStart ++ .optionalTypedef ++ "struct" ++ .blanks₁ ++ .group 1 .word₁ ++ .blanks ++ "\x7b" ++
  .group 2 .anything ++ "\x7d" ++ .blanks ++ .group 3 .word ++ .blanks ++ .finalSemicolon

/-- The last line of a struct: its closing brace alone, or the whole of it. -/
def structEnd : Pattern :=
  let closing : Pattern := "\x7d" ++ .blanks ++ .word ++ .blanks ++ .finalSemicolon
  .either (.textStart ++ closing)
    (.textStart ++ .optionalTypedef ++ "struct" ++ .wordBoundary ++ .anything ++ closing)

/-- How a struct is recognised. -/
def structKind : BlockKind where
  opens := structStart.occursIn
  closes := structEnd.occursIn
  parts? := structPattern.parts? 3

/-- What one entry between the braces of a struct gives: a field, a diagnostic or neither. -/
def readField (conventions : Conventions) (struct location entry : Text) :
    Option Parameter × Option Diagnostic :=
  let refused := some (Diagnostic.unparsable entry.trim ("struct " ++ struct) location)
  if entry.contains (struct ++ ['(']) then (none, none)
  else
    match Declarator.parse conventions.callbackTag entry with
    | .named name type => if name.isEmpty then (none, refused) else (some { name, type }, none)
    | .nothing => (none, none)
    | .unparsable => (none, refused)

/-- The struct in a block, with what is wrong with it. -/
def structOfBlock (conventions : Conventions) (file : Text) (b : Block) :
    Struct × List Diagnostic :=
  let part (i : Nat) : Text := (b.parts[i]?).getD []
  let name := part 0
  let location : Location := ⟨file, b.line⟩
  let entries :=
    (splitTopLevel ';' (part 1)).map (readField conventions name location.display)
  ({ name, fields := entries.filterMap (·.1), doc := typeDoc b.doc, location },
   entries.filterMap (·.2))

/-- The structs of a header, with what is wrong with them. -/
def structs (conventions : Conventions) (file t : Text) : List Struct × List Diagnostic :=
  let found := (blocks structKind t).map (structOfBlock conventions file)
  (found.map (·.1), found.flatMap (·.2))

end HeaderBindings
