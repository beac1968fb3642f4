import HeaderBindings.Header.Functions

/-!
# Type names and constants in a header

Both stand on a single line: `typedef type name;` and `#define NAME value`.
-/

set_option autoImplicit false

namespace HeaderBindings

/-- A type name: the type it stands for, and the name. -/
def aliasPattern : Pattern :=
  .textStart ++ "typedef" ++ .blanks₁ ++
  .optional (.either "struct" (.either "enum" "union") ++ .blanks₁) ++
  .group 1 (.lazySome fun c ↦ isWordChar c || isBlank c || c == '*') ++ .blanks ++
  .wordBoundary ++ .group 2 .word₁ ++ .blanks ++ .finalSemicolon

/-- How a type name is recognised. -/
def aliasKind : BlockKind where
  opens := aliasPattern.occursIn
  closes := Pattern.finalSemicolon.occursIn
  parts? := aliasPattern.parts? 2

/-- The type names of a header with the types they stand for, in order. -/
def aliases (t : Text) : List (Text × Text) :=
  (blocks aliasKind t).map fun b ↦
    ((b.parts[1]?).getD [], plainType ((b.parts[0]?).getD []))

/-- A constant: its name and its value, up to a comment. -/
def constantPattern (conventions : Conventions) : Pattern :=
  .textStart ++ .blanks ++ "#" ++ .blanks ++ "define" ++ .blanks₁ ++
  .group 1 (.text conventions.constantLead ++ .word) ++ .blanks₁ ++ .group 2 .lazyAnything₁ ++
  .blanks ++ .optional (.either ("//" ++ .anything) ("/*" ++ .anything)) ++ .textEnd

/-- The constants of a header with their values, in order. -/
def constants (conventions : Conventions) (t : Text) : List (Text × Text) :=
  t.lines.filterMap fun line ↦
    ((constantPattern conventions).search line).map fun g ↦ (g.get 1, g.get 2)

end HeaderBindings
