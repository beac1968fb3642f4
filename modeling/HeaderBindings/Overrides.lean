import HeaderBindings.Text.Pattern
import Std.Data.TreeMap
import Std.Data.TreeSet

/-!
# Hand-written classes

Parts of a generated module may be written by hand.  The source of these parts is a sequence of
classes: a `class` line at the left margin, and its body up to the next such line.  A string
literal at the start of a body is the docstring of its class, and the methods defined in the rest
are not generated again.
-/

set_option autoImplicit false

namespace HeaderBindings

/-- A class written by hand. -/
structure ClassOverride where
  /-- The body, without the docstring. -/
  code : Text
  /-- The docstring, empty if there is none. -/
  doc : Text
  /-- The names of the methods defined in the body. -/
  methods : Std.TreeSet Text

/-- The classes written by hand, by their names. -/
abbrev Overrides := Std.TreeMap Text ClassOverride

/-! ## Sections -/

/-- A class as it stands in the source. -/
structure ClassSection where
  /-- The line that opens the class. -/
  header : Text
  /-- The name of the class. -/
  name : Text
  /-- Everything up to the line that opens the next class. -/
  body : Text
deriving DecidableEq

/-- The line that opens a class, with the class's name as group 1. -/
def classPattern : Pattern :=
  .textStart ++ "class" ++ .blanks₁ ++ .group 1 .word₁ ++
  .optional ("(" ++ .some₁ Pattern.notLineFeed ++ ")") ++ ":"

/-- The text before the first class of the given lines, and the classes. -/
def classSections : List Text → Text × List ClassSection
  | [] => ([], [])
  | line :: lines =>
    let (before, sections) := classSections lines
    match classPattern.search line with
    | some g => ([], ⟨line, g.get 1, before⟩ :: sections)
    | none => (line ++ before, sections)

/-! ## Bodies -/

/-- The two quotes of a string literal over several lines. -/
def tripleQuotes : List Text := ["\"\"\"", "'''"]

/-- The docstring and the code of a body; a body that does not start with a closed string literal
is all code. -/
def splitDocstring (body : Text) : Text × Text :=
  (tripleQuotes.findSome? fun quote ↦
    (body.trimStart.afterLead? quote).bind (·.splitAtFirst? quote)).getD ([], body)

/-- The definition of a method, with its name as group 1. -/
def methodPattern : Pattern :=
  .lineStart ++ .blanks₁ ++ "def" ++ .blanks₁ ++ .group 1 .word₁

/-- The class with the given body. -/
def ClassOverride.ofBody (body : Text) : ClassOverride :=
  let (doc, code) := splitDocstring body
  { code, doc, methods := .ofList ((methodPattern.collect code).map (·.get 1)) compare }

namespace Overrides

/-- The classes of a source.  Of several classes with one name the last one counts. -/
def ofSource (source : Text) : Overrides :=
  (∅ : Overrides).insertMany
    ((classSections source.rawLines).2.map fun s ↦ (s.name, ClassOverride.ofBody s.body))

/-- The code of a class, empty if the class is not written by hand. -/
def codeFor (o : Overrides) (cls : Text) : Text := (o[cls]?.map (·.code)).getD []

/-- The docstring of a class, empty if there is none. -/
def docFor (o : Overrides) (cls : Text) : Text := (o[cls]?.map (·.doc)).getD []

/-- The methods of a class that are written by hand, in order. -/
def methodsOf (o : Overrides) (cls : Text) : List Text :=
  (o[cls]?.map (·.methods.toList)).getD []

/-- A method of a class is written by hand. -/
def definesMethod (o : Overrides) (cls method : Text) : Bool :=
  o[cls]?.any (·.methods.contains method)

end Overrides

end HeaderBindings
