import HeaderBindings.Module.Sections

/-!
# Assembling a module

A module begins with a prologue: a text of the library's own in which marked lines stand for the
version and for the sections of enumerations and structs.  A section without a mark follows the
prologue.  Then come the wrapper classes, the functions, the callbacks, the report and the
epilogue.
-/

set_option autoImplicit false

namespace HeaderBindings

/-! ## Marked lines -/

/-- What a line of the prologue stands for. -/
inductive PrologueMark where
  | version | enums | structs
deriving DecidableEq

/-- The mark of a line, after blanks. -/
def PrologueMark.of? (line : Text) : Option PrologueMark :=
  let t := line.trimStart
  if t.startsWith "build_date =" then some .version
  else if t.startsWith "# GENERATED_ENUMS" then some .enums
  else if t.startsWith "# GENERATED_STRUCTS" then some .structs
  else none

/-- The sections that are in place already. -/
structure Placed where
  version : Bool := false
  enums : Bool := false
  structs : Bool := false

namespace Sources

/-- The lines that state the version. -/
def versionLines (s : Sources) : List Node :=
  let version := docOrNotAvailable s.declarations.version
  [.verbatim ("__version__ = \"" ++ version ++ "\"\nbuild_date = \"" ++ version ++ "\"")]

/-- The constants and the enumerations. -/
def constantsAndEnums (s : Sources) : List Node := s.constantGroups ++ s.enums

/-- The sections that are not in place yet. -/
def unplaced (s : Sources) (placed : Placed) : List Node :=
  (if placed.version then [] else s.versionLines) ++
  (if placed.enums then [] else s.constantsAndEnums) ++
  (if placed.structs then [] else s.structs)

/-- Copied lines, the last one first, as a node; nothing if they are blank. -/
def copied (chunk : List Text) : List Node :=
  let t := Text.trimEnd (Text.joinWith "\n" chunk.reverse)
  if t.isEmpty then [] else [.verbatim t]

/-- The nodes for lines of the prologue, when `chunk` holds the lines to be copied since the last
mark, the last one first.  Only the first line with a mark is one; structs bring enumerations with
them, since they refer to them. -/
def expandLines (s : Sources) : Placed → List Text → List Text → List Node
  | placed, chunk, [] => copied chunk ++ s.unplaced placed
  | placed, chunk, line :: lines =>
    match PrologueMark.of? line, placed with
    | some .version, ⟨false, _, _⟩ =>
      copied chunk ++ s.versionLines ++ s.expandLines { placed with version := true } [] lines
    | some .enums, ⟨_, false, _⟩ =>
      copied chunk ++ s.constantsAndEnums ++ s.expandLines { placed with enums := true } [] lines
    | some .structs, ⟨_, _, false⟩ =>
      copied chunk ++ (if placed.enums then [] else s.constantsAndEnums) ++ s.structs ++
        s.expandLines { placed with enums := true, structs := true } [] lines
    | _, _ => s.expandLines placed (line :: chunk) lines

/-- The nodes for a prologue. -/
def expandPrologue (s : Sources) (prologue : Text) : List Node :=
  s.expandLines {} [] prologue.lines

/-- The first line of a module without a prologue. -/
def importNode : Node := .verbatim "import ctypes"

/-- What comes before the wrapper classes. -/
def opening (s : Sources) : Option Text → List Node
  | some prologue => s.expandPrologue prologue
  | none => importNode :: s.unplaced {}

/-- The whole module, if the documentation of its methods can be linked. -/
def module? (s : Sources) (prologue epilogue : Option Text) : Option (List Node) :=
  s.wrappers?.map fun wrappers ↦
    s.opening prologue ++ wrappers ++ s.bindings ++ s.callbacks ++ s.unwrapped s.wrappedNames ++
      (epilogue.map Node.verbatim).toList

/-- The enumerations and structs alone. -/
def typesModule (s : Sources) : List Node := importNode :: (s.enums ++ s.structs)

end Sources

end HeaderBindings
