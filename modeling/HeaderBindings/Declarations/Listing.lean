import HeaderBindings.Declarations.Basic

/-!
# Listings

A listing shows every declaration that was found, one per line, with its parameters, fields or
members indented below it.
-/

set_option autoImplicit false

namespace HeaderBindings

/-- The line of a parameter or field. -/
def Parameter.listing (p : Parameter) : Text :=
  "    " ++ p.name ++ " (" ++ p.type ++ ") " ++ p.direction.label ++ "\n"

/-- The line of a member of an enumeration. -/
def Enumerator.listing (m : Enumerator) : Text :=
  "    " ++ m.name ++ " = " ++ Text.ofInt m.value ++ "\n"

/-- The lines of an enumeration. -/
def Enumeration.listing (e : Enumeration) : Text :=
  e.name ++ " (enum): " ++ e.location.display ++ "\n" ++ e.members.flatMap Enumerator.listing

/-- The lines of a struct. -/
def Struct.listing (s : Struct) : Text :=
  s.name ++ " (struct): " ++ s.location.display ++ "\n" ++ s.fields.flatMap Parameter.listing

/-- The lines of a function. -/
def Prototype.listing (f : Prototype) : Text :=
  f.name ++ " (" ++ f.type ++ "): " ++ f.location.display ++ "\n" ++
    f.params.flatMap Parameter.listing

/-- The line of a type that is declared but never defined. -/
def handleListing (name : Text) : Text := name ++ " (private)\n"

/-- The line of a constant, or of an entry of another table after a different `link`. -/
def entryListing (link : Text) (entry : Text × Text) : Text :=
  "    " ++ entry.1 ++ link ++ entry.2 ++ "\n"

/-- The heading of a section, after an empty line. -/
def sectionHeading (title version : Text) : Text :=
  "\n==== " ++ title ++ " ==== " ++ version ++ "\n"

/-- All declarations, in sections. -/
def Declarations.listing (d : Declarations) : Text :=
  sectionHeading "enums" d.version ++ d.enums.flatMap Enumeration.listing ++
  sectionHeading "structs" d.version ++ d.structs.flatMap Struct.listing ++
  sectionHeading "funcs" d.version ++ d.functions.flatMap Prototype.listing ++
  sectionHeading "privates" d.version ++ d.handles.flatMap handleListing ++
  sectionHeading "callbacks" d.version ++ d.callbacks.flatMap Prototype.listing ++
  sectionHeading "defines" d.version ++ d.constants.toList.flatMap (entryListing " = ")

end HeaderBindings
