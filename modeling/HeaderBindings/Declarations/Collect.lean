import HeaderBindings.Header.Names
import Std.Data.TreeSet

/-!
# Collecting declarations

The headers of a library are read one after the other into one collection.  Only then can it be
said which types are declared and never defined, and whether the documentation is complete.
-/

set_option autoImplicit false

namespace HeaderBindings

namespace Declarations

/-- Add the type names of a header. -/
def addAliases (d : Declarations) (t : Text) : Declarations :=
  { d with aliases := d.aliases.insertMany (HeaderBindings.aliases t) }

/-- Add the enumerations of a header. -/
def addEnums (d : Declarations) (file t : Text) : Declarations :=
  { d with enums := d.enums ++ enumerations file t }

/-- Add the functions of a header, with what is wrong with them. -/
def addFunctions (conventions : Conventions) (d : Declarations) (file t : Text) :
    Declarations × List Diagnostic :=
  let fates := functionFates conventions file t
  ({ d with
      functions := d.functions ++ fates.filterMap (·.1.kept?)
      excluded := d.excluded.insertMany (fates.filterMap (·.1.excluded?)) },
   fates.flatMap (·.2))

/-- Add the structs of a header, with what is wrong with them. -/
def addStructs (conventions : Conventions) (d : Declarations) (file t : Text) :
    Declarations × List Diagnostic :=
  let (found, wrong) := HeaderBindings.structs conventions file t
  ({ d with structs := d.structs ++ found }, wrong)

/-- Add the callbacks of a header, with what is wrong with them. -/
def addCallbacks (conventions : Conventions) (d : Declarations) (file t : Text) :
    Declarations × List Diagnostic :=
  let (found, wrong) := HeaderBindings.callbacks conventions file t
  ({ d with callbacks := d.callbacks ++ found }, wrong)

/-- Add the constants of a header. -/
def addConstants (conventions : Conventions) (d : Declarations) (t : Text) : Declarations :=
  { d with constants := d.constants.insertMany (HeaderBindings.constants conventions t) }

/-- Add everything that a header declares, with what is wrong with it. -/
def addHeader (conventions : Conventions) (d : Declarations) (file t : Text) :
    Declarations × List Diagnostic :=
  let d := (d.addAliases t).addEnums file t
  let (d, wrongFunctions) := d.addFunctions conventions file t
  let (d, wrongStructs) := d.addStructs conventions file t
  let (d, wrongCallbacks) := d.addCallbacks conventions file t
  (d.addConstants conventions t, wrongFunctions ++ wrongStructs ++ wrongCallbacks)

/-- The types that are declared under their own name but defined nowhere. -/
def undefinedTypes (d : Declarations) : List Text :=
  let defined := d.structs.map (·.name) ++ d.enums.map (·.name)
  (d.aliases.toList.filter fun (name, type) ↦ name = type ∧ name ∉ defined).map (·.1)

/-- The collection with its handles settled. -/
def withHandles (d : Declarations) : Declarations := { d with handles := d.undefinedTypes }

/-- Add everything that the given headers declare, each given by the name of its file and its
text, with what is wrong with it. -/
def addHeaders (conventions : Conventions) (d : Declarations) :
    List (Text × Text) → Declarations × List Diagnostic
  | [] => (d, [])
  | (file, t) :: rest =>
    let (d, wrong) := d.addHeader conventions file t
    let (d, more) := d.addHeaders conventions rest
    (d, wrong ++ more)

/-- Everything that the given headers declare, with what is wrong with it. -/
def ofHeaders (conventions : Conventions) (version : Text) (headers : List (Text × Text)) :
    Declarations × List Diagnostic :=
  let (d, wrong) := addHeaders conventions { version } headers
  (d.withHandles, wrong)

/-! ## Completeness of the documentation -/

/-- What is wrong with the documentation of an enumeration. -/
def undocumentedEnum? (e : Enumeration) : Option Diagnostic :=
  if e.doc.isEmpty then some (.undocumented .enum e.name e.location.display) else none

/-- What is wrong with the documentation of a function. -/
def misdocumentedFunction? (f : Prototype) : Option Diagnostic :=
  if f.comment.isEmpty then some (.undocumented .function f.name f.location.display)
  else if f.params.length ≠ f.doc.paramCount then
    some (.paramCount f.name f.doc.paramCount f.params.length f.location.display)
  else none

/-- What is wrong with the documentation of a struct. -/
def undocumentedStruct? (s : Struct) : Option Diagnostic :=
  if s.doc.isEmpty then some (.undocumented .struct s.name s.location.display) else none

/-- What is wrong with the documentation: of enumerations, then functions, then structs. -/
def documentationProblems (d : Declarations) : List Diagnostic :=
  d.enums.filterMap undocumentedEnum? ++ d.functions.filterMap misdocumentedFunction? ++
    d.structs.filterMap undocumentedStruct?

/-- The types of first parameters, each once and in order. -/
def instanceTypes (d : Declarations) : List Text :=
  (Std.TreeSet.ofList ((d.functions.filterMap (·.params.head?)).map (·.type)) compare).toList

end Declarations

end HeaderBindings
