import HeaderBindings.DocComment
import Std.Data.TreeMap

/-!
# Declarations

What the headers of a library declare: enumerations, structs, functions, callbacks, type names and
constants, each with its documentation and the place where it was found.

Two things are derived when a declaration is made.  A member of an enumeration gets the short name
it has in its class, and a parameter gets a direction from the documentation of its function.
-/

set_option autoImplicit false

namespace HeaderBindings

/-- A table from names to names or texts, in the order of the keys. -/
abbrev Table := Std.TreeMap Text Text

/-- The place of a declaration. -/
structure Location where
  file : Text := []
  line : Nat := 0
deriving DecidableEq

/-- A place as it is shown, `file:line`. -/
def Location.display (l : Location) : Text := l.file ++ ':' :: Text.ofNat l.line

/-! ## Parameters -/

/-- How a value passes through a parameter. -/
inductive Direction where
  | input | output | inout
  /-- Passed in, with zero as its default. -/
  | inputZero
deriving DecidableEq

/-- The code of a direction in a parameter flag. -/
def Direction.code : Direction → Nat
  | input => 1
  | output => 2
  | inout => 3
  | inputZero => 4

/-- The word for a direction in a listing. -/
def Direction.label : Direction → Text
  | input => ""
  | output => "Out"
  | inout => "InOut"
  | inputZero => "InZero"

/-- A parameter of a function or a field of a struct. -/
structure Parameter where
  name : Text
  /-- The type without blanks, with its stars. -/
  type : Text
  direction : Direction := .input
deriving DecidableEq

/-- The direction of a parameter: what the documentation tags it as, or else output if its type is
one for results. -/
def Parameter.directionFor (p : Parameter) (doc : DocFields) (outputTypes : List Text) :
    Direction :=
  if p.name ∈ doc.outputs then .output
  else if p.name ∈ doc.inouts then .inout
  else if p.type ∈ outputTypes then .output
  else .input

/-! ## Enumerations -/

/-- A member of an enumeration. -/
structure Enumerator where
  /-- The name in the header. -/
  native : Text
  /-- The name in the generated class. -/
  name : Text
  value : Int
deriving DecidableEq

/-- The short name of an enumeration's member: what follows its last underscore, or its last two
parts if that is a single character.  A leading digit gets an underscore in front. -/
def enumeratorName (native : Text) : Text :=
  let name := match (native.splitOn '_').reverse with
    | [] => []
    | [only] => only
    | last :: before :: _ => if last.length ≤ 1 then before ++ '_' :: last else last
  if name.head?.any Char.isDigit then '_' :: name else name

/-- The member with the given name in the header. -/
def Enumerator.ofNative (native : Text) (value : Int) : Enumerator :=
  ⟨native, enumeratorName native, value⟩

/-- An enumeration. -/
structure Enumeration where
  name : Text
  members : List Enumerator
  doc : Text := []
  location : Location := {}
deriving DecidableEq

/-! ## Structs, functions and all the rest -/

/-- A struct. -/
structure Struct where
  name : Text
  fields : List Parameter
  doc : Text := []
  location : Location := {}
deriving DecidableEq

/-- An exported function or the signature of a callback. -/
structure Prototype where
  name : Text
  /-- The type of the result. -/
  type : Text
  params : List Parameter
  /-- The documentation as it stands in the header. -/
  comment : Text := []
  /-- The documentation sorted into fields. -/
  doc : DocFields := {}
  location : Location := {}
deriving DecidableEq

namespace Prototype

/-- The function with every parameter's direction taken from the documentation. -/
def withDirections (f : Prototype) (outputTypes : List Text) : Prototype :=
  { f with
    params := f.params.map fun p ↦ { p with direction := p.directionFor f.doc outputTypes } }

/-- The names of the parameters that a caller passes, after the first `skip` parameters. -/
def arguments (f : Prototype) (skip : Nat) : List Text :=
  ((f.params.drop skip).filter fun p ↦ p.direction ≠ .output).map (·.name)

/-- The lines of the docstring, without the first `skip` documented parameters, each line but the
first behind `indent` blanks. -/
def docstring (f : Prototype) (skip indent : Nat) : Text :=
  Text.joinWith ('\n' :: Text.spaces indent)
    (f.doc.heads ++ f.doc.params.drop skip ++ f.doc.tails)

end Prototype

/-- Everything that the headers of one run declare. -/
structure Declarations where
  enums : List Enumeration := []
  structs : List Struct := []
  functions : List Prototype := []
  callbacks : List Prototype := []
  /-- The types that are declared but never defined. -/
  handles : List Text := []
  /-- For each type name the type it stands for. -/
  aliases : Table := {}
  /-- For each constant the text of its value. -/
  constants : Table := {}
  /-- For each excluded function that was found the type of its result. -/
  excluded : Table := {}
  /-- The version to write into the module. -/
  version : Text := []

end HeaderBindings
