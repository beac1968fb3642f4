import HeaderBindings.Text.Basic

/-!
# The parts of a module

A generated module is a sequence of nodes, from the class of an enumeration to a comment.  What
goes into a module is decided on nodes, and how it is written down by `Node.render`.
-/

set_option autoImplicit false

namespace HeaderBindings

/-- A method of a wrapper class. -/
structure Method where
  name : Text
  /-- The parameters, of which the first is the object. -/
  arguments : List Text
  doc : Text
  /-- The function that the method calls. -/
  target : Text
  /-- The class that the result is handed to, if any. -/
  wrapper : Option Text
deriving DecidableEq

/-- The type of a callback. -/
structure CallbackType where
  name : Text
  /-- The descriptor of the result, then one for each parameter. -/
  types : List Text
  doc : Text
deriving DecidableEq

/-- A part of a module. -/
inductive Node where
  /-- Text that stands for itself. -/
  | verbatim (t : Text)
  /-- Lines of a comment. -/
  | comment (lines : List Text)
  /-- The class of a group of constants, whose names in the headers begin with `lead`. -/
  | constants (name lead : Text) (values : List (Text × Text))
  /-- The class of an enumeration. -/
  | enum (name doc : Text) (values : List (Text × Int))
  /-- The class of a struct, with the descriptors of its fields. -/
  | struct (name doc : Text) (fields : List (Text × Text))
  /-- The class of a type whose inside is unknown. -/
  | handle (name doc : Text)
  /-- A wrapper class, with hand-written code and generated methods. -/
  | wrapper (name doc : Text) (hasConstructor : Bool) (body : Text) (methods : List Method)
  /-- A function of the library, bound at its first call. -/
  | binding (name : Text) (arguments : List Text) (doc : Text) (flags : List Nat)
      (types : List Text)
  /-- The types of all callbacks. -/
  | callbacks (types : List CallbackType)
deriving DecidableEq

end HeaderBindings
