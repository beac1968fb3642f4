import HeaderBindings.Text.Basic

/-!
# Diagnostics

What is wrong with a single declaration is recorded and does not stop a run.  The number of
records decides the exit status.
-/

set_option autoImplicit false

namespace HeaderBindings

/-- The declarations that should be documented. -/
inductive DocumentedKind where
  | enum | struct | function
deriving DecidableEq

/-- The word for a kind of declaration in a message. -/
def DocumentedKind.word : DocumentedKind → Text
  | enum => "enum"
  | struct => "struct"
  | function => "function"

/-- One thing that is wrong with a declaration, and where. -/
inductive Diagnostic where
  /-- A declaration without documentation. -/
  | undocumented (kind : DocumentedKind) (name location : Text)
  /-- A function that documents another number of parameters than it has. -/
  | paramCount (name : Text) (documented declared : Nat) (location : Text)
  /-- A type that has no descriptor. -/
  | unresolvedType (type usage location : Text)
  /-- Text that is no declarator. -/
  | unparsable (text declaration location : Text)
  /-- A parameter or declaration without a name. -/
  | unnamed (type declaration location : Text)
deriving DecidableEq

namespace Diagnostic

/-- The message for a diagnostic. -/
def message : Diagnostic → Text
  | undocumented kind name location =>
    "no comment for " ++ kind.word ++ " " ++ name ++ " (" ++ location ++ ")"
  | paramCount name documented declared location =>
    "doc parameters (" ++ Text.ofNat documented ++ ") mismatch for function " ++ name ++ " (" ++
      Text.ofNat declared ++ ") (" ++ location ++ ")"
  | unresolvedType type usage location =>
    "no type conversion for " ++ type ++ " " ++ usage ++ " (" ++ location ++ ")"
  | unparsable text declaration location =>
    "cannot parse declarator \x60" ++ text ++ "\x60 in " ++ declaration ++ " (" ++ location ++ ")"
  | unnamed type declaration location =>
    "missing parameter name for type " ++ type ++ " in " ++ declaration ++ " (" ++ location ++ ")"

/-- The type that has no descriptor, if the diagnostic is about one. -/
def unresolvedType? : Diagnostic → Option Text
  | unresolvedType type _ _ => some type
  | _ => none

/-- The types without descriptor, each once, in the order of their first record. -/
def unresolvedTypes (ds : List Diagnostic) : List Text :=
  (ds.filterMap unresolvedType?).foldl (fun seen t ↦ if t ∈ seen then seen else seen ++ [t]) []

/-- The exit status after a run: the number of diagnostics, at most nine. -/
def exitStatus (ds : List Diagnostic) : Nat := min ds.length 9

end Diagnostic

end HeaderBindings
