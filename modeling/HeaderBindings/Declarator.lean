import HeaderBindings.Text.Pattern

/-!
# Declarators

A declarator gives a parameter or a field its type and its name: `const char **argv`.  Reading one
folds the stars and an array suffix into the type and drops what does not change it, so that a
type has one spelling: `char**`.

Lists of declarators are cut at a separator outside of parentheses, because a callback declarator
carries a parameter list of its own.
-/

set_option autoImplicit false

namespace HeaderBindings

/-- The pieces of a text between the separators at nesting depth zero, when the text starts
`depth` levels deep.  A parenthesis closed too many does not count. -/
def splitAtDepth (sep : Char) : Nat → Text → List Text
  | _, [] => [[]]
  | depth, c :: t =>
    if c = '(' then grow c (splitAtDepth sep (depth + 1) t)
    else if c = ')' then grow c (splitAtDepth sep (depth - 1) t)
    else if c = sep ∧ depth = 0 then [] :: splitAtDepth sep 0 t
    else grow c (splitAtDepth sep depth t)
where
  /-- One more character in front of the first piece. -/
  grow (c : Char) : List Text → List Text
    | [] => [[c]]
    | piece :: pieces => (c :: piece) :: pieces

/-- The pieces of a text between the separators outside of parentheses. -/
def splitTopLevel (sep : Char) (t : Text) : List Text := splitAtDepth sep 0 t

/-- What a declarator says. -/
inductive Declarator where
  /-- There is no declarator. -/
  | nothing
  /-- The text is no declarator, since it opens a brace. -/
  | unparsable
  /-- A name, empty if there is none, and a type without blanks. -/
  | named (name type : Text)
deriving DecidableEq

namespace Declarator

/-- The type of every parameter that takes a callback. -/
def callbackType : Text := "CALLBACK"

/-- The name of the parameter written `...`. -/
def variadicName : Text := "varargs"

/-- The word `const`. -/
def constWord : Pattern := .wordBoundary ++ "const" ++ .wordBoundary

/-- The callback declarator `(TAG* name)`, with the name as group 1. -/
def callbackPattern (tag : Text) : Pattern :=
  "(" ++ .blanks ++ .text tag ++ .blanks ++ "*" ++ .blanks ++ .group 1 .word₁ ++ .blanks ++ ")"

/-- A type as group 1, what separates it from the name as group 2, the name as group 3 and an
array suffix as group 4. -/
def namedPattern : Pattern :=
  .textStart ++ .group 1 (.many false Pattern.notLineFeed ++ .one (!isBlank ·)) ++
  .group 2 (.some₁ fun c ↦ isBlank c || c == '*') ++
  .group 3 (.one isIdentStart ++ .word) ++ .blanks ++
  .optional (.group 4 ("[" ++ .many true (· != ']') ++ "]")) ++ .textEnd

/-- The words that may stand in front of a type without being a part of it. -/
def qualifiers : List Text :=
  ["struct", "enum", "union", "extern", "static", "volatile", "register"]

/-- The text after a leading qualifier and the blanks behind it. -/
def afterQualifier? (t : Text) : Option Text :=
  qualifiers.findSome? fun q ↦
    match t.afterLead? q with
    | some (c :: rest) => if isBlank c then some (Text.trimStart rest) else none
    | _ => none

/-- The text without its leading qualifiers, of which there are at most `bound`. -/
def dropQualifiers : Nat → Text → Text
  | 0, t => t
  | bound + 1, t =>
    match afterQualifier? t with
    | some rest => dropQualifiers bound rest
    | none => t

/-- Read the declarator left after `const` and outer blanks are gone. -/
def parsePlain (t : Text) : Declarator :=
  let t := dropQualifiers t.length t
  match namedPattern.search t with
  | some g =>
    let stars := (g.get 2).filter (· == '*')
    let type := (g.get 1 ++ stars).withoutBlanks
    let name := if type = "..." then variadicName else g.get 3
    .named name (if (g.get? 4).isSome then type ++ ['*'] else type)
  | none =>
    let type := t.withoutBlanks
    .named (if type = "..." then variadicName else []) type

/-- Read one declarator, for a library whose callback declarators carry the given tag.  A closing
brace left over from an inline body is passed over. -/
def parse (tag : Text) (t : Text) : Declarator :=
  let t := t.trim
  let t := match t with
    | '}' :: rest => Text.trimStart rest
    | _ => t
  if t.isEmpty then .nothing
  else if t.contains ['{'] then .unparsable
  else
    let t := (constWord.removeAll t).trim
    match (callbackPattern tag).search t with
    | some g => .named (g.get 1) callbackType
    | none => parsePlain t

end Declarator

end HeaderBindings
