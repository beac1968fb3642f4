import HeaderBindings.Header.Structs

/-!
# Functions and callbacks in a header

An exported function is written after the library's export macro, a callback as a type name for a
pointer to a function.  Both have a list of parameters, which all need a name; one that cannot be
read is left out with a diagnostic, and one without a name costs the whole declaration.

**Each exported function has one fate.**  It is a function of the library, or an excluded one, or
it is refused with the diagnostic that says why.
-/

set_option autoImplicit false

namespace HeaderBindings

/-! ## Parameter lists -/

/-- What one piece of a parameter list gives: a parameter, a diagnostic or neither. -/
def readParameter (conventions : Conventions) (declaration location piece : Text) :
    Option Parameter × Option Diagnostic :=
  match Declarator.parse conventions.callbackTag piece with
  | .named name type => (some { name, type }, none)
  | .nothing => (none, none)
  | .unparsable => (none, some (.unparsable piece.trim declaration location))

/-- The parameters, of which there are none if the only one has type `void`. -/
def dropVoid : List Parameter → List Parameter
  | [p] => if p.type = "void" then [] else [p]
  | ps => ps

/-- The parameters between the parentheses of a declaration, none at all if one of them has no
name, with what is wrong with them. -/
def readParameters (conventions : Conventions) (declaration location t : Text) :
    Option (List Parameter) × List Diagnostic :=
  let entries := (splitTopLevel ',' t).map (readParameter conventions declaration location)
  let params := dropVoid (entries.filterMap (·.1))
  let refused := entries.filterMap (·.2)
  match params.find? fun p ↦ p.name.isEmpty with
  | some p => (none, refused ++ [.unnamed p.type declaration location])
  | none => (some params, refused)

/-! ## Exported functions -/

/-- A whole exported function: its type and name, and its parameters. -/
def functionPattern (conventions : Conventions) : Pattern :=
  .textStart ++ .text conventions.exportMacro ++ .blanks₁ ++ .group 1 .lazyAnything₁ ++ .blanks ++
  "(" ++ .group 2 .anything ++ .finalCall

/-- How an exported function is recognised. -/
def functionKind (conventions : Conventions) : BlockKind where
  opens t := t.startsWith conventions.exportMacro && !t.contains conventions.deprecatedMarker
  closes := Pattern.finalCall.occursIn
  parts? := (functionPattern conventions).parts? 2

/-- What becomes of an exported function. -/
inductive FunctionFate where
  /-- It is a function of the library. -/
  | kept (f : Prototype)
  /-- It is to be left out. -/
  | excluded (name type : Text)
  /-- It cannot be read, as the last of its diagnostics says. -/
  | refused

/-- The fate of the function in a block, with what is wrong with it. -/
def functionOfBlock (conventions : Conventions) (file : Text) (b : Block) :
    FunctionFate × List Diagnostic :=
  let part (i : Nat) : Text := (b.parts[i]?).getD []
  let location : Location := ⟨file, b.line⟩
  let headless : FunctionFate × List Diagnostic :=
    (.refused, [.unnamed (part 0) "function declaration" location.display])
  match Declarator.parse conventions.callbackTag (part 0) with
  | .named name type =>
    if name.isEmpty then headless
    else if name ∈ conventions.excluded then (.excluded name type, [])
    else
      match readParameters conventions name location.display (part 1) with
      | (none, wrong) => (.refused, wrong)
      | (some params, wrong) =>
        let f : Prototype :=
          { name, type, params, comment := b.doc, doc := .ofComment b.doc, location }
        (.kept (f.withDirections conventions.outputTypes), wrong)
  | _ => headless

/-- The fates of the exported functions of a header, each with what is wrong with it. -/
def functionFates (conventions : Conventions) (file t : Text) :
    List (FunctionFate × List Diagnostic) :=
  (blocks (functionKind conventions) t).map (functionOfBlock conventions file)

/-- The function, if it is one of the library. -/
def FunctionFate.kept? : FunctionFate → Option Prototype
  | kept f => some f
  | _ => none

/-- The name and type of the function, if it is to be left out. -/
def FunctionFate.excluded? : FunctionFate → Option (Text × Text)
  | excluded name type => some (name, type)
  | _ => none

/-! ## Callbacks -/

/-- The start of a callback. -/
def callbackStart (conventions : Conventions) : Pattern :=
  .textStart ++ "typedef" ++ .wordBoundary ++ .anything ++ "(" ++ .blanks ++
  .text conventions.callbackTag ++ .wordBoundary

/-- A whole callback: the type of its result, its name and its parameters. -/
def callbackPattern (conventions : Conventions) : Pattern :=
  .textStart ++ "typedef" ++ .blanks₁ ++ .group 1 .lazyAnything₁ ++ .blanks ++ "(" ++ .blanks ++
  .text conventions.callbackTag ++ .blanks ++ "*" ++ .blanks ++ .group 2 .word₁ ++ .blanks ++ ")" ++
  .blanks ++ "(" ++ .group 3 .anything ++ .finalCall

/-- How a callback is recognised. -/
def callbackKind (conventions : Conventions) : BlockKind where
  opens := (callbackStart conventions).occursIn
  closes := Pattern.finalCall.occursIn
  parts? := (callbackPattern conventions).parts? 3

/-- A type without `const` and blanks. -/
def plainType (t : Text) : Text := (Declarator.constWord.removeAll t).withoutBlanks

/-- The callback in a block, if its parameters can be read, with what is wrong with it. -/
def callbackOfBlock (conventions : Conventions) (file : Text) (b : Block) :
    Option Prototype × List Diagnostic :=
  let part (i : Nat) : Text := (b.parts[i]?).getD []
  let location : Location := ⟨file, b.line⟩
  match readParameters conventions (part 1) location.display (part 2) with
  | (none, wrong) => (none, wrong)
  | (some params, wrong) =>
    let f : Prototype :=
      { name := part 1, type := plainType (part 0), params, comment := b.doc,
        doc := .ofComment b.doc, location }
    (some (f.withDirections conventions.outputTypes), wrong)

/-- The callbacks of a header, with what is wrong with them. -/
def callbacks (conventions : Conventions) (file t : Text) : List Prototype × List Diagnostic :=
  let found := (blocks (callbackKind conventions) t).map (callbackOfBlock conventions file)
  (found.filterMap (·.1), found.flatMap (·.2))

end HeaderBindings
