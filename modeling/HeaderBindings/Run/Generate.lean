import HeaderBindings.Run.Failure
import HeaderBindings.Config
import HeaderBindings.Files.Path
import HeaderBindings.Declarations.Collect
import HeaderBindings.Module.Assemble

/-!
# Generating a module

One run reads all headers and the files that are merged into the module, and ends with a module or
with a report.  It stops at the first file that it cannot read.

**All or nothing.**  A module is only generated if every type of every function has a descriptor.
The table of types is complete before the first look-up, so one run reports all that is missing.
-/

set_option autoImplicit false

namespace HeaderBindings

/-- What a run is for. -/
inductive Mode where
  /-- The whole module. -/
  | generate
  /-- A report on the documentation. -/
  | check
  /-- A listing of all that was found and derived. -/
  | debug
  /-- The enumerations and structs alone. -/
  | structs
deriving DecidableEq

/-- What a run ends with. -/
structure Outcome where
  /-- The text of the module, if there is one. -/
  output : Option Text := none
  /-- The report, empty if there is none. -/
  report : Text := []
  diagnostics : List Diagnostic := []
deriving DecidableEq

/-- The exit status after a run. -/
def Outcome.exitStatus (o : Outcome) : Nat := Diagnostic.exitStatus o.diagnostics

/-- The report on the documentation: the diagnostics, and the types of first parameters. -/
def checkReport (d : Declarations) (ds : List Diagnostic) : Text :=
  let line (t : Text) : Text := t ++ "\n"
  (ds.flatMap fun diagnostic ↦ line diagnostic.message) ++
  line (Text.ofNat ds.length ++ " error(s) reported") ++
  line "=========== INSTANCES ===========" ++
  d.instanceTypes.flatMap line

namespace Generate

variable {m : Type → Type} [Monad m] [FileAccess m]

/-- The result of an access to a file, or the failure that its error amounts to. -/
def orFail {α : Type} (failure : FileError → Failure) (access : m (Except FileError α)) :
    ExceptT Failure m α :=
  ExceptT.mk do
    match ← access with
    | .ok a => pure (.ok a)
    | .error e => pure (.error (failure e))

/-- The headers that an input stands for: itself, or the headers in it if it is a directory, in
order. -/
def expandInput (path : Text) : ExceptT Failure m (List Text) := do
  if ← ExceptT.lift (FileAccess.isDirectory path) then
    let names ← orFail (.listing path) (FileAccess.filesIn path)
    let headers := names.filter (Path.hasExtension "h")
    pure ((headers.mergeSort fun a b ↦ (compare a b).isLE).map (Path.join path))
  else pure [path]

/-- The headers that the inputs stand for, as seen from a base. -/
def expandInputs (base : Text) : List Text → ExceptT Failure m (List Text)
  | [] => pure []
  | input :: inputs => do
    let headers ← expandInput (Path.join base input)
    pure (headers ++ (← expandInputs base inputs))

/-- The headers at the given paths, with their texts. -/
def readHeaders : List Text → ExceptT Failure m (List (Text × Text))
  | [] => pure []
  | path :: paths => do
    let t ← orFail (.header path) (FileAccess.readText path)
    pure ((path, t) :: (← readHeaders paths))

/-- What the headers of a configuration declare, with what is wrong with it. -/
def readDeclarations (config : Config) (base : Text) :
    ExceptT Failure m (Declarations × List Diagnostic) := do
  let paths ← expandInputs base config.headers
  if paths.isEmpty then throw .noHeaders
  let headers ← readHeaders paths
  pure (Declarations.ofHeaders config.conventions config.output.version headers)

/-- The classes written by hand. -/
def readOverrides (base : Text) : Option Text → ExceptT Failure m Overrides
  | none => pure ∅
  | some file => do
    let path := Path.join base file
    return .ofSource (← orFail (.overrides path) (FileAccess.readText path))

/-- The text of a template. -/
def readTemplate (base : Text) : Option Text → ExceptT Failure m (Option Text)
  | none => pure none
  | some file => do
    let path := Path.join base file
    return some (← orFail (.template path) (FileAccess.readText path))

/-- The whole module, unless a descriptor is missing. -/
def wholeModule (config : Config) (base : Text) (s : Sources) (ds : List Diagnostic) :
    ExceptT Failure m Outcome := do
  let missing := s.types.missing s.declarations
  if missing.isEmpty then
    let prologue ← readTemplate base config.templates.prologue
    let epilogue ← readTemplate base config.templates.epilogue
    match s.module? prologue epilogue with
    | some nodes => pure { output := some (renderModule nodes), diagnostics := ds }
    | none => throw .endlessLinks
  else pure { diagnostics := ds ++ missing }

/-- What to generate from the declarations of the headers. -/
def fromDeclarations (config : Config) (base : Text) (mode : Mode) (d : Declarations)
    (ds : List Diagnostic) : ExceptT Failure m Outcome := do
  if mode = .check then
    let ds := ds ++ d.documentationProblems
    return { report := checkReport d ds, diagnostics := ds }
  let types := TypeTable.build config.conventions config.types d
  if mode = .debug then
    return { report := d.listing ++ types.listing d.version, diagnostics := ds }
  let overrides ← readOverrides base config.templates.overrides
  let s : Sources := { conventions := config.conventions, declarations := d, types, overrides }
  if mode = .structs then
    return { output := some (renderModule s.typesModule), diagnostics := ds }
  wholeModule config base s ds

end Generate

open Generate in
/-- Generate what a configuration describes, with its paths as seen from a base. -/
def generate {m : Type → Type} [Monad m] [FileAccess m] (config : Config) (base : Text)
    (mode : Mode) : ExceptT Failure m Outcome := do
  let (d, ds) ← readDeclarations config base
  fromDeclarations config base mode d ds

end HeaderBindings
