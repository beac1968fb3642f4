import HeaderBindings.Run.Generate

/-!
# Runs

A run loads a configuration, changes it by the options it is started with, generates, and writes
the module out.  Nothing is written before the module is complete, and nothing else ever.

The configuration sees paths from the directory it lies in, and the options see them from the
current directory.
-/

set_option autoImplicit false

namespace HeaderBindings

variable {m : Type → Type} [Monad m] [FileAccess m]

/-- The output path that means standard output. -/
def standardOutput : Text := "-"

/-- What a run is started with, over its configuration. -/
structure RunOptions where
  /-- The headers, if any are given. -/
  inputs : List Text := []
  output : Option Text := none
  version : Option Text := none
  mode : Mode := .generate

/-- The configuration at a path. -/
def loadConfig (path : Text) : ExceptT ConfigFailure m Config :=
  ExceptT.mk do
    match ← FileAccess.readText path with
    | .error e => pure (.error (.unreadable path e))
    | .ok t =>
      match Config.parse? t with
      | some config => pure (.ok config)
      | none => pure (.error (.malformed path))

/-- The directory that the configuration at a path lies in. -/
def configBase (path : Text) : Text := (Path.parent? path).getD "."

/-- The configuration at a path, for a run. -/
def configFor (path : Text) : ExceptT Failure m Config :=
  ExceptT.adapt (.config path) (loadConfig path)

/-- The configuration changed by the options. -/
def withOptions (options : RunOptions) (config : Config) : m Config := do
  let headers ←
    if options.inputs.isEmpty then pure config.headers
    else
      let here ← FileAccess.currentDirectory
      pure (options.inputs.map (Path.join here))
  let version := options.version.getD config.output.version
  pure { config with headers, output := { config.output with version } }

/-- Where the module goes to. -/
def outputTarget (options : RunOptions) (config : Config) (base : Text) : Text :=
  options.output.getD (Path.join base config.output.file)

/-- Write the module to its target. -/
def writeModule (target t : Text) : ExceptT Failure m Unit :=
  if target = standardOutput then ExceptT.lift (FileAccess.print t)
  else Generate.orFail (.output target) (FileAccess.writeText target t)

/-- Run with a configuration whose paths are seen from a base. -/
def runWith (config : Config) (base : Text) (options : RunOptions) :
    ExceptT Failure m Outcome := do
  let config ← ExceptT.lift (withOptions options config)
  let outcome ← generate config base options.mode
  match outcome.output with
  | some t => writeModule (outputTarget options config base) t
  | none => pure ()
  return outcome

/-- Run with the configuration at a path, or else the default one. -/
def run (path : Option Text) (options : RunOptions) : ExceptT Failure m Outcome := do
  match path with
  | some path => runWith (← configFor path) (configBase path) options
  | none => runWith {} "." options

/-- Generate the whole module of the configuration at a path and write nothing. -/
def generateFile (path : Text) : ExceptT Failure m Outcome := do
  generate (← configFor path) (configBase path) .generate

end HeaderBindings
