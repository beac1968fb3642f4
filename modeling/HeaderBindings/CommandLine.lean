import HeaderBindings.Run.Run

/-!
# The command line

The arguments of the program are options, which may stand anywhere before a double dash, and paths
of headers.  Arguments are taken in from left to right, and the first one that is out of place, or
that asks for the version or for help, decides.
-/

set_option autoImplicit false

namespace HeaderBindings

/-! ## Arguments -/

/-- What the arguments have said so far. -/
structure Arguments where
  inputs : List Text := []
  config : Option Text := none
  output : Option Text := none
  version : Option Text := none
  check : Bool := false
  debug : Bool := false
  structs : Bool := false

/-- What the program is asked for. -/
inductive Request where
  | run (arguments : Arguments)
  | showVersion
  | showHelp
  /-- The arguments make no sense. -/
  | misused

/-- An option that is set by its mere presence. -/
inductive Switch where
  | check | debug | structs

/-- An option with a value. -/
inductive Setting where
  | config | output | version

/-- What an option is. -/
inductive OptionKind where
  | switch (s : Switch)
  | setting (s : Setting)
  | version
  | help

/-- The option with the given long name. -/
def OptionKind.ofName? (name : Text) : Option OptionKind :=
  if name = "check" then some (.switch .check)
  else if name = "debug" then some (.switch .debug)
  else if name = "structs" then some (.switch .structs)
  else if name = "config" then some (.setting .config)
  else if name = "output" then some (.setting .output)
  else if name = "set-version" then some (.setting .version)
  else if name = "version" then some .version
  else if name = "help" then some .help
  else none

/-- The option with the given letter. -/
def OptionKind.ofLetter? (letter : Char) : Option OptionKind :=
  if letter = 'c' then some (.switch .check)
  else if letter = 'd' then some (.switch .debug)
  else if letter = 's' then some (.switch .structs)
  else if letter = 'o' then some (.setting .output)
  else if letter = 'v' then some (.setting .version)
  else if letter = 'V' then some .version
  else if letter = 'h' then some .help
  else none

namespace Arguments

/-- Turn a switch on, which can be done once. -/
def turnOn? (a : Arguments) : Switch → Option Arguments
  | .check => if a.check then none else some { a with check := true }
  | .debug => if a.debug then none else some { a with debug := true }
  | .structs => if a.structs then none else some { a with structs := true }

/-- Give an option its value, which can be done once.  A path is not empty. -/
def give? (a : Arguments) (s : Setting) (value : Text) : Option Arguments :=
  match s with
  | .config =>
    if a.config.isSome || value.isEmpty then none else some { a with config := some value }
  | .output =>
    if a.output.isSome || value.isEmpty then none else some { a with output := some value }
  | .version => if a.version.isSome then none else some { a with version := some value }

/-- Add the path of a header, which is not empty. -/
def addInput? (a : Arguments) (path : Text) : Option Arguments :=
  if path.isEmpty then none else some { a with inputs := a.inputs ++ [path] }

/-- The request after the last argument: at most one switch may be on. -/
def request (a : Arguments) : Request :=
  if 1 < [a.check, a.debug, a.structs].count true then .misused else .run a

/-- The mode that the switches stand for. -/
def mode (a : Arguments) : Mode :=
  if a.check then .check
  else if a.debug then .debug
  else if a.structs then .structs
  else .generate

end Arguments

/-- What follows taking in one argument. -/
inductive ArgumentStep where
  /-- Go on with the next argument. -/
  | next (a : Arguments)
  /-- The next argument is the value of an option. -/
  | awaits (a : Arguments) (s : Setting)
  /-- Nothing further matters. -/
  | done (r : Request)

/-- Go on if there is a way to. -/
def ArgumentStep.ofOption : Option Arguments → ArgumentStep
  | some a => .next a
  | none => .done .misused

/-- Take in an option with a long name. -/
def takeLong (a : Arguments) (body : Text) : ArgumentStep :=
  let name := body.takeWhile (· != '=')
  let value : Option Text := match body.dropWhile (· != '=') with
    | _ :: value => some value
    | [] => none
  match OptionKind.ofName? name, value with
  | some (.setting s), some value => .ofOption (a.give? s value)
  | some (.setting s), none => .awaits a s
  | some (.switch s), none => .ofOption (a.turnOn? s)
  | some .version, none => .done .showVersion
  | some .help, none => .done .showHelp
  | _, _ => .done .misused

/-- Take in options that are joined letters.  An option with a value takes the remaining letters
for it, behind an equals sign or not. -/
def takeLetters (a : Arguments) : Text → ArgumentStep
  | [] => .next a
  | letter :: rest =>
    match OptionKind.ofLetter? letter with
    | some (.switch s) =>
      match a.turnOn? s with
      | some a => takeLetters a rest
      | none => .done .misused
    | some (.setting s) =>
      match rest with
      | [] => .awaits a s
      | '=' :: value => .ofOption (a.give? s value)
      | value => .ofOption (a.give? s value)
    | some .version => .done .showVersion
    | some .help => .done .showHelp
    | none => .done .misused

/-- Take in one argument. -/
def takeArgument (a : Arguments) (argument : Text) : ArgumentStep :=
  match argument with
  | '-' :: '-' :: body => takeLong a body
  | '-' :: letter :: letters => takeLetters a (letter :: letters)
  | path => .ofOption (a.addInput? path)

/-- The request of arguments that are all paths. -/
def requestOfPaths (a : Arguments) : List Text → Request
  | [] => a.request
  | path :: paths =>
    match a.addInput? path with
    | some a => requestOfPaths a paths
    | none => .misused

/-- An argument that may be the value of an option: no option itself, though a single dash is. -/
def isValue (argument : Text) : Bool := !argument.startsWith "-" || argument == "-"

/-- The request that the arguments make, after those taken in before.  The last of these may be an
option that awaits its value. -/
def requestOf : Arguments → Option Setting → List Text → Request
  | a, none, [] => a.request
  | _, some _, [] => .misused
  | a, some s, value :: rest =>
    match if isValue value then a.give? s value else none with
    | some a => requestOf a none rest
    | none => .misused
  | a, none, argument :: rest =>
    if argument = "--" then requestOfPaths a rest
    else
      match takeArgument a argument with
      | .next a => requestOf a none rest
      | .awaits a s => requestOf a (some s) rest
      | .done r => r

/-! ## The program -/

/-- What the program leaves behind besides the module. -/
structure ProgramResult where
  status : Nat
  stdout : Text := []
  stderr : Text := []
  /-- The arguments make no sense. -/
  misused : Bool := false

/-- The name and the version of the program. -/
def versionText : Text := "bnd-ctypes 0.1.0\n"

/-- The line that says how the program is used. -/
def usageText : Text := "Usage: bnd-ctypes [OPTIONS] [INPUTS]...\n"

/-- The width that the descriptions of options begin behind. -/
def optionWidth : Nat := 35

/-- The lines of an option: how it is written, and its description next to it. -/
def optionLines (written : Text) (description : List Text) : Text :=
  match description with
  | [] => written ++ "\n"
  | first :: more =>
    written ++ Text.spaces (optionWidth - written.length) ++ first ++ "\n" ++
      more.flatMap fun line ↦ (Text.spaces optionWidth ++ line ++ "\n" : Text)

/-- What the program does, and all that it can be given. -/
def helpText : Text :=
  "Generate documented ctypes wrapper modules from C headers\n\n" ++ usageText ++
  "\nArguments:\n" ++
  "  [INPUTS]...  Header files, or directories of \x60*.h\x60 files " ++
  "(replace the configured list)\n" ++
  "\nOptions:\n" ++
  optionLines "      --config <CONFIG>" ["Path to a bnd-ctypes.toml configuration file"] ++
  optionLines "  -c, --check"
    ["Check mode: parse and report consistency problems, generate", "nothing"] ++
  optionLines "  -d, --debug" ["Debug mode: dump parsed entities and derived name maps"] ++
  optionLines "  -s, --structs" ["Emit only the enum and struct definitions"] ++
  optionLines "  -o, --output <OUTPUT>"
    ["Output file path, \x60-\x60 for stdout (overrides config)"] ++
  optionLines "  -v, --set-version <SET_VERSION>"
    ["Version string for the \x60__version__\x60 global (overrides config)"] ++
  optionLines "  -h, --help" ["Print help"] ++
  optionLines "  -V, --version" ["Print version"]

/-- The program for arguments that make sense. -/
def runArguments {m : Type → Type} [Monad m] [FileAccess m] (a : Arguments) :
    ExceptT Failure m Outcome := do
  if a.config.isNone ∧ a.inputs = [] then throw .nothingToDo
  run a.config { inputs := a.inputs, output := a.output, version := a.version, mode := a.mode }

/-- The program. -/
def runProgram {m : Type → Type} [Monad m] [FileAccess m] (arguments : List Text) :
    m ProgramResult := do
  match requestOf {} none arguments with
  | .misused => return { status := 2, stderr := "error: " ++ usageText, misused := true }
  | .showVersion => return { status := 0, stdout := versionText }
  | .showHelp => return { status := 0, stdout := helpText }
  | .run a =>
    match ← (runArguments a).run with
    | .ok outcome => return { status := outcome.exitStatus, stdout := outcome.report }
    | .error failure => return { status := 1, stderr := failure.report }

end HeaderBindings
