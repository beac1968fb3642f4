import HeaderBindings.Conventions
import HeaderBindings.Toml.Parser
import HeaderBindings.Declarations.Basic

/-!
# Configurations

A configuration names the headers to read, the files that templates come from and the module goes
to, and the conventions of the library.  Every setting has a default, and settings of other names
are ignored.

A group of settings is written as a table, or as an array of values for its settings in their
order.  A date stands for a table as well, with the text of the date as its only entry.
-/

set_option autoImplicit false

namespace HeaderBindings

/-- Where the module goes to, and what it says about itself. -/
structure OutputSettings where
  /-- The path of the module; a single dash means standard output. -/
  file : Text := "bindings.py"
  /-- The version to write into the module. -/
  version : Text := []

/-- The files that are merged into the module. -/
structure TemplateSettings where
  /-- The text before everything generated. -/
  prologue : Option Text := none
  /-- The text after everything generated. -/
  epilogue : Option Text := none
  /-- The classes written by hand. -/
  overrides : Option Text := none

/-- All that a run is configured with. -/
structure Config where
  /-- The headers, and the directories of headers. -/
  headers : List Text := []
  output : OutputSettings := {}
  templates : TemplateSettings := {}
  conventions : Conventions := {}
  /-- The descriptors of types, over those of the basic types. -/
  types : Table := {}

namespace Toml

/-! ## Settings -/

/-- The text of a value. -/
def text? : Toml → Option Text
  | string t => some t
  | _ => none

/-- The texts of an array. -/
def texts? : Toml → Option (List Text)
  | array items => items.mapM text?
  | _ => none

/-- An entry whose value is text. -/
def textSetting? (entry : Text × Toml) : Option (Text × Text) :=
  (text? entry.2).map fun t ↦ (entry.1, t)

/-- The key that a date has where it is taken for a table. -/
def dateKey : Text := "$__toml_private_datetime"

/-- The texts of a table, by their keys.  A date is a table of one text. -/
def table? : Toml → Option Table
  | table _ entries => (entries.mapM textSetting?).map fun found ↦ (∅ : Table).insertMany found
  | date t => some ((∅ : Table).insert dateKey t)
  | _ => none

/-- The values of entries by their keys.  Entries of other keys than the given ones are ignored,
but all numbers in them have to be readable. -/
def known? (keys : List Text) (entries : Entries) : Option (Text → Option Toml) :=
  if areReadableEntries (entries.filter fun e ↦ e.1 ∉ keys) then
    some fun key ↦ lookup key entries
  else none

/-- A group of settings with the given keys: the value of each setting.  In an array the values
stand in the order of the keys, and further ones are not looked at. -/
def settings? (keys : List Text) : Toml → Option (Text → Option Toml)
  | table _ entries => known? keys entries
  | array items => some fun key ↦ (keys.idxOf? key).bind fun i ↦ items[i]?
  | tables items => some fun key ↦ ((keys.idxOf? key).bind fun i ↦ items[i]?).map (table .header)
  | date _ => some fun _ ↦ none
  | _ => none

/-- The setting as `read` understands it, or its default if it is missing. -/
def readOr {α : Type} (read : Toml → Option α) (default : α) : Option Toml → Option α
  | some value => read value
  | none => some default

end Toml

open Toml

/-- The output settings in a value. -/
def OutputSettings.ofToml? (v : Toml) : Option OutputSettings := do
  let get ← settings? ["file", "version"] v
  let default : OutputSettings := {}
  some
    { file := ← readOr text? default.file (get "file")
      version := ← readOr text? default.version (get "version") }

/-- The template settings in a value. -/
def TemplateSettings.ofToml? (v : Toml) : Option TemplateSettings := do
  let get ← settings? ["prologue", "epilogue", "overrides"] v
  let path? (v : Toml) : Option (Option Text) := (text? v).map some
  some
    { prologue := ← readOr path? none (get "prologue")
      epilogue := ← readOr path? none (get "epilogue")
      overrides := ← readOr path? none (get "overrides") }

/-- The keys of the conventions, in order. -/
def Conventions.keys : List Text :=
  ["export_macro", "deprecated_marker", "callback_tag", "define_prefix", "define_groups",
   "type_prefixes", "function_prefix", "defined_classes", "blacklist", "out_types"]

/-- The conventions in a value. -/
def Conventions.ofToml? (v : Toml) : Option Conventions := do
  let get ← settings? keys v
  let default : Conventions := {}
  some
    { exportMacro := ← readOr text? default.exportMacro (get "export_macro")
      deprecatedMarker := ← readOr text? default.deprecatedMarker (get "deprecated_marker")
      callbackTag := ← readOr text? default.callbackTag (get "callback_tag")
      constantLead := ← readOr text? default.constantLead (get "define_prefix")
      constantGroups := ← readOr texts? default.constantGroups (get "define_groups")
      typeLeads := ← readOr texts? default.typeLeads (get "type_prefixes")
      functionLead := ← readOr text? default.functionLead (get "function_prefix")
      wrapperClasses := ← readOr texts? default.wrapperClasses (get "defined_classes")
      excluded := ← readOr texts? default.excluded (get "blacklist")
      outputTypes := ← readOr texts? default.outputTypes (get "out_types") }

/-- The configuration in the entries of a document. -/
def Config.ofEntries? (entries : Entries) : Option Config := do
  let get ← known? ["headers", "output", "templates", "library", "type_map"] entries
  some
    { headers := ← readOr texts? [] (get "headers")
      output := ← readOr OutputSettings.ofToml? {} (get "output")
      templates := ← readOr TemplateSettings.ofToml? {} (get "templates")
      conventions := ← readOr Conventions.ofToml? {} (get "library")
      types := ← readOr table? ∅ (get "type_map") }

/-- The configuration that a document describes. -/
def Config.parse? (t : Text) : Option Config := (Toml.parse? t).bind Config.ofEntries?

end HeaderBindings
