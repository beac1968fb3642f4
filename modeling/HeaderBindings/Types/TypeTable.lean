import HeaderBindings.Types.Names
import HeaderBindings.Conventions
import HeaderBindings.Diagnostic
import HeaderBindings.Declarations.Listing

/-!
# The table of types

The table gives every type of the headers its descriptor.  It is derived in full before anything
is looked up: basic types and configured ones come first, then a class for every declared type,
then the descriptors of type names, and pointers to structs at last.  No step replaces an entry
of an earlier one.

**Type names may stand for type names.**  One round over the type names settles those that
stand for a type with a descriptor, and rounds over the rest go on until one settles nothing.
-/

set_option autoImplicit false

namespace HeaderBindings

/-! ## Descriptors -/

namespace Descriptors

/-- The basic types, and the configured ones over them. -/
def basic (configured : Table) : Table :=
  (Std.TreeMap.ofList basicTypes compare).insertMany configured.toList

/-- Add a class for each of the given types that has no descriptor. -/
def addClasses (leads : List Text) (table : Table) (types : List Text) : Table :=
  types.foldl (fun table native ↦ table.insertIfNew native (className leads native)) table

/-- Settle a type name that stands for a type with a descriptor, and the pointer to it unless that
has one of its own. -/
def settleAlias (table : Table) (entry : Text × Text) : Table :=
  if table.contains entry.1 then table
  else
    match table[entry.2]? with
    | some target =>
      (table.insertIfNew (entry.1 ++ ['*']) (pointerTo target)).insert entry.1 target
    | none => table

/-- The type names that a table has no descriptor for. -/
def unsettled (aliases : List (Text × Text)) (table : Table) : List (Text × Text) :=
  aliases.filter fun entry ↦ !table.contains entry.1

/-- One round over the given type names. -/
def settleRound (table : Table) (aliases : List (Text × Text)) : Table :=
  aliases.foldl settleAlias table

/-- Rounds over the type names that are not settled yet, until one settles nothing. -/
def settleAliases (table : Table) (aliases : List (Text × Text)) : Table :=
  let next := settleRound table aliases
  let left := unsettled aliases next
  if left.length < aliases.length then settleAliases next left else next
termination_by aliases.length

/-- Add the pointer to each of the given structs unless it has a descriptor. -/
def addStructPointers (table : Table) (structs : List Text) : Table :=
  structs.foldl
    (fun table name ↦
      match table[name]? with
      | some descriptor => table.insertIfNew (name ++ ['*']) (pointerTo descriptor)
      | none => table)
    table

/-- The descriptors of all types: of basic and configured ones, declared ones, type names and
pointers to structs. -/
def derive (conventions : Conventions) (configured : Table) (d : Declarations) : Table :=
  let declared :=
    d.enums.map (·.name) ++ d.structs.map (·.name) ++ d.handles ++ d.callbacks.map (·.name)
  let table := addClasses conventions.typeLeads (basic configured) declared
  addStructPointers (settleAliases table d.aliases.toList) (d.structs.map (·.name))

end Descriptors

/-! ## Methods and links -/

/-- The table of types, with what methods of the wrapper classes are named by. -/
structure TypeTable where
  /-- The descriptor of each type. -/
  descriptors : Table
  /-- For each wrapper class what the names of its functions begin with. -/
  methodLeads : Table
  /-- For each type the class that a mention of it means. -/
  links : Table
  /-- The classes that functions become methods of. -/
  wrapperClasses : List Text
  /-- What the names of all functions begin with. -/
  functionLead : Text

namespace TypeTable

/-- The wrapper class that an entry of the descriptors makes a type belong to, with the type's
name. -/
def wrapperOf? (wrapperClasses : List Text) (entry : Text × Text) : Option (Text × Text) :=
  if entry.2 ∈ wrapperClasses then some (entry.2, entry.1.dropTail (· == '*')) else none

/-- The link that an entry of the descriptors makes: to a wrapper class, or to the class that the
entry is a pointer to. -/
def linkOf? (wrapperClasses : List Text) (entry : Text × Text) : Option (Text × Text) :=
  let native := entry.1.dropTail (· == '*')
  if entry.2 ∈ wrapperClasses then some (native, entry.2)
  else
    match entry.2.afterLead? pointerLead with
    | some inner =>
      let inner := inner.dropTail (· == ')')
      if inner.head?.any Char.isUpper then some (native, inner) else none
    | none => none

/-- The table for the given declarations.  Of several types with one wrapper class the last one in
order names its methods. -/
def build (conventions : Conventions) (configured : Table) (d : Declarations) : TypeTable :=
  let descriptors := Descriptors.derive conventions configured d
  let entries := descriptors.toList
  { descriptors
    methodLeads := (∅ : Table).insertMany
      ((entries.filterMap (wrapperOf? conventions.wrapperClasses)).map
        fun (cls, native) ↦ (cls, lowerFirst native))
    links := (∅ : Table).insertMany
      (entries.filterMap (linkOf? conventions.wrapperClasses))
    wrapperClasses := conventions.wrapperClasses
    functionLead := conventions.functionLead }

/-- The descriptor of a type. -/
def resolve? (table : TypeTable) (type : Text) : Option Text := table.descriptors[type]?

/-- The descriptor of a type, or the one of any pointer. -/
def descriptor (table : TypeTable) (type : Text) : Text := (table.resolve? type).getD anyPointer

/-- The class of a declared type, or its own name. -/
def classOf (table : TypeTable) (type : Text) : Text := (table.resolve? type).getD type

/-! ## Missing descriptors -/

/-- The diagnostic for a type if it has no descriptor. -/
def unresolved? (table : TypeTable) (f : Prototype) (type usage : Text) : Option Diagnostic :=
  if (table.resolve? type).isNone then some (.unresolvedType type usage f.location.display)
  else none

/-- What is missing for a function: a descriptor for the type of its result or a parameter. -/
def missingFor (table : TypeTable) (f : Prototype) : List Diagnostic :=
  (table.unresolved? f f.type f.name).toList ++
    f.params.filterMap fun p ↦ table.unresolved? f p.type (p.name ++ " in " ++ f.name)

/-- What is missing for the functions of the library. -/
def missing (table : TypeTable) (d : Declarations) : List Diagnostic :=
  d.functions.flatMap table.missingFor

/-! ## Listing -/

/-- A table in a listing; nothing for an empty one. -/
def tableListing (title version : Text) (entries : Table) : Text :=
  if entries.isEmpty then []
  else sectionHeading title version ++ entries.toList.flatMap (entryListing ": ")

/-- The derived tables, in sections. -/
def listing (table : TypeTable) (version : Text) : Text :=
  tableListing "type2class" version table.descriptors ++
  tableListing "prefixes" version table.methodLeads ++
  tableListing "links" version table.links

end TypeTable

end HeaderBindings
