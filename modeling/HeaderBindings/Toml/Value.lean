import HeaderBindings.Text.Basic

/-!
# Configuration values

The values of the configuration format, and how a document builds them up.  A table may be opened
by a header or grow from dotted keys, and the format forbids to define anything twice, so each
table remembers where it comes from.

Numbers and truth values are told apart but not kept, since no setting has one.
-/

set_option autoImplicit false

namespace HeaderBindings

/-- How a table came to be. -/
inductive TableOrigin where
  /-- By a header, or as the document itself. -/
  | header
  /-- By the header of a table inside it. -/
  | implied
  /-- By a dotted key that goes through it, though a header inside it may have made it first. -/
  | dotted
  /-- Between braces, which nothing can be added to. -/
  | inlined
deriving DecidableEq

/-- A value of a configuration document. -/
inductive Toml where
  | string (t : Text)
  /-- A number, which may have the form of one and still not be readable. -/
  | number (readable : Bool)
  | boolean
  /-- A date or a time in its canonical form. -/
  | date (t : Text)
  /-- An array between brackets. -/
  | array (items : List Toml)
  /-- An array of tables that have headers of their own. -/
  | tables (items : List (List (Text × Toml)))
  | table (origin : TableOrigin) (entries : List (Text × Toml))

namespace Toml

/-- The entries of a table. -/
abbrev Entries := List (Text × Toml)

/-- The value of a key. -/
def lookup (key : Text) (entries : Entries) : Option Toml :=
  (entries.find? fun e ↦ e.1 == key).map (·.2)

/-- The entries with another value for a key they have. -/
def replace (key : Text) (value : Toml) (entries : Entries) : Entries :=
  entries.map fun e ↦ if e.1 == key then (key, value) else e

/-- Change the entries of the table at a path.  Missing tables on the way are made, as dotted ones
if the path is a dotted key.  A dotted key enters neither a table with a header nor one between
braces, and makes a table its own by going through it.  Nothing enters a value. -/
def update (isDotted : Bool) (change : TableOrigin → Entries → Option Entries) :
    TableOrigin → List Text → Entries → Option Entries
  | origin, [], entries => change origin entries
  | _, key :: path, entries =>
    match lookup key entries with
    | none =>
      let origin := if isDotted then TableOrigin.dotted else .implied
      (update isDotted change origin path []).map fun inner ↦
        entries ++ [(key, table origin inner)]
    | some (table origin inner) =>
      if origin = .inlined ∨ (isDotted ∧ origin = .header) then none
      else
        let origin := if isDotted then TableOrigin.dotted else origin
        (update isDotted change origin path inner).map fun inner ↦
          replace key (table origin inner) entries
    | some (tables items) =>
      match items.reverse with
      | [] => none
      | last :: earlier =>
        (update isDotted change .header path last).map fun last ↦
          replace key (tables (last :: earlier).reverse) entries
    | some _ => none

/-- Split a path into the way to its last key and that key. -/
def splitLast : List Text → Option (List Text × Text)
  | [] => none
  | [key] => some ([], key)
  | key :: path => (splitLast path).map fun (way, last) ↦ (key :: way, last)

/-- Give a key a value in the table at hand.  The last table that a dotted key goes through is one
of dotted keys. -/
def define (origin : TableOrigin) (path : List Text) (value : Toml) (entries : Entries) :
    Option Entries :=
  match splitLast path with
  | none => none
  | some (way, key) =>
    update true
      (fun origin entries ↦
        if way ≠ [] ∧ origin ≠ .dotted then none
        else if (lookup key entries).isSome then none
        else some (entries ++ [(key, value)]))
      origin way entries

/-- Open the table of a header. -/
def openTable (path : List Text) (entries : Entries) : Option Entries :=
  match splitLast path with
  | none => none
  | some (way, key) =>
    update false
      (fun _ entries ↦
        match lookup key entries with
        | none => some (entries ++ [(key, table .header [])])
        | some (table .implied inner) => some (replace key (table .header inner) entries)
        | some _ => none)
      .header way entries

/-- Open one more table of an array of tables. -/
def openElement (path : List Text) (entries : Entries) : Option Entries :=
  match splitLast path with
  | none => none
  | some (way, key) =>
    update false
      (fun _ entries ↦
        match lookup key entries with
        | none => some (entries ++ [(key, tables [[]])])
        | some (tables items) => some (replace key (tables (items ++ [[]])) entries)
        | some _ => none)
      .header way entries

/-- Give a key a value in the table with the given header. -/
def defineIn (header path : List Text) (value : Toml) (entries : Entries) : Option Entries :=
  update false (fun origin entries ↦ define origin path value entries) .header header entries

/-! ## Readable values -/

mutual

/-- All numbers in the value can be read. -/
def isReadable : Toml → Bool
  | number readable => readable
  | array items => areReadable items
  | tables items => areReadableTables items
  | table _ entries => areReadableEntries entries
  | _ => true

/-- All numbers in the values can be read. -/
def areReadable : List Toml → Bool
  | [] => true
  | item :: items => isReadable item && areReadable items

/-- All numbers in the tables can be read. -/
def areReadableTables : List (List (Text × Toml)) → Bool
  | [] => true
  | entries :: items => areReadableEntries entries && areReadableTables items

/-- All numbers in the values of the entries can be read. -/
def areReadableEntries : List (Text × Toml) → Bool
  | [] => true
  | (_, value) :: entries => isReadable value && areReadableEntries entries

end

end Toml

end HeaderBindings
