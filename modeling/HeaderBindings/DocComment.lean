import HeaderBindings.Text.Pattern

/-!
# Documentation comments

The documentation in front of a declaration is written with tags: `@param`, `@return`, `@note` and
so on, each followed by its text and perhaps by further lines of it.  `DocFields.ofComment` sorts
the lines into the fields that a generated docstring has.

**An output parameter is a result.**  A parameter tagged `[out]` is not among the documented
parameters: all of them together make up the one line about what is returned, and lines that
continue such a parameter are left out.
-/

set_option autoImplicit false

namespace HeaderBindings

/-! ## Sentences and markup -/

/-- The text with a period at its end, unless it is empty or ends in punctuation already. -/
def endDot (t : Text) : Text :=
  match t.getLast? with
  | some c => if ".,:;?!".toList.contains c then t else t ++ ['.']
  | none => t

/-- Markup and what it becomes, in the order of replacement. -/
def markupReplacements : List (Text × Text) :=
  [("@\x7b", ""), ("@\x7d", ""), ("\\ingroup", ""), ("\x7b", ""), ("\x7d", ""),
   ("<b>", "B\x7b"), ("</b>", "\x7d"), ("@see", "See"), ("\\see", "See"), ("\\bug", "@bug"),
   ("\\version", "@version"), ("\\note", "@note"), ("\\warning", "@warning"),
   ("\\param", "@param"), ("\\return", "@return")]

/-- The mark of a cross-reference, as in `@ref name`. -/
def crossReference : Pattern :=
  .one (fun c ↦ c == '@' || c == '\\') ++
  .either "ref" (.either "a" (.either "p" (.either "c" (.either "em" (.either "e" "b"))))) ++
  .some₁ (fun c ↦ c == ' ' || c == '\t')

/-- A comment in plain markup: the replacements made, and a cross-reference reduced to its name. -/
def plainMarkup (raw : Text) : Text :=
  crossReference.removeAll
    (markupReplacements.foldl (fun t (old, new) ↦ t.replaceAll old new) raw)

/-- The documentation of a type: plain markup that ends like a sentence and starts with an
upper-case letter. -/
def typeDoc (raw : Text) : Text := upperFirst (endDot (plainMarkup raw))

/-! ## Tagged lines -/

/-- What a documented line is about. -/
inductive DocTag where
  | param | result | bug | version | note
deriving DecidableEq

/-- The tag of a line: the first of the tags, in their order, that it contains. -/
def DocTag.of? (line : Text) : Option DocTag :=
  if line.contains "@param" then some .param
  else if line.contains "@return" then some .result
  else if line.contains "@bug" then some .bug
  else if line.contains "@version" then some .version
  else if line.contains "@note" || line.contains "@warning" then some .note
  else none

/-- The line with a colon behind the tag, where blanks were. -/
def colonAfter (tag line : Text) : Text :=
  match line.splitAtFirst? tag with
  | some (before, c :: rest) =>
    if isBlank c then before ++ tag ++ ": " ++ Text.trimStart rest else line
  | _ => line

/-- A parameter line.  Group 2 is the name, group 4 the text, and the direction is group 1 if it
stands before the name and group 3 if it stands behind. -/
def paramPattern : Pattern :=
  let direction (i : Nat) : Pattern :=
    .optional ("[" ++ .group i (.many true (· != ']')) ++ "]")
  "@param" ++ .blanks ++ direction 1 ++ .blanks ++
  .group 2 (.either (.one isIdentStart ++ .word) "...") ++ .blanks ++ direction 3 ++ .blanks ++
  .group 4 .anything ++ .textEnd

/-- What a line tagged as a parameter documents. -/
inductive ParamLine where
  /-- Nothing that can be taken apart. -/
  | unreadable (line : Text)
  /-- A parameter that is passed in. -/
  | input (name text : Text)
  /-- A parameter that is passed in and changed. -/
  | inout (name text : Text)
  /-- A parameter that is a result. -/
  | output (name text : Text)

/-- A phrase in front of the text of an output parameter that says nothing. -/
def outputPhrase : Text := "pointer to get the "

/-- Read a line tagged as a parameter. -/
def ParamLine.parse (line : Text) : ParamLine :=
  match paramPattern.search line with
  | none => .unreadable line.trim
  | some g =>
    let name := g.get 2
    let text := (g.get 4).trim
    let direction := (((g.get? 1).or (g.get? 3)).getD []).filterMap fun c ↦
      if c = ' ' then none else some c.toLower
    if direction = "out" then
      .output name (Text.joinWith [' '] (text.replaceAll outputPhrase []).words)
    else if direction = "in,out" ∨ direction = "inout" then .inout name text
    else .input name text

/-! ## Fields -/

/-- The documentation of a function, sorted into fields. -/
structure DocFields where
  /-- The lines of the description. -/
  heads : List Text := []
  /-- The lines about parameters that are passed in. -/
  params : List Text := []
  /-- The names of the parameters tagged as results. -/
  outputs : List Text := []
  /-- The names of the parameters tagged as both. -/
  inouts : List Text := []
  /-- The lines about results, notes, versions and bugs. -/
  tails : List Text := []
deriving DecidableEq

/-- The field that an untagged line continues. -/
inductive DocField where
  | param | result | bug | version | note
  /-- An output parameter, whose further lines are left out. -/
  | dropped
deriving DecidableEq

/-- What a field holds while lines are read: its entries, the latest one first, each as the lines
that it was read from, the last one first. -/
abbrev DocEntries := List (List Text)

namespace DocEntries

/-- One more entry, of one line so far. -/
def add (entries : DocEntries) (line : Text) : DocEntries := [line] :: entries

/-- The latest entry with a further line. -/
def continued (entries : DocEntries) (more : Text) : DocEntries :=
  match entries with
  | [] => []
  | latest :: earlier => (more :: latest) :: earlier

/-- The entries in the order they were read in, the lines of each with a blank between them. -/
def texts (entries : DocEntries) : List Text :=
  entries.reverse.map fun lines ↦ Text.joinWith [' '] lines.reverse

end DocEntries

/-- The fields while lines are read.  Lists of texts have their latest entry first. -/
structure DocReader where
  current : Option DocField := none
  heads : List Text := []
  params : DocEntries := []
  outputs : List Text := []
  inouts : List Text := []
  outputTexts : List Text := []
  results : DocEntries := []
  notes : DocEntries := []
  versions : DocEntries := []
  bugs : DocEntries := []

namespace DocReader

/-- Take in a line about a parameter. -/
def param (r : DocReader) (line : Text) : DocReader :=
  let documented (name text : Text) : Text := "@param " ++ name ++ ": " ++ text
  match ParamLine.parse line with
  | .unreadable t => { r with current := some .param, params := r.params.add t }
  | .input name text =>
    { r with current := some .param, params := r.params.add (documented name text) }
  | .inout name text =>
    { r with current := some .param, params := r.params.add (documented name text),
             inouts := name :: r.inouts }
  | .output name text =>
    { r with current := some .dropped, outputs := name :: r.outputs,
             outputTexts := Text.trimEnd (name ++ ' ' :: text) :: r.outputTexts }

/-- Take in a line without a tag. -/
def untagged (r : DocReader) (line : Text) : DocReader :=
  match r.current with
  | none => { r with heads := line.trimEnd :: r.heads }
  | some field =>
    let more := line.trim
    if more.isEmpty then r
    else
      match field with
      | .param => { r with params := r.params.continued more }
      | .result => { r with results := r.results.continued more }
      | .bug => { r with bugs := r.bugs.continued more }
      | .version => { r with versions := r.versions.continued more }
      | .note => { r with notes := r.notes.continued more }
      | .dropped => r

/-- Take in a line. -/
def step (r : DocReader) (line : Text) : DocReader :=
  match DocTag.of? line with
  | some .param => r.param line
  | some .result =>
    { r with current := some .result, results := r.results.add (colonAfter "@return" line) }
  | some .bug => { r with current := some .bug, bugs := r.bugs.add (colonAfter "@bug" line) }
  | some .version =>
    { r with current := some .version, versions := r.versions.add (colonAfter "@version" line) }
  | some .note =>
    { r with current := some .note,
             notes := r.notes.add (colonAfter "@warning" (colonAfter "@note" line)) }
  | none => r.untagged line

/-- The description: without blank lines at its end, with its first line that is not blank
starting in upper case and its last line ending like a sentence. -/
def description (heads : List Text) : List Text :=
  let heads := heads.dropWhile Text.isBlank
  let heads := match heads.reverse.span Text.isBlank with
    | (blank, first :: rest) => blank ++ upperFirst first :: rest
    | (blank, []) => blank
  match heads.reverse with
  | last :: earlier => (endDot last :: earlier).reverse
  | [] => []

/-- The finished fields. -/
def fields (r : DocReader) : DocFields :=
  let results :=
    if r.outputTexts.isEmpty then r.results.texts
    else ["@return: " ++ Text.joinWith ", " r.outputTexts.reverse]
  { heads := description r.heads
    params := r.params.texts.map endDot
    outputs := r.outputs.reverse
    inouts := r.inouts.reverse
    tails :=
      (results ++ r.notes.texts ++ r.versions.texts ++ r.bugs.texts).map endDot }

end DocReader

/-- The fields of a documentation comment. -/
def DocFields.ofComment (raw : Text) : DocFields :=
  ((plainMarkup raw).lines.foldl DocReader.step {}).fields

/-- The number of documented parameters, results among them. -/
def DocFields.paramCount (d : DocFields) : Nat := d.params.length + d.outputs.length

end HeaderBindings
