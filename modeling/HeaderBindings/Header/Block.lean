import HeaderBindings.Header.Line

/-!
# Declarations as blocks of lines

A declaration of a header is a run of code lines: a first line that a kind of declaration
recognises, then all code up to a line that ends it.  `blocks` finds these runs in one pass over
the lines, and joins to each the documentation comment that stands in front of it.

Three tests make up a kind of declaration: `opens` decides whether a code line starts one, `closes`
whether a line ends it, and `parts?` takes the joined code apart.  A run that `parts?` refuses is
dropped without a trace, and so is one that is still open when the header ends.
-/

set_option autoImplicit false

namespace HeaderBindings

/-- A declaration as it was found. -/
structure Block where
  /-- The parts of the joined code. -/
  parts : List Text
  /-- The documentation comment in front of the declaration, without its closing mark. -/
  doc : Text
  /-- The number of the line that ends the declaration, counted from one. -/
  line : Nat
deriving DecidableEq

/-- How one kind of declaration is recognised. -/
structure BlockKind where
  /-- A code line that starts a declaration. -/
  opens : Text → Bool
  /-- A code line that ends a declaration. -/
  closes : Text → Bool
  /-- The parts of a whole declaration, whose lines are joined by single blanks. -/
  parts? : Text → Option (List Text)

/-- What the scanner knows between two lines. -/
structure Scanner where
  /-- The lines of the latest documentation comment, the last one first. -/
  doc : List Text
  /-- The code lines of the open declaration, the last one first; `none` outside of one. -/
  pending : Option (List Text)
  /-- A block comment is still open. -/
  inComment : Bool
deriving DecidableEq

namespace Scanner

/-- The state before the first line. -/
def start : Scanner := ⟨[], none, false⟩

/-- The text of a documentation comment: its lines, given last one first, without outer blanks
and without a closing mark. -/
def docText (doc : List Text) : Text :=
  let whole := Text.trim (Text.joinWith ['\n'] doc.reverse)
  match whole.beforeTail? "*/" with
  | some inner => inner.trimEnd
  | none => whole

/-- Close a declaration whose code lines are given last one first: a block if its parts are
recognised, and the documentation comment is used up by it. -/
def close (kind : BlockKind) (s : Scanner) (code : List Text) (line : Nat) :
    Scanner × Option Block :=
  match kind.parts? (Text.joinWith [' '] code.reverse) with
  | some parts => ({ s with doc := [], pending := none }, some ⟨parts, docText s.doc, line⟩)
  | none => ({ s with pending := none }, none)

/-- Take in a line of code. -/
def code (kind : BlockKind) (s : Scanner) (t : Text) (line : Nat) : Scanner × Option Block :=
  match s.pending with
  | some earlier =>
    if kind.closes t then s.close kind (t :: earlier) line
    else ({ s with pending := some (t :: earlier) }, none)
  | none =>
    if kind.opens t then
      if kind.closes t then s.close kind [t] line
      else ({ s with pending := some [t] }, none)
    else
      -- A documentation comment belongs to the declaration right after it, so other code drops it.
      ({ s with doc := [] }, none)

/-- Take in a line of any class that may hold code. -/
def rawCode (kind : BlockKind) (s : Scanner) (raw : Text) (line : Nat) :
    Scanner × Option Block :=
  let (t, stays) := codeOf s.inComment raw
  let s := { s with inComment := stays }
  if t.isEmpty then (s, none) else s.code kind t line

/-- Take in a line.  Inside a block comment no line counts as documentation, and directives are
passed over everywhere. -/
def step (kind : BlockKind) (s : Scanner) (raw : Text) (line : Nat) : Scanner × Option Block :=
  match Line.classify raw, s.inComment with
  | .directive, _ => (s, none)
  | .docStart t, false => ({ s with doc := [t] }, none)
  | .docMore t, false => ({ s with doc := t :: s.doc }, none)
  | .docEnd, false => (s, none)
  | _, _ => s.rawCode kind raw line

/-- The blocks of the given lines, of which the first has the given number. -/
def run (kind : BlockKind) : Scanner → Nat → List Text → List Block
  | _, _, [] => []
  | s, n, raw :: rest =>
    let (s, block) := s.step kind raw n
    block.toList ++ run kind s (n + 1) rest

end Scanner

/-- The declarations of one kind in a header, in order. -/
def blocks (kind : BlockKind) (t : Text) : List Block := Scanner.start.run kind 1 t.lines

end HeaderBindings
