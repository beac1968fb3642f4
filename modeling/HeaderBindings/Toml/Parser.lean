import HeaderBindings.Toml.Scalar
import HeaderBindings.Toml.Value

/-!
# Reading configuration documents

A reader takes what it reads from the front of a text and returns it with the rest, or nothing if
the text does not have the form.  The readers of values call each other, so each has a bound on
the number of such calls, which the length of the document keeps from being reached.

**The format has limits of its own.**  Arrays and tables between brackets and braces may be nested
only so deep, and a key has only so many parts.
-/

set_option autoImplicit false

namespace HeaderBindings.Toml

/-! ## Blanks and comments -/

/-- A blank between the parts of a line. -/
def isSpace (c : Char) : Bool := c == ' ' || c == '\t'

/-- A character that may stand in a comment or in a quoted text. -/
def isPrintable (c : Char) : Bool := c == '\t' || (0x20 ≤ c.toNat && c.toNat != 0x7F)

/-- What follows the blanks of a line. -/
def skipSpace (t : Text) : Text := t.dropWhile isSpace

/-- What follows the end of a line, which may hold blanks and a comment. -/
def lineEnd? (inComment : Bool) : Text → Option Text
  | [] => some []
  | '\n' :: t => some t
  | '\r' :: '\n' :: t => some t
  | c :: t =>
    if inComment then if isPrintable c then lineEnd? true t else none
    else if isSpace c then lineEnd? false t
    else if c = '#' then lineEnd? true t
    else none

/-- What follows blanks, line ends and comments. -/
def skipLines? (inComment : Bool) : Text → Option Text
  | [] => some []
  | '\n' :: t => skipLines? false t
  | '\r' :: '\n' :: t => skipLines? false t
  | c :: t =>
    if inComment then if isPrintable c then skipLines? true t else none
    else if isSpace c then skipLines? false t
    else if c = '#' then skipLines? true t
    else some (c :: t)

/-- What follows a single line end, or the text itself. -/
def dropLineEnd : Text → Text
  | '\n' :: t => t
  | '\r' :: '\n' :: t => t
  | t => t

/-! ## Quoted text

Inside double quotes a backslash gives the characters behind it a meaning of their own.  What such
a sequence means is decided where it begins, and the reader then passes over it: `skip` is the
number of characters that it still has to drop. -/

/-- The character whose code is written in so many hexadecimal digits in front of the text. -/
def codeEscape? (digits : Nat) (t : Text) : Option Char :=
  let code := t.take digits
  if code.length = digits then
    (natural? 16 code).bind fun n ↦ if n.isValidChar then some (Char.ofNat n) else none
  else none

/-- The character that the text behind a backslash means, and how many characters mean it. -/
def escape? : Text → Option (Char × Nat)
  | 'b' :: _ => some ('\x08', 1)
  | 't' :: _ => some ('\t', 1)
  | 'n' :: _ => some ('\n', 1)
  | 'f' :: _ => some ('\x0c', 1)
  | 'r' :: _ => some ('\r', 1)
  | 'e' :: _ => some ('\x1b', 1)
  | '"' :: _ => some ('"', 1)
  | '\\' :: _ => some ('\\', 1)
  | 'x' :: t => (codeEscape? 2 t).map (·, 3)
  | 'u' :: t => (codeEscape? 4 t).map (·, 5)
  | 'U' :: t => (codeEscape? 8 t).map (·, 9)
  | _ => none

/-- One more character in front of what was read. -/
def consTo (c : Char) (r : Option (Text × Text)) : Option (Text × Text) :=
  r.map fun (body, rest) ↦ (c :: body, rest)

/-- The rest of a text between double quotes. -/
def basicBody (skip : Nat) : Text → Option (Text × Text)
  | [] => none
  | c :: t =>
    match skip with
    | skip + 1 => basicBody skip t
    | 0 =>
      if c = '"' then some ([], t)
      else if c = '\\' then (escape? t).bind fun (c, n) ↦ consTo c (basicBody n t)
      else if isPrintable c then consTo c (basicBody 0 t)
      else none

/-- The rest of a text between single quotes. -/
def literalBody : Text → Option (Text × Text)
  | [] => none
  | c :: t =>
    if c = '\'' then some ([], t)
    else if isPrintable c then consTo c (literalBody t)
    else none

/-- The end of a text between triple quotes: up to two quotes in front of the last three belong
to the text. -/
def closing? (quote : Char) (t : Text) : Option (Text × Text) :=
  let count := ((t.take 5).takeWhile (· == quote)).length
  if 3 ≤ count then some (List.replicate (count - 3) quote, t.drop count) else none

/-- How many blanks and line ends the text begins with. -/
def gapLength : Text → Nat
  | '\r' :: '\n' :: t => gapLength t + 2
  | c :: t => if isSpace c || c == '\n' then gapLength t + 1 else 0
  | [] => 0

/-- How many characters behind a backslash at the end of a line are left out: all up to the next
text that is not blank. -/
def continuation? (t : Text) : Option Nat :=
  match skipSpace t with
  | '\n' :: _ => some (gapLength t)
  | '\r' :: '\n' :: _ => some (gapLength t)
  | _ => none

/-- A carriage return, which nothing but a line feed may follow. -/
def isLineReturn (c : Char) (t : Text) : Bool := c == '\r' && t.head? == some '\n'

/-- The rest of a text over several lines, in which a backslash has a meaning if `escapes`. -/
def linesBody (quote : Char) (escapes : Bool) (skip : Nat) : Text → Option (Text × Text)
  | [] => none
  | c :: t =>
    match skip with
    | skip + 1 => linesBody quote escapes skip t
    | 0 =>
      match closing? quote (c :: t) with
      | some r => some r
      | none =>
        if escapes && c == '\\' then
          match continuation? t with
          | some n => linesBody quote escapes n t
          | none => (escape? t).bind fun (c, n) ↦ consTo c (linesBody quote escapes n t)
        else if isPrintable c || c == '\n' || isLineReturn c t then
          consTo c (linesBody quote escapes 0 t)
        else none

/-- A text between single or double quotes. -/
def quoted? : Text → Option (Text × Text)
  | '"' :: t => basicBody 0 t
  | '\'' :: t => literalBody t
  | _ => none

/-- A text between quotes of any kind. -/
def string? : Text → Option (Text × Text)
  | '"' :: '"' :: '"' :: t => linesBody '"' true 0 (dropLineEnd t)
  | '\'' :: '\'' :: '\'' :: t => linesBody '\'' false 0 (dropLineEnd t)
  | t => quoted? t

/-! ## Keys -/

/-- A character of a key without quotes. -/
def isKeyChar (c : Char) : Bool := c.isAlphanum || c == '_' || c == '-'

/-- A key without dots. -/
def key? (t : Text) : Option (Text × Text) :=
  match t.takeWhile isKeyChar with
  | [] => quoted? t
  | key => some (key, t.dropWhile isKeyChar)

/-- The number of parts that a key may have. -/
def maxParts : Nat := 80

/-- A key of at most so many parts, which are separated by dots, and what follows it and blanks. -/
def path? : Nat → Text → Option (List Text × Text)
  | 0, _ => none
  | parts + 1, t =>
    (key? (skipSpace t)).bind fun (key, t) ↦
      match skipSpace t with
      | '.' :: t => (path? parts t).map fun (path, t) ↦ (key :: path, t)
      | t => some ([key], t)

/-! ## Values -/

/-- A character that no number, truth value or date goes on after. -/
def isDelimiter (c : Char) : Bool := ",=[]\x7b\x7d#\n\r".toList.contains c

/-- The text of a number, a truth value or a date, and what follows it.  Blanks belong to it, as
between a date and its time, but a quote behind them does not. -/
def plainText (afterBlank : Bool) : Text → Text × Text
  | [] => ([], [])
  | c :: t =>
    if isDelimiter c || (afterBlank && (c == '"' || c == '\'')) then ([], c :: t)
    else
      let (text, rest) := plainText (isSpace c) t
      (c :: text, rest)

/-- The value that a text without quotes, brackets and braces means. -/
def plainValue? (t : Text) : Option Toml :=
  if t = "true" ∨ t = "false" then some boolean
  else
    match number? t with
    | some readable => some (number readable)
    | none => (date? t).map date

/-- A number, a truth value or a date. -/
def scalar? (t : Text) : Option (Toml × Text) :=
  let (text, rest) := plainText false t
  (plainValue? (text.dropTail isSpace)).map (·, rest)

/-- How deep arrays and tables may be nested in each other. -/
def maxDepth : Nat := 80

mutual

/-- A value, inside of which there may be `depth` more levels of arrays and tables. -/
def value? (depth : Nat) : Nat → Text → Option (Toml × Text)
  | 0, _ => none
  | bound + 1, t =>
    match t, depth with
    | '[' :: _, 0 => none
    | '\x7b' :: _, 0 => none
    | '[' :: t, depth + 1 => (items? depth bound t).map fun (items, t) ↦ (array items, t)
    | '\x7b' :: t, depth + 1 =>
      (members? depth bound [] t).map fun (entries, t) ↦ (table .inlined entries, t)
    | '"' :: _, _ => (string? t).map fun (s, t) ↦ (string s, t)
    | '\'' :: _, _ => (string? t).map fun (s, t) ↦ (string s, t)
    | _, _ => scalar? t
termination_by structural bound => bound

/-- The rest of an array. -/
def items? (depth : Nat) : Nat → Text → Option (List Toml × Text)
  | 0, _ => none
  | bound + 1, t =>
    match skipLines? false t with
    | some (']' :: t) => some ([], t)
    | some t =>
      (value? depth bound t).bind fun (item, t) ↦
        match skipLines? false t with
        | some (']' :: t) => some ([item], t)
        | some (',' :: t) => (items? depth bound t).map fun (items, t) ↦ (item :: items, t)
        | _ => none
    | none => none

/-- The rest of a table between braces, with the entries before it. -/
def members? (depth : Nat) : Nat → Entries → Text → Option (Entries × Text)
  | 0, _, _ => none
  | bound + 1, entries, t =>
    match skipLines? false t with
    | some ('\x7d' :: t) => some (entries, t)
    | some t =>
      (member? depth bound t).bind fun (path, value, t) ↦
        (define .header path value entries).bind fun entries ↦
          match skipLines? false t with
          | some ('\x7d' :: t) => some (entries, t)
          | some (',' :: t) => members? depth bound entries t
          | _ => none
    | none => none

/-- A key and its value in a table between braces.  The equals sign may stand on a line of its
own. -/
def member? (depth : Nat) : Nat → Text → Option (List Text × Toml × Text)
  | 0, _ => none
  | bound + 1, t =>
    (path? maxParts t).bind fun (path, t) ↦
      match skipLines? false t with
      | some ('=' :: t) =>
        (skipLines? false t).bind fun t ↦
          (value? depth bound t).map fun (value, t) ↦ (path, value, t)
      | _ => none

end

/-! ## Documents -/

/-- A key and its value on a line of the document. -/
def assignment? (bound : Nat) (t : Text) : Option (List Text × Toml × Text) :=
  (path? maxParts t).bind fun (path, t) ↦
    match t with
    | '=' :: t => (value? maxDepth bound (skipSpace t)).map fun (value, t) ↦ (path, value, t)
    | _ => none

/-- The path in a header, up to its closing brackets. -/
def header? (closing t : Text) : Option (List Text × Text) :=
  (path? maxParts t).bind fun (path, t) ↦
    (t.afterLead? closing).map fun t ↦ (path, t)

/-- The entries of a document, of which those before are read already and the last header is
given.  A value makes less than four calls for each of its characters. -/
def document? : Nat → List Text → Entries → Text → Option Entries
  | 0, _, _, _ => none
  | bound + 1, header, entries, t =>
    match skipLines? false t with
    | none => none
    | some [] => some entries
    | some ('[' :: '[' :: t) =>
      (header? "]]" t).bind fun (path, t) ↦
        (openElement path entries).bind fun entries ↦
          (lineEnd? false t).bind (document? bound path entries)
    | some ('[' :: t) =>
      (header? "]" t).bind fun (path, t) ↦
        (openTable path entries).bind fun entries ↦
          (lineEnd? false t).bind (document? bound path entries)
    | some t =>
      (assignment? (4 * bound + 4) t).bind fun (path, value, t) ↦
        (defineIn header path value entries).bind fun entries ↦
          (lineEnd? false t).bind (document? bound header entries)

/-- The entries of a document. -/
def parse? (t : Text) : Option Entries :=
  let t := match t with
    | '\uFEFF' :: t => t
    | t => t
  document? (t.length + 1) [] [] t

end HeaderBindings.Toml
