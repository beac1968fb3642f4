import HeaderBindings.Text.CodeTables
import HeaderBindings.Text.CaseTable

/-!
# Character classes and letter case

The classes the grammar of a header is written in.  Every function settles ASCII with a few
comparisons before it looks at a table, so that a proof about an ASCII identifier never meets one.
-/

set_option autoImplicit false

namespace HeaderBindings

/-- The character is an ASCII one. -/
def isAscii (c : Char) : Bool := c.toNat < 0x80

/-- White space: the blanks, tabs, line ends and spaces of the Unicode property *White_Space*. -/
def isBlank (c : Char) : Bool :=
  if isAscii c then c == ' ' || (0x9 ≤ c.toNat && c.toNat ≤ 0xD)
  else
    c.toNat == 0x85 || c.toNat == 0xA0 || c.toNat == 0x1680 ||
    (0x2000 ≤ c.toNat && c.toNat ≤ 0x200A) || c.toNat == 0x2028 || c.toNat == 0x2029 ||
    c.toNat == 0x202F || c.toNat == 0x205F || c.toNat == 0x3000

/-- A character of a word: a letter, mark, decimal digit, connector or joiner. -/
def isWordChar (c : Char) : Bool :=
  if isAscii c then c.isAlphanum || c == '_' else CodeRanges.word.contains c

/-- A letter or a number of any script. -/
def isLetterOrNumber (c : Char) : Bool :=
  if isAscii c then c.isAlphanum else CodeRanges.letterOrNumber.contains c

/-- A lower-case letter. -/
def isLowercase (c : Char) : Bool :=
  if isAscii c then c.isLower else CaseTable.lowercase.any (·.contains c)

/-- A character that may start an identifier of a C header. -/
def isIdentStart (c : Char) : Bool := c.isAlpha || c == '_'

/-! ## Letter case -/

/-- The partner of `c` in a case mapping: an expansion if there is one, else the single partner,
else `c` itself. -/
private def casePartner (expansion : List (Nat × List Nat)) (single : List (Progression × Int))
    (c : Char) : List Char :=
  match expansion.find? fun row ↦ row.1 == c.toNat with
  | some row => row.2.map Char.ofNat
  | none =>
    match single.find? fun row ↦ row.1.contains c with
    | some row => [Char.ofNat (Int.ofNat c.toNat + row.2).toNat]
    | none => [c]

/-- Upper case of a character; several characters for letters such as `ß`. -/
def upperCase (c : Char) : List Char :=
  if isAscii c then [c.toUpper] else casePartner CaseTable.upperExpansion CaseTable.toUpper c

/-- Lower case of a character; several characters for the dotted capital `İ`. -/
def lowerCase (c : Char) : List Char :=
  if isAscii c then [c.toLower] else casePartner CaseTable.lowerExpansion CaseTable.toLower c

/-- The text with its first character in upper case and the rest untouched. -/
def upperFirst : List Char → List Char
  | [] => []
  | c :: rest => upperCase c ++ rest

/-- The text with its first character in lower case and the rest untouched. -/
def lowerFirst : List Char → List Char
  | [] => []
  | c :: rest => lowerCase c ++ rest

end HeaderBindings
