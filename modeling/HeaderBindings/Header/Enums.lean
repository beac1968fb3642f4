import HeaderBindings.Text.Integer
import HeaderBindings.Header.Block
import HeaderBindings.Declarator
import HeaderBindings.Declarations.Basic

/-!
# Enumerations in a header

An enumeration may carry a tag, a type name behind its braces, both or neither.  Its members count
on from the one before, from zero at first, unless a value is written: a decimal or hexadecimal
number, or the name of an earlier member.
-/

set_option autoImplicit false

namespace HeaderBindings

namespace Pattern

/-- The word `typedef` and blanks, or nothing. -/
def optionalTypedef : Pattern := .optional ("typedef" ++ .blanks₁)

/-- A semicolon at the end of the text. -/
def finalSemicolon : Pattern := ";" ++ .textEnd

/-- A closing parenthesis and a semicolon at the end of the text. -/
def finalCall : Pattern := ")" ++ .blanks ++ finalSemicolon

/-- The texts of groups `1` to `count` of the first match. -/
def parts? (p : Pattern) (count : Nat) (t : Text) : Option (List Text) :=
  (p.search t).map fun g ↦ (List.range count).map fun i ↦ g.get (i + 1)

end Pattern

/-- The start of an enumeration. -/
def enumStart : Pattern := .textStart ++ .optionalTypedef ++ "enum" ++ .wordBoundary

/-- A whole enumeration: its tag, its members and its type name. -/
def enumPattern : Pattern :=
  .textStart ++ .optionalTypedef ++ "enum" ++ .blanks ++ .group 1 .word ++ .blanks ++ "\x7b" ++
  .group 2 .anything ++ "\x7d" ++ .blanks ++ .group 3 .word ++ .blanks ++ .finalSemicolon

/-- How an enumeration is recognised. -/
def enumKind : BlockKind where
  opens := enumStart.occursIn
  closes := Pattern.finalSemicolon.occursIn
  parts? := enumPattern.parts? 3

/-- The value that follows `previous` in counting, or `previous` itself at the largest value. -/
def countOn (previous : Int) : Int := if previous < maxInt64 then previous + 1 else previous

/-- The value written for a member after the given earlier ones, of which the latest comes first.
Of several earlier members with one name the one written first counts. -/
def memberValue? (earlier : List Enumerator) (t : Text) : Option Int :=
  match (t.afterLead? "0x").or (t.afterLead? "0X") with
  | some digits => int64? 16 digits
  | none =>
    match int64? 10 t with
    | some value => some value
    | none => (earlier.reverse.find? fun m ↦ m.native == t).map (·.value)

/-- The member written as `t` after the given earlier ones, of which the latest comes first, when
counting stands at `previous`. -/
def readMember (earlier : List Enumerator) (previous : Int) (t : Text) : Enumerator :=
  match t.splitAtFirst? "=" with
  | some (name, value) =>
    .ofNative name.trim ((memberValue? earlier value.trim).getD (countOn previous))
  | none => .ofNative t (countOn previous)

/-- The members written in the given pieces, after earlier ones, of which the latest comes first. -/
def readMembers (earlier : List Enumerator) (previous : Int) : List Text → List Enumerator
  | [] => []
  | piece :: pieces =>
    let t := piece.trim
    if t.isEmpty || t.startsWith "/*" then readMembers earlier previous pieces
    else
      let m := readMember earlier previous t
      m :: readMembers (m :: earlier) m.value pieces

/-- The name of an enumeration with neither tag nor type name. -/
def anonymousEnum : Text := "Anonymous"

/-- The enumeration in a block. -/
def enumOfBlock (file : Text) (b : Block) : Enumeration :=
  let part (i : Nat) : Text := (b.parts[i]?).getD []
  { name := ([part 0, part 2].find? fun n ↦ !n.isEmpty).getD anonymousEnum
    members := readMembers [] (-1) ((part 1).splitOn ',')
    doc := typeDoc b.doc
    location := ⟨file, b.line⟩ }

/-- The enumerations of a header. -/
def enumerations (file t : Text) : List Enumeration := (blocks enumKind t).map (enumOfBlock file)

end HeaderBindings
