import HeaderBindings.Text.CharClass

/-!
# Text

Text is a list of characters.  Everything in this library works on it, from a header's first line
to the last line of a module, so that each function is a recursion that a proof can follow;
`String` appears only where text enters and leaves the program.

Besides trimming there are three ways of taking text apart: into lines, at the first occurrence
of a piece of text, and at every character of a class.
-/

set_option autoImplicit false

namespace HeaderBindings

/-- Text is a list of characters. -/
abbrev Text := List Char

/-- A string literal is text. -/
instance : Coe String Text := ⟨String.toList⟩

/-- Texts are compared character by character, which is what finding one in a list rests on. -/
instance : LawfulBEq Text := inferInstance

namespace Text

/-! ## Blank space -/

/-- Nothing but blanks. -/
def isBlank (t : Text) : Bool := t.all HeaderBindings.isBlank

/-- The text without its leading blanks. -/
def trimStart (t : Text) : Text := t.dropWhile HeaderBindings.isBlank

/-- The text without its longest tail of characters that satisfy `p`. -/
def dropTail (p : Char → Bool) (t : Text) : Text := (t.reverse.dropWhile p).reverse

/-- The text without its trailing blanks. -/
def trimEnd (t : Text) : Text := t.dropTail HeaderBindings.isBlank

/-- The text without its leading and trailing blanks. -/
def trim (t : Text) : Text := trimEnd (trimStart t)

/-- The text with every blank removed. -/
def withoutBlanks (t : Text) : Text := t.filter fun c ↦ !HeaderBindings.isBlank c

/-! ## Size -/

/-- The number of bytes that the text is stored in. -/
def byteCount (t : Text) : Nat := t.foldr (fun c n ↦ c.utf8Size + n) 0

/-! ## Pieces at the two ends -/

/-- What follows `lead`, if the text begins with it. -/
def afterLead? : Text → Text → Option Text
  | t, [] => some t
  | [], _ :: _ => none
  | c :: t, a :: lead => if c = a then afterLead? t lead else none

/-- Exactly the texts that begin with `lead` have a rest. -/
theorem afterLead?_eq_some_iff {rest : Text} : ∀ {t lead : Text},
    afterLead? t lead = some rest ↔ t = lead ++ rest
  | t, [] => by simp [afterLead?]
  | [], a :: lead => by simp [afterLead?]
  | c :: t, a :: lead => by
    by_cases h : c = a
    · simp [afterLead?, h, afterLead?_eq_some_iff]
    · simp [afterLead?, h]

/-- The text begins with `lead`. -/
def startsWith (t lead : Text) : Bool := (t.afterLead? lead).isSome

/-- What comes before `tail`, if the text ends with it. -/
def beforeTail? (t tail : Text) : Option Text :=
  (afterLead? t.reverse tail.reverse).map List.reverse

/-- Exactly the texts that end with `tail` have a beginning. -/
theorem beforeTail?_eq_some_iff {rest t tail : Text} :
    beforeTail? t tail = some rest ↔ t = rest ++ tail := by
  simp only [beforeTail?, Option.map_eq_some_iff, afterLead?_eq_some_iff]
  constructor
  · rintro ⟨r, hr, rfl⟩
    rw [← t.reverse_reverse, hr, List.reverse_append, List.reverse_reverse]
  · rintro rfl
    exact ⟨rest.reverse, List.reverse_append, List.reverse_reverse rest⟩

/-! ## Taking apart and putting together -/

/-- What comes before and after the first occurrence of `needle`. -/
def splitAtFirst? : Text → Text → Option (Text × Text)
  | [], needle => if needle.isEmpty then some ([], []) else none
  | c :: t, needle =>
    match afterLead? (c :: t) needle with
    | some rest => some ([], rest)
    | none => (splitAtFirst? t needle).map fun (before, after) ↦ (c :: before, after)

/-- The two parts and what separates them make up the text. -/
theorem splitAtFirst?_eq_some {needle before after : Text} : ∀ {t : Text},
    splitAtFirst? t needle = some (before, after) → t = before ++ needle ++ after
  | [], h => by
    unfold splitAtFirst? at h
    split at h
    · next hn => simp_all
    · simp at h
  | c :: t, h => by
    unfold splitAtFirst? at h
    split at h
    · next rest hrest =>
      simp only [Option.some.injEq, Prod.mk.injEq] at h
      rw [afterLead?_eq_some_iff.1 hrest, ← h.1, ← h.2, List.nil_append]
    · simp only [Option.map_eq_some_iff, Prod.exists, Prod.mk.injEq] at h
      obtain ⟨b, a, hs, rfl, rfl⟩ := h
      simp [splitAtFirst?_eq_some hs]

/-- `needle` occurs in the text. -/
def contains (t needle : Text) : Bool := (t.splitAtFirst? needle).isSome

/-- The pieces between the characters that satisfy `p`; text without one is its own single
piece. -/
def splitWhere (p : Char → Bool) : Text → List Text
  | [] => [[]]
  | c :: t =>
    match splitWhere p t with
    | [] => [[]]
    | piece :: pieces => if p c then [] :: piece :: pieces else (c :: piece) :: pieces

/-- There is at least one piece. -/
theorem splitWhere_ne_nil (p : Char → Bool) : ∀ t : Text, splitWhere p t ≠ []
  | [] => by simp [splitWhere]
  | c :: t => by
    have ih := splitWhere_ne_nil p t
    unfold splitWhere
    split
    · contradiction
    · split <;> simp

/-- The pieces between the occurrences of `sep`. -/
def splitOn (t : Text) (sep : Char) : List Text := t.splitWhere (· == sep)

/-- The pieces with `sep` between them. -/
def joinWith (sep : Text) (pieces : List Text) : Text := sep.intercalate pieces

/-- The pieces with the separator between them make up the text. -/
@[simp]
theorem joinWith_splitOn (sep : Char) : ∀ t : Text, joinWith [sep] (t.splitOn sep) = t
  | [] => rfl
  | c :: t => by
    have ih := joinWith_splitOn sep t
    unfold splitOn splitWhere
    split
    · next h => exact absurd h (splitWhere_ne_nil _ t)
    · next piece pieces h =>
      rw [splitOn, h] at ih
      by_cases hc : c = sep <;> cases pieces <;>
        simp_all [joinWith, List.intercalate, List.intersperse]

/-- Each line of the text with the line end that closes it. -/
def rawLines : Text → List Text
  | [] => []
  | c :: t =>
    if c = '\n' then [c] :: rawLines t
    else
      match rawLines t with
      | [] => [[c]]
      | line :: lines => (c :: line) :: lines

/-- The lines with their line ends make up the text. -/
@[simp]
theorem flatten_rawLines : ∀ t : Text, t.rawLines.flatten = t
  | [] => rfl
  | c :: t => by
    have ih := flatten_rawLines t
    unfold rawLines
    split
    · simp [ih]
    · split <;> simp_all

/-- A line without the line feed that ends it, or the carriage return and line feed. -/
def withoutLineEnd (line : Text) : Text :=
  match line.reverse with
  | '\n' :: '\r' :: rest => rest.reverse
  | '\n' :: rest => rest.reverse
  | _ => line

/-- The lines of the text.  A carriage return belongs to the line end only right before a line
feed, and a line feed at the very end opens no further line. -/
def lines (t : Text) : List Text := t.rawLines.map withoutLineEnd

/-- The maximal runs without blanks. -/
def words (t : Text) : List Text :=
  (t.splitWhere HeaderBindings.isBlank).filter fun piece ↦ !piece.isEmpty

/-- Replacement with `skip` characters of the last occurrence still to be dropped. -/
def replaceFrom (needle new : Text) : Nat → Text → Text
  | _, [] => []
  | skip + 1, _ :: t => replaceFrom needle new skip t
  | 0, c :: t =>
    if !needle.isEmpty && startsWith (c :: t) needle then
      new ++ replaceFrom needle new (needle.length - 1) t
    else c :: replaceFrom needle new 0 t

/-- The text with each occurrence of `needle` replaced, from the left and without overlaps; an
empty `needle` replaces nothing. -/
def replaceAll (t needle new : Text) : Text := replaceFrom needle new 0 t

/-! ## Numerals -/

/-- The decimal numeral of a natural number. -/
def ofNat (n : Nat) : Text := Nat.toDigits 10 n

/-- The decimal numeral of an integer, with a minus sign in front of a negative one. -/
def ofInt : Int → Text
  | .ofNat n => ofNat n
  | .negSucc n => '-' :: ofNat (n + 1)

/-- `n` blanks. -/
def spaces (n : Nat) : Text := List.replicate n ' '

end Text

end HeaderBindings
