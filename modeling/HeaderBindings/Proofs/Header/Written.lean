import HeaderBindings.Declarator
import HeaderBindings.Proofs.Header.Layout
import Mathlib.Tactic.SplitIfs

/-!
# Declarators as they are written

Reading a declarator folds blanks, stars and an array suffix into one type, so it cannot be undone.
To say that nothing is lost, this file starts from the other end: a `WrittenDeclarator` is what a
declarator says, `WrittenDeclarator.text` is how it stands in a header, and
`WrittenDeclarator.type` is the type that it gives its name.

What the rest of a header's text has to know about such a text is collected here.

* It consists of the characters that may stand within a declaration (`isInnerChar_of_mem_text`).
* Its runs of word characters are the words it was made of (`mem_words_of_mem_wordRuns`).
* It is one piece of a list, since each separator in it stands between parentheses
  (`isClosed_text`).
-/

set_option autoImplicit false

namespace HeaderBindings

/-! ## Separators between parentheses -/

/-- Behind as many opening parentheses all parentheses pair up, and the separator stands between
parentheses only. -/
def isClosed (sep : Char) : Nat → Text → Bool
  | depth, [] => depth == 0
  | depth, c :: t =>
    if c = '(' then isClosed sep (depth + 1) t
    else if c = ')' then depth != 0 && isClosed sep (depth - 1) t
    else (c != sep || depth != 0) && isClosed sep depth t

section

variable {sep : Char} {depth : Nat} {s t : Text}

theorem isClosed_append (hs : isClosed sep depth s = true) (ht : isClosed sep 0 t = true) :
    isClosed sep depth (s ++ t) = true := by
  induction s generalizing depth with
  | nil =>
    rw [isClosed, beq_iff_eq] at hs
    rw [hs]
    exact ht
  | cons c s ih =>
    rw [isClosed] at hs
    rw [List.cons_append, isClosed]
    split_ifs at hs ⊢ <;> simp_all

theorem isClosed_append_of_forall (hs : ∀ c ∈ s, c ≠ '(' ∧ c ≠ ')' ∧ c ≠ sep) :
    isClosed sep depth (s ++ t) = isClosed sep depth t := by
  induction s with
  | nil => rfl
  | cons c s ih =>
    obtain ⟨hopening, hclosing, hsep⟩ := hs c List.mem_cons_self
    rw [List.cons_append, isClosed, if_neg hopening, if_neg hclosing,
      ih fun x hx ↦ hs x (List.mem_cons_of_mem c hx)]
    simp [hsep]

theorem isClosed_append_of_isIdentifier {w : Text} (hw : isIdentifier w = true)
    (hsep : isIdentChar sep = false) :
    isClosed sep depth (w ++ t) = isClosed sep depth t := by
  have hnotMem {c : Char} (hc : isIdentChar c = false) : ∀ x ∈ w, x ≠ c := by
    rintro x hx rfl
    exact notMem_of_isIdentifier hw hc hx
  exact isClosed_append_of_forall fun c hc ↦
    ⟨hnotMem (by decide) c hc, hnotMem (by decide) c hc, hnotMem hsep c hc⟩

theorem isClosed_blank_cons (hsep : sep ≠ ' ') :
    isClosed sep depth (' ' :: t) = isClosed sep depth t :=
  isClosed_append_of_forall (s := [' ']) (by simpa using hsep.symm)

/-- What does not stand in the text at all separates nothing in it. -/
theorem isClosed_of_notMem {sep' : Char} (h : isClosed sep depth t = true) (hsep : sep' ∉ t) :
    isClosed sep' depth t = true := by
  induction t generalizing depth with
  | nil => exact h
  | cons c t ih =>
    rw [List.mem_cons, not_or] at hsep
    rw [isClosed] at h ⊢
    split_ifs at h ⊢ <;> simp_all [Ne.symm hsep.1]

/-- A text in front of the first of some pieces. -/
def growBy (s : Text) : List Text → List Text
  | [] => [s]
  | piece :: pieces => (s ++ piece) :: pieces

theorem grow_growBy (c : Char) (s : Text) (pieces : List Text) :
    splitAtDepth.grow c (growBy s pieces) = growBy (c :: s) pieces := by
  cases pieces <;> rfl

theorem splitAtDepth_ne_nil (sep : Char) (depth : Nat) (t : Text) :
    splitAtDepth sep depth t ≠ [] := by
  have hgrow (c : Char) (pieces : List Text) : splitAtDepth.grow c pieces ≠ [] := by
    cases pieces <;> simp [splitAtDepth.grow]
  cases t with
  | nil => simp [splitAtDepth]
  | cons c t =>
    rw [splitAtDepth]
    split_ifs
    · exact hgrow _ _
    · exact hgrow _ _
    · exact List.cons_ne_nil _ _
    · exact hgrow _ _

/-- **A closed text stays in one piece**, whatever comes behind it. -/
theorem splitAtDepth_append (hs : isClosed sep depth s = true) (t : Text) :
    splitAtDepth sep depth (s ++ t) = growBy s (splitAtDepth sep 0 t) := by
  induction s generalizing depth with
  | nil =>
    rw [isClosed, beq_iff_eq] at hs
    obtain ⟨piece, pieces, h⟩ := List.exists_cons_of_ne_nil (splitAtDepth_ne_nil sep 0 t)
    rw [hs, List.nil_append, h]
    rfl
  | cons c s ih =>
    rw [isClosed] at hs
    rw [List.cons_append, splitAtDepth]
    split_ifs at hs ⊢ with hopening hclosing hsep
    · rw [ih hs, grow_growBy]
    · rw [Bool.and_eq_true] at hs
      rw [ih hs.2, grow_growBy]
    · simp [hsep] at hs
    · rw [Bool.and_eq_true] at hs
      rw [ih hs.2, grow_growBy]

theorem splitTopLevel_of_isClosed (h : isClosed sep 0 t = true) : splitTopLevel sep t = [t] := by
  simpa [splitTopLevel, splitAtDepth, growBy] using splitAtDepth_append h []

/-- A closed text is the first piece if a separator comes behind it. -/
theorem splitTopLevel_append_cons (hs : isClosed sep 0 s = true) (hopening : sep ≠ '(')
    (hclosing : sep ≠ ')') (t : Text) :
    splitTopLevel sep (s ++ sep :: t) = s :: splitTopLevel sep t := by
  simp [splitTopLevel, splitAtDepth_append hs, splitAtDepth, hopening, hclosing, growBy]

end

/-! ## Written types -/

/-- The words that do not count as a part of a type. -/
def ignoredWords : List Text := "const" :: Declarator.qualifiers

/-- A word of a type. -/
abbrev TypeWord := { w : Text // isIdentifier w = true ∧ w ∉ ignoredWords }

/-- A type as it is written: words and stars. -/
structure WrittenType where
  first : TypeWord
  more : List TypeWord
  stars : Nat

namespace WrittenType

variable (t : WrittenType)

/-- The words of the type. -/
def words : List Text := t.first.1 :: t.more.map (·.1)

/-- The words with single blanks between them, and then the stars. -/
def text : Text :=
  t.first.1 ++ t.more.flatMap (fun w ↦ ' ' :: w.1) ++ List.replicate t.stars '*'

/-- The type without its blanks. -/
def type : Text := t.words.flatten ++ List.replicate t.stars '*'

theorem notMem_ignoredWords {w : Text} (h : w ∈ t.words) : w ∉ ignoredWords := by
  rcases List.mem_cons.1 h with rfl | h
  · exact t.first.2.2
  · obtain ⟨w, -, rfl⟩ := List.mem_map.1 h
    exact w.2.2

theorem of_mem_text {c : Char} (h : c ∈ t.text) : isIdentChar c = true ∨ c = ' ' ∨ c = '*' := by
  simp only [text, List.mem_append, List.mem_flatMap, List.mem_cons] at h
  rcases h with (h | ⟨w, hw, h | h⟩) | h
  · exact Or.inl (isIdentChar_of_mem t.first.2.1 c h)
  · exact Or.inr (Or.inl h)
  · exact Or.inl (isIdentChar_of_mem w.2.1 c h)
  · exact Or.inr (Or.inr (List.eq_of_mem_replicate h))

theorem isInnerChar_of_mem_text : ∀ c ∈ t.text, isInnerChar c = true := by
  intro c hc
  rcases t.of_mem_text hc with hc | rfl | rfl
  · exact isInnerChar_of_isIdentChar hc
  · decide
  · decide

theorem notMem_text {c : Char} (h : c ∈ ['\n', '(', ')', '[', ']', ',', ';']) : c ∉ t.text := by
  have hmarks : ∀ c ∈ ['\n', '(', ')', '[', ']', ',', ';'],
      (isIdentChar c || c == ' ' || c == '*') = false := by
    simpa using (by decide : ['\n', '(', ')', '[', ']', ',', ';'].all fun c ↦
      !(isIdentChar c || c == ' ' || c == '*'))
  intro hc
  have hmark := hmarks c h
  rcases t.of_mem_text hc with hchar | rfl | rfl <;> simp_all

theorem isSolid_text : t.text.IsSolid := by
  have hwords : ∀ (more : List TypeWord) {s : Text}, s.IsSolid →
      Text.IsSolid (s ++ more.flatMap fun w ↦ ' ' :: w.1) := by
    intro more
    induction more with
    | nil => intro s hs; simpa using hs
    | cons w more ih =>
      intro s hs
      have hmore := ih (hs.join [' '] (Text.isSolid_of_isIdentifier w.2.1))
      simpa using hmore
  have hfirst := hwords t.more (Text.isSolid_of_isIdentifier t.first.2.1)
  rw [text]
  cases hstars : t.stars with
  | zero => simpa using hfirst
  | succ n =>
    have hlast : Text.IsSolid (List.replicate (n + 1) '*') :=
      Text.isSolid_of_forall (by simp) fun c hc ↦ by
        rw [List.eq_of_mem_replicate hc]
        decide
    simpa using hfirst.join [] hlast

/-- The type is what is left of the text without blanks. -/
@[simp]
theorem withoutBlanks_text : t.text.withoutBlanks = t.type := by
  have hword {w : Text} (hw : isIdentifier w = true) : w.withoutBlanks = w :=
    List.filter_eq_self.2 fun c hc ↦ by
      simp [isBlank_of_isIdentChar (isIdentChar_of_mem hw c hc)]
  have hmore (more : List TypeWord) :
      Text.withoutBlanks (more.flatMap fun w ↦ ' ' :: w.1) = (more.map (·.1)).flatten := by
    induction more with
    | nil => rfl
    | cons w more ih =>
      rw [List.flatMap_cons, List.cons_append, Text.withoutBlanks_cons_of_isBlank (by decide),
        Text.withoutBlanks_append, hword w.2.1, ih, List.map_cons, List.flatten_cons]
  have hstars : Text.withoutBlanks (List.replicate t.stars '*') = List.replicate t.stars '*' :=
    List.filter_eq_self.2 fun c hc ↦ by
      rw [List.eq_of_mem_replicate hc]
      decide
  rw [text, Text.withoutBlanks_append, Text.withoutBlanks_append, hword t.first.2.1, hmore, hstars,
    type, words, List.flatten_cons]

/-- The runs of word characters are the words. -/
theorem mem_words_of_mem_wordRuns {w : Text} (h : w ∈ Text.wordRuns t.text) :
    w = [] ∨ w ∈ t.words := by
  have hstars (n : Nat) : ∀ w ∈ Text.wordRuns (List.replicate n '*'), w = [] := by
    induction n with
    | zero => simp [Text.wordRuns, Text.splitWhere]
    | succ n ih => simpa [List.replicate_succ, Text.wordRuns_cons (x := '*') (by decide)] using ih
  have hwords : ∀ (more : List TypeWord) {s : Text}, (∀ c ∈ s, isWordChar c = true) →
      Text.wordRuns (s ++ more.flatMap fun w ↦ ' ' :: w.1) = s :: more.map (·.1) := by
    intro more
    induction more with
    | nil => intro s hs; simpa using Text.wordRuns_of_forall hs
    | cons w more ih =>
      intro s hs
      have hmore := ih (isWordChar_of_mem w.2.1)
      rw [List.flatMap_cons, List.cons_append, Text.wordRuns_append_cons (by decide), hmore,
        Text.wordRuns_of_forall hs]
      rfl
  have hfirst := hwords t.more (isWordChar_of_mem t.first.2.1)
  rw [text] at h
  cases hn : t.stars with
  | zero =>
    rw [hn, List.replicate_zero, List.append_nil, hfirst] at h
    exact Or.inr h
  | succ n =>
    rw [hn, List.replicate_succ, Text.wordRuns_append_cons (by decide), hfirst] at h
    exact (List.mem_append.1 h).symm.imp (hstars n w) id

theorem const_notMem_wordRuns : "const".toList ∉ Text.wordRuns t.text := by
  intro hmem
  rcases t.mem_words_of_mem_wordRuns hmem with hnil | hword
  · exact absurd hnil (by decide)
  · exact t.notMem_ignoredWords hword List.mem_cons_self

end WrittenType

/-! ## Written declarators -/

/-- The name in a declarator. -/
abbrev DeclaredName := { w : Text // isIdentifier w = true ∧ w ≠ "const" }

/-- What stands between the brackets of an array suffix: anything without further brackets in which
parentheses pair up around all commas. -/
abbrev ArraySize :=
  { t : Text // t.all isInnerChar = true ∧ isClosed ',' 0 t = true ∧ '[' ∉ t ∧ ']' ∉ t }

/-- What stands between parentheses: anything in which all further ones pair up. -/
abbrev Enclosed := { t : Text // t.all isInnerChar = true ∧ isClosed ',' 1 (t ++ [')']) = true }

/-- A declarator as it is written. -/
inductive WrittenDeclarator where
  /-- A type and a name. -/
  | plain (type : WrittenType) (name : DeclaredName)
  /-- A type and a name with an array suffix. -/
  | array (type : WrittenType) (name : DeclaredName) (size : ArraySize)
  /-- A callback: the type of its result, its name and its list of parameters. -/
  | callback (result : WrittenType) (name : DeclaredName) (params : Enclosed)

namespace WrittenDeclarator

/-- The declarator in the headers of a library with the given callback tag. -/
def text (tag : Text) : WrittenDeclarator → Text
  | plain type name => type.text ++ ' ' :: name.1
  | array type name size => type.text ++ ' ' :: name.1 ++ '[' :: (size.1 ++ [']'])
  | callback result name params =>
    result.text ++ ' ' :: '(' ::
      (tag ++ '*' :: ' ' :: (name.1 ++ ')' :: '(' :: (params.1 ++ [')'])))

/-- The name that the declarator declares. -/
def name : WrittenDeclarator → Text
  | plain _ name => name.1
  | array _ name _ => name.1
  | callback _ name _ => name.1

/-- The type that the declarator gives to its name. -/
def type : WrittenDeclarator → Text
  | plain type _ => type.type
  | array type _ _ => type.type ++ ['*']
  | callback .. => Declarator.callbackType

theorem isIdentifier_name : (d : WrittenDeclarator) → isIdentifier d.name = true
  | plain _ name | array _ name _ | callback _ name _ => name.2.1

/-- The declarator is that of a callback. -/
def isCallback : WrittenDeclarator → Bool
  | callback .. => true
  | _ => false

/-- What the declarator asks of the tag, so that nothing else can be read from it: in front of a
callback stands an identifier other than `const`, and an array size with parentheses does not hold
it. -/
def Fits (tag : Text) : WrittenDeclarator → Prop
  | plain .. => True
  | array _ _ size => '(' ∈ size.1 → isIdentifier tag = true ∧ tag ∉ Text.wordRuns size.1
  | callback .. => isIdentifier tag = true ∧ tag ≠ "const"

instance (tag : Text) : (d : WrittenDeclarator) → Decidable (d.Fits tag)
  | plain .. => isTrue trivial
  | array _ _ size => inferInstanceAs
      (Decidable ('(' ∈ size.1 → isIdentifier tag = true ∧ tag ∉ Text.wordRuns size.1))
  | callback .. => inferInstanceAs (Decidable (isIdentifier tag = true ∧ tag ≠ "const"))

theorem Fits.isIdentifier {tag : Text} {d : WrittenDeclarator} (h : d.Fits tag)
    (hd : d.isCallback = true) : isIdentifier tag = true := by
  cases d with
  | plain _ _ | array _ _ _ => exact absurd hd (by simp [isCallback])
  | callback _ _ _ => exact h.1

/-- The words that the declarator is written with, and the empty text. -/
def words : WrittenDeclarator → List Text
  | plain type name => [] :: name.1 :: type.words
  | array type name size => [] :: name.1 :: type.words ++ Text.wordRuns size.1
  | callback result name params => [] :: name.1 :: result.words ++ Text.wordRuns params.1

variable (d : WrittenDeclarator) (tag : Text)

theorem isSolid_text : (d.text tag).IsSolid := by
  cases d with
  | plain type name =>
    simpa [text] using type.isSolid_text.join [' '] (Text.isSolid_of_isIdentifier name.2.1)
  | array type name size =>
    have hlast : Text.IsSolid [']'] := Text.isSolid_of_forall (by simp) (by simp; decide)
    simpa [text] using type.isSolid_text.join (' ' :: name.1 ++ '[' :: size.1) hlast
  | callback result name params =>
    have hlast : Text.IsSolid [')'] := Text.isSolid_of_forall (by simp) (by simp; decide)
    simpa [text] using result.isSolid_text.join
      (' ' :: '(' :: (tag ++ '*' :: ' ' :: (name.1 ++ ')' :: '(' :: params.1))) hlast

/-- A declarator begins with the first word of a type, not with a mark. -/
theorem exists_text_eq_cons : ∃ c t, d.text tag = c :: t ∧ isIdentChar c = true := by
  have hfirst (type : WrittenType) : ∃ c t, type.text = c :: t ∧ isIdentChar c = true := by
    obtain ⟨c, w, hw, hc, -⟩ := exists_cons_of_isIdentifier type.first.2.1
    exact ⟨c, _, by rw [WrittenType.text, hw, List.cons_append, List.cons_append],
      isIdentChar_of_isIdentStart hc⟩
  cases d with
  | plain type name | array type name size | callback type name params =>
    obtain ⟨c, t, h, hc⟩ := hfirst type
    exact ⟨c, _, by rw [text, h]; rfl, hc⟩

theorem beginsCode_text : BeginsCode (d.text tag) := by
  obtain ⟨c, t, h, hc⟩ := d.exists_text_eq_cons tag
  rw [h]
  exact beginsCode_of_isIdentChar hc t

section

variable {tag} (htag : d.isCallback = true → isIdentifier tag = true)

include htag

theorem isInnerChar_of_mem_text : ∀ c ∈ d.text tag, isInnerChar c = true := by
  have htype (t : WrittenType) := t.isInnerChar_of_mem_text
  have hmark : ∀ c ∈ [' ', '(', ')', '[', ']', '*'], isInnerChar c = true :=
    List.all_eq_true.1 (by decide)
  intro c hc
  cases d with
  | plain type name =>
    have hname := isInnerChar_of_mem name.2.1
    simp only [text, List.mem_append, List.mem_cons] at hc
    grind
  | array type name size =>
    have hname := isInnerChar_of_mem name.2.1
    have hsize := List.all_eq_true.1 size.2.1
    simp only [text, List.mem_append, List.mem_cons] at hc
    grind
  | callback result name params =>
    have hname := isInnerChar_of_mem name.2.1
    have htags := isInnerChar_of_mem (htag rfl)
    have hparams := List.all_eq_true.1 params.2.1
    simp only [text, List.mem_append, List.mem_cons] at hc
    grind

/-- **A declarator is one piece** of a list of parameters. -/
theorem isClosed_text : isClosed ',' 0 (d.text tag) = true := by
  have htype (t : WrittenType) (s : Text) :
      isClosed ',' 0 (t.text ++ ' ' :: s) = isClosed ',' 0 s := by
    have hnotMem {c : Char} (hc : c ∈ ['\n', '(', ')', '[', ']', ',', ';']) :
        ∀ x ∈ t.text, x ≠ c := by
      rintro x hx rfl
      exact t.notMem_text hc hx
    rw [isClosed_append_of_forall fun c hc ↦
      ⟨hnotMem (by decide) c hc, hnotMem (by decide) c hc, hnotMem (by decide) c hc⟩,
      isClosed_blank_cons (by decide)]
  have hname (name : DeclaredName) (depth : Nat) (s : Text) :
      isClosed ',' depth (name.1 ++ s) = isClosed ',' depth s :=
    isClosed_append_of_isIdentifier name.2.1 (by decide)
  have hclose : isClosed ',' 0 [']'] = true := by decide
  cases d with
  | plain type name =>
    rw [text, htype, ← List.append_nil name.1, hname]
    rfl
  | array type name size =>
    rw [text, List.append_assoc, List.cons_append, htype, hname]
    exact isClosed_append size.2.2.1 hclose
  | callback result name params =>
    have hopening (s : Text) : isClosed ',' 0 ('(' :: s) = isClosed ',' 1 s := rfl
    have hstar (s : Text) : isClosed ',' 1 ('*' :: s) = isClosed ',' 1 s := rfl
    rw [text, htype, hopening, isClosed_append_of_isIdentifier (htag rfl) (by decide), hstar,
      isClosed_blank_cons (by decide), hname]
    exact params.2.2

theorem mem_words_of_mem_wordRuns {w : Text} (h : w ∈ Text.wordRuns (d.text tag)) :
    w ∈ d.words ∨ (d.isCallback = true ∧ w = tag) := by
  have hname (name : DeclaredName) : Text.wordRuns name.1 = [name.1] :=
    Text.wordRuns_of_isIdentifier name.2.1
  have htype (type : WrittenType) : ∀ w ∈ Text.wordRuns type.text, w = [] ∨ w ∈ type.words :=
    fun w ↦ type.mem_words_of_mem_wordRuns
  have hclose (u : Text) (x : Char) (hx : isWordChar x = false) :
      Text.wordRuns (u ++ [x]) = Text.wordRuns u ++ [[]] := Text.wordRuns_append_cons hx u []
  cases d with
  | plain type name =>
    rw [text, Text.wordRuns_append_cons (by decide), hname] at h
    simp only [words, List.mem_append, List.mem_cons, List.not_mem_nil, or_false] at h ⊢
    grind
  | array type name size =>
    rw [text, List.append_assoc, List.cons_append, Text.wordRuns_append_cons (by decide),
      Text.wordRuns_append_cons (by decide), hname, hclose _ _ (by decide)] at h
    simp only [words, List.mem_append, List.mem_cons, List.not_mem_nil, or_false] at h ⊢
    grind
  | callback result name params =>
    rw [text, Text.wordRuns_append_cons (by decide), Text.wordRuns_cons (by decide),
      Text.wordRuns_append_cons (by decide), Text.wordRuns_cons (by decide),
      Text.wordRuns_append_cons (by decide), Text.wordRuns_cons (by decide), hname,
      hclose _ _ (by decide), Text.wordRuns_of_isIdentifier (htag rfl)] at h
    simp only [words, isCallback, List.mem_append, List.mem_cons, List.not_mem_nil, or_false] at h ⊢
    grind

end

end WrittenDeclarator

end HeaderBindings
