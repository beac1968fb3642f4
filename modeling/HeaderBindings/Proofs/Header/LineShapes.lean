import Mathlib.Data.List.DropRight
import HeaderBindings.Header.Names
import HeaderBindings.Proofs.Header.Enums
import HeaderBindings.Proofs.Header.Structs
import HeaderBindings.Proofs.Text.Demands

/-!
# How a line begins that starts a declaration

Five kinds of declaration are looked for in the same lines, and each has a test of its own for the
line that starts one.  To see that a line starts a declaration of none but one kind, its first two
words are enough in most cases, and otherwise a character that it has or has not.

* `Text.leadingWord` and `Text.secondWord` are the first two words.
* `beginsWith_of_enumStart` and what follows it say how a line begins that starts a declaration of
  each kind.
* `BlockKind.Ignores`: a line on its own is no declaration of the kind, and not the beginning of
  one.  A line whose first word is `Ordinary` is ignored by every kind (`Ordinary.ignores`).
-/

set_option autoImplicit false

namespace HeaderBindings

open Cursor (start)

/-! ## The first two words -/

namespace Text

/-- The word that the text begins with, empty if there is none. -/
def leadingWord (t : Text) : Text := t.takeWhile isWordChar

/-- The word behind the first one and the blanks behind that. -/
def secondWord (t : Text) : Text := leadingWord (trimStart (t.dropWhile isWordChar))

variable {w s : Text}

theorem leadingWord_append (hw : ∀ c ∈ w, isWordChar c = true)
    (hs : ∀ c ∈ s.head?, isWordChar c = false) : leadingWord (w ++ s) = w := by
  rw [leadingWord, List.takeWhile_append_of_pos hw]
  cases s with
  | nil => simp
  | cons x s => simp [hs x rfl]

theorem secondWord_append {v b : Text} (hv : ∀ c ∈ v, isWordChar c = true) (hne : b ≠ [])
    (hb : ∀ c ∈ b, HeaderBindings.isBlank c = true) (hw : isIdentifier w = true)
    (hs : ∀ c ∈ s.head?, isWordChar c = false) : secondWord (v ++ b ++ (w ++ s)) = w := by
  obtain ⟨x, b', rfl⟩ := List.exists_cons_of_ne_nil hne
  have hx : isWordChar x = false := isWordChar_of_isBlank (hb x List.mem_cons_self)
  have hdrop : (v ++ (x :: b') ++ (w ++ s)).dropWhile isWordChar = (x :: b') ++ (w ++ s) := by
    rw [List.append_assoc, List.dropWhile_append_of_pos hv]
    simp [hx]
  have htrim : trimStart ((x :: b') ++ (w ++ s)) = w ++ s := by
    have hfront := isBlank_of_mem_head? hw s
    rw [trimStart, List.dropWhile_append_of_pos hb]
    obtain ⟨c, w', rfl, hc, -⟩ := exists_cons_of_isIdentifier hw
    simp [hfront c rfl]
  rw [secondWord, hdrop, htrim, leadingWord_append (isWordChar_of_mem hw) hs]

/-- Text that word characters stand in front of begins with them if its first word does. -/
theorem prefix_leadingWord {t : Text} (hw : ∀ c ∈ w, isWordChar c = true) (h : w <+: t) :
    w <+: leadingWord t := by
  obtain ⟨r, rfl⟩ := h
  rw [leadingWord, List.takeWhile_append_of_pos hw]
  exact List.prefix_append _ _

end Text

/-- The keyword is the first word of the text, or the second one behind `typedef`. -/
def BeginsWith (keyword t : Text) : Prop :=
  t.leadingWord = keyword ∨ t.leadingWord = typedefWord ∧ t.secondWord = keyword

/-! ## Starting a declaration -/

section

variable {conventions : Conventions} {c c' : Cursor} {ms : List (Mark × Cursor)} {t : Text}

/-- Behind a word of word characters a word ends. -/
theorem Cursor.Reads.isWordChar_of_mem_head? {w : Text} (h : c.Reads w c') (hne : w ≠ [])
    (hw : ∀ x ∈ w, isWordChar x = true) (hend : c'.atWordBoundary = true) :
    ∀ x ∈ c'.rest.head?, isWordChar x = false := by
  obtain ⟨front, y, rfl⟩ := List.eq_nil_or_concat' w |>.resolve_left hne
  have hy : isWordChar y = true := hw y (by simp)
  intro x hx
  rw [Cursor.atWordBoundary, h.prev, Option.mem_def.1 hx] at hend
  simpa [hy] using hend

theorem isWordChar_of_blanks₁ (h : Pattern.blanks₁.Passes c ms c') :
    ∀ x ∈ c.rest.head?, isWordChar x = false := by
  obtain ⟨b, hne, hb, hread⟩ := h.some₁
  obtain ⟨y, b, rfl⟩ := List.exists_cons_of_ne_nil hne
  rw [hread.rest]
  intro x hx
  obtain rfl : y = x := Option.some_inj.1 hx
  exact isWordChar_of_isBlank (List.all_eq_true.1 hb y List.mem_cons_self)

theorem exists_reads_of_optionalTypedef (h : Pattern.optionalTypedef.Passes c ms c') :
    ∃ u, c.Reads u c' ∧
      (u = [] ∨ ∃ b, u = typedefWord ++ b ∧ b ≠ [] ∧ ∀ x ∈ b, isBlank x = true) := by
  rcases h with ⟨_, d, _, ⟨htypedef, -⟩, hblanks, -⟩ | ⟨hnone, -⟩
  · obtain ⟨b, hne, hb, hread⟩ := hblanks.some₁
    exact ⟨_, htypedef.trans hread, Or.inr ⟨b, rfl, hne, List.all_eq_true.1 hb⟩⟩
  · exact ⟨[], hnone, Or.inl rfl⟩

theorem beginsWith_of_append {u keyword r : Text} (hu : u = [] ∨ ∃ b, u = typedefWord ++ b ∧
      b ≠ [] ∧ ∀ x ∈ b, isBlank x = true) (hkeyword : isIdentifier keyword = true)
    (hr : ∀ x ∈ r.head?, isWordChar x = false) : BeginsWith keyword (u ++ (keyword ++ r)) := by
  rcases hu with rfl | ⟨b, rfl, hne, hb⟩
  · exact Or.inl (Text.leadingWord_append (isWordChar_of_mem hkeyword) hr)
  · refine Or.inr ⟨?_, ?_⟩
    · rw [List.append_assoc]
      refine Text.leadingWord_append (isWordChar_of_mem isIdentifier_typedefWord) fun x hx ↦ ?_
      obtain ⟨y, b, rfl⟩ := List.exists_cons_of_ne_nil hne
      obtain rfl : y = x := Option.some_inj.1 hx
      exact isWordChar_of_isBlank (hb y List.mem_cons_self)
    · exact Text.secondWord_append (isWordChar_of_mem isIdentifier_typedefWord) hne hb hkeyword hr

/-- **An enumeration starts** with its keyword, perhaps behind `typedef`. -/
theorem beginsWith_of_enumStart (h : enumKind.opens t = true) : BeginsWith enumWord t := by
  obtain ⟨_, _, _, d, _, ⟨_, _, _, ⟨_, _, _, ⟨-, rfl, -⟩, htypedef, -⟩, ⟨hkeyword, -⟩, -⟩,
    ⟨hend, -, -⟩, -⟩ := Pattern.passes_of_occursIn ((((Pattern.Begins.refl _).seq _).seq _).seq _)
      (.refl enumStart) h
  obtain ⟨u, hu, hlead⟩ := exists_reads_of_optionalTypedef htypedef
  have hwhole : t = _ := hu.rest
  rw [hwhole, hkeyword.rest]
  exact beginsWith_of_append hlead isIdentifier_enumWord (hkeyword.isWordChar_of_mem_head?
    (by decide) (isWordChar_of_mem isIdentifier_enumWord) hend)

/-- **A struct starts** with its keyword, perhaps behind `typedef`. -/
theorem beginsWith_of_structStart (h : structKind.opens t = true) : BeginsWith structWord t := by
  have hbegins : Pattern.Begins (.textStart ++ .optionalTypedef ++ "struct" ++ .blanks₁)
      structStart := ((((Pattern.Begins.refl _).seq _).seq _).seq _).seq _
  obtain ⟨_, _, _, _, _, ⟨_, _, _, ⟨_, _, _, ⟨-, rfl, -⟩, htypedef, -⟩, ⟨hkeyword, -⟩, -⟩,
    hblanks, -⟩ := Pattern.passes_of_occursIn ((((Pattern.Begins.refl _).seq _).seq _).seq _)
      hbegins h
  obtain ⟨u, hu, hlead⟩ := exists_reads_of_optionalTypedef htypedef
  have hwhole : t = _ := hu.rest
  rw [hwhole, hkeyword.rest]
  exact beginsWith_of_append hlead isIdentifier_structWord (isWordChar_of_blanks₁ hblanks)

/-- In the first line of a struct there is no semicolon unless there is a brace. -/
theorem brace_mem_of_structStart (h : structKind.opens t = true) : '\x7b' ∈ t ∨ ';' ∉ t := by
  have hbegins : Pattern.textStart.Begins structStart :=
    (((((((Pattern.Begins.refl _).seq _).seq _).seq _).seq _).seq _).seq _).seq _
  obtain ⟨ms, c', hpass⟩ := Pattern.passes_of_occursIn hbegins (.refl _) h
  have hend : c'.rest = [] := Pattern.ended_textEnd.seq _ _ _ _ hpass
  obtain ⟨_, _, _, ⟨_, e, _, hfront, hbrace, -⟩, ⟨-, rfl, -⟩, -⟩ := hpass
  obtain ⟨u, hu, hnone⟩ := hfront.exists_notMem (x := ';') _ (by decide)
  have hwhole : t = _ := hu.rest
  rcases hbrace with ⟨_, f, _, ⟨hbrace, -⟩, -, -⟩ | ⟨hread, -⟩
  · left
    rw [hwhole, hbrace.rest]
    simp
  · right
    rw [hwhole, ← hread.eq_of_nil, hend, List.append_nil]
    exact hnone

/-- **A callback starts** with `typedef`, and a parenthesis stands in its first line. -/
theorem leadingWord_of_callbackStart (h : (callbackKind conventions).opens t = true) :
    t.leadingWord = typedefWord ∧ '(' ∈ t := by
  constructor
  · have hbegins : Pattern.Begins (.textStart ++ "typedef" ++ .wordBoundary)
        (callbackStart conventions) :=
      (((((Pattern.Begins.refl _).seq _).seq _).seq _).seq _).seq _
    obtain ⟨_, _, _, _, _, ⟨_, _, _, ⟨-, rfl, -⟩, ⟨htypedef, -⟩, -⟩, ⟨hend, rfl, -⟩, -⟩ :=
      Pattern.passes_of_occursIn (((Pattern.Begins.refl _).seq _).seq _) hbegins h
    have hwhole : t = _ := htypedef.rest
    rw [hwhole]
    exact Text.leadingWord_append (isWordChar_of_mem isIdentifier_typedefWord)
      (htypedef.isWordChar_of_mem_head? (by decide) (isWordChar_of_mem isIdentifier_typedefWord)
        hend)
  · exact Pattern.mem_of_occursIn (p := callbackStart conventions) rfl h

/-- **A type name** is written with `typedef` and a semicolon and without a parenthesis. -/
theorem leadingWord_of_alias (h : aliasKind.opens t = true) :
    t.leadingWord = typedefWord ∧ ';' ∈ t ∧ '(' ∉ t := by
  have hbegins : Pattern.Begins (.textStart ++ "typedef" ++ .blanks₁) aliasPattern :=
    (((((((Pattern.Begins.refl _).seq _).seq _).seq _).seq _).seq _).seq _).seq _
  have hstart : Pattern.textStart.Begins (.textStart ++ "typedef" ++ .blanks₁) :=
    ((Pattern.Begins.refl _).seq _).seq _
  refine ⟨?_, Pattern.mem_of_occursIn (p := aliasPattern) rfl h, ?_⟩
  · obtain ⟨_, _, _, _, _, ⟨_, _, _, ⟨-, rfl, -⟩, ⟨htypedef, -⟩, -⟩, hblanks, -⟩ :=
      Pattern.passes_of_occursIn hstart hbegins h
    have hwhole : t = _ := htypedef.rest
    rw [hwhole]
    exact Text.leadingWord_append (isWordChar_of_mem isIdentifier_typedefWord)
      (isWordChar_of_blanks₁ hblanks)
  · have hend : aliasPattern.Ended := (Pattern.ended_textEnd.seq _).seq _
    exact Pattern.notMem_of_occursIn (hstart.trans hbegins) hend rfl h

/-- Without a brace there is no enumeration. -/
theorem parts?_enumKind (h : '\x7b' ∉ t) : enumKind.parts? t = none := by
  have hnone : enumPattern.occursIn t = false := by
    rw [← Bool.not_eq_true]
    exact fun hoccurs ↦ h (Pattern.mem_of_occursIn (p := enumPattern) rfl hoccurs)
  rw [Pattern.occursIn, Option.isSome_eq_false_iff, Option.isNone_iff_eq_none] at hnone
  change (enumPattern.search t).map _ = none
  rw [hnone]
  rfl

end

/-! ## Directives -/

theorem trimStart_hash {b r : Text} (hb : ∀ c ∈ b, isBlank c = true) :
    Text.trimStart (b ++ '#' :: r) = '#' :: r := by
  rw [Text.trimStart, List.dropWhile_append_of_pos hb]
  simp [(by decide : isBlank '#' = false)]

/-- **A line is a directive** if its first character is a hash. -/
theorem classify_of_hash {b r : Text} (hb : ∀ c ∈ b, isBlank c = true) :
    Line.classify (b ++ '#' :: r) = .directive := by
  have hstart : Text.trimStart (b ++ '#' :: r) = '#' :: r := trimStart_hash hb
  -- What documentation begins with is another character behind its blanks.
  have hfront (lead : Text) {s : Text} {x : Char} (hx : x ≠ '#')
      (hs : ∀ rest, Text.trimStart (lead ++ rest) = x :: (s ++ rest)) :
      ¬lead <+: b ++ '#' :: r := by
    rintro ⟨rest, hrest⟩
    have hsame := (hs rest).symm.trans ((congrArg Text.trimStart hrest).trans hstart)
    exact hx (List.cons.inj hsame).1
  have hlead {lead : Text} (h : ¬lead <+: b ++ '#' :: r) :
      (b ++ '#' :: r).afterLead? lead = none :=
    Option.eq_none_iff_forall_ne_some.2 fun rest hrest ↦
      h ⟨rest, (Text.afterLead?_eq_some_iff.1 hrest).symm⟩
  have hopening : (b ++ '#' :: r).afterLead? "/**" = none :=
    hlead (hfront "/**" (x := '/') (s := "**") (by decide) fun _ ↦ rfl)
  have hmore : (b ++ '#' :: r).afterLead? " * " = none :=
    hlead (hfront " * " (x := '*') (s := " ") (by decide) fun _ ↦ rfl)
  have hbare : (b ++ '#' :: r).trimEnd ≠ " *" := fun h ↦
    hfront " *" (x := '*') (s := []) (by decide) (fun _ ↦ rfl)
      (h ▸ List.rdropWhile_prefix isBlank _)
  have hclosing : (b ++ '#' :: r).trim ≠ "*/" := by
    rw [Text.trim, hstart]
    intro h
    have hprefix : "*/".toList <+: '#' :: r := h ▸ List.rdropWhile_prefix isBlank _
    exact absurd (List.cons_prefix_cons.1 hprefix).1 (by decide)
  have hdirective : (b ++ '#' :: r).trimStart.startsWith "#" = true := by
    rw [hstart]
    simp [Text.startsWith, Text.afterLead?]
  simp only [Line.classify, hopening, hmore, hbare, hclosing, hdirective, if_false, if_true]
/-- **A constant** stands in a directive. -/
theorem classify_of_constant {conventions : Conventions} {t : Text}
    (h : (constantPattern conventions).occursIn t = true) : Line.classify t = .directive := by
  have hbegins : Pattern.Begins (.textStart ++ .blanks ++ "#") (constantPattern conventions) :=
    (((((((((Pattern.Begins.refl _).seq _).seq _).seq _).seq _).seq _).seq _).seq _).seq _).seq _
  obtain ⟨_, _, _, _, _, ⟨_, _, _, ⟨-, rfl, -⟩, ⟨⟨b, hb, hblanks⟩, -⟩, -⟩, ⟨hhash, -⟩, -⟩ :=
    Pattern.passes_of_occursIn (((Pattern.Begins.refl _).seq _).seq _) hbegins h
  have hwhole : t = _ := hblanks.rest
  rw [hwhole, hhash.rest]
  exact classify_of_hash (List.all_eq_true.1 hb)

/-! ## Lines that start nothing -/

/-- A line of a documentation comment. -/
def Line.isDoc : Line → Bool
  | docStart _ | docMore _ | docEnd => true
  | directive | code _ => false

/-- The sorts of declarations. -/
inductive DeclarationSort where
  | enum
  | struct
  | function
  | callback
  | typeName
  | constant
deriving DecidableEq

/-- How a declaration of the sort is recognised, unless all of it is a directive. -/
def DeclarationSort.kind? (conventions : Conventions) : DeclarationSort → Option BlockKind
  | enum => some enumKind
  | struct => some structKind
  | function => some (functionKind conventions)
  | callback => some (callbackKind conventions)
  | typeName => some aliasKind
  | constant => none

/-- The words that declarations start with, apart from the export macro. -/
def keywords : List Text := [typedefWord, enumWord, structWord]

/-- The keyword of a declaration with a body. -/
def DeclarationSort.keyword? : DeclarationSort → Option Text
  | enum => some enumWord
  | struct => some structWord
  | _ => none

/-- What a line is like at least if a declaration of the sort starts with it and is not ended by it
at once in vain. -/
def DeclarationSort.Starts (conventions : Conventions) (t : Text) : DeclarationSort → Prop
  | enum => BeginsWith enumWord t ∧ ('\x7b' ∈ t ∨ Pattern.finalSemicolon.occursIn t = false)
  | struct => BeginsWith structWord t ∧ ('\x7b' ∈ t ∨ ';' ∉ t)
  | function => conventions.exportMacro <+: t
  | callback => t.leadingWord = typedefWord ∧ '(' ∈ t
  | typeName => t.leadingWord = typedefWord ∧ ';' ∈ t ∧ '(' ∉ t
  | constant => False

/-- A line on its own is no declaration of the kind, and not the beginning of one. -/
def BlockKind.Ignores (kind : BlockKind) (t : Text) : Prop :=
  kind.opens t = false ∨ kind.closes t = true ∧ kind.parts? t = none

/-- A word that no declaration starts with. -/
structure Ordinary (conventions : Conventions) (w : Text) : Prop where
  notKeyword : w ∉ keywords
  notMacro : ¬conventions.exportMacro <+: w

instance (conventions : Conventions) (w : Text) : Decidable (Ordinary conventions w) :=
  decidable_of_iff (w ∉ keywords ∧ ¬conventions.exportMacro <+: w)
    ⟨fun h ↦ ⟨h.1, h.2⟩, fun h ↦ ⟨h.1, h.2⟩⟩

section

variable {conventions : Conventions} {sort : DeclarationSort} {kind : BlockKind} {t : Text}

/-- **A line that starts nothing is ignored.** -/
theorem ignores_of_not_starts (hkind : sort.kind? conventions = some kind)
    (h : ¬sort.Starts conventions t) : kind.Ignores t := by
  cases sort with
  | enum =>
    obtain rfl : enumKind = kind := Option.some_inj.1 hkind
    cases hopens : enumKind.opens t with
    | false => exact Or.inl hopens
    | true =>
      have hbegins := beginsWith_of_enumStart hopens
      refine Or.inr ⟨?_, parts?_enumKind fun hbrace ↦ h ⟨hbegins, Or.inl hbrace⟩⟩
      rw [← Bool.not_eq_false]
      exact fun hcloses ↦ h ⟨hbegins, Or.inr hcloses⟩
  | struct =>
    obtain rfl : structKind = kind := Option.some_inj.1 hkind
    exact Or.inl (Bool.eq_false_iff.2 fun hopens ↦
      h ⟨beginsWith_of_structStart hopens, brace_mem_of_structStart hopens⟩)
  | function =>
    obtain rfl : functionKind conventions = kind := Option.some_inj.1 hkind
    refine Or.inl (Bool.eq_false_iff.2 fun hopens ↦ h ?_)
    obtain ⟨hexport, -⟩ := Bool.and_eq_true_iff.1 hopens
    obtain ⟨rest, hrest⟩ := Option.isSome_iff_exists.1 hexport
    exact ⟨rest, (Text.afterLead?_eq_some_iff.1 hrest).symm⟩
  | callback =>
    obtain rfl : callbackKind conventions = kind := Option.some_inj.1 hkind
    exact Or.inl (Bool.eq_false_iff.2 fun hopens ↦ h (leadingWord_of_callbackStart hopens))
  | typeName =>
    obtain rfl : aliasKind = kind := Option.some_inj.1 hkind
    exact Or.inl (Bool.eq_false_iff.2 fun hopens ↦ h (leadingWord_of_alias hopens))
  | constant => exact absurd hkind (by simp [DeclarationSort.kind?])

theorem DeclarationSort.of_keyword? {keyword : Text} (h : sort.keyword? = some keyword) :
    isIdentifier keyword = true ∧ keyword ∈ keywords ∧ keyword ≠ typedefWord := by
  have hword : keyword = enumWord ∨ keyword = structWord := by
    cases sort <;> simp_all [keyword?]
  rcases hword with rfl | rfl <;> exact ⟨by decide, by decide, by decide⟩

theorem DeclarationSort.keyword?_inj {sort' : DeclarationSort} {keyword : Text}
    (h : sort.keyword? = some keyword) (h' : sort'.keyword? = some keyword) : sort = sort' := by
  have hne : enumWord ≠ structWord := by decide
  cases sort <;> cases sort' <;> simp_all [keyword?]

theorem BeginsWith.mem_keywords {keyword : Text} (h : BeginsWith keyword t)
    (hkeyword : keyword ∈ keywords) : t.leadingWord ∈ keywords := by
  rcases h with h | ⟨h, -⟩
  · rwa [h]
  · rw [h]
    exact List.mem_cons_self

theorem BeginsWith.unique {keyword keyword' : Text} (h : BeginsWith keyword t)
    (h' : BeginsWith keyword' t) (hkeyword : keyword ≠ typedefWord)
    (hkeyword' : keyword' ≠ typedefWord) : keyword = keyword' := by
  rcases h with h | ⟨h, hsecond⟩ <;> rcases h' with h' | ⟨h', hsecond'⟩
  · exact h.symm.trans h'
  · exact absurd (h.symm.trans h') hkeyword
  · exact absurd (h'.symm.trans h) hkeyword'
  · exact hsecond.symm.trans hsecond'

/-- A line that begins with no keyword starts an exported function or nothing. -/
theorem not_starts_of_notMem_keywords (h : t.leadingWord ∉ keywords) (hsort : .function ≠ sort) :
    ¬sort.Starts conventions t := by
  intro hstarts
  cases sort with
  | enum => exact h (hstarts.1.mem_keywords (by simp [keywords]))
  | struct => exact h (hstarts.1.mem_keywords (by simp [keywords]))
  | function => exact hsort rfl
  | callback | typeName => exact h (by rw [hstarts.1]; exact List.mem_cons_self)
  | constant => exact hstarts

/-- **A line that begins with an ordinary word** starts no declaration. -/
theorem Ordinary.not_starts (h : Ordinary conventions t.leadingWord)
    (hexport : isIdentifier conventions.exportMacro = true) (sort : DeclarationSort) :
    ¬sort.Starts conventions t := by
  by_cases hsort : .function = sort
  · subst hsort
    exact fun hstarts ↦ h.notMacro (Text.prefix_leadingWord (isWordChar_of_mem hexport) hstarts)
  · exact not_starts_of_notMem_keywords h.notKeyword hsort

end

end HeaderBindings
