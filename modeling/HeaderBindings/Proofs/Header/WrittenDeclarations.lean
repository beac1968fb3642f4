import HeaderBindings.Proofs.Header.Functions
import HeaderBindings.Proofs.Header.Skipping

/-!
# Declarations of all sorts, line by line

`WrittenDeclaration` is a declaration of any sort as it stands in a header: an enumeration or a
struct with a line for each brace and each entry, or a function, a callback, a type name or a
constant on a single line.  All that matters here is what a scanner for another sort makes of the
lines.

Nearly all of them begin with a word that starts no declaration.  What remains are the first lines,
one for each sort, and each is told apart from the others by its first two words and by one
character: `not_starts_bodyHead`, `not_starts_of_exportMacro`, `not_starts_of_callbackLead` and
`not_starts_of_alias`.  `WrittenDeclaration.not_starts` puts them together, and from it follow
`WrittenDeclaration.quiet_lines` and `WrittenDeclaration.settles_lines`.

All this needs an export macro that no keyword begins with, and identifiers for the macro and the
callback tag (`Conventions.Distinctive`).
-/

set_option autoImplicit false

namespace HeaderBindings

/-! ## Declarations as they are written -/

/-- A word that may stand in front of the type that gets a name. -/
abbrev AliasLead := { w : Text // w ∈ (["struct", "enum", "union"] : List Text) }

/-- The name of a type as it is written. -/
structure WrittenAlias where
  lead : Option AliasLead
  original : WrittenType
  name : Identifier

namespace WrittenAlias

/-- The declaration without the semicolon. -/
def front (a : WrittenAlias) : Text :=
  typedefWord ++ ' ' :: ((match a.lead with | some w => w.1 ++ [' '] | none => []) ++
    (a.original.text ++ ' ' :: a.name.1))

def text (a : WrittenAlias) : Text := a.front ++ [';']

end WrittenAlias

/-- A constant as it is written. -/
structure WrittenConstant where
  name : Identifier
  value : Text
  noLineFeed : '\n' ∉ value
  noReturn : value.getLast? ≠ some '\r'

/-- What stands in front of the name of a constant. -/
def defineLead : Text := "#define "

def WrittenConstant.text (c : WrittenConstant) : Text :=
  defineLead ++ (c.name.1 ++ ' ' :: c.value)

/-- A declaration as it is written, of any sort. -/
inductive WrittenDeclaration where
  | enum (e : WrittenEnum)
  | struct (s : WrittenStruct)
  | function (f : WrittenPrototype)
  | callback (f : WrittenPrototype)
  | typeName (a : WrittenAlias)
  | constant (c : WrittenConstant)

/-- The indentation behind a gap, if it is a line end. -/
def Gap.indent : Gap → Indent
  | blank => .none
  | lineBreak indent => indent

/-- The declaration with a line for each of its pieces. -/
def Layout.spread (l : Layout) : List (Indent × Text) :=
  (.none, l.first) :: l.more.map fun piece ↦ (piece.1.indent, piece.2)

@[simp]
theorem Layout.map_spread (l : Layout) : l.spread.map (·.2) = l.pieces := by
  simp [spread, pieces]

theorem Layout.forall_spread {P : Text → Prop} {l : Layout} (h : ∀ piece ∈ l.pieces, P piece) :
    ∀ row ∈ l.spread, P row.2 := by
  rw [← l.map_spread] at h
  exact fun row hrow ↦ h row.2 (List.mem_map_of_mem hrow)

/-- The last piece stands on the last line. -/
theorem Layout.exists_last_spread {l : Layout} {pieces : List Text} {final : Text}
    (h : l.pieces = pieces ++ [final]) :
    ∃ inner last, l.spread = inner ++ [last] ∧ last.2 = final := by
  obtain ⟨inner, rest, hrows, -, hrest⟩ := List.map_eq_append_iff.1 (l.map_spread.trans h)
  obtain ⟨last, rfl, hlast⟩ := List.map_eq_singleton_iff.1 hrest
  exact ⟨inner, last, hrows, hlast⟩

/-- An enumeration is its head, a brace, its members and its end. -/
theorem WrittenEnum.pieces_layout (e : WrittenEnum) : e.layout.pieces = (e.head :: ['\x7b'] ::
    (memberPieces e.trailing e.members).map (·.2)) ++ [bodyEnd e.typeName] := by
  simp [layout, Layout.pieces]

/-- A struct is its head, a brace, its entries and its end. -/
theorem WrittenStruct.pieces_layout (s : WrittenStruct) (tag : Text) :
    (s.layout tag).pieces = (s.head :: ['\x7b'] :: (s.lines tag).map (·.2)) ++ [s.last] := by
  rw [layout, Layout.pieces_lined]
  simp

/-- The first word of the type in a declarator. -/
def WrittenDeclarator.firstWord : WrittenDeclarator → Text
  | plain type _ => type.first.1
  | array type _ _ => type.first.1
  | callback result _ _ => result.first.1

/-- The first word of an entry in a struct of the given name. -/
def WrittenEntry.firstWord (name : Text) : WrittenEntry → Text
  | field d => d.firstWord
  | maker _ => name

namespace WrittenDeclaration

def sort : WrittenDeclaration → DeclarationSort
  | enum _ => .enum
  | struct _ => .struct
  | function _ => .function
  | callback _ => .callback
  | typeName _ => .typeName
  | constant _ => .constant

/-- The lines of the declaration, each with its indentation: those with a body have a line for each
brace and for each member or field, and all others stand on one line. -/
def rows (conventions : Conventions) : WrittenDeclaration → List (Indent × Text)
  | enum e => e.layout.spread
  | struct s => (s.layout conventions.callbackTag).spread
  | function f => [(.none, (f.functionLayout conventions).joined)]
  | callback f => [(.none, (f.callbackLayout conventions).joined)]
  | typeName a => [(.none, a.text)]
  | constant c => [(.none, c.text)]

def lines (conventions : Conventions) (d : WrittenDeclaration) : List Text :=
  (d.rows conventions).map fun row ↦ row.1.1 ++ row.2

/-- The words that the lines between the braces begin with. -/
def innerWords : WrittenDeclaration → List Text
  | enum e => e.members.map (·.2.name)
  | struct s => s.entries.map (·.2.firstWord s.name.1)
  | _ => []

end WrittenDeclaration

/-- A line of a documentation comment in front of a declaration. -/
abbrev DocLine :=
  { raw : Text // ('\n' ∉ raw ∧ raw.getLast? ≠ some '\r') ∧ (Line.classify raw).isDoc = true }

/-- A declaration with the lines of documentation in front of it, of which there may be none. -/
structure DocumentedDeclaration where
  doc : List DocLine
  declaration : WrittenDeclaration

/-- The lines of the declaration and its documentation. -/
def DocumentedDeclaration.lines (conventions : Conventions) (d : DocumentedDeclaration) :
    List Text :=
  d.doc.map (·.1) ++ d.declaration.lines conventions

/-- The header with the given declarations. -/
def mixedText (conventions : Conventions) (ds : List DocumentedDeclaration) : Text :=
  Text.ofLines (ds.flatMap (·.lines conventions))

/-- The words that declarations begin with can be told apart. -/
structure Conventions.Distinctive (conventions : Conventions) : Prop where
  exportMacro : isIdentifier conventions.exportMacro = true
  callbackTag : isIdentifier conventions.callbackTag = true
  /-- No keyword is taken for the macro. -/
  keywords : ∀ w ∈ keywords, ¬conventions.exportMacro <+: w

/-! ### The first words of the lines -/

section

variable {s : Text} (hs : ∀ c ∈ s.head?, isWordChar c = false)

theorem WrittenType.exists_text_eq_append (t : WrittenType) :
    ∃ r, t.text = t.first.1 ++ r ∧ ∀ c ∈ r.head?, isWordChar c = false := by
  refine ⟨t.more.flatMap (fun w ↦ ' ' :: w.1) ++ List.replicate t.stars '*',
    List.append_assoc _ _ _, fun c hc ↦ ?_⟩
  cases hmore : t.more with
  | cons w more =>
    rw [hmore] at hc
    obtain rfl : ' ' = c := Option.some_inj.1 hc
    decide
  | nil =>
    rw [hmore, List.flatMap_nil, List.nil_append] at hc
    obtain rfl := List.eq_of_mem_replicate (List.mem_of_mem_head? hc)
    decide

include hs

@[simp]
theorem WrittenType.leadingWord_text (t : WrittenType) :
    Text.leadingWord (t.text ++ s) = t.first.1 := by
  obtain ⟨r, hr, hhead⟩ := t.exists_text_eq_append
  rw [hr, List.append_assoc]
  refine Text.leadingWord_append (isWordChar_of_mem t.first.2.1) fun c hc ↦ ?_
  rw [List.head?_append, Option.mem_def, Option.or_eq_some_iff] at hc
  exact hc.elim (hhead c) fun hc ↦ hs c hc.2

theorem WrittenMember.leadingWord_text (m : WrittenMember) :
    Text.leadingWord (m.text ++ s) = m.name := by
  cases m with
  | counted name => exact Text.leadingWord_append (isWordChar_of_mem name.2) hs
  | given name before after value =>
    rw [WrittenMember.text, List.append_assoc, List.append_assoc]
    refine Text.leadingWord_append (isWordChar_of_mem name.2) fun c hc ↦ ?_
    rw [List.head?_append, Option.mem_def, Option.or_eq_some_iff] at hc
    rcases hc with hc | ⟨-, hc⟩
    · exact isWordChar_of_isBlank (before.isBlank c (List.mem_of_mem_head? hc))
    · obtain rfl : '=' = c := Option.some_inj.1 hc
      decide

end

theorem leadingWord_mem_of_mem_memberPieces {trailing : Bool} {ms : List (Gap × WrittenMember)}
    {piece : Gap × Text} (hpiece : piece ∈ memberPieces trailing ms) :
    piece.2.leadingWord ∈ ms.map (·.2.name) := by
  obtain ⟨m, hm, htext⟩ := exists_text_of_mem hpiece
  have hword : piece.2.leadingWord = m.name := by
    rcases htext with h | h
    · rw [h, ← List.append_nil m.text, m.leadingWord_text (by simp)]
    · rw [h, m.leadingWord_text (by simp; decide)]
  obtain ⟨entry, hentry, rfl⟩ := List.mem_map.1 hm
  rw [hword]
  exact List.mem_map_of_mem hentry

@[simp]
theorem WrittenDeclarator.leadingWord_text (d : WrittenDeclarator) (tag s : Text) :
    Text.leadingWord (d.text tag ++ s) = d.firstWord := by
  cases d with
  | plain type name | array type name size | callback type name params =>
    simp only [text, List.append_assoc, List.cons_append]
    exact type.leadingWord_text (by simp; decide)

@[simp]
theorem WrittenEntry.leadingWord_text (entry : WrittenEntry) (tag : Text) (name : Identifier)
    (s : Text) : Text.leadingWord (entry.text tag name.1 ++ s) = entry.firstWord name.1 := by
  cases entry with
  | field d => exact d.leadingWord_text tag s
  | maker args =>
    rw [text, List.append_assoc]
    exact Text.leadingWord_append (isWordChar_of_mem name.2) (by simp; decide)

theorem beginsWith_bodyHead {keyword : Text} (hkeyword : isIdentifier keyword = true)
    (typedef : Bool) (tag : Option Identifier) :
    BeginsWith keyword (bodyHead typedef keyword tag) := by
  rw [bodyHead, List.append_assoc]
  refine beginsWith_of_append ?_ hkeyword ?_
  · cases typedef with
    | true => exact Or.inr ⟨[' '], rfl, by simp, by simp; decide⟩
    | false => exact Or.inl rfl
  · cases tag with
    | some w => simp [afterBlank]; decide
    | none => simp [afterBlank]

@[simp]
theorem leadingWord_typedef (r : Text) : Text.leadingWord (typedefWord ++ ' ' :: r) = typedefWord :=
  Text.leadingWord_append (isWordChar_of_mem isIdentifier_typedefWord) (by simp; decide)

/-- A type behind `typedef` begins with no keyword. -/
theorem not_beginsWith_type {keyword : Text} (hkeyword : keyword ∈ ignoredWords)
    (htypedef : typedefWord ≠ keyword) (type : WrittenType) (r : Text) :
    ¬BeginsWith keyword (typedefWord ++ ' ' :: (type.text ++ ' ' :: r)) := by
  rintro (hword | ⟨-, hword⟩)
  · rw [leadingWord_typedef] at hword
    exact htypedef hword
  · obtain ⟨s, hs, hhead⟩ := type.exists_text_eq_append
    have hsecond := Text.secondWord_append (b := [' ']) (isWordChar_of_mem isIdentifier_typedefWord)
      (by simp) (by simp; decide) type.first.2.1 (s := s ++ ' ' :: r) fun c hc ↦ by
        rw [List.head?_append, Option.mem_def, Option.or_eq_some_iff] at hc
        rcases hc with hc | ⟨-, hc⟩
        · exact hhead c hc
        · obtain rfl : ' ' = c := Option.some_inj.1 hc
          decide
    rw [hs] at hword
    simp only [List.append_assoc, List.singleton_append] at hsecond hword
    exact type.first.2.2 (by rw [← hsecond, hword]; exact hkeyword)

theorem WrittenAlias.of_mem_front (a : WrittenAlias) :
    ∀ c ∈ a.front, isIdentChar c = true ∨ c = ' ' ∨ c = '*' := by
  have hword {w : Text} (hw : isIdentifier w = true) {c : Char} (hc : c ∈ w) :
      isIdentChar c = true ∨ c = ' ' ∨ c = '*' := Or.inl (isIdentChar_of_mem hw c hc)
  have hleads : ∀ w ∈ (["struct", "enum", "union"] : List Text), isIdentifier w = true := by decide
  have hrest {c : Char} (hc : c ∈ a.original.text ++ ' ' :: a.name.1) :
      isIdentChar c = true ∨ c = ' ' ∨ c = '*' := by
    rcases List.mem_append.1 hc with hc | hc
    · exact a.original.of_mem_text hc
    · exact (List.mem_cons.1 hc).elim (fun hc ↦ Or.inr (Or.inl hc)) (hword a.name.2)
  intro c hc
  rcases List.mem_append.1 hc with hc | hc
  · exact hword isIdentifier_typedefWord hc
  rcases List.mem_cons.1 hc with hc | hc
  · exact Or.inr (Or.inl hc)
  rcases List.mem_append.1 hc with hc | hc
  · split at hc
    · rename_i w _
      rcases List.mem_append.1 hc with hc | hc
      · exact hword (hleads w.1 w.2) hc
      · exact Or.inr (Or.inl (List.mem_singleton.1 hc))
    · exact absurd hc List.not_mem_nil
  · exact hrest hc

theorem WrittenAlias.notMem_front (a : WrittenAlias) {c : Char} (hspace : c ≠ ' ') (hstar : c ≠ '*')
    (hchar : isIdentChar c = false) : c ∉ a.front := by
  intro hc
  rcases a.of_mem_front c hc with h | h | h
  · exact absurd (h.symm.trans hchar) (by simp)
  · exact hspace h
  · exact hstar h

theorem WrittenAlias.isCode_text (a : WrittenAlias) : IsCode a.text := by
  refine isCode_append ((beginsCode_of_isIdentifier isIdentifier_typedefWord).append _)
    (fun c hc ↦ ?_) (Text.isSolid_of_all (by decide) (by decide)) (by decide) (by decide)
  rcases a.of_mem_front c hc with h | rfl | rfl
  · exact isInnerChar_of_isIdentChar h
  · decide
  · decide

@[simp]
theorem WrittenConstant.classify_text (c : WrittenConstant) :
    Line.classify c.text = .directive :=
  classify_of_hash (b := []) (by simp)

theorem WrittenConstant.isLine_text (c : WrittenConstant) :
    '\n' ∉ c.text ∧ c.text.getLast? ≠ some '\r' := by
  have hlead : '\n' ∉ defineLead := by decide
  have hname : '\n' ∉ c.name.1 := notMem_of_isIdentifier c.name.2 (by decide)
  have hvalue := c.noReturn
  refine ⟨by simp [text, hlead, hname, c.noLineFeed], ?_⟩
  cases hlast : c.value.getLast? with
  | none => simp [text, List.getLast?_append, List.getLast?_cons, hlast]
  | some x => simpa [text, List.getLast?_append, List.getLast?_cons, hlast] using hvalue

/-! ### What the lines do not start -/

section

variable {conventions : Conventions} (hc : conventions.Distinctive)

include hc

theorem Conventions.Distinctive.not_starts_function {t : Text}
    (ht : t.leadingWord ∈ HeaderBindings.keywords) :
    ¬DeclarationSort.function.Starts conventions t := fun hstarts ↦
  hc.keywords _ ht (Text.prefix_leadingWord (isWordChar_of_mem hc.exportMacro) hstarts)

theorem Conventions.Distinctive.ordinary_nil : Ordinary conventions [] where
  notKeyword := by decide
  notMacro h := ne_nil_of_isIdentifier hc.exportMacro (List.prefix_nil.1 h)

/-- The first line of a body starts nothing but what its keyword says. -/
theorem not_starts_bodyHead {own sort : DeclarationSort} {keyword : Text}
    (hown : own.keyword? = some keyword) (hsort : own ≠ sort) (typedef : Bool)
    (tag : Option Identifier) : ¬sort.Starts conventions (bodyHead typedef keyword tag) := by
  obtain ⟨hkeyword, hmem, htypedef⟩ := DeclarationSort.of_keyword? hown
  have hbegins := beginsWith_bodyHead hkeyword typedef tag
  have hother {keyword' : Text} (hsort' : sort.keyword? = some keyword') :
      ¬BeginsWith keyword' (bodyHead typedef keyword tag) := by
    intro hbegins'
    obtain rfl := hbegins.unique hbegins' htypedef (DeclarationSort.of_keyword? hsort').2.2
    exact hsort (DeclarationSort.keyword?_inj hown hsort')
  have hnotMem {c : Char} (hspace : c ≠ ' ') (hchar : isIdentChar c = false) :=
    notMem_bodyHead hkeyword hspace hchar typedef tag
  intro hstarts
  cases sort with
  | enum | struct => exact hother rfl hstarts.1
  | function => exact hc.not_starts_function (hbegins.mem_keywords hmem) hstarts
  | callback => exact hnotMem (by decide) (by decide) hstarts.2
  | typeName => exact hnotMem (by decide) (by decide) hstarts.2.1
  | constant => exact hstarts

/-- An exported function starts nothing else. -/
theorem not_starts_of_exportMacro {sort : DeclarationSort} (hsort : .function ≠ sort) (r : Text) :
    ¬sort.Starts conventions (conventions.exportMacro ++ ' ' :: r) := by
  have hword : Text.leadingWord (conventions.exportMacro ++ ' ' :: r) = conventions.exportMacro :=
    Text.leadingWord_append (isWordChar_of_mem hc.exportMacro) (by simp; decide)
  refine not_starts_of_notMem_keywords (fun hmem ↦ ?_) hsort
  rw [hword] at hmem
  exact hc.keywords _ hmem List.prefix_rfl

/-- A callback starts nothing else. -/
theorem not_starts_of_callbackLead {sort : DeclarationSort} (hsort : .callback ≠ sort)
    (f : WrittenPrototype) (r : Text) :
    ¬sort.Starts conventions (f.callbackLead conventions ++ r) := by
  have htext : f.callbackLead conventions ++ r = typedefWord ++ ' ' :: (f.result.text ++ ' ' ::
      ('(' :: (conventions.callbackTag ++ '*' :: ' ' :: (f.name.1 ++ ')' :: '(' :: r)))) := by
    simp [WrittenPrototype.callbackLead]
  rw [htext]
  intro hstarts
  cases sort with
  | enum => exact not_beginsWith_type (by decide) (by decide) f.result _ hstarts.1
  | struct => exact not_beginsWith_type (by decide) (by decide) f.result _ hstarts.1
  | function =>
    refine hc.not_starts_function ?_ hstarts
    rw [leadingWord_typedef]
    exact List.mem_cons_self
  | callback => exact hsort rfl
  | typeName => exact hstarts.2.2 (by simp)
  | constant => exact hstarts

/-- A type name starts nothing else, since what could be an enumeration is ended at once. -/
theorem not_starts_of_alias {sort : DeclarationSort} (hsort : .typeName ≠ sort) (a : WrittenAlias) :
    ¬sort.Starts conventions a.text := by
  have hnotMem {c : Char} (hspace : c ≠ ' ') (hstar : c ≠ '*') (hchar : isIdentChar c = false)
      (hend : c ≠ ';') : c ∉ a.text := by
    rw [WrittenAlias.text, List.mem_append, List.mem_singleton, not_or]
    exact ⟨a.notMem_front hspace hstar hchar, hend⟩
  have hbrace : '\x7b' ∉ a.text := hnotMem (by decide) (by decide) (by decide) (by decide)
  intro hstarts
  cases sort with
  | enum =>
    refine hstarts.2.elim hbrace fun hopen ↦ ?_
    exact absurd (hopen.symm.trans (Pattern.occursIn_finalSemicolon a.front)) (by simp)
  | struct => exact hstarts.2.elim hbrace fun hsemicolon ↦ hsemicolon (by simp [WrittenAlias.text])
  | function =>
    refine hc.not_starts_function ?_ hstarts
    rw [WrittenAlias.text, WrittenAlias.front, List.append_assoc, List.cons_append,
      leadingWord_typedef]
    exact List.mem_cons_self
  | callback => exact hnotMem (by decide) (by decide) (by decide) (by decide) hstarts.2
  | typeName => exact hsort rfl
  | constant => exact hstarts

/-- The lines of an enumeration start nothing else. -/
theorem WrittenEnum.not_starts {sort : DeclarationSort} (e : WrittenEnum)
    (he : ∀ w ∈ (WrittenDeclaration.enum e).innerWords, Ordinary conventions w)
    (hsort : .enum ≠ sort) :
    ∀ piece ∈ e.layout.pieces, ¬sort.Starts conventions piece := by
  intro piece hpiece
  rw [e.pieces_layout, List.mem_append, List.mem_cons, List.mem_cons, List.mem_singleton] at hpiece
  rcases hpiece with (rfl | rfl | hpiece) | rfl
  · exact not_starts_bodyHead hc rfl hsort _ _
  · exact hc.ordinary_nil.not_starts hc.exportMacro sort
  · obtain ⟨piece, hmem, rfl⟩ := List.mem_map.1 hpiece
    exact (he _ (leadingWord_mem_of_mem_memberPieces hmem)).not_starts hc.exportMacro sort
  · exact hc.ordinary_nil.not_starts hc.exportMacro sort

/-- The lines of a struct start nothing else. -/
theorem WrittenStruct.not_starts {sort : DeclarationSort} (s : WrittenStruct)
    (hs : ∀ w ∈ (WrittenDeclaration.struct s).innerWords, Ordinary conventions w)
    (hsort : .struct ≠ sort) :
    ∀ piece ∈ (s.layout conventions.callbackTag).pieces, ¬sort.Starts conventions piece := by
  intro piece hpiece
  rw [s.pieces_layout, List.mem_append, List.mem_cons, List.mem_cons, List.mem_singleton] at hpiece
  rcases hpiece with (rfl | rfl | hpiece) | rfl
  · exact not_starts_bodyHead hc rfl hsort _ _
  · exact hc.ordinary_nil.not_starts hc.exportMacro sort
  · obtain ⟨line, hline, rfl⟩ := List.mem_map.1 hpiece
    obtain ⟨entry, hentry, rfl⟩ := List.mem_map.1 hline
    refine Ordinary.not_starts (hs _ ?_) hc.exportMacro sort
    rw [entry.2.leadingWord_text]
    exact List.mem_map_of_mem hentry
  · exact hc.ordinary_nil.not_starts hc.exportMacro sort

namespace WrittenDeclaration

variable (d : WrittenDeclaration) {sort : DeclarationSort}

/-- **The lines of a declaration start no other sort of declaration.** -/
theorem not_starts (hd : ∀ w ∈ d.innerWords, Ordinary conventions w) (hsort : d.sort ≠ sort) :
    ∀ row ∈ d.rows conventions, ¬sort.Starts conventions row.2 := by
  cases d with
  | enum e => exact Layout.forall_spread (e.not_starts hc hd hsort)
  | struct s => exact Layout.forall_spread (s.not_starts hc hd hsort)
  | function f =>
    intro row hrow
    obtain rfl := List.mem_singleton.1 hrow
    rw [WrittenPrototype.functionLayout, WrittenParameters.joined_layout,
      WrittenPrototype.functionLead, List.append_assoc, List.append_assoc]
    exact not_starts_of_exportMacro hc hsort _
  | callback f =>
    intro row hrow
    obtain rfl := List.mem_singleton.1 hrow
    rw [WrittenPrototype.callbackLayout, WrittenParameters.joined_layout, List.append_assoc]
    exact not_starts_of_callbackLead hc hsort f _
  | typeName a =>
    intro row hrow
    obtain rfl := List.mem_singleton.1 hrow
    exact not_starts_of_alias hc hsort a
  | constant c =>
    intro row hrow
    obtain rfl := List.mem_singleton.1 hrow
    exact hc.ordinary_nil.not_starts hc.exportMacro sort

/-- The lines are code, unless all of the declaration is a directive. -/
theorem isCode_rows (hsort : d.sort ≠ .constant) : ∀ row ∈ d.rows conventions, IsCode row.2 := by
  have hjoined (ps : WrittenParameters) {lead : Text} (hlead : BeginsCode lead)
      (hchars : ∀ c ∈ lead, isInnerChar c = true) :
      IsCode (ps.layout conventions.callbackTag lead).joined := by
    rw [WrittenParameters.joined_layout]
    exact WrittenParameters.isCode_closingOf ([] : List Unit) (hlead.append _)
      (List.forall_mem_append.2 ⟨hchars, ps.isInnerChar_of_mem_inner hc.callbackTag⟩)
  cases d with
  | enum e => exact Layout.forall_spread e.isCode_layout
  | struct s => exact Layout.forall_spread (s.isCode_layout fun _ _ _ ↦ hc.callbackTag)
  | function f =>
    intro row hrow
    obtain rfl := List.mem_singleton.1 hrow
    exact hjoined f.params ((beginsCode_of_isIdentifier hc.exportMacro).append _)
      (f.isInnerChar_of_mem_functionLead hc.exportMacro)
  | callback f =>
    intro row hrow
    obtain rfl := List.mem_singleton.1 hrow
    exact hjoined f.params ((beginsCode_of_isIdentifier isIdentifier_typedefWord).append _)
      (f.isInnerChar_of_mem_callbackLead hc.callbackTag)
  | typeName a =>
    intro row hrow
    obtain rfl := List.mem_singleton.1 hrow
    exact a.isCode_text
  | constant c => exact absurd rfl hsort

omit hc in
/-- The last line of a declaration ends it. -/
theorem exists_last {kind : BlockKind} (hkind : d.sort.kind? conventions = some kind) :
    ∃ inner last, d.rows conventions = inner ++ [last] ∧ kind.closes last.2 = true := by
  cases d with
  | enum e =>
    obtain rfl : enumKind = kind := Option.some_inj.1 hkind
    obtain ⟨inner, last, hspread, hlast⟩ := Layout.exists_last_spread e.pieces_layout
    refine ⟨inner, last, hspread, ?_⟩
    rw [hlast]
    exact Pattern.occursIn_finalSemicolon ('\x7d' :: afterBlank e.typeName)
  | struct s =>
    obtain rfl : structKind = kind := Option.some_inj.1 hkind
    obtain ⟨inner, last, hspread, hlast⟩ := Layout.exists_last_spread (s.pieces_layout _)
    refine ⟨inner, last, hspread, ?_⟩
    rw [hlast]
    exact s.occursIn_structEnd
  | function f =>
    obtain rfl : functionKind conventions = kind := Option.some_inj.1 hkind
    refine ⟨[], _, rfl, ?_⟩
    rw [WrittenPrototype.functionLayout, WrittenParameters.joined_layout]
    exact Pattern.occursIn_finalCall _
  | callback f =>
    obtain rfl : callbackKind conventions = kind := Option.some_inj.1 hkind
    refine ⟨[], _, rfl, ?_⟩
    rw [WrittenPrototype.callbackLayout, WrittenParameters.joined_layout]
    exact Pattern.occursIn_finalCall _
  | typeName a =>
    obtain rfl : aliasKind = kind := Option.some_inj.1 hkind
    exact ⟨[], _, rfl, Pattern.occursIn_finalSemicolon a.front⟩
  | constant c => exact absurd hkind (by simp [sort, DeclarationSort.kind?])

/-- A line of a declaration is a directive or code. -/
theorem cases_of_mem_lines {raw : Text} (hraw : raw ∈ d.lines conventions) :
    (∃ c, d = constant c ∧ raw = c.text) ∨
      d.sort ≠ .constant ∧ ∃ row ∈ d.rows conventions, raw = row.1.1 ++ row.2 ∧ IsCode row.2 := by
  obtain ⟨row, hrow, rfl⟩ := List.mem_map.1 hraw
  by_cases hsort : d.sort = .constant
  · cases d with
    | constant c =>
      obtain rfl := List.mem_singleton.1 hrow
      exact Or.inl ⟨c, rfl, rfl⟩
    | enum _ | struct _ | function _ | callback _ | typeName _ =>
      exact absurd hsort (by simp [WrittenDeclaration.sort])
  · exact Or.inr ⟨hsort, row, hrow, rfl, d.isCode_rows hc hsort row hrow⟩

/-- No line of a declaration is documentation, and only that of a constant is a directive. -/
theorem classify_of_mem_lines {raw : Text} (hraw : raw ∈ d.lines conventions) :
    (Line.classify raw).isDoc = false ∧
      (d.sort ≠ .constant → Line.classify raw ≠ .directive) := by
  rcases d.cases_of_mem_lines hc hraw with ⟨c, rfl, rfl⟩ | ⟨-, row, -, rfl, hcode⟩
  · rw [c.classify_text]
    exact ⟨rfl, fun hsort ↦ absurd rfl hsort⟩
  · rw [(isPlainLine_row hcode row.1).classify]
    exact ⟨rfl, fun _ ↦ Line.noConfusion⟩

theorem isLine_of_mem_lines {raw : Text} (hraw : raw ∈ d.lines conventions) :
    '\n' ∉ raw ∧ raw.getLast? ≠ some '\r' := by
  rcases d.cases_of_mem_lines hc hraw with ⟨c, rfl, rfl⟩ | ⟨-, row, -, rfl, hcode⟩
  · exact c.isLine_text
  · exact ⟨noLineFeed_row hcode row.1, getLast?_row hcode row.1⟩

/-- **In a declaration of another sort** nothing is found. -/
theorem quiet_lines (hd : ∀ w ∈ d.innerWords, Ordinary conventions w) (hsort : d.sort ≠ sort)
    {kind : BlockKind} (hkind : sort.kind? conventions = some kind) :
    Scanner.Quiet kind (d.lines conventions) := by
  refine Scanner.quiet_of_forall fun raw hraw ↦ ?_
  rcases d.cases_of_mem_lines hc hraw with ⟨c, rfl, rfl⟩ | ⟨-, row, hrow, rfl, hcode⟩
  · exact Scanner.quiet_directive kind c.classify_text
  · exact Scanner.quiet_row hcode row.1
      (ignores_of_not_starts hkind (d.not_starts hc hd hsort row hrow))

/-- **A declaration leaves nothing open** behind it. -/
theorem settles_lines {kind : BlockKind} (hkind : d.sort.kind? conventions = some kind) :
    Scanner.Settles kind (d.lines conventions) := by
  have hsort : d.sort ≠ .constant := by
    intro hsort
    simp [hsort, DeclarationSort.kind?] at hkind
  obtain ⟨inner, last, hrows, hlast⟩ := d.exists_last hkind
  have hcode := d.isCode_rows hc hsort
  rw [lines, hrows]
  exact Scanner.settles_rows (hrows ▸ hcode) hlast

end WrittenDeclaration

end

end HeaderBindings
