import HeaderBindings.Proofs.Header.Structs

/-!
# Entries that declare more than one name

An entry of a struct can declare several names of a common type: `T a, *b, c[4];`.  Each entry is
read as one declarator, whose name is the last word, so the names in front of that become a part of
the type.

* `SharedEntry.field`: what is read from such an entry, whatever its names are.
* `structs_sharedTypes`: a struct gets one field for each entry and there is never a diagnostic, so
  of all declared names those are kept that are alone in their entry.
-/

set_option autoImplicit false

namespace HeaderBindings

open Pattern

/-! ## Names that share a type -/

/-- One of the names that share a type, with its own stars and perhaps an array suffix. -/
structure SharedName where
  stars : Nat
  name : DeclaredName
  size : Option ArraySize

/-- One or more names of a common type. -/
structure SharedEntry where
  first : TypeWord
  more : List TypeWord
  before : List SharedName
  last : SharedName

namespace SharedName

/-- The array suffix with what is made of its size, or nothing. -/
def suffix (size : Text → Text) (n : SharedName) : Text :=
  match n.size with
  | some s => '[' :: (size s.1 ++ [']'])
  | none => []

/-- The name with its stars and its suffix. -/
def spelled (size : Text → Text) (n : SharedName) : Text :=
  List.replicate n.stars '*' ++ n.name.1 ++ n.suffix size

/-- The name as it is written. -/
def text (n : SharedName) : Text := n.spelled id

/-- The name as it is read, without any `const` in the size of its array. -/
def bare (n : SharedName) : Text := n.spelled Declarator.constWord.removeAll

/-- What stands between the type and the name: a blank and the stars. -/
def gap (n : SharedName) : Text := ' ' :: List.replicate n.stars '*'

/-- The field that the name is one of, if it is of the given type. -/
def field (type : Text) (n : SharedName) : Parameter where
  name := n.name.1
  type := type ++ List.replicate n.stars '*' ++ if n.size.isSome then ['*'] else []

end SharedName

namespace SharedEntry

/-- The common type. -/
def type (e : SharedEntry) : WrittenType := ⟨e.first, e.more, 0⟩

/-- The declared names. -/
def names (e : SharedEntry) : List SharedName := e.before ++ [e.last]

/-- The type and the names in front of the last one. -/
def front (e : SharedEntry) (spell : SharedName → Text) : Text :=
  e.type.text ++ e.before.flatMap fun n ↦ ' ' :: (spell n ++ [','])

/-- The entry as it is written. -/
def text (e : SharedEntry) : Text := e.front SharedName.text ++ ' ' :: e.last.text

/-- The fields that the entry declares. -/
def declared (e : SharedEntry) : List Parameter := e.names.map (·.field e.type.type)

/-- The field that is read: what stands in front of the last name is taken for its type. -/
def field (e : SharedEntry) : Parameter :=
  e.last.field (e.front SharedName.bare).withoutBlanks

/-- The entry can be read: it does not look like a constructor, and with parentheses in a size it
does not look like a callback. -/
structure Readable (tag struct : Text) (e : SharedEntry) : Prop where
  noMaker : e.text.contains (struct ++ ['(']) = false
  noCallback : '(' ∈ e.text → isIdentifier tag = true ∧ tag ∉ Text.wordRuns e.text

instance (tag struct : Text) (e : SharedEntry) : Decidable (e.Readable tag struct) :=
  decidable_of_iff (e.text.contains (struct ++ ['(']) = false ∧
    ('(' ∈ e.text → isIdentifier tag = true ∧ tag ∉ Text.wordRuns e.text))
    ⟨fun h ↦ ⟨h.1, h.2⟩, fun h ↦ ⟨h.noMaker, h.noCallback⟩⟩

end SharedEntry

/-! ## The text of an entry -/

namespace SharedName

variable (n : SharedName)

theorem isInnerChar_of_mem_text : ∀ c ∈ n.text, isInnerChar c = true := by
  have hmark : ∀ c ∈ ['*', '[', ']'], isInnerChar c = true := List.all_eq_true.1 (by decide)
  have hname := isInnerChar_of_mem n.name.2.1
  intro c hc
  rw [text, spelled, suffix, List.mem_append, List.mem_append] at hc
  rcases hc with (hc | hc) | hc
  · rw [List.eq_of_mem_replicate hc]
    decide
  · exact hname c hc
  · cases hn : n.size with
    | none => simp [hn] at hc
    | some size =>
      have hsize := List.all_eq_true.1 size.2.1
      simp only [hn, id_eq, List.mem_cons, List.mem_append] at hc
      grind

theorem isClosed_text : isClosed ';' 0 n.text = true := by
  have hfront : ∀ c ∈ List.replicate n.stars '*' ++ n.name.1, c ≠ '(' ∧ c ≠ ')' ∧ c ≠ ';' := by
    intro c hc
    rcases List.mem_append.1 hc with hc | hc
    · rw [List.eq_of_mem_replicate hc]
      decide
    · have hchar := isIdentChar_of_mem n.name.2.1 c hc
      refine ⟨?_, ?_, ?_⟩ <;> rintro rfl <;> exact absurd hchar (by decide)
  rw [text, spelled, isClosed_append_of_forall hfront, suffix]
  cases n.size with
  | none => rfl
  | some size =>
    have hopening (s : Text) : isClosed ';' 0 ('[' :: s) = isClosed ';' 0 s := rfl
    have hsize : isClosed ';' 0 size.1 = true := isClosed_of_notMem size.2.2.1
      (notMem_of_isInnerChar (List.all_eq_true.1 size.2.1) (by decide))
    exact (hopening _).trans (isClosed_append hsize (by decide))

/-- Only the size of an array can hold a `const`. -/
theorem removeAll_text : Declarator.constWord.removeAll n.text = n.bare := by
  have hstars (k : Nat) :
      "const".toList ∉ Text.wordRuns (List.replicate k '*' ++ n.name.1) := by
    induction k with
    | zero =>
      rw [List.replicate_zero, List.nil_append, Text.wordRuns_of_isIdentifier n.name.2.1,
        List.mem_singleton]
      exact Ne.symm n.name.2.2
    | succ k ih =>
      rw [List.replicate_succ, List.cons_append, Text.wordRuns_cons (by decide), List.mem_cons,
        not_or]
      exact ⟨by decide, ih⟩
  rw [text, bare, spelled, spelled, suffix, suffix]
  cases n.size with
  | none =>
    rw [List.append_nil]
    exact removeAll_of_notMem Declarator.const_ne_nil Declarator.isWordChar_of_mem_const
      (hstars n.stars)
  | some size =>
    simp only [id_eq]
    rw [Declarator.removeAll_front (hstars n.stars) (by decide),
      Declarator.removeAll_closed _ (by decide)]

/-- A name with its stars and its suffix has no blanks around it. -/
theorem isSolid_spelled (size : Text → Text) : (n.spelled size).IsSolid := by
  have hplain : Text.IsSolid (List.replicate n.stars '*' ++ n.name.1) := by
    refine Text.isSolid_of_forall
      (List.append_ne_nil_of_right_ne_nil _ (ne_nil_of_isIdentifier n.name.2.1)) fun c hc ↦ ?_
    rcases List.mem_append.1 hc with hc | hc
    · rw [List.eq_of_mem_replicate hc]
      decide
    · exact isBlank_of_isIdentChar (isIdentChar_of_mem n.name.2.1 c hc)
  have hclosing : Text.IsSolid [']'] := Text.isSolid_of_forall (by simp) (by simp; decide)
  rw [spelled, suffix]
  cases n.size with
  | none => rwa [List.append_nil]
  | some s => simpa using hplain.join ('[' :: size s.1) hclosing

theorem closesBrackets_bare : Declarator.ClosesBrackets n.bare := by
  have hplain : Declarator.ClosesBrackets (List.replicate n.stars '*' ++ n.name.1) := by
    refine Declarator.closesBrackets_of_notMem fun hmem ↦ ?_
    rcases List.mem_append.1 hmem with hmem | hmem
    · exact absurd (List.eq_of_mem_replicate hmem) (by decide)
    · exact notMem_of_isIdentifier n.name.2.1 (by decide) hmem
  rw [bare, spelled]
  refine hplain.append ?_
  rw [suffix]
  cases n.size with
  | none => exact Declarator.closesBrackets_of_notMem List.not_mem_nil
  | some size => exact Declarator.closesBrackets_concat ('[' :: _)

theorem noLineFeed_bare : '\n' ∉ n.bare := by
  rw [← removeAll_text]
  exact fun hmem ↦ notMem_of_isInnerChar n.isInnerChar_of_mem_text (by decide)
    (Declarator.mem_of_mem_removeAll hmem)

/-- The suffix of a name without `const` is none or that of an array. -/
theorem isSuffix_bare : Declarator.IsSuffix (n.suffix Declarator.constWord.removeAll) := by
  rw [suffix]
  cases n.size with
  | none => exact Or.inl rfl
  | some size =>
    exact Or.inr ⟨_, rfl, fun hmem ↦ size.2.2.2.1 (Declarator.mem_of_mem_removeAll hmem),
      fun hmem ↦ size.2.2.2.2 (Declarator.mem_of_mem_removeAll hmem)⟩

theorem suffix_eq_nil_iff (size : Text → Text) : n.suffix size = [] ↔ n.size.isSome = false := by
  rw [suffix]
  cases n.size <;> simp

theorem isGap_of_mem_gap : ∀ c ∈ n.gap, Declarator.isGap c = true := by
  intro c hc
  rcases List.mem_cons.1 hc with rfl | hc
  · decide
  · rw [List.eq_of_mem_replicate hc]
    decide

@[simp]
theorem withoutBlanks_gap : n.gap.withoutBlanks = List.replicate n.stars '*' := by
  rw [gap, Text.withoutBlanks_cons_of_isBlank (by decide)]
  refine List.filter_eq_self.2 fun c hc ↦ ?_
  rw [List.eq_of_mem_replicate hc]
  decide

end SharedName

namespace SharedEntry

variable (e : SharedEntry) (spell : SharedName → Text)

/-- The text begins with the first word of the type. -/
theorem exists_front : ∃ r, e.front spell ++ ' ' :: spell e.last = e.first.1 ++ ' ' :: r := by
  obtain ⟨r, hr⟩ : ∃ r, e.more.flatMap (fun w ↦ ' ' :: w.1) ++
      (e.before.flatMap (fun n ↦ ' ' :: (spell n ++ [','])) ++ ' ' :: spell e.last) = ' ' :: r := by
    cases e.more with
    | cons w more => exact ⟨_, rfl⟩
    | nil => cases e.before <;> exact ⟨_, rfl⟩
  refine ⟨r, ?_⟩
  rw [← hr]
  simp [front, type, WrittenType.text]

theorem isSolid_front : (e.front spell).IsSolid := by
  rw [front]
  cases hbefore : e.before.reverse with
  | nil =>
    rw [List.reverse_eq_nil_iff.1 hbefore, List.flatMap_nil, List.append_nil]
    exact e.type.isSolid_text
  | cons n before =>
    have hcomma : Text.IsSolid [','] := Text.isSolid_of_forall (by simp) (by simp; decide)
    rw [List.reverse_eq_cons_iff.1 hbefore, List.flatMap_append]
    simpa using e.type.isSolid_text.join
      (before.reverse.flatMap (fun n ↦ ' ' :: (spell n ++ [','])) ++ ' ' :: spell n) hcomma

theorem isSolid_text (size : Text → Text) :
    (e.front spell ++ ' ' :: e.last.spelled size).IsSolid := by
  simpa using (e.isSolid_front spell).join [' '] (e.last.isSolid_spelled size)

theorem mem_text {c : Char} (hc : c ∈ e.text) :
    c ∈ e.type.text ∨ c = ' ' ∨ c = ',' ∨ ∃ n ∈ e.names, c ∈ n.text := by
  simp only [text, front, names, List.mem_append, List.mem_flatMap, List.mem_cons,
    List.not_mem_nil, or_false] at hc ⊢
  grind

theorem isInnerChar_of_mem_text : ∀ c ∈ e.text, isInnerChar c = true := by
  intro c hc
  rcases e.mem_text hc with hc | rfl | rfl | ⟨n, -, hc⟩
  · exact e.type.isInnerChar_of_mem_text c hc
  · decide
  · decide
  · exact n.isInnerChar_of_mem_text c hc

theorem isClosed_text : isClosed ';' 0 e.text = true := by
  have htype : ∀ c ∈ e.type.text, c ≠ '(' ∧ c ≠ ')' ∧ c ≠ ';' := by
    refine fun c hc ↦ ⟨?_, ?_, ?_⟩ <;> rintro rfl <;> exact e.type.notMem_text (by decide) hc
  rw [text, front, List.append_assoc, isClosed_append_of_forall htype]
  induction e.before with
  | nil => exact (isClosed_blank_cons (by decide)).trans e.last.isClosed_text
  | cons n before ih =>
    rw [List.flatMap_cons, List.append_assoc, List.cons_append, isClosed_blank_cons (by decide),
      List.append_assoc]
    exact isClosed_append n.isClosed_text
      ((isClosed_append_of_forall (s := [',']) (by simp)).trans ih)

/-- Without `const` the entry is what its names are without it. -/
theorem removeAll_text : Declarator.constWord.removeAll e.text =
    e.front SharedName.bare ++ ' ' :: e.last.bare := by
  have hnames : Declarator.constWord.removeAll
      (e.before.flatMap (fun n ↦ ' ' :: (n.text ++ [','])) ++ ' ' :: e.last.text) =
        e.before.flatMap (fun n ↦ ' ' :: (n.bare ++ [','])) ++ ' ' :: e.last.bare := by
    induction e.before with
    | nil =>
      rw [List.flatMap_nil, List.flatMap_nil, List.nil_append, List.nil_append,
        Declarator.removeAll_cons (by decide), SharedName.removeAll_text]
    | cons n before ih =>
      have hname := Declarator.removeAll_cut n.text (x := ',') (by decide)
        (before.flatMap (fun n ↦ ' ' :: (n.text ++ [','])) ++ ' ' :: e.last.text)
      rw [ih, SharedName.removeAll_text] at hname
      simpa [Declarator.removeAll_cons (x := ' ') (by decide)] using hname
  rw [text, front, front, List.append_assoc, List.append_assoc, ← hnames]
  obtain ⟨r, hr⟩ : ∃ r, e.before.flatMap (fun n ↦ ' ' :: (n.text ++ [','])) ++ ' ' :: e.last.text =
      ' ' :: r := by
    cases e.before with
    | nil => exact ⟨_, rfl⟩
    | cons n before => exact ⟨_, rfl⟩
  rw [hr, Declarator.removeAll_cons (by decide),
    Declarator.removeAll_front e.type.const_notMem_wordRuns (by decide)]

theorem closesBrackets_front : Declarator.ClosesBrackets (e.front SharedName.bare) := by
  have htype := Declarator.closesBrackets_of_notMem (e.type.notMem_text (c := '[') (by decide))
  rw [front]
  refine htype.append ?_
  induction e.before with
  | nil => exact Declarator.closesBrackets_of_notMem List.not_mem_nil
  | cons n before ih =>
    have hblank := Declarator.closesBrackets_of_notMem (p := [' ']) (by decide)
    have hcomma := Declarator.closesBrackets_of_notMem (p := [',']) (by decide)
    simpa using ((hblank.append n.closesBrackets_bare).append hcomma).append ih

theorem noLineFeed_front : '\n' ∉ e.front SharedName.bare := by
  have htype : '\n' ∉ e.type.text := e.type.notMem_text (by decide)
  have hname (n : SharedName) : '\n' ∉ n.bare := n.noLineFeed_bare
  simp [front, htype, hname]

/-! ## What is read -/

/-- What is left of a readable entry without `const` is taken for no callback. -/
theorem search_callback {tag struct : Text} {e : SharedEntry} (h : e.Readable tag struct) :
    (Declarator.callbackPattern tag).search (Declarator.constWord.removeAll e.text) = none := by
  refine Declarator.search_callback_eq_none fun s r hsplit ↦ ?_
  have hmem : '(' ∈ Declarator.constWord.removeAll e.text := by
    rw [hsplit]
    simp
  obtain ⟨htag, hnotMem⟩ := h.noCallback (Declarator.mem_of_mem_removeAll hmem)
  refine ⟨htag, fun hword ↦ hnotMem ?_⟩
  refine mem_wordRuns_of_removeAll Declarator.const_ne_nil Declarator.isWordChar_of_mem_const
    (ne_nil_of_isIdentifier htag) ?_
  change tag ∈ Text.wordRuns (Declarator.constWord.removeAll e.text)
  rw [hsplit, Text.wordRuns_append_cons (by decide)]
  exact List.mem_append_right _ hword

/-- What stands in front of the last name begins with a word, so it is not made of dots. -/
theorem withoutBlanks_front_ne (t : Text) :
    Text.withoutBlanks (e.front SharedName.bare ++ t) ≠ "..." := by
  obtain ⟨c, w, hw, hc, -⟩ := exists_cons_of_isIdentifier e.first.2.1
  have hblank : isBlank c = false := isBlank_of_isIdentChar (isIdentChar_of_isIdentStart hc)
  intro heq
  rw [Text.withoutBlanks_append, front, Text.withoutBlanks_append, type, WrittenType.text, hw,
    List.cons_append, List.cons_append, Text.withoutBlanks, List.filter_cons_of_pos
    (by simp [hblank])] at heq
  obtain rfl := (List.cons.inj heq).1
  exact absurd hc (by decide)

/-- An entry begins with no qualifier, so it is taken apart as a whole. -/
theorem dropQualifiers_bare (bound : Nat) :
    Declarator.dropQualifiers bound (e.front SharedName.bare ++ ' ' :: e.last.bare) =
      e.front SharedName.bare ++ e.last.gap ++ e.last.name.1 ++ [] ++
        e.last.suffix Declarator.constWord.removeAll := by
  obtain ⟨r, hr⟩ := e.exists_front SharedName.bare
  rw [hr, Declarator.dropQualifiers_eq e.first.2.1
    (fun hq ↦ e.first.2.2 (List.mem_cons_of_mem _ hq)) (by simp; decide), ← hr]
  simp [SharedName.bare, SharedName.spelled, SharedName.gap]

/-- The last name is read with all that stands in front of it as its type. -/
theorem parsePlain_bare : Declarator.parsePlain (e.front SharedName.bare ++ ' ' :: e.last.bare) =
    .named e.field.name e.field.type := by
  have hgap := e.last.isGap_of_mem_gap
  have hclosed : Declarator.ClosesBrackets (e.front SharedName.bare ++ e.last.gap) :=
    e.closesBrackets_front.append (Declarator.closesBrackets_of_notMem fun hmem ↦
      absurd (hgap _ hmem) (by decide))
  have htype : Text.withoutBlanks (e.front SharedName.bare ++ e.last.gap) =
      (e.front SharedName.bare).withoutBlanks ++ List.replicate e.last.stars '*' := by
    rw [Text.withoutBlanks_append, SharedName.withoutBlanks_gap]
  rw [Declarator.parsePlain_of_dropQualifiers e.last.name.2.1 (e.dropQualifiers_bare _)
    (e.isSolid_front _) e.noLineFeed_front hclosed (List.cons_ne_nil _ _) hgap
    (e.withoutBlanks_front_ne _) (by simp) e.last.isSuffix_bare, htype]
  have hnil := e.last.suffix_eq_nil_iff Declarator.constWord.removeAll
  cases hsize : e.last.size.isSome with
  | true => simp [field, SharedName.field, hnil, hsize]
  | false => simp [field, SharedName.field, hnil, hsize]

/-- **An entry is read as one field**, however many names it declares. -/
theorem readField_text {conventions : Conventions} {struct : Text}
    (hstruct : isIdentifier struct = true) {e : SharedEntry}
    (h : e.Readable conventions.callbackTag struct) (location : Text) :
    readField conventions struct location (' ' :: e.text) = (some e.field, none) := by
  have hmaker : Text.contains (' ' :: e.text) (struct ++ ['(']) = false := by
    rw [← Bool.not_eq_true, Text.contains_iff, List.infix_cons_iff]
    rintro (hfront | hwithin)
    · obtain ⟨c, w, hw, hc, -⟩ := exists_cons_of_isIdentifier hstruct
      rw [hw, List.cons_append, List.cons_prefix_cons] at hfront
      rw [hfront.1] at hc
      exact absurd hc (by decide)
    · exact absurd ((Text.contains_iff.2 hwithin).symm.trans h.noMaker) (by simp)
  have hparse : Declarator.parse conventions.callbackTag (' ' :: e.text) =
      .named e.field.name e.field.type := by
    have hfirst : e.text.head? ≠ some '\x7d' := by
      obtain ⟨r, hr⟩ := e.exists_front SharedName.text
      obtain ⟨c, w, hw, hc, -⟩ := exists_cons_of_isIdentifier e.first.2.1
      rw [text, hr, hw]
      rintro ⟨⟩
      exact absurd hc (by decide)
    have hremoved : (Declarator.constWord.removeAll e.text).trim =
        Declarator.constWord.removeAll e.text := by
      rw [removeAll_text]
      exact (e.isSolid_text _ _).trim
    have hread := @Declarator.parse_eq conventions.callbackTag _ e.text [' '] [] (by simp; decide)
      (by simp) (e.isSolid_text _ _) hfirst
      (notMem_of_isInnerChar e.isInnerChar_of_mem_text (by decide)) hremoved
    rw [search_callback h, removeAll_text, List.append_nil] at hread
    exact hread.trans e.parsePlain_bare
  have hne : e.field.name.isEmpty = false :=
    List.isEmpty_eq_false_iff.2 (ne_nil_of_isIdentifier e.last.name.2.1)
  simp only [readField, hmaker, hparse, hne, Bool.false_eq_true, if_false]
  rfl

/-! ## Names that are kept -/

theorem notMem_type {c : Char} (hc : c ∈ ['\n', '(', ')', '[', ']', ',', ';']) :
    c ∉ e.type.type := by
  rw [← WrittenType.withoutBlanks_text]
  exact fun hmem ↦ e.type.notMem_text hc (List.mem_filter.1 hmem).1

/-- No declared type holds a comma. -/
theorem comma_notMem_declared {e : SharedEntry} {p : Parameter} (hp : p ∈ e.declared) :
    ',' ∉ p.type := by
  obtain ⟨n, -, rfl⟩ := List.mem_map.1 hp
  have htype : ',' ∉ e.type.type := e.notMem_type (by decide)
  have hsuffix : ',' ∉ if n.size.isSome then ['*'] else [] := by split <;> decide
  rw [SharedName.field, List.mem_append, List.mem_append, not_or, not_or]
  exact ⟨⟨htype, fun hmem ↦ absurd (List.eq_of_mem_replicate hmem) (by decide)⟩, hsuffix⟩

/-- If there is a name in front of the last one, what is read as the type holds a comma. -/
theorem comma_mem_field {e : SharedEntry} (h : e.before ≠ []) : ',' ∈ e.field.type := by
  obtain ⟨n, before, hbefore⟩ := List.exists_cons_of_ne_nil h
  have hfront : ',' ∈ (e.front SharedName.bare).withoutBlanks := by
    refine List.mem_filter.2 ⟨?_, by decide⟩
    simp [front, hbefore]
  exact List.mem_append_left _ (List.mem_append_left _ hfront)

/-- A name that is alone in its entry is read as it is declared. -/
theorem declared_of_alone {e : SharedEntry} (h : e.before = []) : e.declared = [e.field] := by
  have hfront : (e.front SharedName.bare).withoutBlanks = e.type.type := by
    rw [front, h, List.flatMap_nil, List.append_nil, WrittenType.withoutBlanks_text]
  rw [declared, names, h, field, hfront]
  rfl

end SharedEntry

/-! ## Structs with such entries -/

/-- A struct each of whose entries declares one or more names of a common type. -/
structure SharedStruct where
  typedef : Bool
  name : Identifier
  entries : List (Indent × SharedEntry)
  typeName : Option Identifier

namespace SharedStruct

variable (s : SharedStruct)

/-- The struct without its entries. -/
def frame : WrittenStruct := ⟨s.typedef, s.name, [], s.typeName⟩

/-- The lines between the first and the last one. -/
def lines : List (Indent × Text) := s.entries.map fun entry ↦ (entry.1, entry.2.text ++ [';'])

/-- The struct with a line for each of its entries. -/
def layout : Layout :=
  .lined s.frame.head ((.none, ['\x7b']) :: s.lines ++ [(.none, s.frame.last)])

/-- The fields that the struct declares. -/
def declared : List Parameter := s.entries.flatMap (·.2.declared)

/-- The fields that are read. -/
def fields : List Parameter := s.entries.map (·.2.field)

/-- What is read from the struct. -/
def struct (location : Location) : Struct where
  name := s.name.1
  fields := s.fields
  location := location

/-- All entries can be read. -/
def Readable (tag : Text) : Prop := ∀ entry ∈ s.entries, entry.2.Readable tag s.name.1

instance (tag : Text) : Decidable (s.Readable tag) :=
  inferInstanceAs (Decidable (∀ entry ∈ s.entries, entry.2.Readable tag s.name.1))

theorem layout_declares : s.layout.Declares structKind
    [s.name.1, s.entries.flatMap (fun entry ↦ ' ' :: (entry.2.text ++ [';'])) ++ [' '],
      nameOf s.typeName] := by
  have hcode : ∀ line ∈ s.lines, IsCode line.2 := by
    intro line hline
    obtain ⟨entry, -, rfl⟩ := List.mem_map.1 hline
    obtain ⟨r, hr⟩ := entry.2.exists_front SharedName.text
    have hfirst : BeginsCode entry.2.text := by
      rw [SharedEntry.text, hr]
      exact (beginsCode_of_isIdentifier entry.2.first.2.1).append _
    exact isCode_append hfirst entry.2.isInnerChar_of_mem_text
      (Text.isSolid_of_all (by decide) (by decide)) (by decide) (by decide)
  have hbrace : ∀ line ∈ s.lines, '\x7d' ∉ line.2 := by
    intro line hline
    obtain ⟨entry, -, rfl⟩ := List.mem_map.1 hline
    rw [List.mem_append, List.mem_singleton, not_or]
    exact ⟨notMem_of_isInnerChar entry.2.isInnerChar_of_mem_text (by decide), by decide⟩
  have hinner : s.lines.flatMap (fun line ↦ ' ' :: line.2) =
      s.entries.flatMap fun entry ↦ ' ' :: (entry.2.text ++ [';']) := by
    rw [lines, List.flatMap_map]
  exact hinner ▸ s.frame.lined_declares hcode hbrace

/-- What becomes of the struct. -/
theorem structOfBlock_eq {s : SharedStruct} {conventions : Conventions}
    (hs : s.Readable conventions.callbackTag) (file : Text) (n : Nat) :
    structOfBlock conventions file
        ⟨[s.name.1, s.entries.flatMap (fun entry ↦ ' ' :: (entry.2.text ++ [';'])) ++ [' '],
          nameOf s.typeName], [], n⟩ = (s.struct ⟨file, n⟩, []) := by
  have hfields : s.entries.filterMap (fun entry ↦ some entry.2.field) = s.fields := by
    rw [fields, List.filterMap_eq_map']
  rw [struct, ← hfields]
  exact WrittenStruct.structOfBlock_lines (fun entry _ ↦ entry.2.isClosed_text)
    fun location entry hentry ↦ SharedEntry.readField_text s.name.2 (hs entry hentry) location

/-- **The declared fields that are kept** are those that are alone in their entry. -/
theorem mem_fields_iff {p : Parameter} (hp : p ∈ s.declared) :
    p ∈ s.fields ↔ ∃ entry ∈ s.entries, entry.2.before = [] ∧ p ∈ entry.2.declared := by
  constructor
  · intro hfield
    obtain ⟨entry, hentry, rfl⟩ := List.mem_map.1 hfield
    obtain ⟨entry', -, hdeclared⟩ := List.mem_flatMap.1 hp
    have halone : entry.2.before = [] := by
      by_cases h : entry.2.before = []
      · exact h
      · exact absurd (SharedEntry.comma_mem_field h) (SharedEntry.comma_notMem_declared hdeclared)
    refine ⟨entry, hentry, halone, ?_⟩
    rw [SharedEntry.declared_of_alone halone]
    exact List.mem_singleton_self _
  · rintro ⟨entry, hentry, halone, hmem⟩
    rw [SharedEntry.declared_of_alone halone] at hmem
    rw [List.mem_singleton.1 hmem]
    exact List.mem_map_of_mem hentry

/-- What is read from structs that are laid out one after the other. -/
def structs (file : Text) (ss : List SharedStruct) : List Struct :=
  List.zipWith (fun s n ↦ s.struct ⟨file, n⟩) ss (Layout.lastLines 1 (ss.map layout))

end SharedStruct

/-- **Structs whose entries declare names of a common type** get one field for each entry and give
rise to no diagnostic, so that of the declared fields only those are kept that are alone in their
entry. -/
theorem structs_sharedTypes (conventions : Conventions) (file : Text) (ss : List SharedStruct)
    (hss : ∀ s ∈ ss, s.Readable conventions.callbackTag) :
    structs conventions file (Layout.headerText (ss.map SharedStruct.layout)) =
        (SharedStruct.structs file ss, []) ∧
      ∀ s ∈ ss, ∀ p ∈ s.declared, (p ∈ s.fields ↔
        ∃ entry ∈ s.entries, entry.2.before = [] ∧ p ∈ entry.2.declared) := by
  refine ⟨?_, fun s _ p hp ↦ s.mem_fields_iff hp⟩
  have hfound := Layout.map_blocks_headerText (g := structOfBlock conventions file)
    (fun s _ ↦ SharedStruct.layout_declares s)
    (fun s hs n ↦ SharedStruct.structOfBlock_eq (hss s hs) file n)
  rw [← List.map_zipWith (f := fun s ↦ (s, [])), ← SharedStruct.structs] at hfound
  rw [structs, hfound]
  generalize SharedStruct.structs _ ss = read
  simp [Function.comp_def, List.flatMap_map]

/-- A struct with `size_t a, *b, c[4];` and a field of its own behind it. -/
def gridStruct : SharedStruct where
  typedef := false
  name := ⟨"Grid", by decide⟩
  entries :=
    [(.none, ⟨⟨"size_t", by decide⟩, [],
        [⟨0, ⟨"a", by decide⟩, none⟩, ⟨1, ⟨"b", by decide⟩, none⟩],
        ⟨0, ⟨"c", by decide⟩, some ⟨"4", by decide⟩⟩⟩),
      (.none, ⟨⟨"wchar_t", by decide⟩, [], [], ⟨1, ⟨"title", by decide⟩, none⟩⟩)]
  typeName := none

theorem structs_sharedTypes_grid :
    structs {} "a.h" "struct Grid\n\x7b\nsize_t a, *b, c[4];\nwchar_t *title;\n\x7d;\n" =
        ([{ name := "Grid", fields := [⟨"c", "size_ta,*b,*", .input⟩, ⟨"title", "wchar_t*", .input⟩]
            location := ⟨"a.h", 5⟩ }], []) ∧
      gridStruct.declared = [⟨"a", "size_t", .input⟩, ⟨"b", "size_t*", .input⟩,
        ⟨"c", "size_t*", .input⟩, ⟨"title", "wchar_t*", .input⟩] := by
  have hgrid : ∀ s ∈ [gridStruct], s.Readable "XN_CALLBACK_TYPE" := by
    simp only [List.mem_singleton, forall_eq]
    decide +kernel
  have htext : Layout.headerText ([gridStruct].map SharedStruct.layout) =
      "struct Grid\n\x7b\nsize_t a, *b, c[4];\nwchar_t *title;\n\x7d;\n" := by
    decide +kernel
  have hread := (structs_sharedTypes {} "a.h" [gridStruct] hgrid).1
  rw [htext] at hread
  exact ⟨hread.trans (by decide +kernel), by decide +kernel⟩

/-- Two names are declared, one field is read, and nothing is said about the other. -/
theorem structs_commaLost : structs {} "t.h" "struct S\n\x7b\nint a, b;\n\x7d;\n" =
    ([{ name := "S", fields := [⟨"b", "inta,", .input⟩], location := ⟨"t.h", 4⟩ }], []) := by
  decide +kernel

end HeaderBindings
