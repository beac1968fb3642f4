import HeaderBindings.Proofs.Header.Declarators
import HeaderBindings.Proofs.Header.StructText

/-!
# Reading structs back

A struct is written with a line for each of its entries, which are fields and constructors in any
order.  `structs_headerText`: what is read from it is its name and its fields, in order, and the
constructors leave no trace.

A constructor is known by the name of the struct in front of a parenthesis, so a field must not hold
these two next to each other.  That is the only thing asked of a field besides that its declarator
fits the callback tag.
-/

set_option autoImplicit false

namespace HeaderBindings

open Cursor (start)

/-! ## Structs as they are written -/

/-- What stands between the braces of a struct on a line of its own. -/
inductive WrittenEntry where
  | field (d : WrittenDeclarator)
  /-- A constructor, with what stands between its parentheses. -/
  | maker (args : Enclosed)

/-- A struct as it is written. -/
structure WrittenStruct where
  typedef : Bool
  name : Identifier
  entries : List (Indent × WrittenEntry)
  typeName : Option Identifier

/-- The entry in a struct of the given name. -/
def WrittenEntry.text (tag name : Text) : WrittenEntry → Text
  | field d => d.text tag
  | maker args => name ++ '(' :: (args.1 ++ [')'])

/-- The declarator, if the entry is a field. -/
def WrittenEntry.field? : WrittenEntry → Option WrittenDeclarator
  | field d => some d
  | maker _ => none

namespace WrittenStruct

/-- The fields. -/
def fields (s : WrittenStruct) : List WrittenDeclarator := s.entries.filterMap (·.2.field?)

/-- The first line of the struct. -/
def head (s : WrittenStruct) : Text := bodyHead s.typedef structWord s.name

/-- The last line of the struct. -/
def last (s : WrittenStruct) : Text := bodyEnd s.typeName

/-- The lines between the first and the last one. -/
def lines (tag : Text) (s : WrittenStruct) : List (Indent × Text) :=
  s.entries.map fun entry ↦ (entry.1, entry.2.text tag s.name.1 ++ [';'])

/-- The struct with a line for each of its entries. -/
def layout (tag : Text) (s : WrittenStruct) : Layout :=
  .lined s.head ((.none, ['\x7b']) :: s.lines tag ++ [(.none, s.last)])

/-- The code between the braces. -/
def inner (tag : Text) (s : WrittenStruct) : Text :=
  s.entries.flatMap (fun entry ↦ ' ' :: (entry.2.text tag s.name.1 ++ [';'])) ++ [' ']

/-- What is read from the struct. -/
def struct (s : WrittenStruct) (location : Location) : Struct where
  name := s.name.1
  fields := s.fields.map fun d ↦ { name := d.name, type := d.type }
  location := location

/-- The fields can be read back: they fit the callback tag, and none looks like a constructor. -/
structure Readable (tag : Text) (s : WrittenStruct) : Prop where
  fits : ∀ d ∈ s.fields, d.Fits tag
  noMaker : ∀ d ∈ s.fields, (d.text tag).contains (s.name.1 ++ ['(']) = false

variable {tag : Text} (s : WrittenStruct)

theorem Readable.tagged {s : WrittenStruct} (hs : s.Readable tag) :
    ∀ d ∈ s.fields, d.isCallback = true → isIdentifier tag = true :=
  fun d hd ↦ (hs.fits d hd).isIdentifier

/-! ## The lines -/

/-- Code with a line for each of some entries is cut behind each of them. -/
theorem splitTopLevel_lines {α : Type} {text : α → Text} {entries : List α}
    (h : ∀ entry ∈ entries, isClosed ';' 0 (text entry) = true) :
    splitTopLevel ';' (entries.flatMap (fun entry ↦ ' ' :: (text entry ++ [';'])) ++ [' ']) =
      entries.map (fun entry ↦ ' ' :: text entry) ++ [[' ']] := by
  induction entries with
  | nil => rfl
  | cons entry entries ih =>
    have hclosed : isClosed ';' 0 (' ' :: text entry) = true :=
      (isClosed_blank_cons (by decide)).trans (h entry List.mem_cons_self)
    have hmore := ih fun e he ↦ h e (List.mem_cons_of_mem _ he)
    have hfirst := splitTopLevel_append_cons hclosed (by decide) (by decide)
      (entries.flatMap (fun entry ↦ ' ' :: (text entry ++ [';'])) ++ [' '])
    rw [hmore] at hfirst
    simpa using hfirst

theorem isInnerChar_of_mem_entry {s : WrittenStruct}
    (htag : ∀ d ∈ s.fields, d.isCallback = true → isIdentifier tag = true)
    {entry : Indent × WrittenEntry} (hentry : entry ∈ s.entries) :
    ∀ c ∈ entry.2.text tag s.name.1, isInnerChar c = true := by
  obtain ⟨indent, entry⟩ := entry
  cases entry with
  | field d => exact d.isInnerChar_of_mem_text (htag d (List.mem_filterMap.2 ⟨_, hentry, rfl⟩))
  | maker args =>
    have hargs := List.all_eq_true.1 args.2.1
    have hname := isInnerChar_of_mem s.name.2
    have hmark : ∀ c ∈ ['(', ')'], isInnerChar c = true := List.all_eq_true.1 (by decide)
    intro c hc
    simp only [WrittenEntry.text, List.mem_append, List.mem_cons] at hc
    grind

theorem isClosed_entry {s : WrittenStruct} (hs : s.Readable tag) {entry : Indent × WrittenEntry}
    (hentry : entry ∈ s.entries) :
    isClosed ';' 0 (entry.2.text tag s.name.1) = true := by
  have hsemicolon : ';' ∉ entry.2.text tag s.name.1 :=
    notMem_of_isInnerChar (isInnerChar_of_mem_entry hs.tagged hentry) (by decide)
  have hcomma : isClosed ',' 0 (entry.2.text tag s.name.1) = true := by
    obtain ⟨indent, entry⟩ := entry
    cases entry with
    | field d =>
      have hd : d ∈ s.fields := List.mem_filterMap.2 ⟨_, hentry, rfl⟩
      exact d.isClosed_text (hs.fits d hd).isIdentifier
    | maker args =>
      rw [WrittenEntry.text, isClosed_append_of_isIdentifier s.name.2 (by decide)]
      exact args.2.2
  exact isClosed_of_notMem hcomma hsemicolon

theorem beginsCode_entry (entry : WrittenEntry) : BeginsCode (entry.text tag s.name.1) := by
  cases entry with
  | field d => exact d.beginsCode_text tag
  | maker args => exact (beginsCode_of_isIdentifier s.name.2).append _

/-- The lines of a struct are code if those between its braces are. -/
theorem isCode_lined {lines : List (Indent × Text)} (h : ∀ line ∈ lines, IsCode line.2) :
    ∀ piece ∈ (Layout.lined s.head ((.none, ['\x7b']) :: lines ++ [(.none, s.last)])).pieces,
      IsCode piece := by
  intro piece hpiece
  rw [Layout.pieces_lined, List.map_append, List.map_cons, List.mem_cons, List.mem_append,
    List.mem_cons] at hpiece
  rcases hpiece with rfl | (rfl | hpiece) | hpiece
  · exact isCode_bodyHead isIdentifier_structWord s.typedef s.name
  · exact isCode_openingBrace
  · obtain ⟨line, hline, rfl⟩ := List.mem_map.1 hpiece
    exact h line hline
  · obtain rfl := List.mem_singleton.1 hpiece
    exact isCode_bodyEnd s.typeName

theorem isCode_lines {s : WrittenStruct}
    (htag : ∀ d ∈ s.fields, d.isCallback = true → isIdentifier tag = true) :
    ∀ line ∈ s.lines tag, IsCode line.2 := by
  intro line hline
  obtain ⟨entry, hmem, rfl⟩ := List.mem_map.1 hline
  exact isCode_append (beginsCode_entry s entry.2) (isInnerChar_of_mem_entry htag hmem)
    (Text.isSolid_of_all (by decide) (by decide)) (by decide) (by decide)

theorem isCode_layout {s : WrittenStruct}
    (htag : ∀ d ∈ s.fields, d.isCallback = true → isIdentifier tag = true) :
    ∀ piece ∈ (s.layout tag).pieces, IsCode piece := s.isCode_lined (isCode_lines htag)

/-! ## Recognising the struct -/

@[simp]
theorem occursIn_structStart : structStart.occursIn s.head = true := by
  obtain ⟨c₁, h₁, hr₁⟩ := Cursor.exists_reads (c := start s.head) (s := typedefLead s.typedef)
    (r := structWord ++ ' ' :: s.name.1) (List.append_assoc _ _ _)
  obtain ⟨c₂, h₂, hr₂⟩ := Cursor.exists_reads hr₁
  obtain ⟨c₃, h₃, hr₃⟩ := Cursor.exists_reads (s := [' ']) hr₂
  obtain ⟨c₄, h₄, hr₄⟩ := Cursor.exists_reads (s := s.name.1) (r := []) (by rw [hr₃]; simp)
  exact Pattern.isSome_search_of_passes (.refl _) (Pattern.Passes.seq (Pattern.Passes.seq
    (Pattern.Passes.seq (Pattern.Passes.seq (Pattern.Passes.seq (Pattern.Passes.seq
    (Pattern.Passes.seq (Pattern.passes_place rfl) (Pattern.passes_optionalTypedef h₁))
    (Pattern.passes_text h₂)) (Pattern.passes_some₁ h₃ (by simp) (by simp; decide)))
    (Pattern.passes_some₁ h₄ (ne_nil_of_isIdentifier s.name.2) (isWordChar_of_mem s.name.2)))
    (Pattern.passes_many (.refl c₄) (by simp))) (Or.inr (Pattern.passes_text (.refl c₄))))
    (Pattern.passes_place (by simp [hr₄])))

@[simp]
theorem occursIn_structEnd : structEnd.occursIn s.last = true := by
  obtain ⟨u, hu, hblanks, hword, -⟩ := exists_afterBlank s.typeName
  obtain ⟨c₁, h₁, hr₁⟩ := Cursor.exists_reads (c := start s.last) (s := ['\x7d'])
    (r := u ++ (nameOf s.typeName ++ [';'])) (by simp [start, last, bodyEnd, hu])
  obtain ⟨c₂, h₂, hr₂⟩ := Cursor.exists_reads hr₁
  obtain ⟨c₃, h₃, hr₃⟩ := Cursor.exists_reads hr₂
  obtain ⟨c₄, h₄, hr₄⟩ := Cursor.exists_reads (s := [';']) (r := []) hr₃
  exact Pattern.isSome_search_of_passes (.refl _) (Or.inl (Pattern.Passes.seq
    (Pattern.passes_place rfl) (Pattern.Passes.seq (Pattern.Passes.seq (Pattern.Passes.seq
    (Pattern.Passes.seq (Pattern.passes_text h₁) (Pattern.passes_many h₂ hblanks))
    (Pattern.passes_many h₃ hword)) (Pattern.passes_many (.refl c₃) (by simp)))
    (Pattern.Passes.seq (Pattern.passes_text h₄) (Pattern.passes_place (by simp [hr₄]))))))

/-- No line ends a struct without a closing brace. -/
theorem occursIn_structEnd_eq_false {t : Text} (h : '\x7d' ∉ t) : structEnd.occursIn t = false := by
  rw [← Bool.not_eq_true, Pattern.occursIn_iff]
  rintro ⟨u, c, hu, ms, c', hpass⟩
  have hbrace {v : Text} {b c' : Cursor} (hv : (start t).Reads v b) {ms : List (Mark × Cursor)}
      (hclosing : ("\x7d" ++ .blanks ++ .word ++ .blanks ++ .finalSemicolon : Pattern).Passes
        b ms c') : False := by
    obtain ⟨_, _, _, ⟨_, _, _, ⟨_, _, _, ⟨_, _, _, ⟨hread, -⟩, -, -⟩, -, -⟩, -, -⟩, -, -⟩ :=
      hclosing
    have hwhole : t = _ := (hv.trans hread).rest
    refine h ?_
    rw [hwhole]
    simp
  rcases hpass with ⟨_, b, _, hfront, hclosing, -⟩ | ⟨_, b, _, hfront, hclosing, -⟩
  · obtain ⟨v, hv⟩ := hfront.reads
    exact hbrace (hu.trans hv) hclosing
  · obtain ⟨v, hv⟩ := hfront.reads
    exact hbrace (hu.trans hv) hclosing

/-- **A struct's three parts**: its name, the code between its braces and its type name. -/
theorem parts?_structPattern {inner t : Text} (hinner : '\n' ∉ inner)
    (ht : t = s.head ++ ' ' :: '\x7b' :: (inner ++ s.last)) :
    structPattern.parts? 3 t = some [s.name.1, inner, nameOf s.typeName] := by
  have hblank : ∀ c ∈ [' '], isBlank c = true := by simp; decide
  have hlead : typedefLead s.typedef = [] ∨ ∃ b, typedefLead s.typedef = typedefWord ++ b ∧
      b ≠ [] ∧ ∀ c ∈ b, isBlank c = true := by
    cases s.typedef with
    | false => exact Or.inl rfl
    | true => exact Or.inr ⟨[' '], rfl, by simp, hblank⟩
  have hhead := isStructHead_words hlead (List.cons_ne_nil ' ' []) hblank
    (isWord_of_isIdentifier s.name.2) hblank
  obtain ⟨u, hu, hblanks, hword, -⟩ := exists_afterBlank s.typeName
  have hlast := isStructEnd_iff.2 ⟨u, [], rfl, hblanks, hword, by simp⟩
  have htext : t = typedefLead s.typedef ++ (structWord ++ ([' '] ++ (s.name.1 ++ [' ']))) ++
      '\x7b' :: (inner ++ '\x7d' :: (u ++ (nameOf s.typeName ++ ([] ++ [';'])))) := by
    rw [ht, head, bodyHead, last, bodyEnd, hu, afterBlank]
    simp
  exact StructText.parts? ⟨htext, hhead, hlast, hinner⟩

/-- **A struct is found** with its name, the code of its lines and its type name. -/
theorem lined_declares {lines : List (Indent × Text)} (hcode : ∀ line ∈ lines, IsCode line.2)
    (hbrace : ∀ line ∈ lines, '\x7d' ∉ line.2) :
    (Layout.lined s.head ((.none, ['\x7b']) :: lines ++ [(.none, s.last)])).Declares structKind
      [s.name.1, lines.flatMap (fun line ↦ ' ' :: line.2) ++ [' '], nameOf s.typeName] where
  isCode := s.isCode_lined hcode
  opens := by
    rw [Layout.codes_lined]
    rintro code ⟨⟩
    exact s.occursIn_structStart
  closes := by
    refine ⟨s.head :: ['\x7b'] :: lines.map (·.2), s.last, ?_, ?_, s.occursIn_structEnd⟩
    · rw [Layout.codes_lined]
      simp
    · intro code hmem
      refine occursIn_structEnd_eq_false ?_
      rcases List.mem_cons.1 hmem with rfl | hmem
      · exact notMem_bodyHead isIdentifier_structWord (by decide) (by decide) _ _
      rcases List.mem_cons.1 hmem with rfl | hmem
      · decide
      obtain ⟨line, hline, rfl⟩ := List.mem_map.1 hmem
      exact hbrace line hline
  parts := by
    refine s.parts?_structPattern ?_ ?_
    · simp only [List.mem_append, List.mem_flatMap, List.mem_cons, List.not_mem_nil, or_false]
      rintro (⟨line, hline, hmem | hmem⟩ | hmem)
      · exact absurd hmem (by decide)
      · exact (hcode line hline).noLineFeed hmem
      · exact absurd hmem (by decide)
    · rw [Layout.joined, Layout.pieces_lined, joinWith_blank_cons]
      simp [List.flatMap_map]

theorem layout_declares {s : WrittenStruct}
    (htag : ∀ d ∈ s.fields, d.isCallback = true → isIdentifier tag = true) :
    (s.layout tag).Declares structKind [s.name.1, s.inner tag, nameOf s.typeName] := by
  have hbrace : ∀ line ∈ s.lines tag, '\x7d' ∉ line.2 := by
    intro line hline
    obtain ⟨entry, hentry, rfl⟩ := List.mem_map.1 hline
    rw [List.mem_append, List.mem_singleton, not_or]
    exact ⟨notMem_of_isInnerChar (isInnerChar_of_mem_entry htag hentry) (by decide), by decide⟩
  have hinner : (s.lines tag).flatMap (fun line ↦ ' ' :: line.2) ++ [' '] = s.inner tag := by
    rw [lines, inner, List.flatMap_map]
  exact hinner ▸ s.lined_declares (isCode_lines htag) hbrace

/-! ## Reading the struct back -/

/-- **An entry is read** as the field it is, or as nothing. -/
theorem readField_entry {s : WrittenStruct} {conventions : Conventions}
    (hs : s.Readable conventions.callbackTag) (location : Text) {entry : Indent × WrittenEntry}
    (hentry : entry ∈ s.entries) :
    readField conventions s.name.1 location (' ' :: entry.2.text conventions.callbackTag s.name.1) =
      (entry.2.field?.map fun d ↦ { name := d.name, type := d.type }, none) := by
  obtain ⟨indent, entry⟩ := entry
  cases entry with
  | field d =>
    have hd : d ∈ s.fields := List.mem_filterMap.2 ⟨_, hentry, rfl⟩
    have hmaker : Text.contains (' ' :: d.text conventions.callbackTag) (s.name.1 ++ ['(']) =
        false := by
      rw [← Bool.not_eq_true, Text.contains_iff, List.infix_cons_iff]
      rintro (hfront | hwithin)
      · obtain ⟨c, w, hw, hc, -⟩ := exists_cons_of_isIdentifier s.name.2
        rw [hw, List.cons_append, List.cons_prefix_cons] at hfront
        rw [hfront.1] at hc
        exact absurd hc (by decide)
      · exact absurd ((Text.contains_iff.2 hwithin).symm.trans (hs.noMaker d hd)) (by simp)
    have hparse := Declarator.parse_text d (hs.fits d hd) (u := [' ']) (v := []) (by simp; decide)
      (by simp)
    rw [List.append_nil, List.singleton_append] at hparse
    have hne : d.name.isEmpty = false := by simpa using ne_nil_of_isIdentifier d.isIdentifier_name
    simp only [readField, WrittenEntry.text, hmaker, hparse, hne, Bool.false_eq_true, if_false]
    rfl
  | maker args =>
    have hmaker : Text.contains
        (' ' :: (WrittenEntry.maker args).text conventions.callbackTag s.name.1)
        (s.name.1 ++ ['(']) = true := by
      rw [Text.contains_iff]
      exact ⟨[' '], args.1 ++ [')'], by simp [WrittenEntry.text]⟩
    rw [readField, if_pos hmaker]
    rfl

/-- What becomes of a struct with a line for each of some entries, when no line gives rise to a
diagnostic. -/
theorem structOfBlock_lines {α : Type} {text : α → Text} {field? : α → Option Parameter}
    {entries : List α} {conventions : Conventions} {file : Text} {n : Nat} {name : Identifier}
    {typeName : Text} (hclosed : ∀ entry ∈ entries, isClosed ';' 0 (text entry) = true)
    (hread : ∀ location, ∀ entry ∈ entries,
      readField conventions name.1 location (' ' :: text entry) = (field? entry, none)) :
    structOfBlock conventions file
        ⟨[name.1, entries.flatMap (fun entry ↦ ' ' :: (text entry ++ [';'])) ++ [' '], typeName],
          [], n⟩ =
      ({ name := name.1, fields := entries.filterMap field?, location := ⟨file, n⟩ }, []) := by
  have hlast (location : Text) : readField conventions name.1 location [' '] = (none, none) := by
    have hmaker : Text.contains [' '] (name.1 ++ ['(']) = false := by
      rw [← Bool.not_eq_true, Text.contains_iff]
      exact fun hwithin ↦
        absurd (hwithin.subset (List.mem_append_right _ List.mem_cons_self)) (by decide)
    rw [readField, if_neg (by simp [hmaker])]
    rfl
  have hentries (location : Text) :
      (splitTopLevel ';' (entries.flatMap (fun entry ↦ ' ' :: (text entry ++ [';'])) ++ [' '])).map
        (readField conventions name.1 location) =
          entries.map (fun entry ↦ (field? entry, none)) ++ [(none, none)] := by
    rw [splitTopLevel_lines hclosed, List.map_append, List.map_map, List.map_singleton, hlast]
    congr 1
    exact List.map_congr_left fun entry hentry ↦ hread location entry hentry
  simp only [structOfBlock, List.getElem?_cons_zero, List.getElem?_cons_succ, Option.getD_some,
    hentries]
  refine Prod.ext ?_ (by simp [List.filterMap_map])
  have hdoc : typeDoc [] = [] := by decide
  simp [List.filterMap_map, hdoc]

/-- What becomes of a struct. -/
theorem structOfBlock_eq {s : WrittenStruct} {conventions : Conventions}
    (hs : s.Readable conventions.callbackTag) (file : Text) (n : Nat) :
    structOfBlock conventions file
        ⟨[s.name.1, s.inner conventions.callbackTag, nameOf s.typeName], [], n⟩ =
      (s.struct ⟨file, n⟩, []) := by
  have hfields : s.entries.filterMap (fun entry ↦ entry.2.field?.map
      fun d ↦ ({ name := d.name, type := d.type } : Parameter)) =
        s.fields.map fun d ↦ { name := d.name, type := d.type } := by
    rw [fields, List.map_filterMap]
  rw [struct, ← hfields]
  exact structOfBlock_lines (fun _ hentry ↦ isClosed_entry hs hentry)
    fun location _ hentry ↦ readField_entry hs location hentry

/-- What is read from structs that are laid out one after the other. -/
def structs (tag file : Text) (ss : List WrittenStruct) : List Struct :=
  List.zipWith (fun s n ↦ s.struct ⟨file, n⟩) ss (Layout.lastLines 1 (ss.map (layout tag)))

end WrittenStruct

open WrittenStruct in
/-- **Structs are read back** as they are written, and their constructors are left out. -/
theorem structs_headerText (conventions : Conventions) (file : Text) (ss : List WrittenStruct)
    (hss : ∀ s ∈ ss, s.Readable conventions.callbackTag) :
    HeaderBindings.structs conventions file
        (Layout.headerText (ss.map (layout conventions.callbackTag))) =
      (WrittenStruct.structs conventions.callbackTag file ss, []) := by
  have hfound := Layout.map_blocks_headerText (fun s hs ↦ layout_declares (hss s hs).tagged)
    (fun s hs n ↦ structOfBlock_eq (hss s hs) file n)
  rw [← List.map_zipWith (f := fun s ↦ (s, [])), ← WrittenStruct.structs] at hfound
  rw [HeaderBindings.structs, hfound]
  generalize WrittenStruct.structs _ _ ss = read
  simp [Function.comp_def, List.flatMap_map]

/-- A struct with a constructor between its fields. -/
def pointStruct : WrittenStruct where
  typedef := true
  name := ⟨"XnPoint", by decide⟩
  entries :=
    [(⟨"\t", by decide⟩, .field (.array ⟨⟨"long", by decide⟩, [⟨"double", by decide⟩], 1⟩
        ⟨"aSizes", by decide⟩ ⟨"N", by decide⟩)),
      (⟨"\t", by decide⟩, .maker ⟨"int x, int y", by decide⟩),
      (⟨"\t", by decide⟩, .field (.callback ⟨⟨"XnBool", by decide⟩, [], 0⟩ ⟨"moved", by decide⟩
        ⟨"int why", by decide⟩))]
  typeName := some ⟨"XnPoint", by decide⟩

theorem structs_headerText_constructor :
    structs {} "a.h" ("typedef struct XnPoint\n\x7b\n\tlong double* aSizes[N];\n" ++
        "\tXnPoint(int x, int y);\n" ++
        "\tXnBool (XN_CALLBACK_TYPE* moved)(int why);\n\x7d XnPoint;\n") =
      ([{ name := "XnPoint"
          fields := [⟨"aSizes", "longdouble**", .input⟩, ⟨"moved", "CALLBACK", .input⟩]
          location := ⟨"a.h", 6⟩ }], []) := by
  have hpoint : pointStruct.Readable "XN_CALLBACK_TYPE" := ⟨by decide, by decide⟩
  have htext : Layout.headerText ([pointStruct].map (WrittenStruct.layout "XN_CALLBACK_TYPE")) =
      "typedef struct XnPoint\n\x7b\n\tlong double* aSizes[N];\n" ++
        "\tXnPoint(int x, int y);\n" ++
        "\tXnBool (XN_CALLBACK_TYPE* moved)(int why);\n\x7d XnPoint;\n" := by
    decide +kernel
  have hread := structs_headerText {} "a.h" [pointStruct] (by simpa using hpoint)
  rw [← htext]
  exact hread.trans (by decide +kernel)

/-- Neither the name of a field nor the tag of a callback may be `const`, and a tag that is no
identifier may hold anything. -/
theorem structs_lost :
    (structs {} "a.h" "struct S\n\x7b\nint const;\n\x7d;\n").1.flatMap (·.fields) = [] ∧
      (structs { callbackTag := "const" } "a.h"
        "struct S\n\x7b\nint (const* f)(int);\n\x7d;\n").1.flatMap (·.fields) = [] ∧
      (structs { callbackTag := "T\x7b" } "a.h"
        "struct S\n\x7b\nint (T\x7b* f)(int);\n\x7d;\n").1.flatMap (·.fields) = [] := by
  decide +kernel

end HeaderBindings
