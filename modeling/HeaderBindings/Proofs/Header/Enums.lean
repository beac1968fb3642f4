import HeaderBindings.Header.Enums
import HeaderBindings.Proofs.Header.Bodies
import HeaderBindings.Proofs.Text.Numerals

/-!
# Reading enumerations back

The members of an enumeration are numbered as in C: one that is given no value has the value of
the member in front of it and one more.  `WrittenMember.value` says this of a member and those in
front of it, without the counter that `readMembers` carries along, and `readMembers_eq` is the step
from one to the other: the counter is the value of the last member read, so that counting on from it
leads to `nextValue`.

`enumerations_headerText`: enumerations are read back with their names and these values, whether
they stand on one line or on several.
-/

set_option autoImplicit false

namespace HeaderBindings

open Cursor (start)

/-! ## Members and their values -/

/-- A value as it is written. -/
inductive WrittenValue where
  | decimal (minus : Bool) (n : Numeral 10) (lower : minInt64 ≤ n.signedValue minus)
      (upper : n.signedValue minus ≤ maxInt64)
  /-- The number behind `0x` or `0X`. -/
  | hexadecimal (capital : Bool) (n : Numeral 16) (upper : (n.value : Int) ≤ maxInt64)
  /-- The name of another member. -/
  | named (w : Identifier)

/-- A member as it is written. -/
inductive WrittenMember where
  | counted (name : Identifier)
  /-- A member that is given a value, with what stands around the equality sign. -/
  | given (name : Identifier) (before after : Indent) (value : WrittenValue)

/-- The sign in front of a hexadecimal number. -/
def hexLead (capital : Bool) : Text := if capital then "0X" else "0x"

def WrittenValue.text : WrittenValue → Text
  | decimal minus n .. => n.signedText minus
  | hexadecimal capital n _ => hexLead capital ++ n.text
  | named w => w.1

/-- The value behind members with the given names and values.  Of several with one name it is the
first that counts. -/
def WrittenValue.value (earlier : List Enumerator) : WrittenValue → Int
  | decimal minus n .. => n.signedValue minus
  | hexadecimal _ n _ => n.value
  | named w => ((earlier.find? (·.native == w.1)).map (·.value)).getD 0

/-- The value that comes next: zero at first, and then one more, up to the largest value. -/
def nextValue (earlier : List Enumerator) : Int :=
  match earlier.getLast? with
  | some m => min (m.value + 1) maxInt64
  | none => 0

namespace WrittenMember

def name : WrittenMember → Text
  | counted name => name.1
  | given name .. => name.1

def text : WrittenMember → Text
  | counted name => name.1
  | given name before after value => name.1 ++ before.1 ++ '=' :: (after.1 ++ value.text)

/-- The value of a member behind the given ones. -/
def value (earlier : List Enumerator) : WrittenMember → Int
  | counted _ => nextValue earlier
  | given _ _ _ value => value.value earlier

/-- The member with its value behind the given ones. -/
def enumerator (earlier : List Enumerator) (m : WrittenMember) : Enumerator :=
  .ofNative m.name (m.value earlier)

/-- The member refers to none but the given ones. -/
def isKnown (earlier : List Text) : WrittenMember → Bool
  | given _ _ _ (.named w) => w.1 ∈ earlier
  | _ => true

/-- The members behind given ones refer to none but those that stand in front of them. -/
def refersBack : List Text → List WrittenMember → Bool
  | _, [] => true
  | earlier, m :: ms => m.isKnown earlier && refersBack (earlier ++ [m.name]) ms

end WrittenMember

/-- The members behind the given ones, with these in front. -/
def enumerators (earlier : List Enumerator) (ms : List WrittenMember) : List Enumerator :=
  ms.foldl (fun earlier m ↦ earlier ++ [m.enumerator earlier]) earlier

/-- An enumeration as it is written. -/
structure WrittenEnum where
  typedef : Bool
  tag : Option Identifier
  /-- What stands in front of the opening brace. -/
  opening : Gap
  members : List (Gap × WrittenMember)
  /-- A comma stands behind the last member too. -/
  trailing : Bool
  /-- What stands in front of the closing brace. -/
  closing : Gap
  typeName : Option Identifier
  refersBack : WrittenMember.refersBack [] (members.map (·.2)) = true

/-- The word that the declaration of an enumeration begins with. -/
def enumWord : Text := "enum"

@[simp]
theorem isIdentifier_enumWord : isIdentifier enumWord = true := by decide

/-- The members with commas behind them. -/
def memberPieces (trailing : Bool) : List (Gap × WrittenMember) → List (Gap × Text)
  | [] => []
  | (gap, m) :: ms =>
    (gap, m.text ++ if trailing || !ms.isEmpty then [','] else []) :: memberPieces trailing ms

namespace WrittenEnum

/-- The text in front of the body. -/
def head (e : WrittenEnum) : Text := bodyHead e.typedef enumWord e.tag

def layout (e : WrittenEnum) : Layout where
  first := e.head
  more := (e.opening, ['\x7b']) :: memberPieces e.trailing e.members ++
    [(e.closing, bodyEnd e.typeName)]

/-- The code between the braces. -/
def inner (e : WrittenEnum) : Text :=
  (memberPieces e.trailing e.members).flatMap (fun piece ↦ ' ' :: piece.2) ++ [' ']

/-- The name: the tag, or else the type name. -/
def name (e : WrittenEnum) : Text :=
  match e.tag, e.typeName with
  | some w, _ => w.1
  | none, some w => w.1
  | none, none => "Anonymous"

/-- What is read from the enumeration. -/
def enumeration (e : WrittenEnum) (location : Location) : Enumeration where
  name := e.name
  members := enumerators [] (e.members.map (·.2))
  location := location

end WrittenEnum

/-! ## The text of a member -/

theorem isIdentChar_of_mem_hexLead (capital : Bool) :
    ∀ c ∈ hexLead capital, isIdentChar c = true := by
  have hall : ∀ capital, (hexLead capital).all isIdentChar = true := by decide
  exact List.all_eq_true.1 (hall capital)

namespace WrittenValue

variable (v : WrittenValue)

theorem of_mem_text : ∀ c ∈ v.text, isIdentChar c = true ∨ c = '-' := by
  intro c hc
  cases v with
  | decimal minus n _ _ =>
    cases minus with
    | true => exact (List.mem_cons.1 hc).symm.imp_left (n.isIdentChar_of_mem_text (by decide) c)
    | false => exact Or.inl (n.isIdentChar_of_mem_text (by decide) c hc)
  | hexadecimal capital n _ =>
    rcases List.mem_append.1 hc with hc | hc
    · exact Or.inl (isIdentChar_of_mem_hexLead capital c hc)
    · exact Or.inl (n.isIdentChar_of_mem_text (by decide) c hc)
  | named w => exact Or.inl (isIdentChar_of_mem w.2 c hc)

theorem isSolid_text : v.text.IsSolid := by
  refine Text.isSolid_of_forall ?_ fun c hc ↦ ?_
  · cases v with
    | decimal minus n _ _ => cases minus <;> simp [text, Numeral.signedText, n.text_ne_nil]
    | hexadecimal capital n _ => simp [text, n.text_ne_nil]
    | named w => exact ne_nil_of_isIdentifier w.2
  · rcases v.of_mem_text c hc with hc | rfl
    · exact isBlank_of_isIdentChar hc
    · decide

end WrittenValue

namespace WrittenMember

variable (m : WrittenMember)

theorem beginsCode_text : BeginsCode m.text := by
  cases m with
  | counted name => exact beginsCode_of_isIdentifier name.2
  | given name before after value => exact ((beginsCode_of_isIdentifier name.2).append _).append _

theorem isSolid_text : m.text.IsSolid := by
  cases m with
  | counted name => exact Text.isSolid_of_isIdentifier name.2
  | given name before after value =>
    simpa [text] using (Text.isSolid_of_isIdentifier name.2).join (before.1 ++ '=' :: after.1)
      value.isSolid_text

theorem of_mem_text : ∀ c ∈ m.text, isIdentChar c = true ∨ c ∈ [' ', '\t', '=', '-'] := by
  intro c hc
  cases m with
  | counted name => exact Or.inl (isIdentChar_of_mem name.2 c hc)
  | given name before after value =>
    have hname := isIdentChar_of_mem name.2 c
    have hbefore := before.of_mem c
    have hafter := after.of_mem c
    have hvalue := value.of_mem_text c
    simp only [text, List.mem_append, List.mem_cons] at hc
    simp only [List.mem_cons, List.not_mem_nil, or_false]
    grind

theorem isInnerChar_of_mem_text : ∀ c ∈ m.text, isInnerChar c = true := by
  have hmarks : ∀ c ∈ [' ', '\t', '=', '-'], isInnerChar c = true :=
    List.all_eq_true.1 (by decide)
  exact fun c hc ↦ (m.of_mem_text c hc).elim isInnerChar_of_isIdentChar (hmarks c)

theorem comma_notMem_text : ',' ∉ m.text := fun h ↦
  (m.of_mem_text ',' h).elim (fun hc ↦ absurd hc (by decide)) fun hc ↦ absurd hc (by decide)

end WrittenMember

/-! ## Numbering the members -/

/-- One of the two signs of a hexadecimal number is found, and the other one is not. -/
theorem afterLead?_hexLead (capital : Bool) (t : Text) :
    ((hexLead capital ++ t).afterLead? "0x").or ((hexLead capital ++ t).afterLead? "0X") =
      some t := by
  have hfound (lead : Text) : (lead ++ t).afterLead? lead = some t :=
    Text.afterLead?_eq_some_iff.2 rfl
  cases capital with
  | true =>
    have hnone : (hexLead true ++ t).afterLead? "0x" = none := by
      cases h : (hexLead true ++ t).afterLead? "0x" with
      | none => rfl
      | some rest =>
        have hsecond := congrArg (·[1]?) (Text.afterLead?_eq_some_iff.1 h)
        exact absurd (Option.some_inj.1 hsecond) (by decide)
    rw [hnone]
    exact hfound "0X"
  | false =>
    have hsmall : (hexLead false ++ t).afterLead? "0x" = some t := hfound "0x"
    rw [hsmall, Option.some_or]

/-- A name does not begin like a number. -/
theorem afterLead?_of_isIdentifier {w : Text} (hw : isIdentifier w = true) :
    (w.afterLead? "0x").or (w.afterLead? "0X") = none := by
  obtain ⟨c, t, rfl, hc, -⟩ := exists_cons_of_isIdentifier hw
  have hne : c ≠ '0' := by
    rintro rfl
    exact absurd hc (by decide)
  have hnone (lead : Text) : Text.afterLead? (c :: t) ('0' :: lead) = none := by
    simp [Text.afterLead?, hne]
  exact congrArg₂ Option.or (hnone _) (hnone _)

/-- **What is read from a value** is the value. -/
theorem memberValue?_text (v : WrittenValue) (earlier : List Enumerator)
    (hrefers : ∀ w, v = .named w → w.1 ∈ earlier.map (·.native)) :
    memberValue? earlier.reverse v.text = some (v.value earlier) := by
  cases v with
  | decimal minus n lower upper =>
    have hsmall : (n.signedText minus).afterLead? "0x" = none :=
      Text.afterLead?_eq_none (c := 'x') (by decide)
        (n.notMem_signedText (by decide) (by decide) (by decide) minus)
    have hcapital : (n.signedText minus).afterLead? "0X" = none :=
      Text.afterLead?_eq_none (c := 'X') (by decide)
        (n.notMem_signedText (by decide) (by decide) (by decide) minus)
    have hread := n.int64?_signedText (by decide) minus lower upper
    simp only [memberValue?, WrittenValue.text, hsmall, hcapital, Option.or_none, hread]
    rfl
  | hexadecimal capital n upper =>
    have hread : int64? 16 n.text = some (n.value : Int) :=
      n.int64?_signedText (by decide) false (Int.le_trans (by decide) (Int.natCast_nonneg _)) upper
    simp only [memberValue?, WrittenValue.text, afterLead?_hexLead, hread]
    rfl
  | named w =>
    have hfound : (earlier.find? (·.native == w.1)).isSome = true := by
      obtain ⟨m, hm, hname⟩ := List.mem_map.1 (hrefers w rfl)
      rw [List.find?_isSome]
      exact ⟨m, hm, by simp [hname]⟩
    obtain ⟨first, hfirst⟩ := Option.isSome_iff_exists.1 hfound
    simp only [memberValue?, WrittenValue.text, afterLead?_of_isIdentifier w.2,
      int64?_of_isIdentifier w.2, List.reverse_reverse, WrittenValue.value, hfirst]
    rfl

/-- **A member is read** as itself, when counting stands at the value in front of it. -/
theorem readMember_text (m : WrittenMember) {earlier : List Enumerator} {previous : Int}
    (hprevious : countOn previous = nextValue earlier)
    (hknown : m.isKnown (earlier.map (·.native)) = true) :
    readMember earlier.reverse previous m.text = m.enumerator earlier := by
  have hmark : ("=" : Text) = ['='] := by decide
  cases m with
  | counted name =>
    have hname : '=' ∉ name.1 := notMem_of_isIdentifier name.2 (by decide)
    have hsplit : Text.splitAtFirst? name.1 "=" = none := by
      rw [hmark]
      simpa [Text.contains] using Text.contains_singleton_eq_false hname
    simp only [readMember, WrittenMember.text, hsplit, hprevious]
    rfl
  | given name before after value =>
    have hfront : '=' ∉ name.1 ++ before.1 := by
      rw [List.mem_append, not_or]
      exact ⟨notMem_of_isIdentifier name.2 (by decide), before.notMem (by decide) (by decide)⟩
    have hsplit := Text.splitAtFirst?_append_cons (b := after.1 ++ value.text) hfront
    have hvalue : (after.1 ++ value.text).trim = value.text := by
      simpa using Text.trim_pad (v := []) after.isBlank value.isSolid_text (by simp)
    have hname : (name.1 ++ before.1).trim = name.1 := by
      have hsolid := Text.isSolid_of_isIdentifier name.2
      simpa using Text.trim_pad (u := []) (by simp) hsolid before.isBlank
    have hread := memberValue?_text value earlier fun w hw ↦ by
      subst hw
      simpa [WrittenMember.isKnown] using hknown
    simp only [readMember, WrittenMember.text, hmark, hsplit, hvalue, hname, hread]
    rfl

/-- Counting on from the value of the last member leads to the value that comes next. -/
theorem countOn_eq_nextValue (earlier : List Enumerator) {m : Enumerator}
    (hm : m.value ≤ maxInt64) : countOn m.value = nextValue (earlier ++ [m]) := by
  rw [nextValue, List.getLast?_concat, countOn]
  change _ = min (m.value + 1) maxInt64
  split <;> omega

theorem value_le (m : WrittenMember) {earlier : List Enumerator}
    (hearlier : ∀ e ∈ earlier, e.value ≤ maxInt64) : m.value earlier ≤ maxInt64 := by
  have hzero : 0 ≤ maxInt64 := by decide
  cases m with
  | counted name =>
    rw [WrittenMember.value, nextValue]
    split
    · exact Int.min_le_right _ _
    · exact hzero
  | given name before after value =>
    cases value with
    | decimal minus n lower upper => exact upper
    | hexadecimal capital n upper => exact upper
    | named w =>
      rw [WrittenMember.value, WrittenValue.value]
      cases hfound : earlier.find? (·.native == w.1) with
      | none => exact hzero
      | some e => exact hearlier e (List.mem_of_find?_eq_some hfound)

theorem readMembers_of_forall {pieces : List Text} (h : ∀ t ∈ pieces.map Text.trim, t = [])
    (earlier : List Enumerator) (previous : Int) : readMembers earlier previous pieces = [] := by
  induction pieces with
  | nil => rfl
  | cons piece pieces ih =>
    rw [List.map_cons, List.forall_mem_cons] at h
    rw [readMembers, h.1]
    exact ih h.2

/-- **The members behind others** are read in order, up to the last of them, when counting stands at
the value of the one in front. -/
theorem readMembers_eq (ms : List WrittenMember) {ends : List Text} (hends : ∀ t ∈ ends, t = []) :
    ∀ {earlier : List Enumerator} {previous : Int} {pieces : List Text},
    pieces.map Text.trim = ms.map (·.text) ++ ends → countOn previous = nextValue earlier →
    (∀ e ∈ earlier, e.value ≤ maxInt64) →
    WrittenMember.refersBack (earlier.map (·.native)) ms = true →
    earlier ++ readMembers earlier.reverse previous pieces = enumerators earlier ms := by
  induction ms with
  | nil =>
    intro earlier previous pieces hpieces _ _ _
    rw [List.map_nil, List.nil_append] at hpieces
    rw [readMembers_of_forall (hpieces ▸ hends), List.append_nil]
    rfl
  | cons m ms ih =>
    intro earlier previous pieces hpieces hprevious hvalues hrefers
    obtain ⟨piece, rest, rfl, hpiece, hrest⟩ := List.map_eq_cons_iff.1 hpieces
    rw [WrittenMember.refersBack, Bool.and_eq_true] at hrefers
    have hempty : m.text.isEmpty = false := by simpa using m.isSolid_text.ne_nil
    have hcomment : m.text.startsWith "/*" = false := by
      rw [Text.startsWith, Text.afterLead?_eq_none (c := '/') (by decide)
        (notMem_of_isInnerChar m.isInnerChar_of_mem_text (by decide))]
      rfl
    have hvalue : (m.enumerator earlier).value ≤ maxInt64 := value_le m hvalues
    have hmore := ih hrest (countOn_eq_nextValue earlier hvalue)
      (by simpa [or_imp, forall_and] using ⟨hvalues, hvalue⟩)
      (by simpa [WrittenMember.enumerator, Enumerator.ofNative] using hrefers.2)
    rw [readMembers, hpiece]
    simp only [hempty, hcomment, Bool.or_self, Bool.false_eq_true, if_false,
      readMember_text m hprevious hrefers.1]
    rw [List.reverse_append, List.append_assoc] at hmore
    exact hmore

/-! ## The text of an enumeration -/

/-- Each piece is a member, perhaps with a comma. -/
theorem exists_text_of_mem {trailing : Bool} {ms : List (Gap × WrittenMember)}
    {piece : Gap × Text} (hpiece : piece ∈ memberPieces trailing ms) :
    ∃ m ∈ ms.map (·.2), piece.2 = m.text ∨ piece.2 = m.text ++ [','] := by
  induction ms with
  | nil => exact absurd hpiece List.not_mem_nil
  | cons m ms ih =>
    rw [memberPieces] at hpiece
    rcases List.mem_cons.1 hpiece with rfl | hpiece
    · refine ⟨m.2, List.mem_cons_self, ?_⟩
      split
      · exact Or.inr rfl
      · exact Or.inl (List.append_nil _)
    · obtain ⟨m', hm', htext⟩ := ih hpiece
      exact ⟨m', List.mem_cons_of_mem _ hm', htext⟩

theorem isInnerChar_of_mem_memberPieces {trailing : Bool} {ms : List (Gap × WrittenMember)}
    {piece : Gap × Text} (hpiece : piece ∈ memberPieces trailing ms) :
    ∀ c ∈ piece.2, isInnerChar c = true := by
  obtain ⟨m, -, h | h⟩ := exists_text_of_mem hpiece
  · rw [h]
    exact m.isInnerChar_of_mem_text
  · rw [h]
    exact List.forall_mem_append.2 ⟨m.isInnerChar_of_mem_text, List.all_eq_true.1 (by decide)⟩

theorem isCode_of_mem_memberPieces {trailing : Bool} {ms : List (Gap × WrittenMember)}
    {piece : Gap × Text} (hpiece : piece ∈ memberPieces trailing ms) : IsCode piece.2 := by
  obtain ⟨m, -, h | h⟩ := exists_text_of_mem hpiece
  · rw [h]
    exact isCode_of_isInnerChar m.beginsCode_text m.isSolid_text m.isInnerChar_of_mem_text
  · rw [h]
    exact isCode_append m.beginsCode_text m.isInnerChar_of_mem_text
      (Text.isSolid_of_all (by decide) (by decide)) (by decide) (by decide)

/-- **The code between the braces** is cut into the members, and perhaps a blank. -/
theorem exists_splitOn (trailing : Bool) (ms : List (Gap × WrittenMember)) : ∃ ends,
    (Text.splitOn ((memberPieces trailing ms).flatMap (fun piece ↦ ' ' :: piece.2) ++ [' '])
      ',').map Text.trim = (ms.map (·.2)).map (·.text) ++ ends ∧ ∀ t ∈ ends, t = [] := by
  induction ms with
  | nil => exact ⟨[[]], by rw [memberPieces]; decide, by simp⟩
  | cons m ms ih =>
    have hcomma : ',' ∉ ' ' :: m.2.text := by simp [m.2.comma_notMem_text]
    rw [memberPieces, List.flatMap_cons]
    cases hbehind : trailing || !ms.isEmpty with
    | true =>
      obtain ⟨ends, hpieces, hends⟩ := ih
      refine ⟨ends, ?_, hends⟩
      have hsplit := Text.splitOn_append_cons hcomma
        ((memberPieces trailing ms).flatMap (fun piece ↦ ' ' :: piece.2) ++ [' '])
      have hfirst := congrArg (List.map Text.trim) hsplit
      rw [List.map_cons, m.2.isSolid_text.trim_cons, hpieces] at hfirst
      simpa using hfirst
    | false =>
      rw [Bool.or_eq_false_iff, Bool.not_eq_false', List.isEmpty_iff] at hbehind
      obtain ⟨-, rfl⟩ := hbehind
      have hlast : ',' ∉ ' ' :: m.2.text ++ [' '] := by
        rw [List.mem_append, not_or]
        exact ⟨hcomma, by decide⟩
      have htrim : Text.trim (' ' :: m.2.text ++ [' ']) = m.2.text :=
        Text.trim_pad (u := [' ']) (by simp; decide) m.2.isSolid_text (by simp; decide)
      have hlone := congrArg (List.map Text.trim) (Text.splitOn_of_notMem hlast)
      rw [List.map_singleton, htrim] at hlone
      exact ⟨[], by simpa [memberPieces] using hlone, by simp⟩

namespace WrittenEnum

variable (e : WrittenEnum)

theorem joined_layout :
    e.layout.joined = e.head ++ ' ' :: '\x7b' :: (e.inner ++ bodyEnd e.typeName) := by
  rw [Layout.joined, layout, Layout.pieces, joinWith_blank_cons]
  simp [inner, List.flatMap_map]

theorem noLineFeed_inner : '\n' ∉ e.inner := by
  simp only [inner, List.mem_append, List.mem_flatMap, List.mem_cons, List.not_mem_nil, or_false]
  rintro (⟨piece, hpiece, hmem | hmem⟩ | hmem)
  · exact absurd hmem (by decide)
  · exact notMem_of_isInnerChar (isInnerChar_of_mem_memberPieces hpiece) (by decide) hmem
  · exact absurd hmem (by decide)

theorem isCode_layout : ∀ piece ∈ e.layout.pieces, IsCode piece := by
  intro piece hpiece
  simp only [layout, Layout.pieces, List.map_append, List.map_cons, List.map_nil, List.mem_cons,
    List.mem_append, List.not_mem_nil, or_false] at hpiece
  rcases hpiece with rfl | (rfl | hpiece) | rfl
  · exact isCode_bodyHead isIdentifier_enumWord e.typedef e.tag
  · exact isCode_openingBrace
  · obtain ⟨piece, hmem, rfl⟩ := List.mem_map.1 hpiece
    exact isCode_of_mem_memberPieces hmem
  · exact isCode_bodyEnd e.typeName

/-! ## Recognising the enumeration -/

theorem occursIn_enumStart {s : Text} (hs : ∀ c ∈ s.head?, c = ' ') :
    enumStart.occursIn (e.head ++ s) = true := by
  obtain ⟨c₁, h₁, hr₁⟩ := Cursor.exists_reads (c := start (e.head ++ s))
    (s := typedefLead e.typedef) (r := enumWord ++ (afterBlank e.tag ++ s))
    (by simp [start, head, bodyHead])
  obtain ⟨c₂, h₂, hr₂⟩ := Cursor.exists_reads hr₁
  have hend : c₂.atWordBoundary = true := by
    refine h₂.atWordBoundary (by decide) (isWordChar_of_mem isIdentifier_enumWord) ?_
    rw [hr₂]
    cases e.tag with
    | some w => simp [afterBlank]; decide
    | none =>
      intro c hc
      rw [hs c hc]
      decide
  exact Pattern.isSome_search_of_passes (.refl _) (Pattern.Passes.seq (Pattern.Passes.seq
    (Pattern.Passes.seq (Pattern.passes_place rfl) (Pattern.passes_optionalTypedef h₁))
    (Pattern.passes_text h₂)) (Pattern.passes_place hend))

/-- The blank behind the keyword is in front of the tag or, without one, of the brace. -/
theorem exists_blanks_behind (tag : Option Identifier) (r : Text) :
    ∃ v, afterBlank tag ++ ' ' :: '\x7b' :: r = ' ' :: (nameOf tag ++ (v ++ '\x7b' :: r)) ∧
      (∀ c ∈ v, isBlank c = true) ∧ (∀ c ∈ nameOf tag, isWordChar c = true) ∧
        (∀ c ∈ (nameOf tag ++ (v ++ '\x7b' :: r)).head?, isBlank c = false) ∧
          ∀ c ∈ (v ++ '\x7b' :: r).head?, isWordChar c = false := by
  cases tag with
  | some w =>
    refine ⟨[' '], by simp [afterBlank, nameOf], by simp; decide, isWordChar_of_mem w.2,
      isBlank_of_mem_head? w.2 _, ?_⟩
    rintro c ⟨⟩
    decide
  | none =>
    refine ⟨[], rfl, by simp, by simp [nameOf], ?_, ?_⟩
    · rintro c ⟨⟩
      decide
    · rintro c ⟨⟩
      decide

/-- **An enumeration's three parts**: its tag, the code between its braces and its type name. -/
theorem parts?_enumPattern {inner t : Text} (hinner : '\n' ∉ inner)
    (ht : t = e.head ++ ' ' :: '\x7b' :: (inner ++ bodyEnd e.typeName)) :
    enumPattern.parts? 3 t = some [nameOf e.tag, inner, nameOf e.typeName] := by
  obtain ⟨v, hv, hblanks, hword, hfront, hbehind⟩ :=
    exists_blanks_behind e.tag (inner ++ bodyEnd e.typeName)
  obtain ⟨c₁, h₁, hr₁⟩ := Cursor.exists_reads (c := start t) (s := typedefLead e.typedef)
    (r := enumWord ++ ' ' :: (nameOf e.tag ++ (v ++ '\x7b' :: (inner ++ bodyEnd e.typeName))))
    (by simp [ht, start, head, bodyHead, ← hv])
  obtain ⟨c₂, h₂, hr₂⟩ := Cursor.exists_reads hr₁
  obtain ⟨c₃, h₃, hr₃⟩ := Cursor.exists_reads (s := [' ']) hr₂
  obtain ⟨c₄, h₄, hr₄⟩ := Cursor.exists_reads hr₃
  obtain ⟨c₅, h₅, hr₅⟩ := Cursor.exists_reads hr₄
  obtain ⟨d₁, d₂, d₃, d₄, d₅, k₂, k₄, hbody⟩ := Pattern.run_body hinner hr₅
  have hblank := Pattern.run_blanks h₅ hblanks hbody (by rw [hr₅]; rintro c ⟨⟩; decide)
  have htag := Pattern.run_group (i := 1) (Pattern.run_greedy_of_head h₄ hword
    (Pattern.close_group hblank) (by rw [hr₄]; exact hbehind))
  have hkeyword := Pattern.run_text h₂ (Pattern.run_blanks h₃ (by simp; decide) htag
    (by rw [hr₃]; exact hfront))
  have hmatch : enumPattern.matchAt (start t) = some _ :=
    Pattern.run_textStart (Pattern.run_optionalTypedef h₁ hkeyword (by
      rw [hr₁]
      rintro x ⟨⟩
      decide))
  rw [Pattern.parts?, Pattern.search_of_matchAt hmatch]
  simp [Match.get, Match.get?, Match.place?, Match.mark, Match.empty, h₄.textTo, k₂.textTo,
    k₄.textTo, List.range_succ]

theorem semicolon_notMem : ∀ piece ∈ e.head :: ['\x7b'] ::
    (memberPieces e.trailing e.members).map (·.2), ';' ∉ piece := by
  intro piece hpiece
  simp only [List.mem_cons] at hpiece
  rcases hpiece with rfl | rfl | hpiece
  · exact notMem_bodyHead isIdentifier_enumWord (by decide) (by decide) _ _
  · decide
  · obtain ⟨piece, hmem, rfl⟩ := List.mem_map.1 hpiece
    exact notMem_of_isInnerChar (isInnerChar_of_mem_memberPieces hmem) (by decide)

/-- **The pieces of an enumeration** are read as one declaration, wherever lines end. -/
theorem declares_of_pieces {l : Layout} (hl : l.pieces = e.layout.pieces) :
    l.Declares enumKind [nameOf e.tag, e.inner, nameOf e.typeName] where
  isCode := hl ▸ e.isCode_layout
  opens := by
    intro code hcode
    obtain ⟨s, hhead, hs, -⟩ := l.exists_codes_head
    obtain rfl := Option.some_inj.1 (hhead.symm.trans hcode)
    have hfirst : l.first = e.head := (List.cons.inj hl).1
    rw [hfirst]
    exact e.occursIn_enumStart hs
  closes := by
    have hpieces : l.pieces = (e.head :: ['\x7b'] ::
        (memberPieces e.trailing e.members).map (·.2)) ++ [bodyEnd e.typeName] := by
      rw [hl]
      simp [layout, Layout.pieces]
    obtain ⟨rows, s, hcodes, hrows⟩ := Layout.exists_codes (by decide) hpieces e.semicolon_notMem
    refine ⟨rows, _, hcodes, fun code hcode ↦ ?_, ?_⟩
    · exact Pattern.occursIn_finalSemicolon_eq_false (hrows code hcode)
    · rw [bodyEnd, ← List.cons_append, ← List.append_assoc]
      exact Pattern.occursIn_finalSemicolon _
  parts := by
    have hjoined : l.joined = e.layout.joined := congrArg (Text.joinWith [' ']) hl
    exact e.parts?_enumPattern e.noLineFeed_inner (hjoined.trans e.joined_layout)

/-! ## Reading the enumeration back -/

/-- What becomes of an enumeration. -/
theorem enumOfBlock_eq (file : Text) (n : Nat) :
    enumOfBlock file ⟨[nameOf e.tag, e.inner, nameOf e.typeName], [], n⟩ =
      e.enumeration ⟨file, n⟩ := by
  have hname : (([nameOf e.tag, nameOf e.typeName].find? fun n ↦ !n.isEmpty).getD anonymousEnum) =
      e.name := by
    have hne {w : Identifier} : w.1.isEmpty = false := by simpa using ne_nil_of_isIdentifier w.2
    rw [name]
    cases e.tag with
    | some w => simp [nameOf, hne]
    | none =>
      cases e.typeName with
      | some w => simp [nameOf, hne]
      | none => rfl
  obtain ⟨ends, hpieces, hends⟩ := exists_splitOn e.trailing e.members
  have hmembers : readMembers [] (-1) (e.inner.splitOn ',') =
      enumerators [] (e.members.map (·.2)) :=
    @readMembers_eq _ _ hends [] (-1) _ hpieces (by decide) (by simp) e.refersBack
  simp only [enumOfBlock, List.getElem?_cons_zero, List.getElem?_cons_succ, Option.getD_some, hname,
    hmembers]
  rfl

end WrittenEnum

open WrittenEnum in
/-- **Enumerations are read back** as they are written, with their members numbered. -/
theorem enumerations_headerText (file : Text) (es : List WrittenEnum) :
    enumerations file (Layout.headerText (es.map layout)) =
      List.zipWith (fun e n ↦ e.enumeration ⟨file, n⟩) es (Layout.lastLines 1 (es.map layout)) :=
  Layout.map_blocks_headerText (fun e _ ↦ e.declares_of_pieces rfl) fun e _ n ↦
    e.enumOfBlock_eq file n

/-- Counting goes on behind a name, and it stops at the largest value. -/
example : enumerations "a.h" ("enum \x7b A, B = -3, C \x7d E;\n" ++
    "typedef enum F\n\x7b\n\tA = 0x7fffFFFFffffFFFF,\n\tB,\n\tC = A,\n\tD = 0X1,\n\tE,\n\x7d;\n") =
      [{ name := "E", members := [.ofNative "A" 0, .ofNative "B" (-3), .ofNative "C" (-2)]
         location := ⟨"a.h", 1⟩ },
        { name := "F"
          members := [.ofNative "A" maxInt64, .ofNative "B" maxInt64, .ofNative "C" maxInt64,
            .ofNative "D" 1, .ofNative "E" 2]
          location := ⟨"a.h", 9⟩ }] := by
  decide +kernel

end HeaderBindings
