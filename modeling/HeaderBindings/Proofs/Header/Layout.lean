import Mathlib.Data.List.Infix
import HeaderBindings.Header.Block
import HeaderBindings.Proofs.Header.Comments
import HeaderBindings.Proofs.Text.Lines
import HeaderBindings.Proofs.Text.Words

/-!
# Declarations over several lines

A declaration is written down as a sequence of pieces with gaps between them, and a gap is a blank
or a line end with the indentation of the next line.  `Layout` is such a sequence.  It stands
between the two ways a declaration is looked at.

* Its text, `Layout.text`, is what stands in a header.  It is made of rows, `Layout.rows`: the
  longest runs of pieces without a line end, each with its indentation.
* Its code, `Layout.joined`, is what the scanner makes of the rows: the pieces with single blanks
  between them, wherever the line ends were.

`blocks_headerText` is what makes the two meet.  If the first row of each declaration opens a block,
only its last one closes it, and the code of the whole has parts, then the blocks of a header are
these parts, one block for each declaration, found at the last line of it.
-/

set_option autoImplicit false

namespace HeaderBindings

/-! ## Characters of a declaration -/

/-- A character that may stand within a declaration that takes up part of a line: none that ends a
line, a declaration or a body, and none that a comment begins with. -/
def isInnerChar (c : Char) : Bool := c ∉ ['\n', '/', '\x7b', '\x7d', ';']

theorem isInnerChar_of_isIdentChar {c : Char} (h : isIdentChar c = true) :
    isInnerChar c = true := by
  rw [isInnerChar, decide_eq_true_eq]
  intro hc
  simp only [List.mem_cons, List.not_mem_nil, or_false] at hc
  rcases hc with rfl | rfl | rfl | rfl | rfl <;> exact absurd h (by decide)

theorem isInnerChar_of_mem {w : Text} (h : isIdentifier w = true) :
    ∀ c ∈ w, isInnerChar c = true := fun c hc ↦
  isInnerChar_of_isIdentChar (isIdentChar_of_mem h c hc)

theorem notMem_of_isInnerChar {t : Text} (h : ∀ c ∈ t, isInnerChar c = true) {c : Char}
    (hc : isInnerChar c = false) : c ∉ t := fun hmem ↦
  absurd ((h c hmem).symm.trans hc) (by simp)

/-! ## Plain lines -/

/-- A line that is code and nothing else: no part of it can be taken for a comment, and it cannot be
taken for a directive. -/
structure IsPlainLine (raw : Text) : Prop where
  solid : raw.trim ≠ []
  noLineComment : ¬("//" : Text) <:+: raw
  noBlockComment : ¬("/*" : Text) <:+: raw
  noClosingMark : raw.trim ≠ "*/"
  noStar : ¬(" *" : Text) <+: raw
  noHash : ¬("#" : Text) <+: raw.trimStart

theorem isPlainLine_iff {raw : Text} : IsPlainLine raw ↔ raw.trim ≠ [] ∧
    ¬("//" : Text) <:+: raw ∧ ¬("/*" : Text) <:+: raw ∧ raw.trim ≠ "*/" ∧
    ¬(" *" : Text) <+: raw ∧ ¬("#" : Text) <+: raw.trimStart := by
  constructor
  · rintro ⟨hsolid, hline, hblock, hclosing, hstar, hhash⟩
    exact ⟨hsolid, hline, hblock, hclosing, hstar, hhash⟩
  · rintro ⟨hsolid, hline, hblock, hclosing, hstar, hhash⟩
    exact ⟨hsolid, hline, hblock, hclosing, hstar, hhash⟩

instance (raw : Text) : Decidable (IsPlainLine raw) := decidable_of_iff _ isPlainLine_iff.symm

theorem withoutComments_of_noMarks {t : Text} (hline : ¬("//" : Text) <:+: t)
    (hblock : ¬("/*" : Text) <:+: t) : withoutComments false t = (t, false) := by
  rw [withoutComments_beforeFirst, beforeFirstComment, Text.splitAtFirst?_eq_none_iff.2 hline,
    Text.splitAtFirst?_eq_none_iff.2 hblock]

section

variable {raw : Text} (h : IsPlainLine raw)

include h

/-- A plain line is in no other class of lines. -/
theorem IsPlainLine.classify : Line.classify raw = .code raw := by
  have hopening : raw.afterLead? "/**" = none := by
    cases hlead : raw.afterLead? "/**" with
    | none => rfl
    | some rest =>
      rw [Text.afterLead?_eq_some_iff.1 hlead] at h
      exact absurd (List.prefix_append ['/', '*'] ('*' :: rest)).isInfix h.noBlockComment
  have hmore : raw.afterLead? " * " = none := by
    cases hlead : raw.afterLead? " * " with
    | none => rfl
    | some rest =>
      rw [Text.afterLead?_eq_some_iff.1 hlead] at h
      exact absurd (List.prefix_append [' ', '*'] (' ' :: rest)) h.noStar
  have hbare : raw.trimEnd ≠ " *" := fun hraw ↦ h.noStar (hraw ▸ Text.trimEnd_prefix raw)
  have hdirective : raw.trimStart.startsWith "#" = false := by
    cases hlead : raw.trimStart.afterLead? "#" with
    | none => rw [Text.startsWith, hlead]; rfl
    | some rest => exact absurd ⟨rest, (Text.afterLead?_eq_some_iff.1 hlead).symm⟩ h.noHash
  simp only [Line.classify, hopening, hmore, hbare, h.noClosingMark, hdirective, if_false]
  rfl

/-- **The code of a plain line** is the line without outer blanks. -/
theorem IsPlainLine.codeOf : codeOf false raw = (raw.trim, false) := by
  rw [codeOf_eq, withoutComments_of_noMarks h.noLineComment h.noBlockComment]

/-- The scanner takes in a plain line as a line of code. -/
theorem Scanner.step_plain (kind : BlockKind) {s : Scanner} (hs : s.inComment = false) (n : Nat) :
    s.step kind raw n = s.code kind raw.trim n := by
  obtain ⟨doc, pending, inComment⟩ := s
  change inComment = false at hs
  subst hs
  have hne : raw.trim.isEmpty = false := by simpa using h.solid
  rw [step, h.classify]
  simp only [rawCode, h.codeOf, hne, Bool.false_eq_true, if_false]

end

/-! ## Lines of code -/

/-- A line, or a piece of one, that is code and nothing else: no part of it can be taken for a
comment, a directive or a line end. -/
structure IsCode (t : Text) : Prop where
  solid : t.IsSolid
  noLineFeed : '\n' ∉ t
  noSlash : '/' ∉ t
  first : ∀ c ∈ t.head?, c ≠ '*' ∧ c ≠ '#'

theorem isCode_iff {t : Text} : IsCode t ↔
    (t.head?.any (fun c ↦ !isBlank c && c != '*' && c != '#') && t.getLast?.any (!isBlank ·) &&
      t.all fun c ↦ c != '\n' && c != '/') = true := by
  simp only [Bool.and_eq_true, Option.any_eq_true, Bool.not_eq_true', bne_iff_ne, List.all_eq_true]
  constructor
  · rintro ⟨⟨⟨c, s, hs, hc⟩, ⟨u, d, hu, hd⟩⟩, hline, hslash, hmarks⟩
    refine ⟨⟨⟨c, by rw [hs]; rfl, ?_⟩, d, by rw [hu]; simp, hd⟩, fun x hx ↦ ⟨?_, ?_⟩⟩
    · obtain ⟨hstar, hhash⟩ := hmarks c (by rw [hs]; rfl)
      exact ⟨⟨hc, hstar⟩, hhash⟩
    · rintro rfl
      exact hline hx
    · rintro rfl
      exact hslash hx
  · rintro ⟨⟨⟨c, hc, ⟨hblank, hstar⟩, hhash⟩, d, hd, hlast⟩, hchars⟩
    obtain ⟨s, hs⟩ := List.head?_eq_some_iff.1 hc
    obtain ⟨u, hu⟩ := List.getLast?_eq_some_iff.1 hd
    refine ⟨⟨⟨c, s, hs, hblank⟩, ⟨u, d, hu, hlast⟩⟩, fun h ↦ (hchars _ h).1 rfl,
      fun h ↦ (hchars _ h).2 rfl, ?_⟩
    rw [hc]
    rintro x hx
    obtain rfl := Option.some_inj.1 hx
    exact ⟨hstar, hhash⟩

instance (t : Text) : Decidable (IsCode t) := decidable_of_iff _ isCode_iff.symm

theorem IsCode.join {s t : Text} (hs : IsCode s) (ht : IsCode t) : IsCode (s ++ ' ' :: t) := by
  refine ⟨?_, ?_, ?_, ?_⟩
  · simpa using hs.solid.join [' '] ht.solid
  · simp [hs.noLineFeed, ht.noLineFeed]
  · simp [hs.noSlash, ht.noSlash]
  · obtain ⟨c, rest, rfl, -⟩ := hs.solid.first
    exact hs.first

/-- Text that code may begin with. -/
def BeginsCode (t : Text) : Prop := ∃ c s, t = c :: s ∧ isBlank c = false ∧ c ≠ '*' ∧ c ≠ '#'

theorem BeginsCode.append {s : Text} (hs : BeginsCode s) (t : Text) : BeginsCode (s ++ t) := by
  obtain ⟨c, s, rfl, hc⟩ := hs
  exact ⟨c, s ++ t, rfl, hc⟩

theorem beginsCode_of_isIdentChar {c : Char} (hc : isIdentChar c = true) (s : Text) :
    BeginsCode (c :: s) := by
  refine ⟨c, s, rfl, isBlank_of_isIdentChar hc, ?_, ?_⟩ <;> rintro rfl <;>
    exact absurd hc (by decide)

theorem beginsCode_of_isIdentifier {w : Text} (hw : isIdentifier w = true) : BeginsCode w := by
  obtain ⟨c, t, rfl, hc, -⟩ := exists_cons_of_isIdentifier hw
  exact beginsCode_of_isIdentChar (isIdentChar_of_isIdentStart hc) t

/-- Text that begins and ends like code is code if it holds no slash and no line end. -/
theorem isCode_of_beginsCode {s t : Text} (hs : BeginsCode (s ++ t)) (ht : t.IsSolid)
    (hline : '\n' ∉ s ++ t) (hslash : '/' ∉ s ++ t) : IsCode (s ++ t) := by
  obtain ⟨c, r, hr, hblank, hmarks⟩ := hs
  obtain ⟨q, x, rfl, hx⟩ := ht.last
  exact ⟨⟨⟨c, r, hr, hblank⟩, ⟨s ++ q, x, by simp, hx⟩⟩, hline, hslash,
    by rw [hr]; simpa using hmarks⟩

theorem isCode_of_isInnerChar {t : Text} (hfirst : BeginsCode t) (ht : t.IsSolid)
    (hchars : ∀ c ∈ t, isInnerChar c = true) : IsCode t :=
  isCode_of_beginsCode (s := []) hfirst ht (notMem_of_isInnerChar hchars (by decide))
    (notMem_of_isInnerChar hchars (by decide))

/-- Characters of a declaration are code if they begin like it, and if what stands behind them ends
like it. -/
theorem isCode_append {s t : Text} (hs : BeginsCode s) (hchars : ∀ c ∈ s, isInnerChar c = true)
    (ht : t.IsSolid) (hline : '\n' ∉ t) (hslash : '/' ∉ t) : IsCode (s ++ t) := by
  have hnotMem {c : Char} (hc : isInnerChar c = false) (ht : c ∉ t) : c ∉ s ++ t := by
    rw [List.mem_append, not_or]
    exact ⟨notMem_of_isInnerChar hchars hc, ht⟩
  exact isCode_of_beginsCode (hs.append t) ht (hnotMem (by decide) hline)
    (hnotMem (by decide) hslash)

/-- The indentation of a line. -/
abbrev Indent := { t : Text // t.all (· ∈ [' ', '\t']) = true }

def Indent.none : Indent := ⟨[], rfl⟩

@[simp]
theorem Indent.val_none : Indent.none.1 = [] := rfl

theorem Indent.of_mem (indent : Indent) : ∀ c ∈ indent.1, c = ' ' ∨ c = '\t' := by
  simpa using indent.2

theorem Indent.isBlank (indent : Indent) : ∀ c ∈ indent.1, isBlank c = true := by
  intro c hc
  rcases indent.of_mem c hc with rfl | rfl <;> decide

theorem Indent.notMem (indent : Indent) {c : Char} (hspace : c ≠ ' ') (htab : c ≠ '\t') :
    c ∉ indent.1 := fun hmem ↦ (indent.of_mem c hmem).elim hspace htab

section

variable {t : Text} (h : IsCode t) (indent : Indent)

include h

theorem trimStart_row : (indent.1 ++ t).trimStart = t := by
  simpa using Text.trimStart_pad indent.isBlank h.solid []

theorem trim_row : (indent.1 ++ t).trim = t := by
  simpa using Text.trim_pad (v := []) indent.isBlank h.solid (by simp)

theorem noSlash_row : '/' ∉ indent.1 ++ t := by
  rw [List.mem_append, not_or]
  exact ⟨indent.notMem (by decide) (by decide), h.noSlash⟩

/-- **A row of code** is a plain line. -/
theorem isPlainLine_row : IsPlainLine (indent.1 ++ t) := by
  have hmark {mark : Text} (hmem : '/' ∈ mark) : ¬mark <:+: indent.1 ++ t := fun hmark ↦
    noSlash_row h indent (hmark.subset hmem)
  refine ⟨?_, hmark (by decide), hmark (by decide), ?_, ?_, ?_⟩
  · rw [trim_row h]
    exact h.solid.ne_nil
  · rw [trim_row h]
    rintro rfl
    exact h.noSlash (by decide)
  · rintro ⟨rest, hrow⟩
    have hstart := congrArg Text.trimStart hrow
    rw [trimStart_row h] at hstart
    exact (h.first '*' (by rw [← hstart]; rfl)).1 rfl
  · rintro ⟨rest, hrow⟩
    rw [trimStart_row h] at hrow
    exact (h.first '#' (by rw [← hrow]; rfl)).2 rfl

end

/-- The scanner takes in a row as a line of code. -/
theorem Scanner.step_row {t : Text} (h : IsCode t) (indent : Indent) (kind : BlockKind)
    {s : Scanner} (hs : s.inComment = false) (n : Nat) :
    s.step kind (indent.1 ++ t) n = s.code kind t n := by
  rw [step_plain (isPlainLine_row h indent) kind hs, trim_row h]

theorem getLast?_row {t : Text} (h : IsCode t) (indent : Indent) :
    (indent.1 ++ t).getLast? ≠ some '\r' := by
  obtain ⟨front, c, rfl, hc⟩ := h.solid.last
  rw [← List.append_assoc, List.getLast?_concat, Ne, Option.some_inj]
  rintro rfl
  exact absurd hc (by decide)

theorem noLineFeed_row {t : Text} (h : IsCode t) (indent : Indent) : '\n' ∉ indent.1 ++ t := by
  rw [List.mem_append, not_or]
  exact ⟨indent.notMem (by decide) (by decide), h.noLineFeed⟩

theorem lines_append_row {t : Text} (h : IsCode t) (indent : Indent) (rest : Text) :
    (indent.1 ++ t ++ '\n' :: rest).lines = (indent.1 ++ t) :: rest.lines := by
  rw [Text.lines_append_cons (noLineFeed_row h indent),
    Text.withoutLineEnd_append_of_ne (getLast?_row h indent)]

/-! ## Layouts -/

/-- What stands between two pieces of a declaration. -/
inductive Gap where
  /-- A single blank. -/
  | blank
  /-- A line end, and the indentation of the next line. -/
  | lineBreak (indent : Indent)

/-- A gap as it is written. -/
def Gap.text : Gap → Text
  | blank => [' ']
  | lineBreak indent => '\n' :: indent.1

/-- A sequence of pieces with gaps between them. -/
structure Layout where
  first : Text
  more : List (Gap × Text)

/-- The rows of pieces that follow the beginning of a row, each with its indentation. -/
def rowsAfter (indent : Indent) (code : Text) : List (Gap × Text) → List (Indent × Text)
  | [] => [(indent, code)]
  | (.blank, piece) :: more => rowsAfter indent (code ++ ' ' :: piece) more
  | (.lineBreak next, piece) :: more => (indent, code) :: rowsAfter next piece more

namespace Layout

/-- The pieces. -/
def pieces (l : Layout) : List Text := l.first :: l.more.map (·.2)

/-- What stands in a header. -/
def text (l : Layout) : Text := l.first ++ l.more.flatMap fun gap ↦ gap.1.text ++ gap.2

/-- The code of the whole, wherever lines ended. -/
def joined (l : Layout) : Text := Text.joinWith [' '] l.pieces

/-- The rows, each with its indentation. -/
def rows (l : Layout) : List (Indent × Text) := rowsAfter .none l.first l.more

/-- The code of the rows. -/
def codes (l : Layout) : List Text := l.rows.map (·.2)

end Layout

theorem joinWith_cons_cons (sep piece next : Text) (pieces : List Text) :
    Text.joinWith sep (piece :: next :: pieces) =
      piece ++ sep ++ Text.joinWith sep (next :: pieces) := by
  simp [Text.joinWith, List.intercalate, List.intersperse]

theorem joinWith_blank_cons (piece : Text) (pieces : List Text) :
    Text.joinWith [' '] (piece :: pieces) = piece ++ pieces.flatMap (' ' :: ·) := by
  induction pieces generalizing piece with
  | nil => simp [Text.joinWith, List.intercalate]
  | cons next pieces ih => rw [joinWith_cons_cons, ih]; simp

@[simp]
theorem joinWith_singleton (sep piece : Text) : Text.joinWith sep [piece] = piece := by
  simp [Text.joinWith, List.intercalate]

section

variable {indent : Indent} {code : Text} {more : List (Gap × Text)}

theorem rowsAfter_ne_nil : rowsAfter indent code more ≠ [] := by
  induction more generalizing indent code with
  | nil => exact List.cons_ne_nil _ _
  | cons gap more ih =>
    obtain ⟨gap, piece⟩ := gap
    cases gap with
    | blank => exact ih
    | lineBreak next => exact List.cons_ne_nil _ _

/-- The first row begins with the code it is given, and more pieces stand behind a blank. -/
theorem exists_rowsAfter : ∃ s rows, rowsAfter indent code more = (indent, code ++ s) :: rows ∧
    ∀ c ∈ s.head?, c = ' ' := by
  induction more generalizing indent code with
  | nil => exact ⟨[], [], by rw [rowsAfter, List.append_nil], by simp⟩
  | cons gap more ih =>
    obtain ⟨gap, piece⟩ := gap
    cases gap with
    | blank =>
      obtain ⟨s, rows, h, -⟩ := @ih indent (code ++ ' ' :: piece)
      exact ⟨' ' :: (piece ++ s), rows, by rw [rowsAfter, h]; simp, by simp⟩
    | lineBreak next =>
      exact ⟨[], rowsAfter next piece more, by rw [rowsAfter, List.append_nil], by simp⟩

/-- The rows make up the text. -/
theorem text_rowsAfter (rest : Text) :
    (rowsAfter indent code more).flatMap (fun row ↦ row.1.1 ++ row.2 ++ ['\n']) ++ rest =
      indent.1 ++ (code ++ more.flatMap fun gap ↦ gap.1.text ++ gap.2) ++ '\n' :: rest := by
  induction more generalizing indent code with
  | nil => simp [rowsAfter]
  | cons gap more ih =>
    obtain ⟨gap, piece⟩ := gap
    cases gap with
    | blank => rw [rowsAfter, ih]; simp [Gap.text]
    | lineBreak next => rw [rowsAfter, List.flatMap_cons, List.append_assoc, ih]; simp [Gap.text]

/-- The code of the rows is that of the pieces. -/
theorem joined_rowsAfter :
    Text.joinWith [' '] ((rowsAfter indent code more).map (·.2)) =
      Text.joinWith [' '] (code :: more.map (·.2)) := by
  induction more generalizing indent code with
  | nil => rfl
  | cons gap more ih =>
    obtain ⟨gap, piece⟩ := gap
    cases gap with
    | blank =>
      rw [rowsAfter, ih, List.map_cons, joinWith_cons_cons]
      cases more with
      | nil => simp
      | cons next more => simp [joinWith_cons_cons]
    | lineBreak next =>
      obtain ⟨row, rows, hrows⟩ := List.exists_cons_of_ne_nil (@rowsAfter_ne_nil next piece more)
      rw [rowsAfter, List.map_cons, hrows, List.map_cons, joinWith_cons_cons, ← List.map_cons,
        ← hrows, ih, List.map_cons, joinWith_cons_cons]

theorem isCode_rowsAfter (hcode : IsCode code) (hmore : ∀ gap ∈ more, IsCode gap.2) :
    ∀ row ∈ rowsAfter indent code more, IsCode row.2 := by
  induction more generalizing indent code with
  | nil =>
    intro row hrow
    obtain rfl := List.mem_singleton.1 hrow
    exact hcode
  | cons gap more ih =>
    obtain ⟨gap, piece⟩ := gap
    have hpiece : IsCode piece := hmore _ List.mem_cons_self
    have hrest : ∀ gap ∈ more, IsCode gap.2 := fun gap hgap ↦
      hmore gap (List.mem_cons_of_mem _ hgap)
    cases gap with
    | blank => exact ih (hcode.join hpiece) hrest
    | lineBreak next =>
      intro row hrow
      rcases List.mem_cons.1 hrow with rfl | hrow
      · exact hcode
      · exact ih hpiece hrest row hrow

/-- Only the last row holds what only the last piece holds, and it ends with that piece. -/
theorem exists_rowsAfter_append {x : Char} (hx : x ≠ ' ') {gap : Gap} {final : Text}
    (hcode : x ∉ code) (hmore : ∀ gap ∈ more, x ∉ gap.2) :
    ∃ inner next s, rowsAfter indent code (more ++ [(gap, final)]) = inner ++ [(next, s ++ final)] ∧
      ∀ row ∈ inner, x ∉ row.2 := by
  induction more generalizing indent code with
  | nil =>
    cases gap with
    | blank => exact ⟨[], indent, code ++ [' '], by simp [rowsAfter], by simp⟩
    | lineBreak next =>
      exact ⟨[(indent, code)], next, [], by simp [rowsAfter], by simpa using hcode⟩
  | cons gap more ih =>
    obtain ⟨gap, piece⟩ := gap
    have hpiece : x ∉ piece := hmore _ List.mem_cons_self
    have hrest : ∀ gap ∈ more, x ∉ gap.2 := fun gap hgap ↦ hmore gap (List.mem_cons_of_mem _ hgap)
    cases gap with
    | blank => exact ih (by simp [hcode, hpiece, hx]) hrest
    | lineBreak next =>
      obtain ⟨inner, next', s, h, hinner⟩ := @ih next _ hpiece hrest
      refine ⟨(indent, code) :: inner, next', s, by rw [List.cons_append, rowsAfter, h]; rfl, ?_⟩
      intro row hrow
      rcases List.mem_cons.1 hrow with rfl | hrow
      · exact hcode
      · exact hinner row hrow

end

/-- A declaration with a line for each of its pieces. -/
def Layout.lined (first : Text) (lines : List (Indent × Text)) : Layout where
  first := first
  more := lines.map fun line ↦ (.lineBreak line.1, line.2)

@[simp]
theorem Layout.pieces_lined (first : Text) (lines : List (Indent × Text)) :
    (Layout.lined first lines).pieces = first :: lines.map (·.2) := by
  simp [Layout.lined, Layout.pieces, Function.comp_def]

@[simp]
theorem Layout.rows_lined (first : Text) (lines : List (Indent × Text)) :
    (Layout.lined first lines).rows = (.none, first) :: lines := by
  have hrows (indent : Indent) (code : Text) (lines : List (Indent × Text)) :
      rowsAfter indent code (lines.map fun line ↦ (.lineBreak line.1, line.2)) =
        (indent, code) :: lines := by
    induction lines generalizing indent code with
    | nil => rfl
    | cons line lines ih => rw [List.map_cons, rowsAfter, ih]
  exact hrows .none first lines

@[simp]
theorem Layout.codes_lined (first : Text) (lines : List (Indent × Text)) :
    (Layout.lined first lines).codes = first :: lines.map (·.2) := by
  rw [Layout.codes, Layout.rows_lined, List.map_cons]

/-! ## What the scanner finds -/

namespace Scanner

variable {kind : BlockKind}

/-- A line of code in an open declaration, or one that opens it. -/
theorem code_of_open {doc : List Text} {pending : Option (List Text)} {t : Text} {n : Nat}
    (h : pending = none → kind.opens t = true) :
    Scanner.code kind ⟨doc, pending, false⟩ t n =
      if kind.closes t then close kind ⟨doc, pending, false⟩ (t :: pending.getD []) n
      else (⟨doc, some (t :: pending.getD []), false⟩, none) := by
  cases pending with
  | none =>
    rw [code]
    simp only [h rfl, if_true]
    rfl
  | some earlier => rfl

/-- **The lines of a declaration**, or of the rest of one, are read as a block if they are plain and
only the last of them closes it. -/
theorem run_lines {inner : List Text} {last : Text} {parts : List Text}
    (hplain : ∀ raw ∈ inner ++ [last], IsPlainLine raw)
    (hinner : ∀ raw ∈ inner, kind.closes raw.trim = false)
    (hlast : kind.closes last.trim = true) (doc more : List Text) :
    ∀ {pending : Option (List Text)} {n : Nat},
    (pending = none → ∀ raw ∈ (inner ++ [last]).head?, kind.opens raw.trim = true) →
    kind.parts? (Text.joinWith [' ']
      ((pending.getD []).reverse ++ (inner ++ [last]).map Text.trim)) = some parts →
    Scanner.run kind ⟨doc, pending, false⟩ n (inner ++ [last] ++ more) =
      ⟨parts, docText doc, n + inner.length⟩ :: start.run kind (n + inner.length + 1) more := by
  induction inner with
  | nil =>
    intro pending n hopens hparts
    have hcode : Scanner.code kind ⟨doc, pending, false⟩ last.trim n =
        (start, some ⟨parts, docText doc, n⟩) := by
      rw [code_of_open fun hnone ↦ hopens hnone last rfl, if_pos hlast, close, List.reverse_cons]
      simp only [List.nil_append, List.map_cons, List.map_nil] at hparts
      rw [hparts]
      rfl
    rw [List.nil_append, List.singleton_append, run, step_plain (hplain last (by simp)) kind rfl,
      hcode]
    rfl
  | cons raw inner ih =>
    intro pending n hopens hparts
    have hraw : kind.closes raw.trim = false := hinner raw List.mem_cons_self
    have hrest := @ih (fun raw' hraw' ↦ hplain raw' (List.mem_cons_of_mem _ hraw'))
      (fun raw' hraw' ↦ hinner raw' (List.mem_cons_of_mem _ hraw'))
      (some (raw.trim :: pending.getD [])) (n + 1) (fun hnone ↦ by simp at hnone)
      (by rw [Option.getD_some, List.reverse_cons, List.append_assoc]; exact hparts)
    rw [List.cons_append, List.cons_append, run, step_plain (hplain raw (by simp)) kind rfl,
      code_of_open fun hnone ↦ hopens hnone raw rfl, if_neg (by simp [hraw])]
    simp only [Option.toList_none, List.nil_append]
    rw [hrest, List.length_cons]
    simp only [Nat.add_assoc, Nat.add_comm 1]

/-- The rows of a declaration are such lines. -/
theorem run_rows {inner : List (Indent × Text)} {last : Indent × Text} {parts : List Text}
    (hcode : ∀ row ∈ inner ++ [last], IsCode row.2)
    (hinner : ∀ row ∈ inner, kind.closes row.2 = false) (hlast : kind.closes last.2 = true)
    (raws : List Text) {pending : Option (List Text)} {n : Nat}
    (hopens : pending = none → ∀ row ∈ (inner ++ [last]).head?, kind.opens row.2 = true)
    (hparts : kind.parts? (Text.joinWith [' ']
      ((pending.getD []).reverse ++ (inner ++ [last]).map (·.2))) = some parts) :
    Scanner.run kind ⟨[], pending, false⟩ n
        ((inner ++ [last]).map (fun row ↦ row.1.1 ++ row.2) ++ raws) =
      ⟨parts, [], n + inner.length⟩ :: start.run kind (n + inner.length + 1) raws := by
  have htrim {row : Indent × Text} (hrow : row ∈ inner ++ [last]) :
      Text.trim (row.1.1 ++ row.2) = row.2 := trim_row (hcode row hrow) row.1
  have htrims : ((inner ++ [last]).map fun row ↦ row.1.1 ++ row.2).map Text.trim =
      (inner ++ [last]).map (·.2) := by
    rw [List.map_map]
    exact List.map_congr_left fun row hrow ↦ htrim hrow
  have hraws : (inner ++ [last]).map (fun row ↦ row.1.1 ++ row.2) =
      inner.map (fun row ↦ row.1.1 ++ row.2) ++ [last.1.1 ++ last.2] := List.map_append
  rw [← htrims, hraws] at hparts
  rw [hraws, run_lines ?_ ?_ ?_ [] raws ?_ hparts, List.length_map]
  · rfl
  · intro raw hraw
    obtain ⟨row, hrow, rfl⟩ := List.mem_map.1 (hraws ▸ hraw)
    exact isPlainLine_row (hcode row hrow) row.1
  · intro raw hraw
    obtain ⟨row, hrow, rfl⟩ := List.mem_map.1 hraw
    rw [htrim (List.mem_append_left _ hrow)]
    exact hinner row hrow
  · rw [htrim (List.mem_append_right _ List.mem_cons_self)]
    exact hlast
  · intro hnone raw hraw
    rw [← hraws, List.head?_map, Option.mem_def, Option.map_eq_some_iff] at hraw
    obtain ⟨row, hrow, rfl⟩ := hraw
    rw [htrim (List.mem_of_mem_head? hrow)]
    exact hopens hnone row hrow

end Scanner

namespace Layout

variable (l : Layout)

/-- The number of line ends within a declaration. -/
def breaks : Nat := l.rows.length - 1

/-- A kind of declaration reads the layout as one declaration with the given parts. -/
structure Declares (kind : BlockKind) (l : Layout) (parts : List Text) : Prop where
  isCode : ∀ piece ∈ l.pieces, IsCode piece
  opens : ∀ code ∈ l.codes.head?, kind.opens code = true
  closes : ∃ inner last, l.codes = inner ++ [last] ∧ (∀ code ∈ inner, kind.closes code = false) ∧
    kind.closes last = true
  parts : kind.parts? l.joined = some parts

variable {l}

theorem isCode_rows (h : ∀ piece ∈ l.pieces, IsCode piece) : ∀ row ∈ l.rows, IsCode row.2 :=
  isCode_rowsAfter (h _ List.mem_cons_self) fun gap hgap ↦
    h gap.2 (List.mem_cons_of_mem _ (List.mem_map_of_mem hgap))

theorem lines_rows {rows : List (Indent × Text)} (h : ∀ row ∈ rows, IsCode row.2) (rest : Text) :
    Text.lines (rows.flatMap (fun row ↦ row.1.1 ++ row.2 ++ ['\n']) ++ rest) =
      rows.map (fun row ↦ row.1.1 ++ row.2) ++ rest.lines := by
  induction rows with
  | nil => rfl
  | cons row rows ih =>
    rw [List.flatMap_cons, List.append_assoc, List.append_assoc, List.singleton_append,
      lines_append_row (h row List.mem_cons_self), List.map_cons, List.cons_append,
      ih fun row' hrow' ↦ h row' (List.mem_cons_of_mem _ hrow')]

theorem lines_text (h : ∀ piece ∈ l.pieces, IsCode piece) (rest : Text) :
    (l.text ++ '\n' :: rest).lines = l.rows.map (fun row ↦ row.1.1 ++ row.2) ++ rest.lines := by
  have htext := @text_rowsAfter .none l.first l.more rest
  rw [Indent.val_none, List.nil_append] at htext
  rw [text, ← htext]
  exact lines_rows (isCode_rows h) rest

/-- What stands in a header of several declarations, each on lines of its own. -/
def headerText (ls : List Layout) : Text := ls.flatMap fun l ↦ l.text ++ ['\n']

/-- The last line of each of several declarations, when the first line has the given number. -/
def lastLines : Nat → List Layout → List Nat
  | _, [] => []
  | n, l :: ls => (n + l.breaks) :: lastLines (n + l.breaks + 1) ls

/-- A declaration in front of others is the first block. -/
theorem run_text {kind : BlockKind} {parts : List Text} (h : l.Declares kind parts) (n : Nat)
    (rest : Text) : Scanner.start.run kind n (l.text ++ '\n' :: rest).lines =
      ⟨parts, [], n + l.breaks⟩ :: Scanner.start.run kind (n + l.breaks + 1) rest.lines := by
  obtain ⟨inner, last, hcodes, hinner, hlast⟩ := h.closes
  obtain ⟨rows, final, hrows, rfl, hfinal⟩ := List.map_eq_append_iff.1 hcodes
  obtain ⟨row, rfl, rfl⟩ := List.map_eq_singleton_iff.1 hfinal
  have hcode := isCode_rows h.isCode
  have hbreaks : l.breaks = rows.length := by rw [breaks, hrows]; simp
  have hjoined := h.parts
  rw [joined, pieces, ← @joined_rowsAfter .none] at hjoined
  change kind.parts? (Text.joinWith [' '] (l.rows.map (·.2))) = _ at hjoined
  rw [lines_text h.isCode, hbreaks, hrows]
  refine Scanner.run_rows (hrows ▸ hcode) (fun row' hrow' ↦ ?_) hlast _ (fun _ row' hrow' ↦ ?_)
    (by rw [← hrows]; exact hjoined)
  · exact hinner row'.2 (List.mem_map_of_mem hrow')
  · refine h.opens row'.2 ?_
    rw [codes, hrows, List.head?_map, Option.mem_def.1 hrow']
    rfl

/-- A declaration on its own is the only block. -/
theorem blocks_text {kind : BlockKind} {parts : List Text} (h : l.Declares kind parts) :
    blocks kind (l.text ++ ['\n']) = [⟨parts, [], 1 + l.breaks⟩] := run_text h 1 []

/-- **The blocks of a header are its declarations**, in order, each found at its last line. -/
theorem blocks_headerText {α : Type} {kind : BlockKind} {layout : α → Layout}
    {parts : α → List Text} {ds : List α} (h : ∀ d ∈ ds, (layout d).Declares kind (parts d)) :
    blocks kind (headerText (ds.map layout)) =
      List.zipWith (fun d n ↦ ⟨parts d, [], n⟩) ds (lastLines 1 (ds.map layout)) := by
  rw [blocks]
  generalize 1 = n
  induction ds generalizing n with
  | nil => rfl
  | cons d ds ih =>
    have hrest := ih (fun d' hd' ↦ h d' (List.mem_cons_of_mem _ hd')) (n + (layout d).breaks + 1)
    rw [List.map_cons, headerText, List.flatMap_cons, List.append_assoc, List.singleton_append,
      run_text (h d List.mem_cons_self), lastLines, List.zipWith_cons_cons, ← hrest]
    rfl

/-- **What is made of a header's declarations**, if each is read as its parts say. -/
theorem map_blocks_headerText {α β : Type} {kind : BlockKind} {layout : α → Layout}
    {parts : α → List Text} {ds : List α} {g : Block → β} {result : α → Nat → β}
    (h : ∀ d ∈ ds, (layout d).Declares kind (parts d))
    (hread : ∀ d ∈ ds, ∀ n, g ⟨parts d, [], n⟩ = result d n) :
    (blocks kind (headerText (ds.map layout))).map g =
      List.zipWith result ds (lastLines 1 (ds.map layout)) := by
  rw [blocks_headerText h]
  generalize lastLines 1 (ds.map layout) = lines
  clear h
  induction ds generalizing lines with
  | nil => simp
  | cons d ds ih =>
    cases lines with
    | nil => simp
    | cons n lines =>
      rw [List.zipWith_cons_cons, List.map_cons, hread d List.mem_cons_self,
        List.zipWith_cons_cons, ih fun d' hd' ↦ hread d' (List.mem_cons_of_mem d hd')]

/-! ## Opening and closing -/

/-- The first row is a beginning of the whole code, and it begins with the first piece. -/
theorem exists_codes_head (l : Layout) : ∃ s, l.codes.head? = some (l.first ++ s) ∧
    (∀ c ∈ s.head?, c = ' ') ∧ l.first ++ s <+: l.joined := by
  obtain ⟨s, rows, hrows, hs⟩ := @exists_rowsAfter .none l.first l.more
  refine ⟨s, by rw [codes, Layout.rows, hrows]; rfl, hs, ?_⟩
  rw [joined, pieces, ← @joined_rowsAfter .none, hrows, List.map_cons]
  cases hcodes : rows.map (·.2) with
  | nil => simp only [joinWith_singleton, List.prefix_rfl]
  | cons code codes =>
    rw [joinWith_cons_cons, List.append_assoc]
    exact List.prefix_append _ _

/-- Only the last row holds what only the last piece holds, and it ends with that piece. -/
theorem exists_codes {x : Char} (hx : x ≠ ' ') {pieces : List Text} {final : Text}
    (hl : l.pieces = pieces ++ [final]) (hpieces : ∀ piece ∈ pieces, x ∉ piece) :
    ∃ inner s, l.codes = inner ++ [s ++ final] ∧ ∀ code ∈ inner, x ∉ code := by
  obtain ⟨first, more⟩ := l
  rcases List.eq_nil_or_concat' more with rfl | ⟨more, ⟨gap, piece⟩, rfl⟩
  · obtain rfl : pieces = [] := by
      have hlength := congrArg List.length hl
      simp only [Layout.pieces, List.map_nil, List.length_append, List.length_cons,
        List.length_nil] at hlength
      exact List.length_eq_zero_iff.1 (by omega)
    obtain rfl : first = final := List.singleton_inj.1 hl
    exact ⟨[], [], rfl, by simp⟩
  · rw [Layout.pieces, List.map_append, List.map_singleton,
      ← List.cons_append] at hl
    obtain ⟨rfl, hfinal⟩ := List.append_inj' hl rfl
    obtain rfl := List.singleton_inj.1 hfinal
    obtain ⟨inner, next, s, h, hinner⟩ := @exists_rowsAfter_append .none _ _ _ hx gap piece
      (hpieces _ List.mem_cons_self) fun gap hgap ↦
        hpieces gap.2 (List.mem_cons_of_mem _ (List.mem_map_of_mem hgap))
    refine ⟨inner.map (·.2), s, by rw [codes, rows, h]; simp, ?_⟩
    intro code hcode
    obtain ⟨row, hrow, rfl⟩ := List.mem_map.1 hcode
    exact hinner row hrow

/-! ## Layouts of a given code -/

/-- The first row is all of the code up to some blank, or to its end. -/
theorem exists_first_row (l : Layout) : ∃ row r, l.codes.head? = some row ∧ l.joined = row ++ r ∧
    ∀ c ∈ r.head?, c = ' ' := by
  obtain ⟨row, rows, hrows⟩ := List.exists_cons_of_ne_nil (@rowsAfter_ne_nil .none l.first l.more)
  refine ⟨row.2, (rows.map (·.2)).flatMap (' ' :: ·), by rw [codes, Layout.rows, hrows]; rfl, ?_, ?_⟩
  · rw [joined, pieces, ← @joined_rowsAfter .none, hrows, List.map_cons, joinWith_blank_cons]
  · cases rows with
    | nil => simp
    | cons row rows => simp

/-- What holds no blank is not cut by the end of a row. -/
theorem prefix_of_row {w row r rest : Text} (h : row ++ r = w ++ rest) (hw : ' ' ∉ w)
    (hr : ∀ c ∈ r.head?, c = ' ') : w <+: row := by
  rcases List.append_eq_append_iff.1 h with ⟨a, rfl, rfl⟩ | ⟨a, rfl, -⟩
  · cases a with
    | nil => simp
    | cons c a =>
      obtain rfl := hr c rfl
      exact absurd (List.mem_append_right row List.mem_cons_self) hw
  · exact List.prefix_append w a

theorem joinWith_blank_concat (codes : List Text) (last : Text) :
    Text.joinWith [' '] (codes ++ [last]) = codes.flatMap (· ++ [' ']) ++ last := by
  induction codes with
  | nil => exact joinWith_singleton _ _
  | cons code codes ih =>
    obtain ⟨next, more, hmore⟩ := List.exists_cons_of_ne_nil
      (List.append_ne_nil_of_right_ne_nil codes (List.cons_ne_nil last []))
    rw [hmore] at ih
    rw [List.cons_append, hmore, joinWith_cons_cons, ih, List.flatMap_cons]
    simp

/-- If all of the code ends with a parenthesis and a semicolon and holds no other semicolon, so does
its last row, and no other row holds one. -/
theorem exists_codes_of_joined (hl : ∀ piece ∈ l.pieces, IsCode piece) {s : Text}
    (hjoined : l.joined = s ++ [')', ';']) (hs : ';' ∉ s) :
    ∃ inner last, l.codes = inner ++ [last ++ [')', ';']] ∧ ∀ code ∈ inner, ';' ∉ code := by
  obtain ⟨inner, row, hrows⟩ := List.eq_nil_or_concat' l.rows |>.resolve_left rowsAfter_ne_nil
  have hcode := isCode_rows hl row (by rw [hrows]; simp)
  have hcodes : l.codes = inner.map (·.2) ++ [row.2] := by rw [codes, hrows]; simp
  have hwhole : (inner.map (·.2)).flatMap (· ++ [' ']) ++ row.2 = s ++ [')', ';'] := by
    rw [← hjoined, joined, pieces, ← @joined_rowsAfter .none, ← joinWith_blank_concat]
    exact congrArg (Text.joinWith [' ']) hcodes.symm
  have hinner (hfront : ';' ∉ (inner.map (·.2)).flatMap (· ++ [' '])) :
      ∀ code ∈ inner.map (·.2), ';' ∉ code := fun code hmem hc ↦
    hfront (List.mem_flatMap.2 ⟨code, hmem, List.mem_append_left _ hc⟩)
  rcases List.append_eq_append_iff.1 hwhole with ⟨a, rfl, hrow⟩ | ⟨a, hfront, hend⟩
  · exact ⟨inner.map (·.2), a, hrow ▸ hcodes, hinner fun hc ↦ hs (List.mem_append_left a hc)⟩
  · -- A row in front of the last one leaves a blank behind it.
    have hlast : ∀ c ∈ ((inner.map (·.2)).flatMap (· ++ [' '])).getLast?, c = ' ' := by
      rcases List.eq_nil_or_concat' inner with rfl | ⟨inner, code, rfl⟩ <;> simp
    obtain rfl : a = [] := by
      rcases List.eq_nil_or_concat' a with hnil | ⟨a, x, rfl⟩
      · exact hnil
      · obtain rfl := hlast x (by rw [hfront]; simp)
        have hmem : ' ' ∈ [')', ';'] := hend ▸ by simp
        exact absurd hmem (by decide)
    rw [List.nil_append] at hend
    rw [List.append_nil] at hfront
    exact ⟨inner.map (·.2), [], by rw [hcodes, ← hend]; rfl, hinner (hfront ▸ hs)⟩

end Layout

end HeaderBindings
