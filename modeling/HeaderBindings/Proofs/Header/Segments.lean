import HeaderBindings.Header.Block

/-!
# The scanner finds the closed segments of the code

`blocks` is a scanner: it takes the lines of a header one at a time, and what it does with one
depends on all that it remembers, a documentation comment, an open declaration and an open
comment.  This file says what it finds in two stages that know nothing of each other.

* **The code of a header**, `codeLines`.  Each line is put into its class and freed of comments,
  and what is left of it, if anything, is a numbered line of code.  One bit is handed from line to
  line, whether a block comment is still open.  No test of a declaration has any part in this.
* **Its segments**, `segments`.  The lines of code are cut from the front: a segment begins with
  the first line that opens one, and ends with the first of its own lines that closes one, which
  may be the line it begins with.  A segment that nothing closes is none.

`blocks_eq_segments` says that the blocks are the segments whose code is recognised, in order, each
with the number of the line that closes it.

The invariant that carries the proof is small.  Of the three things that the scanner remembers, the
documentation comment has no influence on what is found, the comment bit is the one that the first
stage hands on, and the open declaration is the beginning of a segment that is still to be closed.
So a scanner in any state finds what `segmentsAfter` cuts from the code of the lines to come.
-/

set_option autoImplicit false

namespace HeaderBindings

/-! ## The code of a header -/

/-- The code of a line, and whether a block comment stays open after it.  A directive has none, and
neither has a line of documentation unless it stands inside a comment. -/
def lineCode (inComment : Bool) (raw : Text) : Text × Bool :=
  match Line.classify raw, inComment with
  | .directive, _ => ([], inComment)
  | .docStart _, false => ([], false)
  | .docMore _, false => ([], false)
  | .docEnd, false => ([], false)
  | _, _ => codeOf inComment raw

/-- The code of each line, empty for a line that has none. -/
def lineCodes : Bool → List Text → List Text
  | _, [] => []
  | inComment, raw :: rest =>
    (lineCode inComment raw).1 :: lineCodes (lineCode inComment raw).2 rest

/-- The lines that have code, when the first of the given ones has the given number. -/
def codeLinesFrom (inComment : Bool) (n : Nat) (raws : List Text) : List (Text × Nat) :=
  ((lineCodes inComment raws).zipIdx n).filter fun l ↦ !l.1.isEmpty

/-- The lines of a header that have code, each with its number, counted from one. -/
def codeLines (t : Text) : List (Text × Nat) := codeLinesFrom false 1 t.lines

theorem codeLinesFrom_cons (inComment : Bool) (n : Nat) (raw : Text) (rest : List Text) :
    codeLinesFrom inComment n (raw :: rest) =
      (if (lineCode inComment raw).1.isEmpty then [] else [((lineCode inComment raw).1, n)]) ++
        codeLinesFrom (lineCode inComment raw).2 (n + 1) rest := by
  rw [codeLinesFrom, lineCodes, List.zipIdx_cons, List.filter_cons]
  split
  · rename_i h
    rw [if_neg (by simpa using h)]
    rfl
  · rename_i h
    rw [if_pos (by simpa using h)]
    rfl

/-! ## Segments -/

/-- A closed run of code lines. -/
structure Segment where
  /-- The lines, from the one that opens the segment to the one that closes it. -/
  code : List Text
  /-- The number of the line that closes it. -/
  line : Nat
deriving DecidableEq

/-- The lines from the first one on that opens a segment. -/
def fromOpening (opens : Text → Bool) (ls : List (Text × Nat)) : List (Text × Nat) :=
  ls.dropWhile fun l ↦ !opens l.1

/-- The texts of the lines before the first one that closes a segment. -/
def beforeClosing (closes : Text → Bool) (ls : List (Text × Nat)) : List Text :=
  (ls.takeWhile fun l ↦ !closes l.1).map Prod.fst

/-- The lines from the first one on that closes a segment. -/
def fromClosing (closes : Text → Bool) (ls : List (Text × Nat)) : List (Text × Nat) :=
  ls.dropWhile fun l ↦ !closes l.1

/-- The closed segments of numbered lines of code.  Each one begins with the first line that opens
one, behind the segment before it, and ends with the first line from there on that closes one. -/
def segments (opens closes : Text → Bool) (ls : List (Text × Nat)) : List Segment :=
  match _h : fromClosing closes (fromOpening opens ls) with
  | [] => []
  | last :: after =>
    ⟨beforeClosing closes (fromOpening opens ls) ++ [last.1], last.2⟩ ::
      segments opens closes after
termination_by ls.length
decreasing_by
  have h₁ : (fromClosing closes (fromOpening opens ls)).length ≤ (fromOpening opens ls).length :=
    (List.dropWhile_sublist _).length_le
  have h₂ : (fromOpening opens ls).length ≤ ls.length := (List.dropWhile_sublist _).length_le
  rw [_h, List.length_cons] at h₁
  omega

/-- The closed segments of the lines to come, when the given lines of code stand between the line
that opened the first segment and them. -/
def segmentsAfter (opens closes : Text → Bool) (earlier : List Text) (ls : List (Text × Nat)) :
    List Segment :=
  match fromClosing closes ls with
  | [] => []
  | last :: after =>
    ⟨earlier ++ beforeClosing closes ls ++ [last.1], last.2⟩ :: segments opens closes after

variable {opens closes : Text → Bool} {t : Text} {n : Nat} {ls : List (Text × Nat)}

theorem segments_nil : segments opens closes [] = [] := by
  rw [segments.eq_def]
  rfl

/-- A line that opens no segment is passed over. -/
theorem segments_cons_of_not_opens (h : opens t = false) :
    segments opens closes ((t, n) :: ls) = segments opens closes ls := by
  have hfrom : fromOpening opens ((t, n) :: ls) = fromOpening opens ls := by
    simp [fromOpening, h]
  rw [segments.eq_def, hfrom, ← segments.eq_def]

/-- A line that opens a segment is the first one that may close it. -/
theorem segments_cons_of_opens (h : opens t = true) :
    segments opens closes ((t, n) :: ls) = segmentsAfter opens closes [] ((t, n) :: ls) := by
  have hfrom : fromOpening opens ((t, n) :: ls) = (t, n) :: ls := by
    simp [fromOpening, h]
  rw [segments.eq_def, hfrom, segmentsAfter]
  split
  · rename_i h
    rw [h]
  · rename_i h
    rw [h]
    rfl

theorem segmentsAfter_cons_of_closes (earlier : List Text) (h : closes t = true) :
    segmentsAfter opens closes earlier ((t, n) :: ls) =
      ⟨earlier ++ [t], n⟩ :: segments opens closes ls := by
  simp [segmentsAfter, fromClosing, beforeClosing, h]

theorem segmentsAfter_cons_of_not_closes (earlier : List Text) (h : closes t = false) :
    segmentsAfter opens closes earlier ((t, n) :: ls) =
      segmentsAfter opens closes (earlier ++ [t]) ls := by
  simp [segmentsAfter, fromClosing, beforeClosing, h]

/-! ## The scanner -/

/-- What a block has from its segment: its parts and the number of its last line. -/
def Block.found (b : Block) : List Text × Nat := (b.parts, b.line)

/-- What is found in a segment, if its lines, joined by single blanks, are recognised. -/
def BlockKind.read? (kind : BlockKind) (s : Segment) : Option (List Text × Nat) :=
  (kind.parts? (Text.joinWith [' '] s.code)).map fun parts ↦ (parts, s.line)

namespace Scanner

/-- What a scanner is still to find, when the given lines of code are to come. -/
def yetToFind (kind : BlockKind) (s : Scanner) (ls : List (Text × Nat)) :
    List (List Text × Nat) :=
  (match s.pending with
    | none => segments kind.opens kind.closes ls
    | some earlier => segmentsAfter kind.opens kind.closes earlier.reverse ls).filterMap kind.read?

theorem yetToFind_of_none {kind : BlockKind} {s : Scanner} (h : s.pending = none)
    (ls : List (Text × Nat)) :
    s.yetToFind kind ls = (segments kind.opens kind.closes ls).filterMap kind.read? := by
  simp only [yetToFind, h]

theorem yetToFind_of_some {kind : BlockKind} {s : Scanner} {earlier : List Text}
    (h : s.pending = some earlier) (ls : List (Text × Nat)) :
    s.yetToFind kind ls =
      (segmentsAfter kind.opens kind.closes earlier.reverse ls).filterMap kind.read? := by
  simp only [yetToFind, h]

/-- Whether a block comes of closing a declaration or not, the scanner is outside of one then. -/
theorem close_found (kind : BlockKind) (s : Scanner) (earlier : List Text) (n : Nat)
    (ls : List (Text × Nat)) :
    (s.close kind earlier n).2.toList.map Block.found ++
        (s.close kind earlier n).1.yetToFind kind ls =
      ((⟨earlier.reverse, n⟩ : Segment) :: segments kind.opens kind.closes ls).filterMap
        kind.read? := by
  rw [close, List.filterMap_cons, BlockKind.read?.eq_def kind ⟨earlier.reverse, n⟩]
  cases kind.parts? (Text.joinWith [' '] earlier.reverse) with
  | none => rfl
  | some parts => rfl

/-- A block found at a line of code is the first one that there was to find. -/
theorem code_found (kind : BlockKind) (s : Scanner) (t : Text) (n : Nat)
    (ls : List (Text × Nat)) :
    (s.code kind t n).2.toList.map Block.found ++ (s.code kind t n).1.yetToFind kind ls =
      s.yetToFind kind ((t, n) :: ls) := by
  cases hpending : s.pending with
  | some earlier =>
    rw [yetToFind_of_some hpending]
    cases hcloses : kind.closes t with
    | true =>
      rw [segmentsAfter_cons_of_closes _ hcloses, ← List.reverse_cons]
      simp only [code, hpending, hcloses, if_true]
      exact close_found kind s (t :: earlier) n ls
    | false =>
      rw [segmentsAfter_cons_of_not_closes _ hcloses, ← List.reverse_cons]
      simp only [code, hpending, hcloses, Bool.false_eq_true, if_false]
      rfl
  | none =>
    rw [yetToFind_of_none hpending]
    cases hopens : kind.opens t with
    | false =>
      rw [segments_cons_of_not_opens hopens]
      simp only [code, hpending, hopens, Bool.false_eq_true, if_false]
      rfl
    | true =>
      rw [segments_cons_of_opens hopens]
      cases hcloses : kind.closes t with
      | true =>
        rw [segmentsAfter_cons_of_closes _ hcloses]
        simp only [code, hpending, hopens, hcloses, if_true]
        exact close_found kind s [t] n ls
      | false =>
        rw [segmentsAfter_cons_of_not_closes _ hcloses]
        simp only [code, hpending, hopens, hcloses, Bool.false_eq_true, if_false, if_true]
        rfl

theorem close_withComment (kind : BlockKind) (s : Scanner) (earlier : List Text) (n : Nat)
    (b : Bool) : { s with inComment := b }.close kind earlier n =
      ({ (s.close kind earlier n).1 with inComment := b }, (s.close kind earlier n).2) := by
  simp only [close]
  cases kind.parts? (Text.joinWith [' '] earlier.reverse) <;> rfl

/-- Whether a comment is open makes no difference to what a scanner does with code. -/
theorem code_withComment (kind : BlockKind) (s : Scanner) (t : Text) (n : Nat) (b : Bool) :
    { s with inComment := b }.code kind t n =
      ({ (s.code kind t n).1 with inComment := b }, (s.code kind t n).2) := by
  obtain ⟨doc, pending, inComment⟩ := s
  have hclose := close_withComment kind ⟨doc, pending, inComment⟩
  cases pending with
  | some earlier =>
    cases hcloses : kind.closes t with
    | true =>
      simp only [code, hcloses, if_true]
      exact hclose _ n b
    | false => simp only [code, hcloses, Bool.false_eq_true, if_false]
  | none =>
    cases hopens : kind.opens t with
    | false => simp only [code, hopens, Bool.false_eq_true, if_false]
    | true =>
      cases hcloses : kind.closes t with
      | true =>
        simp only [code, hopens, hcloses, if_true]
        exact hclose _ n b
      | false => simp only [code, hopens, hcloses, Bool.false_eq_true, if_false, if_true]

/-- Code has no influence on whether a comment is open. -/
theorem code_inComment (kind : BlockKind) (s : Scanner) (t : Text) (n : Nat) :
    (s.code kind t n).1.inComment = s.inComment :=
  congrArg (fun r ↦ r.1.inComment) (code_withComment kind s t n s.inComment)

/-- A step of the scanner is a step of the first stage, followed by one of the second if the line
has code.  What becomes of the documentation comment is left open. -/
theorem step_eq (kind : BlockKind) (s : Scanner) (raw : Text) (n : Nat) :
    ∃ doc, s.step kind raw n =
      let next : Scanner := ⟨doc, s.pending, (lineCode s.inComment raw).2⟩
      if (lineCode s.inComment raw).1.isEmpty then (next, none)
      else next.code kind (lineCode s.inComment raw).1 n := by
  obtain ⟨doc, pending, inComment⟩ := s
  cases hline : Line.classify raw <;> cases inComment <;>
    simp only [step, lineCode, hline] <;> exact ⟨_, rfl⟩

/-- What one line adds to what is found. -/
theorem step_found (kind : BlockKind) (s : Scanner) (raw : Text) (n : Nat) (rest : List Text) :
    (s.step kind raw n).2.toList.map Block.found ++
        (s.step kind raw n).1.yetToFind kind
          (codeLinesFrom (s.step kind raw n).1.inComment (n + 1) rest) =
      s.yetToFind kind (codeLinesFrom s.inComment n (raw :: rest)) := by
  obtain ⟨doc, hstep⟩ := step_eq kind s raw n
  rw [hstep, codeLinesFrom_cons]
  split
  · rfl
  · rw [code_inComment, code_found]
    rfl

/-- **A scanner in any state finds what is still to be found.** -/
theorem run_found (kind : BlockKind) (raws : List Text) : ∀ (s : Scanner) (n : Nat),
    (s.run kind n raws).map Block.found =
      s.yetToFind kind (codeLinesFrom s.inComment n raws) := by
  induction raws with
  | nil =>
    intro s n
    cases hpending : s.pending with
    | none =>
      rw [yetToFind_of_none hpending]
      exact (congrArg (List.filterMap kind.read?) segments_nil).symm
    | some earlier =>
      rw [yetToFind_of_some hpending]
      rfl
  | cons raw rest ih =>
    intro s n
    rw [run, List.map_append, ih, step_found]

end Scanner

/-- **The blocks of a header are the recognised segments of its code**, in order.  A kind of
declaration comes in only behind the first stage: its two tests cut the code into segments, and
its parts are read from each of them. -/
theorem blocks_eq_segments (kind : BlockKind) (t : Text) :
    (blocks kind t).map Block.found =
      (segments kind.opens kind.closes (codeLines t)).filterMap kind.read? :=
  Scanner.run_found kind t.lines Scanner.start 1

end HeaderBindings
