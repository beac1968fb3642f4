import HeaderBindings.Header.Line
import HeaderBindings.Proofs.Text.Words

/-!
# The comments of a line

A line is freed of comments by searching it for marks: a mark is found, the text in front of it is
code or comment as a whole, and the search goes on behind it.  This file compares that with reading
the line from the left, one character after the other.

* `dropComments_eq`: what is left of a line is `withoutComments`, which looks at no more than two
  characters at a time.  Proofs about declarations use that form.
* `codesOf_eq_readLines`: over any lines, what is left of each is what an automaton of five states
  keeps of it, and a block comment is open behind a line exactly if the automaton is in one.

The automaton does not see two characters at once, so it remembers the first character of a mark as
a state of its own.  The invariant that carries the proof is that the character so remembered,
`CommentState.pending`, stands in front of what is still to be read.
-/

set_option autoImplicit false

namespace HeaderBindings

/-! ## Where the first mark is -/

theorem behindComment?_closing (t : Text) : behindComment? true ('*' :: '/' :: t) = some t := by
  have hclosing : Text.splitAtFirst? ('*' :: '/' :: t) "*/" = some ([], t) :=
    @Text.splitAtFirst?_append "*/" (by decide) t
  rw [behindComment?, if_pos rfl, hclosing]
  rfl

theorem behindComment?_cons {c : Char} {t : Text} (h : ¬("*/" : Text) <+: c :: t) :
    behindComment? true (c :: t) = behindComment? true t := by
  simp only [behindComment?, if_true, Text.splitAtFirst?_cons h, Option.map_map]
  rfl

theorem beforeFirstComment_line (t : Text) :
    beforeFirstComment ('/' :: '/' :: t) = ([], none) := by
  have hline : Text.splitAtFirst? ('/' :: '/' :: t) "//" = some ([], t) :=
    @Text.splitAtFirst?_append "//" (by decide) t
  have hblock : ¬("/*" : Text) <+: '/' :: '/' :: t := by simp
  rw [beforeFirstComment, hline, Text.splitAtFirst?_cons hblock]
  cases Text.splitAtFirst? ('/' :: t) "/*" <;> simp

theorem beforeFirstComment_block (t : Text) :
    beforeFirstComment ('/' :: '*' :: t) = ([], some t) := by
  have hline : ¬("//" : Text) <+: '/' :: '*' :: t := by simp
  have hblock : Text.splitAtFirst? ('/' :: '*' :: t) "/*" = some ([], t) :=
    @Text.splitAtFirst?_append "/*" (by decide) t
  rw [beforeFirstComment, hblock, Text.splitAtFirst?_cons hline]
  cases Text.splitAtFirst? ('*' :: t) "//" <;> simp

theorem beforeFirstComment_cons {c : Char} {t : Text} (hline : ¬("//" : Text) <+: c :: t)
    (hblock : ¬("/*" : Text) <+: c :: t) :
    beforeFirstComment (c :: t) = (c :: (beforeFirstComment t).1, (beforeFirstComment t).2) := by
  rw [beforeFirstComment, beforeFirstComment, Text.splitAtFirst?_cons hline,
    Text.splitAtFirst?_cons hblock]
  cases Text.splitAtFirst? t "//" <;> cases Text.splitAtFirst? t "/*" <;>
    simp only [Option.map_none, Option.map_some, List.length_cons, Nat.add_lt_add_iff_right]
  split <;> rfl

/-! ## Reading from the left -/

/-- What is left of a line without its comments, and whether a block comment stays open after it,
read from the left. -/
def withoutComments : Bool → Text → Text × Bool
  | inComment, [] => ([], inComment)
  | true, '*' :: '/' :: t => withoutComments false t
  | true, _ :: t => withoutComments true t
  | false, '/' :: '/' :: _ => ([], false)
  | false, '/' :: '*' :: t =>
    let (rest, stays) := withoutComments true t
    (' ' :: rest, stays)
  | false, c :: t =>
    let (rest, stays) := withoutComments false t
    (c :: rest, stays)

/-- A mark does not begin a text whose first two characters are others. -/
theorem not_prefix_cons {a b c : Char} {t : Text} (h : ∀ s, c = a → t = b :: s → False) :
    ¬[a, b] <+: c :: t := by
  rintro ⟨s, hs⟩
  obtain ⟨hc, ht⟩ := List.cons.inj hs
  exact h s hc.symm ht.symm

/-- A text that begins inside a comment is read as code behind the first closing mark. -/
theorem withoutComments_behind (inComment : Bool) (t : Text) : withoutComments inComment t =
    match behindComment? inComment t with
    | none => ([], true)
    | some inCode => withoutComments false inCode := by
  cases inComment with
  | false => rfl
  | true =>
    induction t with
    | nil => rfl
    | cons c t ih =>
      by_cases h : ∃ s, c = '*' ∧ t = '/' :: s
      · obtain ⟨s, rfl, rfl⟩ := h
        rw [withoutComments, behindComment?_closing]
      · have hnot : ∀ s, c = '*' → t = '/' :: s → False := fun s hc ht ↦ h ⟨s, hc, ht⟩
        rw [withoutComments, ih, behindComment?_cons (not_prefix_cons hnot)]
        exact hnot

/-- Code is read up to the first comment, and if that is a block comment, what stands behind its
opening mark is read from inside of it. -/
theorem withoutComments_beforeFirst (t : Text) : withoutComments false t =
    match beforeFirstComment t with
    | (code, none) => (code, false)
    | (code, some rest) =>
      (code ++ ' ' :: (withoutComments true rest).1, (withoutComments true rest).2) := by
  induction t with
  | nil => rfl
  | cons c t ih =>
    by_cases hline : ∃ s, c = '/' ∧ t = '/' :: s
    · obtain ⟨s, rfl, rfl⟩ := hline
      rw [withoutComments, beforeFirstComment_line]
    by_cases hblock : ∃ s, c = '/' ∧ t = '*' :: s
    · obtain ⟨s, rfl, rfl⟩ := hblock
      rw [withoutComments, beforeFirstComment_block]
      rfl
    have hnotLine : ∀ s, c = '/' → t = '/' :: s → False := fun s hc ht ↦ hline ⟨s, hc, ht⟩
    have hnotBlock : ∀ s, c = '/' → t = '*' :: s → False := fun s hc ht ↦ hblock ⟨s, hc, ht⟩
    rw [withoutComments, ih,
      beforeFirstComment_cons (not_prefix_cons hnotLine) (not_prefix_cons hnotBlock)]
    · obtain ⟨code, rest?⟩ := beforeFirstComment t
      cases rest? <;> rfl
    · exact hnotLine
    · exact hnotBlock

/-- **Searching for marks is reading from the left.** -/
theorem dropComments_eq (inComment : Bool) (t : Text) :
    dropComments inComment t = withoutComments inComment t := by
  fun_induction dropComments inComment t with
  | case1 inComment t hbehind => rw [withoutComments_behind, hbehind]
  | case2 inComment t inCode hbehind code hbefore =>
    rw [withoutComments_behind, hbehind]
    simp only [withoutComments_beforeFirst inCode, hbefore]
  | case3 inComment t inCode hbehind code rest hbefore more stays hmore ih =>
    rw [withoutComments_behind, hbehind]
    simp only [withoutComments_beforeFirst inCode, hbefore, ← ih, hmore]

theorem codeOf_eq (inComment : Bool) (raw : Text) : codeOf inComment raw =
    ((withoutComments inComment raw).1.trim, (withoutComments inComment raw).2) := by
  rw [codeOf, dropComments_eq]

/-! ## No mark is left -/

/-- What is left begins like the text, unless it begins with the blank of a comment. -/
theorem head?_withoutComments {c : Char} (hc : c ≠ ' ') (t : Text)
    (h : c ∈ (withoutComments false t).1.head?) : c ∈ t.head? := by
  cases t with
  | nil => exact h
  | cons d t =>
    rw [withoutComments.eq_def] at h
    split at h
    all_goals simp_all [eq_comm]

/-- **No opening mark is left.** -/
theorem not_mark_infix_withoutComments {mark : Char} (hmark : mark = '/' ∨ mark = '*')
    (inComment : Bool) (t : Text) : ¬['/', mark] <:+: (withoutComments inComment t).1 := by
  have hblank : mark ≠ ' ' := by rintro rfl; simp at hmark
  fun_induction withoutComments inComment t with
  | case1 inComment => simp
  | case2 t ih => exact ih
  | case3 c t hclosing ih => exact ih
  | case4 t => simp
  | case5 t rest stays hrest ih =>
    rw [hrest] at ih
    rw [List.infix_cons_iff]
    rintro (h | h)
    · simp at h
    · exact ih h
  | case6 c t hline hblock rest stays hrest ih =>
    rw [hrest] at ih
    rw [List.infix_cons_iff]
    rintro (h | h)
    · obtain ⟨s, hs⟩ := h
      obtain ⟨rfl, rfl⟩ := List.cons.inj hs
      have hhead : mark ∈ (withoutComments false t).1.head? := by rw [hrest]; rfl
      obtain ⟨t, rfl⟩ := List.head?_eq_some_iff.1 (head?_withoutComments hblank t hhead)
      rcases hmark with rfl | rfl
      · exact hline t rfl rfl
      · exact hblock t rfl rfl
    · exact ih h

/-! ## The automaton -/

/-- What an automaton knows that reads the lines of a header one character after the other. -/
inductive CommentState where
  /-- It is in code. -/
  | code
  /-- It is in code, behind a slash that may be the first character of a mark. -/
  | slash
  /-- It is in a line comment. -/
  | lineComment
  /-- It is in a block comment. -/
  | blockComment
  /-- It is in a block comment, behind a star that may be the first character of its closing
  mark. -/
  | star
deriving DecidableEq

namespace CommentState

/-- The state before a line that begins inside a block comment or in code. -/
def start (inComment : Bool) : CommentState := if inComment then .blockComment else .code

/-- The automaton is in a block comment. -/
def isInComment : CommentState → Bool
  | .blockComment => true
  | .star => true
  | _ => false

/-- What a character keeps, and the state behind it.  Each of the two characters of a mark is read
once, so a mark does not share a character with the mark in front of it. -/
def step : CommentState → Char → Text × CommentState
  | .code, '/' => ([], .slash)
  | .code, c => ([c], .code)
  | .slash, '/' => ([], .lineComment)
  | .slash, '*' => ([' '], .blockComment)
  | .slash, c => (['/', c], .code)
  | .lineComment, _ => ([], .lineComment)
  | .blockComment, '*' => ([], .star)
  | .blockComment, _ => ([], .blockComment)
  | .star, '/' => ([], .code)
  | .star, '*' => ([], .star)
  | .star, _ => ([], .blockComment)

/-- What the end of a line keeps, and the state behind it.  A mark does not go on in the next line,
and a line comment does not either. -/
def endLine : CommentState → Text × CommentState
  | .code => ([], .code)
  | .slash => (['/'], .code)
  | .lineComment => ([], .code)
  | .blockComment => ([], .blockComment)
  | .star => ([], .blockComment)

/-- What is kept of a line, and the state behind its end. -/
def readLine : CommentState → Text → Text × CommentState
  | s, [] => s.endLine
  | s, c :: t =>
    ((s.step c).1 ++ ((s.step c).2.readLine t).1, ((s.step c).2.readLine t).2)

/-- What is kept of each line, and the state behind it. -/
def readLines : CommentState → List Text → List (Text × CommentState)
  | _, [] => []
  | s, raw :: raws => s.readLine raw :: (s.readLine raw).2.readLines raws

/-- What is read of a mark. -/
def pending : CommentState → Text
  | .slash => ['/']
  | .star => ['*']
  | _ => []

theorem readLine_lineComment (t : Text) : readLine .lineComment t = ([], .code) := by
  induction t with
  | nil => rfl
  | cons c t ih => rw [readLine, step, ih]; rfl

/-- Behind the end of a line the automaton is in code or in a block comment. -/
theorem start_isInComment_readLine (s : CommentState) (t : Text) :
    start (s.readLine t).2.isInComment = (s.readLine t).2 := by
  induction t generalizing s with
  | nil => cases s <;> rfl
  | cons c t ih => exact ih (s.step c).2

/-- A line comment begins with a second slash only. -/
theorem eq_of_step_eq_lineComment {s : CommentState} {c : Char} (hs : s ≠ .lineComment)
    (h : (s.step c).2 = .lineComment) : s = .slash ∧ c = '/' := by
  revert h
  fun_cases step s c <;> simp_all

/-- **One step of the automaton.**  A character takes what is read of a mark, with all that is still
to come, to what it keeps of them and to what is read of the next mark. -/
theorem withoutComments_step {s : CommentState} {c : Char} (hs : s ≠ .lineComment)
    (hstep : (s.step c).2 ≠ .lineComment) (t : Text) :
    withoutComments s.isInComment (s.pending ++ c :: t) =
      ((s.step c).1 ++
          (withoutComments (s.step c).2.isInComment ((s.step c).2.pending ++ t)).1,
        (withoutComments (s.step c).2.isInComment ((s.step c).2.pending ++ t)).2) := by
  revert hstep
  fun_cases step s c with
  | case6 => exact absurd rfl hs
  | case3 => exact fun hstep ↦ absurd rfl hstep
  | _ => intro; simp_all [pending, isInComment, withoutComments]

/-- **The invariant of the automaton.**  Reading on keeps what is left of the text to come, with
what is read of a mark in front of it. -/
theorem readLine_eq (t : Text) : ∀ {s : CommentState}, s ≠ .lineComment →
    ((s.readLine t).1, (s.readLine t).2.isInComment) =
      withoutComments s.isInComment (s.pending ++ t) := by
  induction t with
  | nil =>
    intro s hs
    cases s
    case lineComment => exact absurd rfl hs
    all_goals rfl
  | cons c t ih =>
    intro s hs
    rw [readLine]
    by_cases hstep : (s.step c).2 = .lineComment
    · -- Nothing more is read of the line, and the invariant ends here.
      obtain ⟨rfl, rfl⟩ := eq_of_step_eq_lineComment hs hstep
      rw [hstep, readLine_lineComment]
      rfl
    · rw [withoutComments_step hs hstep, ← ih hstep]

end CommentState

/-- The code of each line, and whether a block comment stays open behind it, when the first of the
given lines begins inside of one or not. -/
def codesOf : Bool → List Text → List (Text × Bool)
  | _, [] => []
  | inComment, raw :: raws => codeOf inComment raw :: codesOf (codeOf inComment raw).2 raws

theorem codeOf_eq_readLine (inComment : Bool) (raw : Text) :
    codeOf inComment raw = (((CommentState.start inComment).readLine raw).1.trim,
      ((CommentState.start inComment).readLine raw).2.isInComment) := by
  have hread : (((CommentState.start inComment).readLine raw).1,
      ((CommentState.start inComment).readLine raw).2.isInComment) =
        withoutComments inComment raw := by
    cases inComment
    · exact CommentState.readLine_eq raw (by decide)
    · exact CommentState.readLine_eq raw (by decide)
  rw [codeOf_eq, ← hread]

theorem exists_codeOf_of_mem {code : Text} {raws : List Text} : ∀ {inComment : Bool},
    code ∈ (codesOf inComment raws).map Prod.fst →
      ∃ raw inComment, (codeOf inComment raw).1 = code := by
  induction raws with
  | nil => intro inComment h; exact absurd h List.not_mem_nil
  | cons raw raws ih =>
    intro inComment h
    rw [codesOf, List.map_cons, List.mem_cons] at h
    rcases h with rfl | h
    · exact ⟨raw, inComment, rfl⟩
    · exact ih h

/-- **What is left of lines is what the automaton keeps of them**, without outer blanks.  A block
comment is open behind a line exactly if the automaton is in one, and no opening mark is left. -/
theorem codesOf_eq_readLines (inComment : Bool) (raws : List Text) :
    codesOf inComment raws = ((CommentState.start inComment).readLines raws).map
      (fun (kept, s) ↦ (kept.trim, s.isInComment)) ∧
    ∀ code ∈ (codesOf inComment raws).map Prod.fst,
      ¬("//" : Text) <:+: code ∧ ¬("/*" : Text) <:+: code := by
  constructor
  · induction raws generalizing inComment with
    | nil => rfl
    | cons raw raws ih =>
      rw [codesOf, ih, codeOf_eq_readLine, CommentState.start_isInComment_readLine]
      rfl
  · intro code hcode
    obtain ⟨raw, inComment, rfl⟩ := exists_codeOf_of_mem hcode
    rw [codeOf_eq]
    have htrim (t : Text) : t.trim <:+: t :=
      (Text.trimEnd_prefix _).isInfix.trans (List.dropWhile_suffix _).isInfix
    exact ⟨fun h ↦ not_mark_infix_withoutComments (.inl rfl) _ _ (h.trans (htrim _)),
      fun h ↦ not_mark_infix_withoutComments (.inr rfl) _ _ (h.trans (htrim _))⟩

/-- Lines on which marks overlap, and a comment that ends where another one could begin. -/
def overlappingLines : List Text :=
  ["a /*/ b", "c **/ d //* e", "f /* g */ h /* i", "*// j"]

/-- What is left of the overlapping lines. -/
def overlappingCodes : List (Text × Bool) :=
  [("a", true), ("d", false), ("f   h", true), ("/ j", false)]

theorem codesOf_eq_readLines_overlapping :
    codesOf false overlappingLines = overlappingCodes ∧
    ((CommentState.start false).readLines overlappingLines).map
      (fun (kept, s) ↦ (kept.trim, s.isInComment)) = overlappingCodes ∧
    ¬("//" : Text) <:+: "/ j".toList ∧ ¬("/*" : Text) <:+: "/ j".toList := by
  have hcodes : codesOf false overlappingLines = overlappingCodes := by decide +kernel
  obtain ⟨hread, hmarks⟩ := codesOf_eq_readLines false overlappingLines
  exact ⟨hcodes, hread.symm.trans hcodes,
    hmarks _ (by rw [hcodes]; simp [overlappingCodes])⟩

end HeaderBindings
