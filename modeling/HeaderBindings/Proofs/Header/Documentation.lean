import Mathlib.Data.List.Basic
import Mathlib.Data.List.TakeWhile
import HeaderBindings.Header.Enums
import HeaderBindings.Proofs.Header.Segments

/-!
# Which documentation a declaration gets

`blocks` joins a documentation comment to every declaration it finds.  This file says which one, in
three stages.

* **What a header is made of**, `lexemes`: lines of code, and the lines of documentation comments
  that stand outside of other comments.  Nothing else in a header has any influence.
* **Where the declarations stand**, `passages`.  Each one has a `lead`, from the end of the
  declaration before it, and a `body`, from the line that opens it to the one that closes it.
  Without the comments these are the segments of the code (`segments_codeLines`).
* **What is joined to them**, `documented`.  The lines of the latest comment are handed from passage
  to passage, and only a declaration that is recognised uses them up.

`doc_of_mem_blocks` says that this is what `blocks` does, and when a declaration gets the comment
right in front of it, or none if there is other code in between.  There are two ways to miss that
comment.  A comment inside a declaration takes its place, and behind a declaration that is not
recognised the comment is still there to be joined to the next one.
-/

set_option autoImplicit false

namespace HeaderBindings

/-! ## What a header is made of -/

/-- A line that a scanner takes notice of. -/
inductive Lexeme where
  /-- The first line of a documentation comment. -/
  | docStart (text : Text)
  /-- A further line of a documentation comment. -/
  | docMore (text : Text)
  /-- A line of code, with its number. -/
  | code (text : Text) (line : Nat)
deriving DecidableEq

namespace Lexeme

/-- A line of a documentation comment. -/
def isDoc : Lexeme → Bool
  | docStart _ => true
  | docMore _ => true
  | code _ _ => false

/-- The code of a line of code. -/
def code? : Lexeme → Option Text
  | code t _ => some t
  | _ => none

/-- A line of code that satisfies `p`. -/
def codeIs (p : Text → Bool) (l : Lexeme) : Bool := l.code?.any p

/-- The number of a line of code. -/
def number : Lexeme → Nat
  | code _ n => n
  | _ => 0

theorem eq_code_of_codeIs {p : Text → Bool} {l : Lexeme} (h : l.codeIs p = true) :
    ∃ t n, l = code t n ∧ p t = true := by
  cases l with
  | docStart t => exact absurd h (by simp [codeIs, code?])
  | docMore t => exact absurd h (by simp [codeIs, code?])
  | code t n => exact ⟨t, n, rfl, h⟩

end Lexeme

/-- What a scanner takes notice of in the line with the given number. -/
def lexeme? (inComment : Bool) (raw : Text) (n : Nat) : Option Lexeme :=
  match Line.classify raw, inComment with
  | .docStart t, false => some (.docStart t)
  | .docMore t, false => some (.docMore t)
  | _, _ =>
    let t := (lineCode inComment raw).1
    if t.isEmpty then none else some (.code t n)

/-- The lexemes of lines of which the first has the given number. -/
def lexemesFrom : Bool → Nat → List Text → List Lexeme
  | _, _, [] => []
  | inComment, n, raw :: rest =>
    (lexeme? inComment raw n).toList ++ lexemesFrom (lineCode inComment raw).2 (n + 1) rest

/-- The lexemes of a header. -/
def lexemes (t : Text) : List Lexeme := lexemesFrom false 1 t.lines

/-! ## Where the declarations stand -/

/-- A declaration, and what stands between it and the one before it. -/
structure Passage where
  /-- What stands in front of the declaration. -/
  lead : List Lexeme
  /-- The declaration, from the line that opens it to the one that closes it. -/
  body : List Lexeme
  /-- The number of the line that closes it. -/
  line : Nat
deriving DecidableEq

/-- The code lines of a declaration. -/
def Passage.code (p : Passage) : List Text := p.body.filterMap Lexeme.code?

/-- The lexemes before the first code that satisfies `p`. -/
def beforeCode (p : Text → Bool) (ls : List Lexeme) : List Lexeme :=
  ls.takeWhile fun l ↦ !l.codeIs p

/-- The lexemes from the first code on that satisfies `p`. -/
def fromCode (p : Text → Bool) (ls : List Lexeme) : List Lexeme :=
  ls.dropWhile fun l ↦ !l.codeIs p

theorem length_fromCode_le (p : Text → Bool) (ls : List Lexeme) :
    (fromCode p ls).length ≤ ls.length :=
  (List.dropWhile_sublist _).length_le

theorem beforeCode_append_fromCode (p : Text → Bool) (ls : List Lexeme) :
    beforeCode p ls ++ fromCode p ls = ls :=
  List.takeWhile_append_dropWhile

theorem codeIs_of_mem_beforeCode {p : Text → Bool} {ls : List Lexeme} :
    ∀ l ∈ beforeCode p ls, l.codeIs p = false := by
  intro l hl
  simpa using List.mem_takeWhile_imp hl

theorem exists_code_of_fromCode {p : Text → Bool} {ls after : List Lexeme} {l : Lexeme}
    (h : fromCode p ls = l :: after) : ∃ t n, l = .code t n ∧ p t = true := by
  have hl := List.head?_dropWhile_not (fun l : Lexeme ↦ !l.codeIs p) ls
  rw [← fromCode, h] at hl
  exact Lexeme.eq_code_of_codeIs (by simpa using hl)

/-- The passages of a header.  Each declaration begins with the first code that opens one, behind
the declaration before it, and ends with the first code from there on that closes one. -/
def passages (opens closes : Text → Bool) (ls : List Lexeme) : List Passage :=
  match _h : fromCode closes (fromCode opens ls) with
  | [] => []
  | last :: after =>
    ⟨beforeCode opens ls, beforeCode closes (fromCode opens ls) ++ [last], last.number⟩ ::
      passages opens closes after
termination_by ls.length
decreasing_by
  have h₁ := length_fromCode_le closes (fromCode opens ls)
  have h₂ := length_fromCode_le opens ls
  rw [_h, List.length_cons] at h₁
  omega

/-! ## Passages and segments -/

/-- The code of a line of code, with its number. -/
def Lexeme.numbered? : Lexeme → Option (Text × Nat)
  | code t n => some (t, n)
  | _ => none

theorem numbered_lexemesFrom (raws : List Text) : ∀ (inComment : Bool) (n : Nat),
    (lexemesFrom inComment n raws).filterMap Lexeme.numbered? = codeLinesFrom inComment n raws := by
  induction raws with
  | nil => exact fun _ _ ↦ rfl
  | cons raw rest ih =>
    intro inComment n
    rw [lexemesFrom, codeLinesFrom_cons, List.filterMap_append, ih]
    congr 1
    cases hline : Line.classify raw <;> cases inComment <;>
      simp only [lexeme?, lineCode, hline]
    all_goals first
      | rfl
      | split <;> rfl

theorem numbered_fromCode (p : Text → Bool) (ls : List Lexeme) :
    (fromCode p ls).filterMap Lexeme.numbered? =
      (ls.filterMap Lexeme.numbered?).dropWhile fun l ↦ !p l.1 := by
  induction ls with
  | nil => rfl
  | cons l ls ih =>
    cases l with
    | docStart t => exact ih
    | docMore t => exact ih
    | code t n =>
      show ((Lexeme.code t n :: ls).dropWhile _).filterMap _ =
        ((t, n) :: ls.filterMap Lexeme.numbered?).dropWhile _
      by_cases hp : p t = true
      · have hcode : (Lexeme.code t n).codeIs p = true := hp
        simp [hcode, hp, Lexeme.numbered?]
      · have hcode : ¬(Lexeme.code t n).codeIs p = true := hp
        rw [List.dropWhile_cons_of_pos (by simpa using hcode),
          List.dropWhile_cons_of_pos (by simpa using hp)]
        exact ih

theorem code_beforeCode (p : Text → Bool) (ls : List Lexeme) :
    (beforeCode p ls).filterMap Lexeme.code? =
      ((ls.filterMap Lexeme.numbered?).takeWhile fun l ↦ !p l.1).map Prod.fst := by
  induction ls with
  | nil => rfl
  | cons l ls ih =>
    cases l with
    | docStart t => exact ih
    | docMore t => exact ih
    | code t n =>
      show ((Lexeme.code t n :: ls).takeWhile _).filterMap _ =
        (((t, n) :: ls.filterMap Lexeme.numbered?).takeWhile _).map _
      by_cases hp : p t = true
      · have hcode : (Lexeme.code t n).codeIs p = true := hp
        simp [hcode, hp]
      · have hcode : ¬(Lexeme.code t n).codeIs p = true := hp
        rw [List.takeWhile_cons_of_pos (by simpa using hcode),
          List.takeWhile_cons_of_pos (by simpa using hp)]
        exact congrArg (t :: ·) ih

/-- What is left of the passages without documentation comments are the segments of the code. -/
theorem segments_eq_passages (opens closes : Text → Bool) (ls : List Lexeme) :
    segments opens closes (ls.filterMap Lexeme.numbered?) =
      (passages opens closes ls).map fun p ↦ ⟨p.code, p.line⟩ := by
  fun_induction passages opens closes ls with
  | case1 ls hfrom =>
    rw [segments.eq_def, fromClosing, fromOpening, ← numbered_fromCode, ← numbered_fromCode, hfrom]
    rfl
  | case2 ls last after hfrom ih =>
    obtain ⟨t, n, rfl, -⟩ := exists_code_of_fromCode hfrom
    have hcode : (Passage.mk (beforeCode opens ls)
        (beforeCode closes (fromCode opens ls) ++ [.code t n]) n).code =
          beforeClosing closes (fromOpening opens (ls.filterMap Lexeme.numbered?)) ++ [t] := by
      rw [Passage.code, List.filterMap_append, code_beforeCode, numbered_fromCode]
      rfl
    have hclosing : fromClosing closes (fromOpening opens (ls.filterMap Lexeme.numbered?)) =
        (t, n) :: after.filterMap Lexeme.numbered? := by
      rw [fromClosing, fromOpening, ← numbered_fromCode, ← numbered_fromCode, hfrom]
      rfl
    rw [segments.eq_def, hclosing, List.map_cons]
    show _ :: segments opens closes (after.filterMap Lexeme.numbered?) = _
    rw [ih, ← hcode]
    rfl

/-- **The passages of a header are its segments**, with the documentation comments around them and
in them. -/
theorem segments_codeLines (opens closes : Text → Bool) (t : Text) :
    segments opens closes (codeLines t) =
      (passages opens closes (lexemes t)).map fun p ↦ ⟨p.code, p.line⟩ := by
  rw [codeLines, ← numbered_lexemesFrom]
  exact segments_eq_passages opens closes (lexemes t)

/-! ## What is joined to them -/

/-- The lines of the latest documentation comment, the last one first, behind more lexemes of a
declaration. -/
def docInside (doc : List Text) : List Lexeme → List Text
  | [] => doc
  | .docStart t :: ls => docInside [t] ls
  | .docMore t :: ls => docInside (t :: doc) ls
  | .code _ _ :: ls => docInside doc ls

/-- The lines of the latest documentation comment, the last one first, behind more lexemes outside
of declarations, where code drops it. -/
def docOutside (doc : List Text) : List Lexeme → List Text
  | [] => doc
  | .docStart t :: ls => docOutside [t] ls
  | .docMore t :: ls => docOutside (t :: doc) ls
  | .code _ _ :: ls => docOutside [] ls

theorem docInside_append (doc : List Text) (ls more : List Lexeme) :
    docInside doc (ls ++ more) = docInside (docInside doc ls) more := by
  induction ls generalizing doc with
  | nil => rfl
  | cons l ls ih => cases l <;> exact ih _

theorem docOutside_append (doc : List Text) (ls more : List Lexeme) :
    docOutside doc (ls ++ more) = docOutside (docOutside doc ls) more := by
  induction ls generalizing doc with
  | nil => rfl
  | cons l ls ih => cases l <;> exact ih _

/-- The lines that are joined to a declaration, if `doc` was handed on to its passage. -/
def Passage.docLines (doc : List Text) (p : Passage) : List Text :=
  docInside (docOutside doc p.lead) p.body

/-- The parts of a declaration, if it is recognised. -/
def BlockKind.recognise? (kind : BlockKind) (p : Passage) : Option (List Text) :=
  kind.parts? (Text.joinWith [' '] p.code)

/-- The recognised declarations with what is joined to them, if `doc` was handed on to the first
passage.  A declaration that is not recognised hands on what it would have got. -/
def documented (kind : BlockKind) (doc : List Text) : List Passage → List Block
  | [] => []
  | p :: ps =>
    match kind.recognise? p with
    | some parts =>
      ⟨parts, Scanner.docText (p.docLines doc), p.line⟩ :: documented kind [] ps
    | none => documented kind (p.docLines doc) ps

/-! ## The scanner works on lexemes -/

namespace Scanner

/-- Take in a lexeme. -/
def take (kind : BlockKind) (s : Scanner) : Lexeme → Scanner × Option Block
  | .docStart t => ({ s with doc := [t] }, none)
  | .docMore t => ({ s with doc := t :: s.doc }, none)
  | .code t n => s.code kind t n

/-- The blocks of the given lexemes. -/
def read (kind : BlockKind) : Scanner → List Lexeme → List Block
  | _, [] => []
  | s, l :: ls => (s.take kind l).2.toList ++ read kind (s.take kind l).1 ls

variable {kind : BlockKind} {s : Scanner} {ls : List Lexeme}

/-- What a scanner does with a line is what it does with the lexeme in it, if there is one. -/
theorem step_eq_take (kind : BlockKind) (s : Scanner) (raw : Text) (n : Nat) :
    s.step kind raw n =
      let next := { s with inComment := (lineCode s.inComment raw).2 }
      match lexeme? s.inComment raw n with
      | some l => next.take kind l
      | none => (next, none) := by
  obtain ⟨doc, pending, inComment⟩ := s
  cases hline : Line.classify raw <;> cases inComment <;>
    simp only [step, rawCode, lexeme?, lineCode, hline]
  all_goals first
    | rfl
    | split <;> rfl

theorem take_withComment (kind : BlockKind) (s : Scanner) (l : Lexeme) (b : Bool) :
    { s with inComment := b }.take kind l =
      ({ (s.take kind l).1 with inComment := b }, (s.take kind l).2) := by
  cases l with
  | docStart t => rfl
  | docMore t => rfl
  | code t n => exact code_withComment kind s t n b

theorem read_withComment (kind : BlockKind) (b : Bool) (ls : List Lexeme) : ∀ s : Scanner,
    { s with inComment := b }.read kind ls = s.read kind ls := by
  induction ls with
  | nil => exact fun _ ↦ rfl
  | cons l ls ih =>
    intro s
    rw [read, take_withComment, ih, read]

/-- A scanner in any state finds in lines what it finds in their lexemes. -/
theorem run_eq_read (kind : BlockKind) (raws : List Text) : ∀ (s : Scanner) (n : Nat),
    s.run kind n raws = s.read kind (lexemesFrom s.inComment n raws) := by
  induction raws with
  | nil => exact fun s n ↦ rfl
  | cons raw rest ih =>
    intro s n
    rw [run, step_eq_take, lexemesFrom]
    cases lexeme? s.inComment raw n with
    | none => exact (ih _ _).trans (read_withComment kind _ _ s)
    | some l =>
      show ({ s with inComment := (lineCode s.inComment raw).2 }.take kind l).2.toList ++
        run kind ({ s with inComment := (lineCode s.inComment raw).2 }.take kind l).1 (n + 1) rest =
          s.read kind (l :: lexemesFrom (lineCode s.inComment raw).2 (n + 1) rest)
      rw [take_withComment, ih, read_withComment, read]

/-! ## From one declaration to the next -/

variable {kind : BlockKind} {doc earlier : List Text} {inComment : Bool} {t : Text}
  {ls : List Lexeme}

/-- Outside of declarations a scanner is looking for code that opens one. -/
theorem read_lead {lead : List Lexeme} (hlead : ∀ l ∈ lead, l.codeIs kind.opens = false) :
    ∀ doc, read kind ⟨doc, none, inComment⟩ (lead ++ ls) =
      read kind ⟨docOutside doc lead, none, inComment⟩ ls := by
  induction lead with
  | nil => exact fun _ ↦ rfl
  | cons l lead ih =>
    intro doc
    have ih := ih fun l' hl' ↦ hlead l' (List.mem_cons_of_mem _ hl')
    rw [List.cons_append, read]
    cases l with
    | docStart t => exact ih [t]
    | docMore t => exact ih (t :: doc)
    | code t n =>
      have hopens : kind.opens t = false := hlead (.code t n) List.mem_cons_self
      have htake :
          take kind ⟨doc, none, inComment⟩ (.code t n) = (⟨[], none, inComment⟩, none) := by
        simp only [take, code, hopens, Bool.false_eq_true, if_false]
      rw [htake]
      exact ih []

/-- Inside of a declaration a scanner is looking for code that closes it. -/
theorem read_body {inner : List Lexeme} (hinner : ∀ l ∈ inner, l.codeIs kind.closes = false) :
    ∀ doc earlier, read kind ⟨doc, some earlier, inComment⟩ (inner ++ ls) =
      read kind ⟨docInside doc inner,
        some ((inner.filterMap Lexeme.code?).reverse ++ earlier), inComment⟩ ls := by
  induction inner with
  | nil => exact fun _ _ ↦ rfl
  | cons l inner ih =>
    intro doc earlier
    have ih := ih fun l' hl' ↦ hinner l' (List.mem_cons_of_mem _ hl')
    rw [List.cons_append, read]
    cases l with
    | docStart t => exact ih [t] earlier
    | docMore t => exact ih (t :: doc) earlier
    | code t n =>
      have hcloses : kind.closes t = false := hinner (.code t n) List.mem_cons_self
      have htake : take kind ⟨doc, some earlier, inComment⟩ (.code t n) =
          (⟨doc, some (t :: earlier), inComment⟩, none) := by
        simp only [take, code, hcloses, Bool.false_eq_true, if_false]
      have hcode : ((Lexeme.code t n :: inner).filterMap Lexeme.code?).reverse ++ earlier =
          (inner.filterMap Lexeme.code?).reverse ++ t :: earlier := by
        show (t :: inner.filterMap Lexeme.code?).reverse ++ earlier = _
        rw [List.reverse_cons, List.append_assoc]
        rfl
      rw [htake, hcode]
      exact ih doc (t :: earlier)

/-- The line that opens a declaration is the first one that may close it. -/
theorem read_opening (hopens : kind.opens t = true) (n : Nat) :
    read kind ⟨doc, none, inComment⟩ (.code t n :: ls) =
      read kind ⟨doc, some [], inComment⟩ (.code t n :: ls) := by
  have htake : take kind ⟨doc, none, inComment⟩ (.code t n) =
      take kind ⟨doc, some [], inComment⟩ (.code t n) := by
    simp only [take, code, hopens, if_true, close]
  rw [read, htake, read]

/-- The line that closes a declaration gives a block if the declaration is recognised. -/
theorem read_closing (hcloses : kind.closes t = true) (n : Nat) :
    read kind ⟨doc, some earlier, inComment⟩ (.code t n :: ls) =
      match kind.parts? (Text.joinWith [' '] (t :: earlier).reverse) with
      | some parts => ⟨parts, docText doc, n⟩ :: read kind ⟨[], none, inComment⟩ ls
      | none => read kind ⟨doc, none, inComment⟩ ls := by
  have htake : take kind ⟨doc, some earlier, inComment⟩ (.code t n) =
      close kind ⟨doc, some earlier, inComment⟩ (t :: earlier) n := by
    simp only [take, code, hcloses, if_true]
  rw [read, htake, close]
  cases kind.parts? (Text.joinWith [' '] (t :: earlier).reverse) <;> rfl

/-- A scanner gets to the line that opens the next declaration. -/
theorem read_fromOpening (ls : List Lexeme) :
    read kind ⟨doc, none, inComment⟩ ls =
      read kind ⟨docOutside doc (beforeCode kind.opens ls), some [], inComment⟩
        (fromCode kind.opens ls) := by
  have hlead :
      read kind ⟨doc, none, inComment⟩ (beforeCode kind.opens ls ++ fromCode kind.opens ls) = _ :=
    read_lead codeIs_of_mem_beforeCode doc
  rw [beforeCode_append_fromCode] at hlead
  rw [hlead]
  cases hfrom : fromCode kind.opens ls with
  | nil => rfl
  | cons l after =>
    obtain ⟨t, n, rfl, hopens⟩ := exists_code_of_fromCode hfrom
    exact read_opening hopens n

/-- A scanner gets to the line that closes the open declaration. -/
theorem read_fromClosing (ls : List Lexeme) :
    read kind ⟨doc, some [], inComment⟩ ls =
      read kind ⟨docInside doc (beforeCode kind.closes ls),
        some ((beforeCode kind.closes ls).filterMap Lexeme.code?).reverse, inComment⟩
        (fromCode kind.closes ls) := by
  have hbody :
      read kind ⟨doc, some [], inComment⟩
        (beforeCode kind.closes ls ++ fromCode kind.closes ls) = _ :=
    read_body codeIs_of_mem_beforeCode doc []
  rwa [beforeCode_append_fromCode, List.append_nil] at hbody

/-- **A scanner outside of declarations finds what is documented in the passages to come.** -/
theorem read_eq_documented (kind : BlockKind) (inComment : Bool) (ls : List Lexeme) : ∀ doc,
    read kind ⟨doc, none, inComment⟩ ls =
      documented kind doc (passages kind.opens kind.closes ls) := by
  fun_induction passages kind.opens kind.closes ls with
  | case1 ls hfrom =>
    intro doc
    rw [read_fromOpening, read_fromClosing, hfrom]
    rfl
  | case2 ls last after hfrom ih =>
    intro doc
    obtain ⟨t, n, rfl, hcloses⟩ := exists_code_of_fromCode hfrom
    have hcode (inner : List Lexeme) : (t :: (inner.filterMap Lexeme.code?).reverse).reverse =
        (inner ++ [Lexeme.code t n]).filterMap Lexeme.code? := by
      rw [List.reverse_cons, List.reverse_reverse, List.filterMap_append]
      rfl
    rw [read_fromOpening, read_fromClosing, hfrom, read_closing hcloses, hcode, ih, ih]
    rw [documented, Passage.docLines, docInside_append]
    rfl

end Scanner

/-! ## The comment right in front of a declaration -/

/-- The lines, the last one first, of the documentation comment that stands right in front of what
follows the given lexemes.  Behind other code there is none, and none at the beginning. -/
inductive RightInFront : List Lexeme → List Text → Prop
  | comment (earlier : List Lexeme) (first : Text) (more : List Text) :
    RightInFront (earlier ++ .docStart first :: more.map .docMore) (first :: more).reverse
  | code (earlier : List Lexeme) (t : Text) (n : Nat) : RightInFront (earlier ++ [.code t n]) []
  | nothing : RightInFront [] []

/-- What is handed on behind the given passages, if `doc` was handed on to the first one. -/
def handedOn (kind : BlockKind) (doc : List Text) : List Passage → List Text
  | [] => doc
  | p :: ps => if (kind.recognise? p).isSome then handedOn kind [] ps
    else handedOn kind (p.docLines doc) ps

variable {kind : BlockKind} {doc lines : List Text} {p : Passage} {ps : List Passage} {b : Block}

theorem docInside_of_forall {ls : List Lexeme} (h : ∀ l ∈ ls, l.isDoc = false) :
    docInside doc ls = doc := by
  induction ls with
  | nil => rfl
  | cons l ls ih =>
    have ih := ih fun l' hl' ↦ h l' (List.mem_cons_of_mem _ hl')
    cases l with
    | docStart t => exact absurd (h _ List.mem_cons_self) (by simp [Lexeme.isDoc])
    | docMore t => exact absurd (h _ List.mem_cons_self) (by simp [Lexeme.isDoc])
    | code t n => exact ih

theorem docOutside_map_docMore (more : List Text) :
    docOutside doc (more.map .docMore) = more.reverse ++ doc := by
  induction more generalizing doc with
  | nil => rfl
  | cons t more ih =>
    rw [List.map_cons, docOutside, ih, List.reverse_cons, List.append_assoc]
    rfl

/-- Outside of declarations the comment right in front is the latest one, whatever was handed on,
unless nothing at all stands in front. -/
theorem RightInFront.docOutside_eq {lead : List Lexeme} (h : RightInFront lead lines)
    (hdoc : lead = [] → doc = []) : docOutside doc lead = lines := by
  cases h with
  | comment earlier first more =>
    rw [docOutside_append, docOutside, docOutside_map_docMore, List.reverse_cons]
  | code earlier t n =>
    rw [docOutside_append]
    rfl
  | nothing => exact hdoc rfl

theorem handedOn_append (before : List Passage) :
    handedOn kind doc (before ++ ps) = handedOn kind (handedOn kind doc before) ps := by
  induction before generalizing doc with
  | nil => rfl
  | cons p before ih =>
    rw [List.cons_append, handedOn, handedOn]
    split
    · exact ih
    · exact ih

/-- Nothing is handed on by a declaration that is recognised. -/
theorem handedOn_of_recognised
    (h : ∀ q ∈ ps.getLast?, (kind.recognise? q).isSome = true) : handedOn kind [] ps = [] := by
  rcases List.eq_nil_or_concat' ps with rfl | ⟨before, q, rfl⟩
  · rfl
  · have hq : (kind.recognise? q).isSome = true := h q (by simp)
    rw [handedOn_append, handedOn, if_pos hq, handedOn]

/-- A block is a declaration of some passage. -/
theorem exists_passage_of_mem_documented (hb : b ∈ documented kind doc ps) :
    ∃ before p after, ps = before ++ p :: after ∧ kind.recognise? p = some b.parts ∧
      p.line = b.line ∧ b.doc = Scanner.docText (p.docLines (handedOn kind doc before)) := by
  induction ps generalizing doc with
  | nil => exact absurd hb List.not_mem_nil
  | cons q ps ih =>
    have hlater {doc' : List Text} (hdoc : ∀ before,
        handedOn kind doc (q :: before) = handedOn kind doc' before)
        (hb : b ∈ documented kind doc' ps) : ∃ before p after, q :: ps = before ++ p :: after ∧
          kind.recognise? p = some b.parts ∧ p.line = b.line ∧
          b.doc = Scanner.docText (p.docLines (handedOn kind doc before)) := by
      obtain ⟨before, p, after, rfl, hparts, hline, hb⟩ := ih hb
      exact ⟨q :: before, p, after, rfl, hparts, hline, by rw [hb, hdoc]⟩
    rw [documented] at hb
    cases hq : kind.recognise? q with
    | some parts =>
      rw [hq] at hb
      rcases List.mem_cons.1 hb with rfl | hb
      · exact ⟨[], q, ps, rfl, hq, rfl, rfl⟩
      · exact hlater (fun before ↦ by rw [handedOn, hq]; rfl) hb
    | none =>
      rw [hq] at hb
      exact hlater (fun before ↦ by rw [handedOn, hq]; rfl) hb

/-- **The blocks of a header are the declarations that are documented in its passages**, and the
comment that is joined to one is the one right in front of it, under two conditions: there is no
documentation inside the declaration, and if nothing at all stands in front of it, then there is no
declaration before it that was not recognised. -/
theorem doc_of_mem_blocks (kind : BlockKind) (t : Text) :
    blocks kind t = documented kind [] (passages kind.opens kind.closes (lexemes t)) ∧
    ∀ b ∈ blocks kind t, ∃ before p after,
      passages kind.opens kind.closes (lexemes t) = before ++ p :: after ∧
      kind.recognise? p = some b.parts ∧ p.line = b.line ∧
      b.doc = Scanner.docText (p.docLines (handedOn kind [] before)) ∧
      ((∀ l ∈ p.body, l.isDoc = false) →
        (p.lead = [] → ∀ q ∈ before.getLast?, (kind.recognise? q).isSome = true) →
        ∀ lines, RightInFront p.lead lines → b.doc = Scanner.docText lines) := by
  have hblocks : blocks kind t = documented kind [] (passages kind.opens kind.closes (lexemes t)) :=
    (Scanner.run_eq_read kind t.lines Scanner.start 1).trans
      (Scanner.read_eq_documented kind false (lexemes t) [])
  refine ⟨hblocks, fun b hb ↦ ?_⟩
  rw [hblocks] at hb
  obtain ⟨before, p, after, hpassages, hparts, hline, hdoc⟩ := exists_passage_of_mem_documented hb
  refine ⟨before, p, after, hpassages, hparts, hline, hdoc, fun hbody hbefore lines hlines ↦ ?_⟩
  rw [hdoc, Passage.docLines, docInside_of_forall hbody,
    hlines.docOutside_eq fun hlead ↦ handedOn_of_recognised (hbefore hlead)]

/-- A declaration behind a comment, an empty line and a directive. -/
def documentedMode : Text := "/** Modes. */\n\n#ifdef MODES\nenum Mode \x7b A \x7d;\n"

theorem doc_of_mem_blocks_documentedMode :
    ∃ b ∈ blocks enumKind documentedMode, b.doc = ("Modes." : Text) := by
  have hpassages : ∀ p ∈ passages enumKind.opens enumKind.closes (lexemes documentedMode),
      p.lead = [.docStart " Modes. */"] ∧ ∀ l ∈ p.body, l.isDoc = false := by decide +kernel
  obtain ⟨b, hb⟩ : ∃ b, b ∈ blocks enumKind documentedMode :=
    List.exists_mem_of_ne_nil _ (by decide +kernel)
  obtain ⟨before, p, after, hsplit, -, -, -, hlaw⟩ :=
    (doc_of_mem_blocks enumKind documentedMode).2 b hb
  obtain ⟨hlead, hbody⟩ := hpassages p (by rw [hsplit]; exact List.mem_append_cons_self)
  have hdoc := hlaw hbody (fun h ↦ absurd (hlead.symm.trans h) (List.cons_ne_nil _ _))
    [" Modes. */"] (by rw [hlead]; exact .comment [] " Modes. */" [])
  exact ⟨b, hb, hdoc.trans (by decide +kernel)⟩

/-- A comment in front of a declaration that is not recognised is joined to the next one, and one
inside a declaration takes the place of the one in front of it. -/
theorem doc_not_in_front :
    (blocks enumKind "/** Forward. */\nenum Kind;\nenum Mode \x7b A \x7d;\n").map (·.doc) =
        [("Forward." : Text)] ∧
      (blocks enumKind "/** Modes. */\nenum Mode \x7b\n/** First. */\nA\n\x7d;\n").map (·.doc) =
        [("First." : Text)] := by
  decide +kernel

end HeaderBindings
