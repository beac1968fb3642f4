import Mathlib.Data.List.DropRight
import HeaderBindings.Header.Functions
import HeaderBindings.Proofs.Header.Comments
import HeaderBindings.Proofs.Header.Resuming
import HeaderBindings.Proofs.Text.Lines
import HeaderBindings.Proofs.Text.Words

/-!
# Plain comments

A block comment on lines of its own should have no influence on the declarations around it,
whatever it says.  For most comments that is so: `blocks_insertComment` puts one between any two
lines and finds the same declarations with the same documentation.  The lines of the comment may
look like directives, documentation or declarations, because a scanner that is inside a comment
remembers that it is, and nothing else about those lines (`Scanner.step_inside`).

There are two comments that do have an influence.

* A line in the shape of a directive is passed over before anybody asks whether a comment ends on
  it.  So a comment whose last line has that shape stays open, and what follows is lost up to the
  end of some other comment.
* The comment `/**/` begins like documentation.  It ends no declaration and begins none, but
  the next one is documented with a slash.
-/

set_option autoImplicit false

namespace HeaderBindings

/-- The mark that a block comment ends with. -/
def closingMark : Text := "*/"

/-- The block comment with the given body. -/
def blockComment (body : Text) : Text := '/' :: '*' :: (body ++ closingMark)

/-- The last line of a text has the shape of a directive. -/
def endsOnDirective (t : Text) : Bool :=
  t.lines.getLast?.any fun raw ↦ Line.classify raw = .directive

/-- The block behind so many lines that are put in behind line `n`, if it is behind that line. -/
def Block.movedBehind (n k : Nat) (b : Block) : Block := if n < b.line then b.later k else b

/-! ## Inside a comment -/

section

variable {t : Text} (h : ¬closingMark <:+: t)

include h

/-- A comment goes on behind text without the closing mark. -/
theorem withoutComments_inside : withoutComments true t = ([], true) := by
  have hnone : t.splitAtFirst? closingMark = none := Text.splitAtFirst?_eq_none_iff.2 h
  rw [withoutComments_behind, behindComment?, if_pos rfl, ← closingMark, hnone]
  rfl

/-- A comment ends with the first closing mark. -/
theorem withoutComments_closingMark (rest : Text) :
    withoutComments true (t ++ (closingMark ++ rest)) = withoutComments false rest := by
  induction t with
  | nil => simp [closingMark, withoutComments]
  | cons c t ih =>
    have hrest : ¬closingMark <:+: t := fun hin ↦ h (List.infix_cons hin)
    rw [List.cons_append, withoutComments, ih hrest]
    rintro r rfl hr
    -- A star in front of the closing mark does not end the comment: no slash follows it.
    cases t with
    | nil => exact absurd (List.cons.inj hr).1 (by decide)
    | cons d t =>
      obtain rfl : d = '/' := (List.cons.inj hr).1
      exact h ⟨[], t, rfl⟩

namespace Scanner

variable {kind : BlockKind} {s : Scanner} (hs : s.inComment = true)

include hs

/-- **Inside a comment** a line without the closing mark has no influence at all. -/
theorem step_inside : s.step kind t 0 = (s, none) := by
  obtain ⟨doc, pending, inComment⟩ := s
  obtain rfl : inComment = true := hs
  have hcode : codeOf true t = ([], true) := by rw [codeOf_eq, withoutComments_inside h]; rfl
  cases hline : Line.classify t <;> simp [step, rawCode, hline, hcode]

/-- A comment ends on the line with its closing mark, unless that looks like a directive. -/
theorem step_closing : s.step kind (t ++ closingMark) 0 =
    ({ s with inComment := decide (Line.classify (t ++ closingMark) = .directive) }, none) := by
  obtain ⟨doc, pending, inComment⟩ := s
  obtain rfl : inComment = true := hs
  have hcode : codeOf true (t ++ closingMark) = ([], false) := by
    rw [codeOf_eq, ← List.append_nil (t ++ closingMark), List.append_assoc,
      withoutComments_closingMark h]
    rfl
  cases hline : Line.classify (t ++ closingMark) <;> simp [step, rawCode, hline, hcode]

end Scanner

end

/-! ## The lines of a comment -/

/-- The opening mark of a comment begins code, unless it is that of documentation. -/
theorem classify_opening {t : Text} (h : ∀ c ∈ t.head?, c ≠ '*') :
    Line.classify ('/' :: '*' :: t) = .code ('/' :: '*' :: t) := by
  have hstart : Text.trimStart ('/' :: '*' :: t) = '/' :: '*' :: t := by
    rw [Text.trimStart, List.dropWhile_cons_of_neg (by decide)]
  have hend {c : Char} {r : Text} (hc : c ≠ '/') : Text.trimEnd ('/' :: '*' :: t) ≠ c :: r := by
    intro hr
    have hfront : c :: r <+: '/' :: '*' :: t := hr ▸ List.rdropWhile_prefix isBlank _
    exact hc (List.cons_prefix_cons.1 hfront).1
  have hopening : Text.afterLead? ('/' :: '*' :: t) "/**" = none := by
    cases t with
    | nil => rfl
    | cons c t => simp [Text.afterLead?, h c rfl]
  have hmore : Text.afterLead? ('/' :: '*' :: t) " * " = none := rfl
  have hbare : Text.trimEnd ('/' :: '*' :: t) ≠ " *" := hend (by decide)
  have hclosing : Text.trim ('/' :: '*' :: t) ≠ "*/" := by
    rw [Text.trim, hstart]
    exact hend (by decide)
  have hdirective : Text.startsWith (Text.trimStart ('/' :: '*' :: t)) "#" = false := by
    rw [hstart]
    rfl
  simp only [Line.classify, hopening, hmore, hbare, hclosing, hdirective, if_false]
  rfl

theorem endsOnDirective_append_cons {raw rest : Text} (hraw : '\n' ∉ raw) (hrest : rest ≠ []) :
    endsOnDirective (raw ++ '\n' :: rest) = endsOnDirective rest := by
  obtain ⟨line, lines, hlines⟩ := List.exists_cons_of_ne_nil (Text.lines_ne_nil hrest)
  rw [endsOnDirective, endsOnDirective, Text.lines_append_cons hraw, hlines,
    List.getLast?_cons_cons]

theorem endsOnDirective_of_notMem {raw : Text} (hne : raw ≠ []) (hraw : '\n' ∉ raw) :
    endsOnDirective raw = decide (Line.classify raw = .directive) := by
  rw [endsOnDirective, Text.lines_of_notMem hne hraw]
  rfl

theorem append_closingMark_ne_nil (t : Text) : t ++ closingMark ≠ [] :=
  List.append_ne_nil_of_right_ne_nil t (by decide)

theorem lineFeed_notMem_append_closingMark {t : Text} (h : '\n' ∉ t) :
    '\n' ∉ t ++ closingMark := by
  rw [List.mem_append, not_or]
  exact ⟨h, by decide⟩

namespace Scanner

variable {kind : BlockKind} {s : Scanner}

/-- The rest of a comment is passed over up to the closing mark. -/
theorem passesOver_rest {body : Text} (hbody : ¬closingMark <:+: body) (hs : s.inComment = true) :
    PassesOver kind s (body ++ closingMark).lines
      { s with inComment := endsOnDirective (body ++ closingMark) } := by
  induction body using Text.lineInduction with
  | last raw hraw =>
    have hline := lineFeed_notMem_append_closingMark hraw
    have hne := append_closingMark_ne_nil raw
    rw [Text.lines_of_notMem hne hline, endsOnDirective_of_notMem hne hline]
    exact .cons (step_closing hbody hs) (.nil kind _)
  | line raw rest hraw ih =>
    have hfront : ¬closingMark <:+: Text.withoutLineEnd (raw ++ ['\n']) := fun hin ↦
      hbody ((hin.trans (Text.withoutLineEnd_prefix raw).isInfix).trans
        (List.prefix_append raw _).isInfix)
    have hrest : ¬closingMark <:+: rest := fun hin ↦
      hbody (hin.trans ⟨raw ++ ['\n'], [], by simp⟩)
    rw [List.append_assoc, List.cons_append, Text.lines_append_cons hraw,
      endsOnDirective_append_cons hraw (append_closingMark_ne_nil rest)]
    exact .cons (step_inside hfront hs) (ih hrest)

/-- The first line of a comment is code on which there is nothing to be read, unless it begins like
documentation. -/
theorem step_opening {t : Text} {stays : Bool} (hstar : ∀ c ∈ t.head?, c ≠ '*')
    (ht : withoutComments true t = ([], stays)) (hs : s.inComment = false) :
    s.step kind ('/' :: '*' :: t) 0 = ({ s with inComment := stays }, none) := by
  obtain ⟨doc, pending, inComment⟩ := s
  obtain rfl : inComment = false := hs
  have hclass := classify_opening hstar
  have hcode : codeOf false ('/' :: '*' :: t) = ([], stays) := by
    rw [codeOf_eq, withoutComments, ht]
    rfl
  simp [step, rawCode, hclass, hcode]

/-- A comment of one line is code on which there is nothing to be read. -/
theorem passesOver_oneLine {body : Text} (hne : body ≠ []) (hline : '\n' ∉ body)
    (hbody : ¬closingMark <:+: body) (hstar : body.head? ≠ some '*') (hs : s.inComment = false) :
    PassesOver kind s (blockComment body).lines
      { s with inComment := endsOnDirective (blockComment body) } := by
  have hlines : '\n' ∉ blockComment body := by
    simp [blockComment, hline, (by decide : '\n' ∉ closingMark)]
  have hblock : blockComment body ≠ [] := List.cons_ne_nil _ _
  have hfirst : ∀ c ∈ (body ++ closingMark).head?, c ≠ '*' := by
    obtain ⟨c, body, rfl⟩ := List.exists_cons_of_ne_nil hne
    rintro d ⟨⟩ rfl
    exact hstar rfl
  have hinside : withoutComments true (body ++ closingMark) = ([], false) := by
    have hclosing := withoutComments_closingMark hbody []
    rwa [List.append_nil] at hclosing
  have hclass : endsOnDirective (blockComment body) = false := by
    rw [endsOnDirective_of_notMem hblock hlines, blockComment, classify_opening hfirst]
    rfl
  rw [Text.lines_of_notMem hblock hlines, hclass]
  exact .cons (step_opening hfirst hinside hs) (.nil kind _)

/-- A comment of more lines is passed over line by line. -/
theorem passesOver_moreLines {raw rest : Text} (hraw : '\n' ∉ raw)
    (hbody : ¬closingMark <:+: raw ++ '\n' :: rest)
    (hstar : (raw ++ '\n' :: rest).head? ≠ some '*') (hs : s.inComment = false) :
    PassesOver kind s (blockComment (raw ++ '\n' :: rest)).lines
      { s with inComment := endsOnDirective (blockComment (raw ++ '\n' :: rest)) } := by
  have hfront : Text.withoutLineEnd (raw ++ ['\n']) <+: raw := Text.withoutLineEnd_prefix raw
  have hinside : ¬closingMark <:+: Text.withoutLineEnd (raw ++ ['\n']) := fun hin ↦
    hbody ((hin.trans hfront.isInfix).trans (List.prefix_append raw _).isInfix)
  have hfirst : ∀ c ∈ (Text.withoutLineEnd (raw ++ ['\n'])).head?, c ≠ '*' := by
    rintro c hc rfl
    obtain ⟨t, ht⟩ := hfront
    exact hstar (by rw [← ht, List.append_assoc, List.head?_append, Option.mem_def.1 hc]; rfl)
  have hrest : ¬closingMark <:+: rest := fun hin ↦
    hbody (hin.trans ⟨raw ++ ['\n'], [], by simp⟩)
  have hopening : '\n' ∉ '/' :: '*' :: raw := by simp [hraw]
  have hlines : blockComment (raw ++ '\n' :: rest) =
      ('/' :: '*' :: raw) ++ '\n' :: (rest ++ closingMark) := by simp [blockComment]
  rw [hlines, Text.lines_append_cons hopening,
    endsOnDirective_append_cons hopening (append_closingMark_ne_nil rest)]
  have hline : Text.withoutLineEnd ('/' :: '*' :: raw ++ ['\n']) =
      '/' :: '*' :: Text.withoutLineEnd (raw ++ ['\n']) :=
    Text.withoutLineEnd_append_append (a := ['/', '*']) (by decide) raw
  have hstep := @step_opening kind s _ _ hfirst (withoutComments_inside hinside) hs
  rw [← hline] at hstep
  exact .cons hstep (passesOver_rest (s := { s with inComment := true }) hrest rfl)

/-- **A comment is passed over**, and two things may be left of it: an empty one leaves a slash as
documentation, and one that ends on a directive leaves itself open. -/
theorem passesOver_blockComment {body : Text} (hbody : ¬closingMark <:+: body)
    (hstar : body.head? ≠ some '*') (hs : s.inComment = false) :
    PassesOver kind s (blockComment body).lines
      ⟨if body = [] then ["/"] else s.doc, s.pending, endsOnDirective (blockComment body)⟩ := by
  by_cases hnil : body = []
  · obtain ⟨doc, pending, inComment⟩ := s
    obtain rfl : inComment = false := hs
    subst hnil
    exact .cons rfl (.nil kind _)
  rw [if_neg hnil]
  by_cases h : '\n' ∈ body
  · obtain ⟨raw, rest, rfl, hraw⟩ := List.eq_append_cons_of_mem h
    exact passesOver_moreLines hraw hbody hstar hs
  · exact passesOver_oneLine hnil h hbody hstar hs

/-- Blocks in front of inserted lines stay where they are, and those behind them move. -/
theorem map_movedBehind (kind : BlockKind) (before after : List Text) (k : Nat) :
    (start.run kind 1 (before ++ after)).map (.movedBehind before.length k) =
      start.run kind 1 before ++
        (start.after kind before).run kind (1 + before.length + k) after := by
  rw [run_append, List.map_append, run_later kind k after _ (1 + before.length)]
  congr 1
  · refine (List.map_congr_left fun b hb ↦ ?_).trans (List.map_id _)
    have hline := line_of_mem_run hb
    exact if_neg (by omega)
  · refine List.map_congr_left fun b hb ↦ if_pos ?_
    have hline := line_of_mem_run hb
    omega

end Scanner

/-! ## Putting a comment in -/

open Scanner in
/-- **What a plain comment does to the declarations around it.**  If no line of it that has the
shape of a directive ends it, then the same declarations are found, and if it is not empty then with
the same documentation.  Otherwise all that follows is read as a part of the comment. -/
theorem blocks_insertComment (kind : BlockKind) {t inserted body : Text} {before after : List Text}
    (hlines : t.lines = before ++ after) (hboundary : commentAfter false before = false)
    (hbody : body.contains closingMark = false) (hstar : body.head? ≠ some '*')
    (hinserted : inserted.lines = before ++ (blockComment body).lines ++ after) :
    let added := (blockComment body).lines.length
    let moved := (blocks kind t).map (.movedBehind before.length added)
    (endsOnDirective (blockComment body) = false →
      (blocks kind inserted).map Block.found = moved.map Block.found ∧
        (body ≠ [] → blocks kind inserted = moved)) ∧
    (endsOnDirective (blockComment body) = true →
      blocks kind inserted = start.run kind 1 before ++
        { start.after kind before with inComment := true }.run kind (1 + before.length + added)
          after) := by
  intro added moved
  have hoff : ¬closingMark <:+: body := by simpa [← Text.contains_iff] using hbody
  have hcomment : (start.after kind before).inComment = false :=
    (inComment_after kind before start).trans hboundary
  obtain ⟨hafter, hrun⟩ := @passesOver_blockComment kind _ _ hoff hstar hcomment
  have hfound : blocks kind inserted = start.run kind 1 before ++
      (start.after kind before |>.after kind (blockComment body).lines).run kind
        (1 + before.length + added) after := by
    rw [blocks, hinserted, List.append_assoc, run_append, run_append, hrun, List.nil_append]
  have hmoved : moved = start.run kind 1 before ++
      (start.after kind before).run kind (1 + before.length + added) after := by
    rw [← map_movedBehind, ← hlines]
    rfl
  rw [hfound, hmoved, hafter]
  refine ⟨fun hends ↦ ⟨?_, fun hne ↦ ?_⟩, fun hends ↦ ?_⟩
  · rw [List.map_append, List.map_append]
    congr 1
    refine run_found_congr kind ?_ ?_ _ _
    · rfl
    · exact hends.trans hcomment.symm
  · rw [if_neg hne, hends, ← hcomment]
  · have hne : body ≠ [] := by
      rintro rfl
      exact absurd hends (by decide)
    rw [if_neg hne, hends]

/-- The body of a comment whose lines look like all that a comment may not be. -/
def motleyBody : Text :=
  "\n#define XN_A 1\n/** Doubles.\n * int g(int a);\nXN_C_API int h(int a);\n"

theorem blocks_insertComment_motley :
    blocks (functionKind {}) ("/** Halves. */\n" ++ blockComment motleyBody ++
        "\nXN_C_API int f(int a);\n") =
      [⟨["int f", "int a"], "Halves.", 8⟩] := by
  let before : List Text := ["/** Halves. */"]
  let after : List Text := ["XN_C_API int f(int a);"]
  have hlines : Text.lines "/** Halves. */\nXN_C_API int f(int a);\n" = before ++ after := by
    decide +kernel
  have hinserted : Text.lines ("/** Halves. */\n" ++ blockComment motleyBody ++
      "\nXN_C_API int f(int a);\n") = before ++ (blockComment motleyBody).lines ++ after := by
    decide +kernel
  have hfound := (blocks_insertComment (functionKind {}) hlines (by decide +kernel)
    (by decide +kernel) (by decide +kernel) hinserted).1 (by decide +kernel)
  exact (hfound.2 (by decide)).trans (by decide +kernel)

/-- A comment that ends on a directive takes the declaration behind it along, and an empty one
documents it. -/
theorem blocks_insertComment_lost :
    blocks (functionKind {}) "XN_C_API int f(int a);\n" = [⟨["int f", "int a"], [], 1⟩] ∧
      blocks (functionKind {})
        (blockComment "\n#define XN_A " ++ "\nXN_C_API int f(int a);\n") = [] ∧
      blocks (functionKind {}) (blockComment [] ++ "\nXN_C_API int f(int a);\n") =
        [⟨["int f", "int a"], "/", 2⟩] := by
  decide +kernel

end HeaderBindings
