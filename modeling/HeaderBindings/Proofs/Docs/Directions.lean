import HeaderBindings.Module.Sections
import HeaderBindings.Proofs.Docs.Grouping
import HeaderBindings.Proofs.Text.Finding
import HeaderBindings.Proofs.Text.Lines
import HeaderBindings.Proofs.Text.Words
import Mathlib.Data.List.Forall2

/-!
# Directions of parameters

Whether a parameter is an input or a result is said on the lines about it, in brackets in front of
its name or behind it, and else by its type.  `DocumentsLine` are the lines that say so, and
`TagsAs` is what all lines of a comment say together: any number of them may be about the same
parameter, and what one of them says first need not count.

* The pattern of such a line can go more than one way through it.  The rules for what it finds,
  `ParamLine.finds_blanks` and the others, are those of `HeaderBindings.Proofs.Text.Finding` for a
  match of which only some groups matter.  `ParamLine.search_paramPattern` puts them together.
* `DocumentsParams.mem_outputs_iff` and `DocumentsParams.mem_inouts_iff`: the names that a comment
  is left with are those that its lines tag.
* `Sources.binding_documented`: each parameter gets the direction that the comment and the table of
  output types give it, and the binding takes the parameters that are no output.
-/

set_option autoImplicit false

namespace HeaderBindings

open Cursor (start)
open Pattern

/-! ## Lines about parameters -/

/-- The name of a parameter: a word, or three dots. -/
def IsParamName (name : Text) : Prop :=
  name = "..." ∨
    ∃ c w, name = c :: w ∧ isIdentStart c = true ∧ ∀ x ∈ w, isWordChar x = true

/-- What stands behind `@param`: a name, with a direction in brackets on either side of it or with
none, and a text. -/
inductive DocumentsParam (name : Text) : Option Text → Text → Prop
  | before {u tag v r : Text} (hname : IsParamName name) (hu : ∀ c ∈ u, isBlank c = true)
      (htag : ']' ∉ tag) (hv : ∀ c ∈ v, isBlank c = true)
      (hend : ∀ c ∈ r.head?, isWordChar c = false) :
      DocumentsParam name (some tag) (u ++ '[' :: (tag ++ ']' :: (v ++ (name ++ r))))
  | behind {u v tag r : Text} (hname : IsParamName name) (hu : ∀ c ∈ u, isBlank c = true)
      (hv : ∀ c ∈ v, isBlank c = true) (htag : ']' ∉ tag) :
      DocumentsParam name (some tag) (u ++ (name ++ (v ++ '[' :: (tag ++ ']' :: r))))
  | plain {u r : Text} (hname : IsParamName name) (hu : ∀ c ∈ u, isBlank c = true)
      (hend : ∀ c ∈ r.head?, isWordChar c = false) (htext : r.trimStart.head? ≠ some '[') :
      DocumentsParam name none (u ++ (name ++ r))

/-- The line documents a parameter, and perhaps gives it a direction. -/
def DocumentsLine (line name : Text) (tag : Option Text) : Prop :=
  ∃ before body, line.splitAtFirst? "@param" = some (before, body) ∧ DocumentsParam name tag body

theorem IsParamName.head? {name : Text} (h : IsParamName name) (r : Text) :
    ∀ c ∈ (name ++ r).head?, isBlank c = false ∧ c ≠ '[' := by
  intro c hc
  rcases h with rfl | ⟨x, w, rfl, hx, -⟩
  · obtain rfl : '.' = c := by simpa using hc
    decide
  · obtain rfl : x = c := by simpa using hc
    have hchar := isIdentChar_of_isIdentStart hx
    refine ⟨isBlank_of_isIdentChar hchar, ?_⟩
    rintro rfl
    exact absurd hchar (by decide)

/-- The blanks in front of a name are all that is left out. -/
theorem IsParamName.trimStart_append {name : Text} (h : IsParamName name) {u : Text}
    (hu : ∀ c ∈ u, isBlank c = true) (r : Text) :
    Text.trimStart (u ++ (name ++ r)) = name ++ r :=
  Text.trimStart_append hu fun c hc ↦ (h.head? r c hc).1

/-! ## Groups of a match -/

namespace Match

variable {m : Match} {i j : Nat} {c d : Cursor}

@[simp]
theorem get?_group_self :
    ((m.mark (.closing i) d).mark (.opening i) c).get? i = some (c.textTo d) := by
  simp [get?, place?, mark]

@[simp]
theorem get?_group_of_ne (h : i ≠ j) :
    ((m.mark (.closing i) d).mark (.opening i) c).get? j = m.get? j := by
  simp [get?, place?, mark, h]

end Match

/-! ## What is found -/

/-- From a place a match is found that has a property. -/
def Finds (k : Cursor → Option Match) (c : Cursor) (P : Match → Prop) : Prop :=
  ∃ m, k c = some m ∧ P m

theorem Finds.imp {k : Cursor → Option Match} {c : Cursor} {P Q : Match → Prop}
    (h : Finds k c P) (himp : ∀ m, P m → Q m) : Finds k c Q := by
  obtain ⟨m, hm, hP⟩ := h
  exact ⟨m, hm, himp m hP⟩

namespace ParamLine

variable {c : Cursor} {k : Cursor → Option Match} {P : Match → Prop} {i : Nat}

/-- A direction in brackets. -/
abbrev bracketed (i : Nat) : Pattern := "[" ++ .group i (.many true (· != ']')) ++ "]"

/-- The pattern of a name. -/
abbrev namePattern : Pattern := .either (.one isIdentStart ++ .word) "..."

/-- What is found from a text on. -/
abbrev findText : Cursor → Option Match :=
  (group 4 .anything).run (textEnd.run fun c ↦ some (.empty c))

/-- What is found behind a name. -/
abbrev findTail : Cursor → Option Match :=
  blanks.run ((optional (bracketed 3)).run (blanks.run findText))

/-- What is found behind `@param`. -/
abbrev findParam : Cursor → Option Match :=
  blanks.run ((optional (bracketed 1)).run (blanks.run ((group 2 namePattern).run findTail)))

/-- Blanks are passed over. -/
theorem finds_blanks (h : ∀ d, d.rest = c.rest.trimStart → Finds k d P) :
    Finds (blanks.run k) c P := by
  obtain ⟨d, hd, hrest⟩ := Cursor.exists_reads (c := c) (s := c.rest.takeWhile isBlank)
    (r := c.rest.trimStart) List.takeWhile_append_dropWhile.symm
  obtain ⟨m, hm, hP⟩ := h d hrest
  refine ⟨m, run_blanks hd (List.all_eq_true.1 List.all_takeWhile) hm fun x hx ↦ ?_, hP⟩
  rw [hrest] at hx
  exact Text.head?_trimStart c.rest x hx

/-- A direction in brackets is found. -/
theorem finds_bracketed {tag r : Text} (hrest : c.rest = '[' :: (tag ++ ']' :: r))
    (htag : ']' ∉ tag) (h : ∀ d, d.rest = r → Finds k d fun m ↦
      ∀ a b, a.textTo b = tag → P ((m.mark (.closing i) b).mark (.opening i) a)) :
    Finds ((optional (bracketed i)).run k) c P := by
  obtain ⟨c₁, h₁, hr₁⟩ := Cursor.exists_reads (s := ['[']) hrest
  obtain ⟨c₂, h₂, hr₂⟩ := Cursor.exists_reads hr₁
  obtain ⟨c₃, h₃, hr₃⟩ := Cursor.exists_reads (s := [']']) hr₂
  obtain ⟨m, hm, hP⟩ := h c₃ hr₃
  refine ⟨_, run_left (run_text h₁ (run_group ?_)), hP c₁ c₂ h₂.textTo⟩
  refine run_greedy_of_head h₂ (Text.bne_of_notMem htag) (close_group (run_text h₃ hm)) ?_
  intro x hx
  rw [hr₂] at hx
  obtain rfl := Option.some_inj.1 hx
  decide

/-- Without a bracket there is no direction. -/
theorem finds_noBracket (hhead : c.rest.head? ≠ some '[') (h : Finds k c P) :
    Finds ((optional (bracketed i)).run k) c P := by
  obtain ⟨m, hm, hP⟩ := h
  refine ⟨m, run_right (run_text_eq_none fun hfront ↦ hhead ?_) (run_text (.refl c) hm), hP⟩
  obtain ⟨r, hr⟩ := hfront
  rw [← hr]
  rfl

/-- A name is found up to its end. -/
theorem finds_name {name r : Text} (hname : IsParamName name) (hrest : c.rest = name ++ r)
    (hend : ∀ x ∈ r.head?, isWordChar x = false)
    (h : ∀ d, d.rest = r → Finds k d fun m ↦
      ∀ a b, a.textTo b = name → P ((m.mark (.closing 2) b).mark (.opening 2) a)) :
    Finds ((group 2 namePattern).run k) c P := by
  obtain ⟨d, hd, hr⟩ := Cursor.exists_reads hrest
  obtain ⟨m, hm, hP⟩ := h d hr
  refine ⟨_, run_group ?_, hP c d hd.textTo⟩
  rcases hname with rfl | ⟨x, w, rfl, hx, hw⟩
  · refine run_right (run_eq_none_of_passes ?_) (run_text hd (close_group hm))
    rintro ms c' ⟨ms₁, b, ms₂, ⟨⟨y, hy, hread⟩, -⟩, -⟩
    have hsame := hread.rest
    rw [hd.rest] at hsame
    obtain rfl := (List.cons.inj hsame).1
    exact absurd hy (by decide)
  · obtain ⟨b, hone, hb⟩ := Cursor.exists_reads (c := c) (s := [x]) (r := w ++ r) hrest
    obtain ⟨d', hmore, -⟩ := Cursor.exists_reads hb
    obtain rfl := hd.unique (hone.trans hmore)
    exact run_left (run_one hone hx (run_greedy_of_head hmore hw (close_group hm) (hr ▸ hend)))

/-- The rest of a line is its text. -/
theorem finds_text (hlines : '\n' ∉ c.rest)
    (h : ∀ e, P (((Match.empty e).mark (.closing 4) e).mark (.opening 4) c)) :
    Finds findText c P := by
  obtain ⟨e, he, hnil⟩ := Cursor.exists_reads (c := c) (r := []) (List.append_nil _).symm
  have hend : textEnd.run (fun c ↦ some (.empty c)) e = some (.empty e) :=
    run_place (by simp [hnil]) rfl
  exact ⟨_, run_group (run_greedy_of_head he (Text.bne_of_notMem hlines) (close_group hend)
    (by simp [hnil])), h e⟩

/-! ## Behind a name -/

theorem finds_blanks_text (hlines : '\n' ∉ c.rest) (h : ∀ m : Match,
    (∀ j, j ≠ 4 → m.get? j = none) → P m) : Finds (blanks.run findText) c P := by
  refine finds_blanks fun d hd ↦ finds_text ?_ fun e ↦ h _ fun j hj ↦ ?_
  · rw [hd]
    exact fun hmem ↦ hlines ((List.dropWhile_sublist _).subset hmem)
  · rw [Match.get?_group_of_ne (Ne.symm hj)]
    rfl

/-- Whatever comes behind a name, something is found. -/
theorem finds_tail (hlines : '\n' ∉ c.rest) : Finds findTail c fun _ ↦ True := by
  obtain ⟨e, he, hnil⟩ := Cursor.exists_reads (c := c) (r := []) (List.append_nil _).symm
  have hblanks : blanks.Passes c [] c := passes_many (.refl c) (by simp)
  have hnone : (optional (bracketed 3)).Passes c [] c := Or.inr (passes_text (.refl c))
  have htext : anything.Passes c [] e := passes_many he (Text.bne_of_notMem hlines)
  have hend : textEnd.Passes e [] e := passes_place (by simp [hnil])
  have hsome := isSome_run (k := fun c ↦ some (.empty c)) _
    ((((hblanks.seq hnone).seq hblanks).seq (htext.group (i := 4))).seq hend) rfl
  obtain ⟨m, hm⟩ := Option.isSome_iff_exists.1 hsome
  exact ⟨m, hm, trivial⟩

/-- A direction behind a name. -/
theorem finds_tail_bracketed {v tag r : Text} (hrest : c.rest = v ++ '[' :: (tag ++ ']' :: r))
    (hv : ∀ x ∈ v, isBlank x = true) (htag : ']' ∉ tag) (hlines : '\n' ∉ c.rest)
    (h : ∀ m : Match, m.get? 1 = none → m.get? 3 = some tag → P m) : Finds findTail c P := by
  rw [hrest] at hlines
  refine finds_blanks fun d hd ↦ finds_bracketed (r := r) ?_ htag fun e he ↦ ?_
  · rw [hd, hrest]
    exact Text.trimStart_append hv (by simp; decide)
  · refine finds_blanks_text (fun hmem ↦ hlines ?_) fun m hm a b hab ↦ h _ ?_ ?_
    · simp [he ▸ hmem]
    · rw [Match.get?_group_of_ne (by decide), hm 1 (by decide)]
    · rw [Match.get?_group_self, hab]

/-- No direction behind a name. -/
theorem finds_tail_plain (htext : c.rest.trimStart.head? ≠ some '[') (hlines : '\n' ∉ c.rest)
    (h : ∀ m : Match, m.get? 1 = none → m.get? 3 = none → P m) : Finds findTail c P := by
  refine finds_blanks fun d hd ↦ finds_noBracket (hd ▸ htext) (finds_blanks_text ?_ fun m hm ↦
    h m (hm 1 (by decide)) (hm 3 (by decide)))
  rw [hd]
  exact fun hmem ↦ hlines ((List.dropWhile_sublist _).subset hmem)

/-! ## Whole lines -/

section

variable {name u r : Text} (hname : IsParamName name) (hu : ∀ x ∈ u, isBlank x = true)
  (hend : ∀ x ∈ r.head?, isWordChar x = false)

include hname hu hend

/-- A direction in front of a name is found, whatever comes behind the name. -/
theorem finds_param_bracketed {v tag : Text} (hv : ∀ x ∈ v, isBlank x = true) (htag : ']' ∉ tag)
    (hrest : c.rest = u ++ '[' :: (tag ++ ']' :: (v ++ (name ++ r)))) (hlines : '\n' ∉ r) :
    Finds findParam c fun m ↦ m.get 2 = name ∧ (m.get? 1).or (m.get? 3) = some tag := by
  refine finds_blanks fun d hd ↦ finds_bracketed (r := v ++ (name ++ r)) ?_ htag fun e he ↦ ?_
  · rw [hd, hrest]
    exact Text.trimStart_append hu (by simp; decide)
  refine finds_blanks fun f hf ↦ ?_
  rw [he, hname.trimStart_append hv] at hf
  refine finds_name hname hf hend fun g hg ↦
    (finds_tail (hg ▸ hlines)).imp fun m _ a b hab a' b' hab' ↦ ⟨?_, ?_⟩
  · rw [Match.get, Match.get?_group_of_ne (by decide), Match.get?_group_self, hab]
    rfl
  · rw [Match.get?_group_self, hab']
    rfl

/-- With no direction in front of a name that behind it is found. -/
theorem finds_param_unbracketed {tag : Option Text} (hrest : c.rest = u ++ (name ++ r))
    (htail : ∀ d, d.rest = r → Finds findTail d fun m ↦ m.get? 1 = none ∧ m.get? 3 = tag) :
    Finds findParam c fun m ↦ m.get 2 = name ∧ (m.get? 1).or (m.get? 3) = tag := by
  refine finds_blanks fun d hd ↦ ?_
  rw [hrest, hname.trimStart_append hu] at hd
  have hbracket : d.rest.head? ≠ some '[' := by
    rw [hd]
    exact fun h ↦ (hname.head? r '[' h).2 rfl
  refine finds_noBracket hbracket (finds_blanks fun e he ↦ ?_)
  rw [hd] at he
  refine finds_name hname (he.trans (hname.trimStart_append (u := []) (by simp) r)) hend
    fun f hf ↦ (htail f hf).imp fun m hm a b hab ↦ ⟨?_, ?_⟩
  · rw [Match.get, Match.get?_group_self, hab]
    rfl
  · rw [Match.get?_group_of_ne (by decide), Match.get?_group_of_ne (by decide), hm.1, hm.2]
    rfl

end

/-- The name and the direction are found behind `@param`. -/
theorem finds_param {name body : Text} {tag : Option Text} (hbody : DocumentsParam name tag body)
    (hrest : c.rest = body) (hlines : '\n' ∉ body) :
    Finds findParam c fun m ↦ m.get 2 = name ∧ (m.get? 1).or (m.get? 3) = tag := by
  cases hbody with
  | before hname hu htag hv hend =>
    exact finds_param_bracketed hname hu hend hv htag hrest fun hmem ↦ hlines (by simp [hmem])
  | @behind u v tag r hname hu hv htag =>
    refine finds_param_unbracketed hname hu ?_ hrest fun d hd ↦
      finds_tail_bracketed hd hv htag ?_ fun m hm₁ hm₃ ↦ ⟨hm₁, hm₃⟩
    · intro x hx
      cases v with
      | nil =>
        obtain rfl := Option.some_inj.1 hx
        decide
      | cons y v =>
        obtain rfl := Option.some_inj.1 hx
        exact isWordChar_of_isBlank (hv y List.mem_cons_self)
    · rw [hd]
      exact fun hmem ↦ hlines (List.mem_append_right _ (List.mem_append_right _ hmem))
  | plain hname hu hend htext =>
    refine finds_param_unbracketed hname hu hend hrest fun d hd ↦
      finds_tail_plain (hd ▸ htext) ?_ fun m hm₁ hm₃ ↦ ⟨hm₁, hm₃⟩
    rw [hd]
    exact fun hmem ↦ hlines (List.mem_append_right _ (List.mem_append_right _ hmem))

/-- **A line about a parameter** is taken apart at its first `@param`. -/
theorem search_paramPattern {line name : Text} {tag : Option Text}
    (h : DocumentsLine line name tag) (hlines : '\n' ∉ line) :
    ∃ m, paramPattern.search line = some m ∧ m.get 2 = name ∧ (m.get? 1).or (m.get? 3) = tag := by
  obtain ⟨before, body, hsplit, hbody⟩ := h
  have hline := Text.splitAtFirst?_eq_some hsplit
  obtain ⟨c, hc, hrest⟩ := Cursor.exists_reads (c := start line) (s := before)
    (r := "@param" ++ body) (by rw [← List.append_assoc]; exact hline)
  obtain ⟨d, hd, hbehind⟩ := Cursor.exists_reads hrest
  obtain ⟨m, hm, hparts⟩ := finds_param hbody hbehind
    fun hmem ↦ hlines (hline ▸ List.mem_append_right _ hmem)
  refine ⟨m, search_behind hc (fun u v e hbefore hv he ↦ run_text_eq_none fun hfront ↦ ?_)
    (run_text hd hm), hparts⟩
  refine Text.not_prefix_of_splitAtFirst? hv (hbefore ▸ hsplit) ?_
  have hrest' : e.rest = v ++ "@param" ++ body := by
    have hsame := he.rest
    change line = _ at hsame
    rw [hline, hbefore, List.append_assoc, List.append_assoc] at hsame
    rw [List.append_assoc]
    exact (List.append_cancel_left hsame).symm
  exact hrest' ▸ hfront

/-- A direction as it is compared: without spaces and in lower case. -/
def plainDirection (tag : Text) : Text := (tag.filter (· ≠ ' ')).map Char.toLower

/-- **What a line documents** is decided by its direction. -/
theorem parse_documentsLine {line name : Text} {tag : Option Text}
    (h : DocumentsLine line name tag) (hlines : '\n' ∉ line) :
    ∃ text, ParamLine.parse line =
      if plainDirection (tag.getD []) = "out" then .output name text
      else if plainDirection (tag.getD []) = "in,out" ∨ plainDirection (tag.getD []) = "inout" then
        .inout name text
      else .input name text := by
  obtain ⟨m, hm, hname, htag⟩ := search_paramPattern h hlines
  have hdirection (t : Text) :
      (t.filterMap fun c ↦ if c = ' ' then none else some c.toLower) = plainDirection t := by
    induction t with
    | nil => rfl
    | cons c t ih =>
      rw [plainDirection] at ih ⊢
      by_cases hc : c = ' ' <;> simp [hc, ih]
  rw [ParamLine.parse, hm]
  simp only [hname, htag, hdirection]
  split_ifs <;> exact ⟨_, rfl⟩

theorem exists_output_iff {line name name' : Text} {tag : Option Text}
    (h : DocumentsLine line name' tag) (hlines : '\n' ∉ line) :
    (∃ text, ParamLine.parse line = .output name text) ↔
      name' = name ∧ plainDirection (tag.getD []) ∈ ["out".toList] := by
  obtain ⟨text, heq⟩ := parse_documentsLine h hlines
  rw [heq, List.mem_singleton]
  split_ifs with hout hinout
  · simp only [ParamLine.output.injEq, exists_and_left, exists_eq', and_true, hout]
  · simp only [exists_const, hout, and_false]
  · simp only [exists_const, hout, and_false]

theorem exists_inout_iff {line name name' : Text} {tag : Option Text}
    (h : DocumentsLine line name' tag) (hlines : '\n' ∉ line) :
    (∃ text, ParamLine.parse line = .inout name text) ↔
      name' = name ∧ plainDirection (tag.getD []) ∈ ["in,out".toList, "inout".toList] := by
  obtain ⟨text, heq⟩ := parse_documentsLine h hlines
  rw [heq, List.mem_pair]
  split_ifs with hout hinout
  · have hne : ¬("out".toList = "in,out".toList ∨ "out".toList = "inout".toList) := by decide
    simp only [exists_const, hout, hne, and_false]
  · simp only [ParamLine.inout.injEq, exists_and_left, exists_eq', and_true, hinout]
  · simp only [exists_const, hinout, and_false]

end ParamLine

/-! ## Whole comments -/

/-- Some line gives the parameter one of the directions. -/
def TagsAs (raw name : Text) (directions : List Text) : Prop :=
  ∃ line ∈ (plainMarkup raw).lines, ∃ tag, DocumentsLine line name (some tag) ∧
    ParamLine.plainDirection tag ∈ directions

/-- Each line about a parameter is in one of the forms. -/
def DocumentsParams (raw : Text) : Prop :=
  ∀ line ∈ (plainMarkup raw).lines, line.contains "@param" = true →
    ∃ name tag, DocumentsLine line name tag

/-- What a documentation comment and the table of output types say of a parameter. -/
inductive HasDirection (raw : Text) (outputTypes : List Text) (p : Parameter) : Direction → Prop
  | output (hout : TagsAs raw p.name ["out"]) : HasDirection raw outputTypes p .output
  | inout (hout : ¬TagsAs raw p.name ["out"]) (hinout : TagsAs raw p.name ["in,out", "inout"]) :
      HasDirection raw outputTypes p .inout
  | outputType (hout : ¬TagsAs raw p.name ["out"])
      (hinout : ¬TagsAs raw p.name ["in,out", "inout"]) (htype : p.type ∈ outputTypes) :
      HasDirection raw outputTypes p .output
  | input (hout : ¬TagsAs raw p.name ["out"]) (hinout : ¬TagsAs raw p.name ["in,out", "inout"])
      (htype : p.type ∉ outputTypes) : HasDirection raw outputTypes p .input

theorem DocumentsLine.contains {line name : Text} {tag : Option Text}
    (h : DocumentsLine line name tag) : line.contains "@param" = true := by
  obtain ⟨before, body, hsplit, -⟩ := h
  rw [Text.contains, hsplit]
  rfl

namespace DocumentsParams

variable {raw name : Text}

/-- What the lines of a comment say of a parameter is said by their directions. -/
theorem exists_line_iff (h : DocumentsParams raw) {Q : Text → Prop} {directions : List Text}
    (hne : [] ∉ directions) (hQ : ∀ line name' tag, DocumentsLine line name' tag → '\n' ∉ line →
      (Q line ↔ name' = name ∧ ParamLine.plainDirection (tag.getD []) ∈ directions)) :
    (∃ line ∈ (plainMarkup raw).lines, line.contains "@param" = true ∧ Q line) ↔
      TagsAs raw name directions := by
  constructor
  · rintro ⟨line, hline, hparam, hsays⟩
    obtain ⟨name', tag, hdoc⟩ := h line hline hparam
    obtain ⟨rfl, hdirection⟩ := (hQ line name' tag hdoc (Text.notMem_of_mem_lines hline)).1 hsays
    cases tag with
    | none => exact absurd hdirection hne
    | some tag => exact ⟨line, hline, tag, hdoc, hdirection⟩
  · rintro ⟨line, hline, tag, hdoc, hdirection⟩
    exact ⟨line, hline, hdoc.contains,
      (hQ line name (some tag) hdoc (Text.notMem_of_mem_lines hline)).2 ⟨rfl, hdirection⟩⟩

/-- The output parameters are those that a line tags as such. -/
theorem mem_outputs_iff (h : DocumentsParams raw) :
    name ∈ (DocFields.ofComment raw).outputs ↔ TagsAs raw name ["out"] := by
  rw [DocGroups.fields_of, DocGroups.fields, List.mem_filterMap]
  simp only [DocSection.output?_eq_some_iff]
  refine (DocGroups.exists_param_iff _
    (Q := fun line ↦ ∃ text, ParamLine.parse line = .output name text)).trans ?_
  rw [DocGroups.lines_of]
  exact h.exists_line_iff (by decide) fun _ _ _ ↦ ParamLine.exists_output_iff

/-- So are those that are both. -/
theorem mem_inouts_iff (h : DocumentsParams raw) :
    name ∈ (DocFields.ofComment raw).inouts ↔ TagsAs raw name ["in,out", "inout"] := by
  rw [DocGroups.fields_of, DocGroups.fields, List.mem_filterMap]
  simp only [DocSection.inout?_eq_some_iff]
  refine (DocGroups.exists_param_iff _
    (Q := fun line ↦ ∃ text, ParamLine.parse line = .inout name text)).trans ?_
  rw [DocGroups.lines_of]
  exact h.exists_line_iff (by decide) fun _ _ _ ↦ ParamLine.exists_inout_iff

theorem hasDirection (h : DocumentsParams raw) (outputTypes : List Text) (p : Parameter) :
    HasDirection raw outputTypes p (p.directionFor (.ofComment raw) outputTypes) := by
  have houtputs : p.name ∈ _ ↔ _ := h.mem_outputs_iff
  have hinouts : p.name ∈ _ ↔ _ := h.mem_inouts_iff
  rw [Parameter.directionFor]
  split_ifs with hout hinout htype
  · exact .output (houtputs.1 hout)
  · exact .inout (houtputs.not.1 hout) (hinouts.1 hinout)
  · exact .outputType (houtputs.not.1 hout) (hinouts.not.1 hinout) htype
  · exact .input (houtputs.not.1 hout) (hinouts.not.1 hinout) htype

end DocumentsParams

/-! ## Bindings -/

/-- **The direction of every parameter** is what the comment and the table of output types say, and
the binding takes those that are no output. -/
theorem Sources.binding_documented {raw : Text} (h : DocumentsParams raw) (s : Sources)
    (f : Prototype) (outputTypes : List Text) :
    let made := Prototype.withDirections { f with doc := .ofComment raw } outputTypes
    List.Forall₂ (fun p q : Parameter ↦ q.name = p.name ∧ q.type = p.type ∧
        HasDirection raw outputTypes p q.direction) f.params made.params ∧
      ∃ arguments doc flags types, s.binding made = .binding f.name arguments doc flags types ∧
        arguments = (made.params.filter (·.direction ≠ .output)).map (·.name) ∧
        flags = made.params.map (·.direction.code) ∧ flags.length = f.params.length ∧
        types.length = flags.length + 1 := by
  have hdirection := h.hasDirection outputTypes
  generalize DocFields.ofComment raw = doc at hdirection
  refine ⟨?_, _, _, _, _, rfl, rfl, rfl, ?_, ?_⟩
  · rw [Prototype.withDirections, List.forall₂_map_right_iff, List.forall₂_same]
    exact fun p _ ↦ ⟨rfl, rfl, hdirection p⟩
  · rw [Prototype.withDirections, List.map_map, List.length_map]
  · rw [Prototype.withDirections, Sources.descriptors]
    simp only [List.length_map, List.length_cons]

/-- A comment that says of one parameter first that it is passed in and then that it is a result. -/
def readComment : Text :=
  "Reads.\n@param[ IN , Out ] pBuffer bytes [x]\n\\param nSize [in] limit\n" ++
  " @param nSize [ O U T] rest\n\tof it\n@param pInfo info\n@param ... [in] more"

/-- It is about the parameters of this function. -/
def readFunction : Prototype where
  name := "xnRead"
  type := "XnStatus"
  params := [{ name := "pBuffer", type := "XnUInt8*" }, { name := "nSize", type := "XnUInt32*" },
    { name := "pInfo", type := "XnInfo*" }, { name := "nFlags", type := "int" }]

theorem documentsParams_readComment : DocumentsParams readComment := by
  have hlines : (plainMarkup readComment).lines =
      ["Reads.".toList, "@param[ IN , Out ] pBuffer bytes [x]".toList,
        "@param nSize [in] limit".toList, " @param nSize [ O U T] rest".toList,
        "\tof it".toList, "@param pInfo info".toList, "@param ... [in] more".toList] := by
    decide +kernel
  have hword {c : Char} {w : Text} (hc : isIdentStart c = true)
      (hw : w.all isWordChar = true) : IsParamName (c :: w) :=
    Or.inr ⟨c, w, rfl, hc, List.all_eq_true.1 hw⟩
  have hbuffer : IsParamName "pBuffer" := hword (by decide) (by decide)
  have hsize : IsParamName "nSize" := hword (by decide) (by decide)
  have hinfo : IsParamName "pInfo" := hword (by decide) (by decide)
  have hnil : ∀ c ∈ ([] : Text), isBlank c = true := List.all_eq_true.1 rfl
  have hblank : ∀ c ∈ [' '], isBlank c = true := List.all_eq_true.1 (by decide)
  have hend (w : Text) : ∀ c ∈ (' ' :: w).head?, isWordChar c = false := by
    simpa using isWordChar_of_isBlank (hblank ' ' (by simp))
  intro line hline hparam
  rw [hlines] at hline
  simp only [List.mem_cons, List.not_mem_nil, or_false] at hline
  rcases hline with rfl | rfl | rfl | rfl | rfl | rfl | rfl
  · exact absurd hparam (by decide)
  · exact ⟨"pBuffer", some " IN , Out ", [], _, by decide,
      .before hbuffer hnil (by decide) hblank (hend "bytes [x]")⟩
  · exact ⟨"nSize", some "in", [], _, by decide,
      @DocumentsParam.behind _ _ _ _ " limit" hsize hblank hblank (by decide)⟩
  · exact ⟨"nSize", some " O U T", " ", _, by decide,
      @DocumentsParam.behind _ _ _ _ " rest" hsize hblank hblank (by decide)⟩
  · exact absurd hparam (by decide)
  · exact ⟨"pInfo", none, [], _, by decide, .plain hinfo hblank (hend "info") (by decide)⟩
  · exact ⟨"...", some "in", [], _, by decide,
      @DocumentsParam.behind _ _ _ _ " more" (Or.inl rfl) hblank hblank (by decide)⟩

/-- A library without further declarations. -/
def emptyLibrary : Sources where
  conventions := {}
  declarations := {}
  types := .build {} ∅ {}
  overrides := ∅

theorem Sources.binding_documented_read :
    (DocumentsParams readComment ∧
      HasDirection readComment ["XnInfo*"] { name := "pBuffer", type := "XnUInt8*" } .inout ∧
      HasDirection readComment ["XnInfo*"] { name := "nSize", type := "XnUInt32*" } .output ∧
      HasDirection readComment ["XnInfo*"] { name := "pInfo", type := "XnInfo*" } .output ∧
      HasDirection readComment ["XnInfo*"] { name := "nFlags", type := "int" } .input) ∧
    ∃ doc types, emptyLibrary.binding (Prototype.withDirections
        { readFunction with doc := .ofComment readComment } ["XnInfo*"]) =
      .binding "xnRead" ["pBuffer", "nFlags"] doc [3, 2, 2, 1] types ∧ types.length = 5 := by
  obtain ⟨hparams, arguments, doc, flags, types, hbinding, harguments, hflags, hcount, htypes⟩ :=
    Sources.binding_documented documentsParams_readComment emptyLibrary readFunction ["XnInfo*"]
  have hmade : (Prototype.withDirections
      { readFunction with doc := .ofComment readComment } ["XnInfo*"]).params =
        [⟨"pBuffer", "XnUInt8*", .inout⟩, ⟨"nSize", "XnUInt32*", .output⟩,
          ⟨"pInfo", "XnInfo*", .output⟩, ⟨"nFlags", "int", .input⟩] := by decide +kernel
  rw [hmade] at hparams harguments hflags
  change List.Forall₂ _ [_, _, _, _] _ at hparams
  simp only [List.forall₂_cons, List.forall₂_nil_left_iff, and_true] at hparams
  obtain ⟨⟨-, -, hbuffer⟩, ⟨-, -, hsize⟩, ⟨-, -, hinfo⟩, -, -, hflag⟩ := hparams
  refine ⟨⟨documentsParams_readComment, hbuffer, hsize, hinfo, hflag⟩, doc, types, ?_, ?_⟩
  · rw [hbinding, harguments, hflags]
    rfl
  · rw [htypes, hflags]
    rfl

end HeaderBindings
