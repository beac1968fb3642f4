import HeaderBindings.Proofs.Module.Contents
import HeaderBindings.Proofs.Text.Demands
import HeaderBindings.Proofs.Text.Lines
import HeaderBindings.Proofs.Text.Symbols

/-!
# Sections of hand-written code

A source of hand-written code is cut into classes, the body of a class into a docstring and code,
and the code is copied into the module without the blanks around it.  Nothing is lost and nothing
is moved on the way.

* `OpensClass` says which lines open a class, and `classSections_eq_iff` that a source is cut in
  front of these lines and nowhere else (`IsSectioned`).
* `docSplit_splitDocstring`: a body is a string literal with code behind it, or all code.
* `isCore_withoutBlankEnds`: the code in the module is the code of the body without whole blank
  lines in front and without the blanks at its end, so its first line keeps its indentation.
* `Overrides.source_kept` puts them together, from the text of the source to the classes of the
  module.
-/

set_option autoImplicit false

namespace HeaderBindings

open Text (IsWord)

/-! ## Keywords with names -/

/-- The text is a keyword, blanks and a name. -/
def Names (keyword name t : Text) : Prop :=
  ∃ gap : Text, gap ≠ [] ∧ (∀ c ∈ gap, isBlank c = true) ∧ IsWord name ∧ t = keyword ++ gap ++ name

/-- A name ends where no word character follows. -/
theorem Names.unique {keyword name name' t t' rest rest' : Text} (h : Names keyword name t)
    (h' : Names keyword name' t') (htext : t ++ rest = t' ++ rest')
    (hrest : ∀ c ∈ rest.head?, isWordChar c = false)
    (hrest' : ∀ c ∈ rest'.head?, isWordChar c = false) : name = name' ∧ t = t' := by
  obtain ⟨gap, -, hgap, hname, rfl⟩ := h
  obtain ⟨gap', -, hgap', hname', rfl⟩ := h'
  simp only [List.append_assoc, List.append_cancel_left_eq] at htext
  obtain rfl := Text.eq_of_append_eq_of_forall htext hgap hgap' (hname.isBlank_head? rest)
    (hname'.isBlank_head? rest')
  obtain rfl := Text.eq_of_append_eq_of_forall (List.append_cancel_left htext) hname.2 hname'.2
    hrest hrest'
  exact ⟨rfl, rfl⟩

namespace Pattern

variable {p : Pattern} {keyword t name : Text} {c b c' : Cursor} {ms : List (Mark × Cursor)}

/-- What a pattern for a keyword with a name reads, and the name that it keeps. -/
theorem Passes.names (h : (p ++ text keyword ++ blanks₁ ++ Pattern.group 1 word₁).Passes c ms c')
    (hp : p.groups = []) :
    ∃ b t name a, p.Passes c [] b ∧ b.Reads t c' ∧ Names keyword name t ∧
      ms = [(.opening 1, a), (.closing 1, c')] ∧ a.Reads name c' := by
  obtain ⟨_, a, _, ⟨_, b', _, ⟨_, b, _, hfront, ⟨hkeyword, rfl⟩, rfl⟩, hgap, rfl⟩,
    ⟨_, hname, rfl⟩, rfl⟩ := h
  obtain rfl := hfront.marks_eq_nil hp
  obtain rfl := hgap.marks_eq_nil rfl
  obtain rfl := hname.marks_eq_nil rfl
  obtain ⟨gap, hgapne, hblank, hgap⟩ := hgap.some₁
  obtain ⟨name, hne, hword, hname⟩ := hname.some₁
  exact ⟨b, keyword ++ gap ++ name, name, a, hfront, (hkeyword.trans hgap).trans hname,
    ⟨gap, hgapne, List.all_eq_true.1 hblank, ⟨hne, List.all_eq_true.1 hword⟩, rfl⟩, rfl, hname⟩

theorem passes_of_names (hfront : p.Passes c [] b) (hname : Names keyword name t)
    (h : b.Reads t c') : ∃ ms, (p ++ text keyword ++ blanks₁ ++ group 1 word₁).Passes c ms c' := by
  obtain ⟨gap, hgap, hblank, hword, rfl⟩ := hname
  obtain ⟨a, hread, hname⟩ := h.split
  obtain ⟨d, hkeyword, hgap'⟩ := hread.split
  exact ⟨_, ((hfront.seq (passes_text hkeyword)).seq (passes_some₁ hgap' hgap hblank)).seq
    (passes_some₁ hname hword.1 hword.2).group⟩

end Pattern

/-! ## Lines that open a class -/

/-- What stands behind the name of a class in the line that opens it: a colon, perhaps with bases in
front, and the rest of the line. -/
inductive ClassEnd : Text → Prop
  | plain (rest : Text) : ClassEnd (':' :: rest)
  | bases {bases : Text} (hne : bases ≠ []) (hline : '\n' ∉ bases) (rest : Text) :
      ClassEnd ('(' :: (bases ++ ')' :: ':' :: rest))

theorem ClassEnd.isWordChar_head? {t : Text} (h : ClassEnd t) :
    ∀ c ∈ t.head?, isWordChar c = false := by
  intro c hc
  cases h with
  | plain | bases =>
    obtain rfl := Option.some_inj.1 hc
    decide

/-- The line opens a class. -/
def OpensClass (line name : Text) : Prop :=
  ∃ front ending, Names "class" name front ∧ ClassEnd ending ∧ line = front ++ ending

/-- A line opens one class only. -/
theorem OpensClass.unique {line name name' : Text} (h : OpensClass line name)
    (h' : OpensClass line name') : name = name' := by
  obtain ⟨front, ending, hname, hending, rfl⟩ := h
  obtain ⟨front', ending', hname', hending', hline⟩ := h'
  exact (hname.unique hname' hline hending.isWordChar_head? hending'.isWordChar_head?).1

open Pattern in
/-- What is found at the start of a line is a class that the line opens. -/
theorem opensClass_of_search {line : Text} {g : Match} (h : classPattern.search line = some g) :
    OpensClass line (g.get 1) := by
  obtain ⟨s, c, hs, hpass⟩ := exists_reads_of_search h
  obtain ⟨_, e, _, ⟨_, d, _, hnames, hbases, rfl⟩, ⟨hcolon, -⟩, hms⟩ := hpass
  obtain ⟨b, t, name, a, ⟨hstart, rfl, -⟩, ht, hname, rfl, hread⟩ := hnames.names rfl
  obtain rfl := hs.eq_nil_of_prev hstart
  obtain rfl := hs.eq_of_nil
  have hget : g.get 1 = a.textTo d :=
    get_of_marks (hms.trans (List.append_assoc ..)) (List.forall_mem_nil _) (List.forall_mem_nil _)
  rw [hget, hread.textTo]
  refine ⟨t, d.rest, hname, ?_, ht.rest⟩
  rcases hbases with ⟨_, e₂, _, ⟨_, e₁, _, ⟨hopening, -⟩, hsome, -⟩, ⟨hclosing, -⟩, -⟩ | ⟨hnone, -⟩
  · obtain ⟨bases, hne, hline, hbases⟩ := hsome.some₁
    have hfeed : '\n' ∉ bases := fun hmem ↦ absurd (List.all_eq_true.1 hline _ hmem) (by decide)
    rw [(((hopening.trans hbases).trans hclosing).trans hcolon).rest]
    simpa using ClassEnd.bases hne hfeed g.stop.rest
  · obtain rfl := hnone.eq_of_nil
    rw [hcolon.rest]
    exact .plain g.stop.rest

open Pattern Cursor in
/-- There is a way through the pattern from the start of a line that opens a class. -/
theorem exists_passes_classPattern {line name : Text} (h : OpensClass line name) :
    ∃ ms c', classPattern.Passes (start line) ms c' := by
  obtain ⟨front, ending, hname, hending, rfl⟩ := h
  obtain ⟨d, hd, hrest⟩ := exists_reads (c := start (front ++ ending)) (s := front) rfl
  obtain ⟨_, hnames⟩ := passes_of_names (p := textStart) (passes_place rfl) hname hd
  cases hending with
  | plain rest =>
    obtain ⟨e, he, -⟩ := exists_reads (c := d) (s := ":") hrest
    have hbases : (optional ("(" ++ some₁ notLineFeed ++ ")")).Passes d [] d :=
      .inr ⟨.refl d, rfl⟩
    exact ⟨_, e, (hnames.seq hbases).seq (passes_text he)⟩
  | @bases bases hne hline rest =>
    obtain ⟨e₁, h₁, hr₁⟩ := exists_reads (c := d) (s := "(") hrest
    obtain ⟨e₂, h₂, hr₂⟩ := exists_reads hr₁
    obtain ⟨e₃, h₃, hr₃⟩ := exists_reads (s := ")") hr₂
    obtain ⟨e₄, h₄, -⟩ := exists_reads (s := ":") hr₃
    have hbases : (optional ("(" ++ some₁ notLineFeed ++ ")")).Passes d ([] ++ [] ++ []) e₃ :=
      .inl (((passes_text h₁).seq (passes_some₁ h₂ hne (Text.bne_of_notMem hline))).seq
        (passes_text h₃))
    exact ⟨_, e₄, (hnames.seq hbases).seq (passes_text h₄)⟩

/-- A line that opens a class is found. -/
theorem exists_search_of_opensClass {line name : Text} (h : OpensClass line name) :
    ∃ g, classPattern.search line = some g ∧ g.get 1 = name := by
  obtain ⟨ms, c', hpass⟩ := exists_passes_classPattern h
  obtain ⟨g, hg⟩ := Option.isSome_iff_exists.1
    (Pattern.isSome_search_of_passes (.refl (Cursor.start line)) hpass)
  exact ⟨g, hg, (opensClass_of_search hg).unique h⟩

/-! ## Sections -/

/-- The source is what stands before the first class, and then the classes.  A class is a line that
opens it and all lines up to the next such line. -/
structure IsSectioned (source before : Text) (sections : List ClassSection) : Prop where
  lines : source.rawLines = before.rawLines ++ sections.flatMap fun s ↦ s.header :: s.body.rawLines
  before : ∀ line ∈ before.rawLines, ∀ name, ¬OpensClass line name
  headers : ∀ s ∈ sections, OpensClass s.header s.name
  bodies : ∀ s ∈ sections, ∀ line ∈ s.body.rawLines, ∀ name, ¬OpensClass line name

namespace IsSectioned

variable {source before body : Text} {sections : List ClassSection}

/-- **The text of the source** is that of its parts. -/
theorem text (h : IsSectioned source before sections) :
    source = before ++ sections.flatMap fun s ↦ s.header ++ s.body := by
  have hlines := congrArg List.flatten h.lines
  rw [Text.flatten_rawLines, List.flatten_append, Text.flatten_rawLines] at hlines
  rw [hlines, List.flatMap_def, List.flatMap_def, List.flatten_flatten, List.map_map]
  simp only [Function.comp_def, List.flatten_cons, Text.flatten_rawLines]

theorem nil : IsSectioned [] [] [] := ⟨rfl, by simp [Text.rawLines], by simp, by simp⟩

/-- A line in front of the source opens a class or stands in front of the first one. -/
theorem exists_cons (h : IsSectioned source before sections) {line : Text}
    (hsource : (line ++ source).rawLines = line :: source.rawLines)
    (hbefore : (line ++ before).rawLines = line :: before.rawLines) :
    ∃ before sections, IsSectioned (line ++ source) before sections := by
  by_cases hopens : ∃ name, OpensClass line name
  · obtain ⟨name, hname⟩ := hopens
    refine ⟨[], ⟨line, name, before⟩ :: sections, ?_, by simp [Text.rawLines],
      List.forall_mem_cons.2 ⟨hname, h.headers⟩, List.forall_mem_cons.2 ⟨h.before, h.bodies⟩⟩
    rw [hsource, h.lines]
    rfl
  · refine ⟨line ++ before, sections, ?_, ?_, h.headers, h.bodies⟩
    · rw [hsource, hbefore, h.lines]
      rfl
    · rw [hbefore]
      exact List.forall_mem_cons.2 ⟨not_exists.1 hopens, h.before⟩

end IsSectioned

/-- Every source has sections. -/
theorem exists_isSectioned (source : Text) :
    ∃ before sections, IsSectioned source before sections := by
  induction source using Text.lineInduction with
  | last raw hraw =>
    by_cases hne : raw = []
    · rw [hne]
      exact ⟨[], [], .nil⟩
    · have hline : (raw ++ []).rawLines = [raw] := by
        rw [List.append_nil, Text.rawLines_of_notMem hne hraw]
      have hcons := IsSectioned.nil.exists_cons hline hline
      rwa [raw.append_nil] at hcons
  | line raw rest hraw ih =>
    obtain ⟨before, sections, h⟩ := ih
    have hline (t : Text) : (raw ++ ['\n'] ++ t).rawLines = (raw ++ ['\n']) :: t.rawLines := by
      rw [← List.append_cons, Text.rawLines_append_cons hraw]
    have hcons := h.exists_cons (hline rest) (hline before)
    rwa [← List.append_cons] at hcons

/-- Lines that open no class belong to what stands in front. -/
theorem classSections_append {lines : List Text} (h : ∀ line ∈ lines, ∀ name, ¬OpensClass line name)
    (more : List Text) :
    classSections (lines ++ more) =
      (lines.flatten ++ (classSections more).1, (classSections more).2) := by
  induction lines with
  | nil => rfl
  | cons line lines ih =>
    obtain ⟨hline, hlines⟩ := List.forall_mem_cons.1 h
    have hnone : classPattern.search line = none :=
      Option.eq_none_iff_forall_ne_some.2 fun _ hg ↦ hline _ (opensClass_of_search hg)
    rw [List.cons_append, classSections, ih hlines, hnone]
    simp

/-- The classes are read back from their lines. -/
theorem classSections_flatMap {sections : List ClassSection}
    (hheaders : ∀ s ∈ sections, OpensClass s.header s.name)
    (hbodies : ∀ s ∈ sections, ∀ line ∈ s.body.rawLines, ∀ name, ¬OpensClass line name) :
    classSections (sections.flatMap fun s ↦ s.header :: s.body.rawLines) = ([], sections) := by
  induction sections with
  | nil => rfl
  | cons s sections ih =>
    obtain ⟨hheader, hheaders⟩ := List.forall_mem_cons.1 hheaders
    obtain ⟨hbody, hbodies⟩ := List.forall_mem_cons.1 hbodies
    obtain ⟨g, hg, hname⟩ := exists_search_of_opensClass hheader
    rw [List.flatMap_cons, List.cons_append, classSections,
      classSections_append hbody, ih hheaders hbodies, hg]
    simp [hname]

/-- **A source is cut at the lines that open a class**, in one way only. -/
theorem classSections_eq_iff {source before : Text} {sections : List ClassSection} :
    classSections source.rawLines = (before, sections) ↔ IsSectioned source before sections := by
  have hread {before sections} (h : IsSectioned source before sections) :
      classSections source.rawLines = (before, sections) := by
    rw [h.lines, classSections_append h.before, classSections_flatMap h.headers h.bodies,
      Text.flatten_rawLines, List.append_nil]
  refine ⟨fun h ↦ ?_, hread⟩
  obtain ⟨before', sections', hsections⟩ := exists_isSectioned source
  obtain ⟨rfl, rfl⟩ := Prod.mk.inj ((hread hsections).symm.trans h)
  exact hsections

/-! ## Docstrings -/

/-- The body begins with a string literal: blanks, a quote, the text of the literal up to the next
such quote, and then the code. -/
structure HasLiteral (body doc code : Text) (quote : Text) : Prop where
  mem : quote ∈ tripleQuotes
  body : ∃ blanks : Text, (∀ c ∈ blanks, isBlank c = true) ∧
    body = blanks ++ (quote ++ (doc ++ quote ++ code))
  first : ∀ u v, doc = u ++ v → v ≠ [] → ¬quote <+: v ++ quote ++ code

/-- The docstring of a body and its code, which is all of the body if that begins with no string
literal. -/
inductive DocSplit (body : Text) : Text → Text → Prop
  | literal {doc code quote : Text} (h : HasLiteral body doc code quote) : DocSplit body doc code
  | plain (h : ∀ doc code quote, ¬HasLiteral body doc code quote) : DocSplit body [] body

/-- No quote begins with a blank. -/
theorem isBlank_of_mem_head?_quote {quote : Text} (h : quote ∈ tripleQuotes) (t : Text) :
    ∀ c ∈ (quote ++ t).head?, isBlank c = false := by
  rcases List.mem_pair.1 h with rfl | rfl
  · exact fun c hc ↦ Option.some_inj.1 hc ▸ by decide
  · exact fun c hc ↦ Option.some_inj.1 hc ▸ by decide

/-- **A body is taken apart** behind the literal at its start. -/
theorem docSplit_splitDocstring (body : Text) :
    DocSplit body (splitDocstring body).1 (splitDocstring body).2 := by
  rw [splitDocstring]
  cases hfound : tripleQuotes.findSome? fun quote ↦
      (body.trimStart.afterLead? quote).bind (·.splitAtFirst? quote) with
  | some parts =>
    obtain ⟨quote, hquote, hparts⟩ := List.exists_of_findSome?_eq_some hfound
    obtain ⟨rest, hrest, hsplit⟩ := Option.bind_eq_some_iff.1 hparts
    have hbody : body = body.takeWhile isBlank ++ (quote ++ (parts.1 ++ quote ++ parts.2)) := by
      rw [← Text.splitAtFirst?_eq_some hsplit, ← Text.afterLead?_eq_some_iff.1 hrest]
      exact List.takeWhile_append_dropWhile.symm
    have hliteral : HasLiteral body parts.1 parts.2 quote :=
      ⟨hquote, ⟨_, fun c hc ↦ List.mem_takeWhile_imp hc, hbody⟩, fun u v hdoc hv ↦
        Text.not_prefix_of_splitAtFirst? hv (hsplit.trans (congrArg some (Prod.ext hdoc rfl)))⟩
    exact .literal hliteral
  | none =>
    refine .plain fun doc code quote h ↦ ?_
    obtain ⟨blanks, hblanks, hbody⟩ := h.body
    have hlead : body.trimStart = quote ++ (doc ++ quote ++ code) := by
      rw [hbody, Text.trimStart_append hblanks (isBlank_of_mem_head?_quote h.mem _)]
    have hnone := List.findSome?_eq_none_iff.1 hfound quote h.mem
    rw [Text.afterLead?_eq_some_iff.2 hlead, Option.bind_some] at hnone
    have hcontains : Text.contains (doc ++ quote ++ code) quote = true :=
      Text.contains_of_isInfix ⟨doc, code, rfl⟩
    rw [Text.contains, hnone] at hcontains
    exact absurd hcontains (by simp)

/-! ## Code in the module -/

/-- The code without the whole blank lines in front and the blanks at its end.  What is left begins
with the indentation of its first line. -/
inductive IsCore (code : Text) : Text → Prop
  | nothing (h : ∀ c ∈ code, isBlank c = true) : IsCore code []
  | lines {lead indent rest trail : Text} {c : Char} (hlead : ∀ x ∈ lead, isBlank x = true)
      (hends : lead.EndsLine) (hindent : ∀ x ∈ indent, isBlank x = true) (hline : '\n' ∉ indent)
      (hfirst : isBlank c = false) (hlast : ∀ x ∈ (c :: rest).getLast?, isBlank x = false)
      (htrail : ∀ x ∈ trail, isBlank x = true)
      (hcode : code = lead ++ (indent ++ c :: rest) ++ trail) : IsCore code (indent ++ c :: rest)

/-- A blank line in front goes. -/
theorem IsCore.cons {raw code body : Text} (h : IsCore code body)
    (hraw : ∀ c ∈ raw, isBlank c = true) : IsCore (raw ++ '\n' :: code) body := by
  have hmore {t : Text} (ht : ∀ c ∈ t, isBlank c = true) :
      ∀ c ∈ raw ++ '\n' :: t, isBlank c = true :=
    List.forall_mem_append.2 ⟨hraw, List.forall_mem_cons.2 ⟨by decide, ht⟩⟩
  cases h with
  | nothing h => exact .nothing (hmore h)
  | @lines lead _ _ _ _ hlead hends hindent hline hfirst hlast htrail hcode =>
    have hends' : Text.EndsLine (raw ++ '\n' :: lead) := by
      rw [List.append_cons]
      exact (Text.endsLine_feed raw).append hends
    exact .lines (hmore hlead) hends' hindent hline hfirst hlast htrail (by simp [hcode])

/-- Code that begins with a line that is not blank keeps that line's indentation. -/
theorem isCore_trimEnd {raw : Text} (hline : '\n' ∉ raw) (hraw : raw.isBlank = false)
    (more : Text) : IsCore (raw ++ more) (Text.trimEnd (raw ++ more)) := by
  have hne : raw.trimStart ≠ [] := fun hnil ↦ by
    rw [Text.trimStart, List.dropWhile_eq_nil_iff] at hnil
    exact absurd (List.all_eq_true.2 hnil) (by simpa [Text.isBlank] using hraw)
  obtain ⟨c, rest, hrest⟩ := List.exists_cons_of_ne_nil hne
  have hc : isBlank c = false := Text.head?_trimStart raw c (by rw [hrest]; rfl)
  have hparts : raw ++ more = raw.takeWhile isBlank ++ c :: (rest ++ more) := by
    rw [← List.cons_append, ← hrest, ← List.append_assoc]
    exact congrArg (· ++ more) List.takeWhile_append_dropWhile.symm
  have hend : Text.trimEnd (c :: (rest ++ more)) ≠ [] := by
    rw [Text.trimEnd_cons hc]
    exact List.cons_ne_nil _ _
  have hcore : Text.trimEnd (raw ++ more) =
      raw.takeWhile isBlank ++ c :: Text.trimEnd (rest ++ more) := by
    rw [hparts, Text.trimEnd_append_of_ne_nil _ hend, Text.trimEnd_cons hc]
  obtain ⟨trail, htrail, hblank⟩ := Text.exists_trimEnd_append (raw ++ more)
  obtain ⟨s, y, hlast, hy⟩ := Text.exists_last_trimEnd hend
  rw [hcore] at htrail ⊢
  refine .lines (List.forall_mem_nil _) (by simp [Text.EndsLine]) (fun x hx ↦
    List.mem_takeWhile_imp hx) (fun hmem ↦ hline (List.takeWhile_subset _ hmem)) hc
    (fun x hx ↦ ?_) hblank htrail
  rw [← Text.trimEnd_cons hc, hlast, List.getLast?_concat] at hx
  exact Option.some_inj.1 hx ▸ hy

/-- A first line goes if it is blank, and otherwise only the blanks at the end go. -/
theorem withoutBlankEnds_eq {code line rest : Text} (h : code.rawLines = line :: rest.rawLines) :
    Sources.withoutBlankEnds code =
      if line.isBlank then Sources.withoutBlankEnds rest else code.trimEnd := by
  rw [Sources.withoutBlankEnds, h, List.dropWhile_cons]
  split
  · rfl
  · rw [← h, Text.flatten_rawLines]

/-- **The code in the module** is the code of the body without the blank lines around it. -/
theorem isCore_withoutBlankEnds (code : Text) : IsCore code (Sources.withoutBlankEnds code) := by
  induction code using Text.lineInduction with
  | last raw hraw =>
    by_cases hne : raw = []
    · rw [hne]
      exact .nothing (List.forall_mem_nil _)
    · have hline : raw.rawLines = raw :: Text.rawLines [] := Text.rawLines_of_notMem hne hraw
      rw [withoutBlankEnds_eq hline]
      split
      · rename_i hblank
        exact .nothing (List.all_eq_true.1 hblank)
      · rename_i hblank
        have hcore := isCore_trimEnd hraw (Bool.eq_false_iff.2 hblank) []
        rwa [raw.append_nil] at hcore
  | line raw rest hraw ih =>
    have hline : Text.isBlank (raw ++ ['\n']) = raw.isBlank := by
      rw [Text.isBlank, List.all_append]
      exact Bool.and_true _
    rw [withoutBlankEnds_eq (Text.rawLines_append_cons hraw rest), hline]
    split
    · rename_i hblank
      exact ih.cons (List.all_eq_true.1 hblank)
    · rename_i hblank
      exact isCore_trimEnd hraw (Bool.eq_false_iff.2 hblank) _

/-! ## From the source to the module -/

namespace Overrides

variable {source before cls : Text} {sections earlier later : List ClassSection} {s : ClassSection}

theorem ofSource_eq (h : IsSectioned source before sections) :
    ofSource source =
      (∅ : Overrides).insertMany (sections.map fun s ↦ (s.name, ClassOverride.ofBody s.body)) := by
  rw [ofSource, classSections_eq_iff.2 h]

/-- No section has the name if it is none of theirs. -/
theorem contains_names_eq_false (h : ∀ s ∈ sections, s.name ≠ cls) :
    ((sections.map fun s ↦ (s.name, ClassOverride.ofBody s.body)).map Prod.fst).contains cls =
      false := by
  rw [List.map_map, ← Bool.not_eq_true, List.contains_iff_mem]
  intro hmem
  obtain ⟨s, hs, hname⟩ := List.mem_map.1 hmem
  exact h s hs hname

/-- A class of the source is the last one of its name. -/
theorem getElem?_ofSource (h : IsSectioned source before (earlier ++ s :: later))
    (hlater : ∀ s' ∈ later, s'.name ≠ s.name) :
    (ofSource source)[s.name]? = some (ClassOverride.ofBody s.body) := by
  rw [ofSource_eq h, List.map_append, Std.TreeMap.insertMany_append, List.map_cons,
    Std.TreeMap.insertMany_cons, Std.TreeMap.getElem?_insertMany_list_of_contains_eq_false
      (contains_names_eq_false hlater), Std.TreeMap.getElem?_insert_self]

theorem docFor_ofSource (h : (ofSource source)[s.name]? = some (ClassOverride.ofBody s.body)) :
    (ofSource source).docFor s.name = (splitDocstring s.body).1 := by
  rw [docFor, h]
  rfl

theorem codeFor_ofSource (h : (ofSource source)[s.name]? = some (ClassOverride.ofBody s.body)) :
    (ofSource source).codeFor s.name = (splitDocstring s.body).2 := by
  rw [codeFor, h]
  rfl

theorem getElem?_ofSource_eq_none (h : IsSectioned source before sections)
    (hcls : ∀ s ∈ sections, s.name ≠ cls) : (ofSource source)[cls]? = none := by
  rw [ofSource_eq h, Std.TreeMap.getElem?_insertMany_list_of_contains_eq_false
    (contains_names_eq_false hcls), Std.TreeMap.getElem?_emptyc]

end Overrides

/-- **Hand-written code is kept.**  A source is the text before its first class and then its
classes, each a line that opens it and a body.  The docstring and the code of a class are those of
the last body under its name, and that body is made of them.  The wrapper class in the module has
the code without the blank lines around it. -/
theorem Overrides.source_kept (source : Text) :
    ∃ before sections, IsSectioned source before sections ∧
      source = before ++ (sections.flatMap fun s ↦ s.header ++ s.body) ∧
      (∀ cls, (∀ s ∈ sections, s.name ≠ cls) →
        (ofSource source).docFor cls = [] ∧ (ofSource source).codeFor cls = []) ∧
      (∀ earlier s later, sections = earlier ++ s :: later → (∀ s' ∈ later, s'.name ≠ s.name) →
        DocSplit s.body ((ofSource source).docFor s.name) ((ofSource source).codeFor s.name)) ∧
      ∀ (lib : Sources) (nodes : List Node), lib.overrides = ofSource source →
        lib.wrappers? = some nodes →
        List.Forall₂ (fun cls node ↦ ∃ doc constructs body methods,
          node = .wrapper cls doc constructs body methods ∧
            IsCore ((ofSource source).codeFor cls) body) lib.wrapperClasses nodes := by
  obtain ⟨before, sections, h⟩ := exists_isSectioned source
  refine ⟨before, sections, h, h.text, fun cls hcls ↦ ?_, fun earlier s later hsplit hlater ↦ ?_,
    fun lib nodes hlib hnodes ↦ ?_⟩
  · rw [docFor, codeFor, getElem?_ofSource_eq_none h hcls]
    exact ⟨rfl, rfl⟩
  · have hlast := getElem?_ofSource (hsplit ▸ h) hlater
    rw [docFor_ofSource hlast, codeFor_ofSource hlast]
    exact docSplit_splitDocstring s.body
  · refine (forall₂_of_mapM hnodes).imp fun cls node hnode ↦ ?_
    obtain ⟨methods, -, rfl⟩ := Sources.eq_wrapper_of_wrapper? hnode
    rw [hlib]
    exact ⟨_, _, _, methods, rfl, isCore_withoutBlankEnds _⟩

/-- A class with a docstring and, under the same name, one whose docstring and code stand behind a
blank line. -/
def writtenSource : Text :=
  "import sys\nclass Context(_Ctype):\n    \"\"\"Opens devices.\"\"\"\n\n    handle = None\n" ++
  "class Context:\n  \n    '''Closes devices.''' \n    handle = 1\n\n"

/-- A library with that class. -/
def writtenLibrary : Sources :=
  let conventions : Conventions := { wrapperClasses := ["Context"] }
  { conventions, declarations := {}, types := .build conventions ∅ {},
    overrides := .ofSource writtenSource }

theorem Overrides.source_kept_writtenLibrary :
    (ofSource writtenSource).docFor "Context" = "Closes devices." ∧
    (ofSource writtenSource).codeFor "Context" = " \n    handle = 1\n\n" ∧
    ∃ nodes, writtenLibrary.wrappers? = some nodes ∧
      List.Forall₂ (fun cls node ↦ ∃ doc constructs body methods,
        node = .wrapper cls doc constructs body methods ∧
          IsCore ((ofSource writtenSource).codeFor cls) body) [("Context" : Text)] nodes := by
  have hread : (ofSource writtenSource).docFor "Context" = "Closes devices." ∧
      (ofSource writtenSource).codeFor "Context" = " \n    handle = 1\n\n" ∧
      writtenLibrary.wrappers?.isSome = true ∧
      writtenLibrary.wrapperClasses = ([("Context" : Text)] : List Text) := by decide +kernel
  obtain ⟨hdoc, hcode, hwrappers, hclasses⟩ := hread
  obtain ⟨nodes, hnodes⟩ := Option.isSome_iff_exists.1 hwrappers
  obtain ⟨_, _, -, -, -, -, hcore⟩ := source_kept writtenSource
  exact ⟨hdoc, hcode, nodes, hnodes, hclasses ▸ hcore writtenLibrary nodes rfl hnodes⟩

end HeaderBindings
