import HeaderBindings.Proofs.Overrides.Sections

/-!
# Methods written by hand

A method that is written by hand is not generated.  Which ones are is found by a pattern over the
whole code of a class: a line start, blanks, `def` and a name.

* `FoundMethod` says where the pattern matches, and `mem_methodNames` that no definition is left out
  for another one, unless a line holds nothing but the keyword.
* Every indented definition counts, so those of functions within a method do too.
* Blanks hold line ends, so a definition at the left margin counts if the line in front is blank.
  Nothing is said about it here, except that it is the only way for one to count.
* `Overrides.definesMethod_ofSource` puts it together.  `Overrides.definesMethod_nestedSource` is a
  class in which a function within a method counts as a method of the class.
-/

set_option autoImplicit false

namespace HeaderBindings

open Cursor (start)
open Text (IsWord)

/-! ## Definitions in a line -/

/-- The line defines a function of the given name behind the given indentation. -/
def DefinesMethod (indent name line : Text) : Prop :=
  ∃ d rest, line = indent ++ (d ++ rest) ∧ (∀ c ∈ indent, isBlank c = true) ∧
    Names "def" name d ∧ ∀ c ∈ rest.head?, isWordChar c = false

theorem Names.isBlank_head? {name d : Text} (h : Names "def" name d) (rest : Text) :
    ∀ c ∈ (d ++ rest).head?, isBlank c = false := by
  obtain ⟨gap, -, -, -, rfl⟩ := h
  exact fun c hc ↦ Option.some_inj.1 hc ▸ by decide

/-- A line defines one function only. -/
theorem DefinesMethod.unique {indent indent' name name' line : Text}
    (h : DefinesMethod indent name line) (h' : DefinesMethod indent' name' line) :
    indent = indent' ∧ name = name' := by
  obtain ⟨d, rest, rfl, hindent, hname, hrest⟩ := h
  obtain ⟨d', rest', hline, hindent', hname', hrest'⟩ := h'
  obtain rfl := Text.eq_of_append_eq_of_forall hline hindent hindent' (hname.isBlank_head? rest)
    (hname'.isBlank_head? rest')
  exact ⟨rfl, (hname.unique hname' (List.append_cancel_left hline) hrest hrest').1⟩

/-! ## Definitions in the code of a class -/

/-- A place is the start of a line if what stands in front of it ends a line. -/
theorem isLineStart_iff {code front : Text} {c : Cursor} (hc : (start code).Reads front c) :
    (c.prev.all (· == '\n')) = true ↔ front.EndsLine := by
  have hprev : c.prev = front.getLast? := hc.prev.trans (Option.or_none ..)
  rw [hprev, Text.EndsLine, Option.all_eq_true]
  simp only [beq_iff_eq, Option.mem_def]

/-- A definition that the pattern finds in the code: behind a line start there are blanks, perhaps
with line ends, and then the keyword with the name. -/
structure FoundMethod (code front indent name d rest : Text) : Prop where
  code : code = front ++ (indent ++ (d ++ rest))
  line : front.EndsLine
  indented : indent ≠ []
  blank : ∀ c ∈ indent, isBlank c = true
  names : Names "def" name d
  behind : ∀ c ∈ rest.head?, isWordChar c = false

namespace FoundMethod

variable {code front indent name d rest : Text} {c : Cursor}

open Pattern in
/-- The pattern matches there. -/
theorem exists_matchAt (h : FoundMethod code front indent name d rest)
    (hc : (start code).Reads front c) : ∃ m, methodPattern.matchAt c = some m ∧ m.get 1 = name ∧
      m.stop.offset = c.offset + (indent ++ d).length := by
  have hhead := h.names.isBlank_head? rest
  obtain ⟨gap, hgap, hgapblank, hword, rfl⟩ := h.names
  have hrest : c.rest = indent ++ ("def" ++ gap ++ name ++ rest) :=
    List.append_cancel_left (hc.rest.symm.trans h.code)
  obtain ⟨b, hb, hrb⟩ := Cursor.exists_reads hrest
  rw [← hrb] at hhead
  rw [List.append_assoc, List.append_assoc] at hrb
  obtain ⟨k, hk, hrk⟩ := Cursor.exists_reads (s := "def") hrb
  obtain ⟨a, ha, hra⟩ := Cursor.exists_reads hrk
  obtain ⟨e, he, hre⟩ := Cursor.exists_reads hra
  have hname : ∀ x ∈ a.rest.head?, isBlank x = false := hra ▸ hword.isBlank_head? rest
  have hend : ∀ x ∈ e.rest.head?, isWordChar x = false := hre ▸ h.behind
  have hmatch : lineStart.run (blanks₁.run ((text "def").run (blanks₁.run
      ((Pattern.group 1 word₁).run fun c' ↦ some (.empty c'))))) c =
      some (((Match.empty e).mark (.closing 1) e).mark (.opening 1) a) := by
    refine run_place ((isLineStart_iff hc).2 h.line) ?_
    refine run_blanks₁ hb h.indented h.blank (run_text hk ?_) hhead
    refine run_blanks₁ ha hgap hgapblank (run_group ?_) hname
    exact run_some₁ he hword.1 hword.2 rfl hend
  refine ⟨_, hmatch, ?_, (hb.trans ((hk.trans ha).trans he)).offset⟩
  rw [get_of_marks (List.nil_append _).symm (List.forall_mem_nil _) (List.forall_mem_nil _)]
  exact he.textTo

open Pattern in
/-- What the pattern matches is a definition. -/
theorem of_matchAt {m : Match} (hc : (start code).Reads front c)
    (hm : methodPattern.matchAt c = some m) :
    ∃ indent d rest, FoundMethod code front indent (m.get 1) d rest ∧
      m.stop.offset = c.offset + (indent ++ d).length := by
  obtain ⟨ms, c', m', hpass, -⟩ := passes_of_run methodPattern hm
  obtain ⟨b, t, name, a, hfront, hd, hname, -, -⟩ := hpass.names rfl
  obtain ⟨_, _, _, ⟨hstart, rfl, -⟩, hblanks, -⟩ := hfront
  obtain ⟨indent, hne, hblank, hindent⟩ := hblanks.some₁
  obtain ⟨gap, hgap, hgapblank, hword, rfl⟩ := hname
  -- the match takes all word characters that follow, whatever way is taken here
  obtain ⟨more, rest, hsplit, hmore, hrest⟩ := Text.exists_word_append c'.rest
  have hcode : code = front ++ (indent ++ ("def" ++ gap ++ (name ++ more) ++ rest)) := by
    have hread : code = _ := ((hc.trans hindent).trans hd).rest
    rw [hread, hsplit]
    simp only [List.append_assoc]
  have hnamed : IsWord (name ++ more) :=
    ⟨List.append_ne_nil_of_left_ne_nil hword.1 more, List.forall_mem_append.2 ⟨hword.2, hmore⟩⟩
  have hfound : FoundMethod code front indent (name ++ more) ("def" ++ gap ++ (name ++ more))
      rest :=
    ⟨hcode, (isLineStart_iff hc).1 hstart, hne, List.all_eq_true.1 hblank,
      ⟨gap, hgap, hgapblank, hnamed, rfl⟩, hrest⟩
  obtain ⟨m'', hm'', hget, hstop⟩ := hfound.exists_matchAt hc
  obtain rfl := Option.some_inj.1 (hm.symm.trans hm'')
  rw [hget]
  exact ⟨_, _, _, hfound, hstop⟩

/-- A definition that another one reaches over has the same name, if the name of the other one
stands in the line of its keyword. -/
theorem eq_of_covered {front' indent' name' d' rest' : Text}
    (h : FoundMethod code front indent name d rest)
    (h' : FoundMethod code front' indent' name' d' rest') (hline : '\n' ∉ d')
    (hbefore : front'.length < front.length)
    (hover : front.length < front'.length + (indent' ++ d').length) : name = name' := by
  have hcode := h.code.symm.trans h'.code
  rw [← List.append_assoc indent'] at hcode
  obtain ⟨u, rfl⟩ : front' <+: front := List.prefix_of_prefix_length_le
    ⟨_, hcode.symm⟩ (List.prefix_append front _) hbefore.le
  rw [List.append_assoc, List.append_cancel_left_eq] at hcode
  rw [List.length_append] at hbefore hover
  obtain ⟨v, hv⟩ : u <+: indent' ++ d' :=
    List.prefix_of_prefix_length_le ⟨_, hcode⟩ (List.prefix_append _ rest') (by omega)
  rw [← hv, List.append_assoc, List.append_cancel_left_eq] at hcode
  have hfeed {a w : Text} (hw : u = a ++ w) (hne : w ≠ []) : '\n' ∈ w := by
    have hlast : w.getLast hne ∈ (front' ++ u).getLast? := by
      rw [hw, List.getLast?_append, List.getLast?_append, List.getLast?_eq_some_getLast hne]
      rfl
    exact h.line _ hlast ▸ List.getLast_mem hne
  -- the line start lies within the blanks of the other definition
  obtain ⟨b, rfl, rfl⟩ : ∃ b, indent' = u ++ b ∧ v = b ++ d' := by
    rcases List.append_eq_append_iff.1 hv with ⟨b, hindent, hb⟩ | ⟨w, hu, hd⟩
    · exact ⟨b, hindent, hb⟩
    · by_cases hw : w = []
      · exact ⟨[], by simp [hu, hw], by simp [hd, hw]⟩
      · exact absurd (hd ▸ List.mem_append_left v (hfeed hu hw)) hline
  rw [List.append_assoc] at hcode
  obtain rfl := Text.eq_of_append_eq_of_forall hcode h.blank
    (fun x hx ↦ h'.blank x (List.mem_append_right u hx)) (h.names.isBlank_head? rest)
    (h'.names.isBlank_head? rest')
  exact (h.names.unique h'.names (List.append_cancel_left hcode) h.behind h'.behind).1

/-- A keyword stands in the line of its name unless it is alone in its line. -/
theorem notMem (h : FoundMethod code front indent name d rest)
    (hlines : ∀ line ∈ code.rawLines, line.trim ≠ "def") : '\n' ∉ d := by
  obtain ⟨gap, -, hgap, hword, rfl⟩ := h.names
  intro hfeed
  have hmem : '\n' ∈ gap := by
    have hname : '\n' ∉ name := fun hmem ↦ absurd (hword.2 _ hmem) (by decide)
    simpa [hname] using hfeed
  obtain ⟨g, more, rfl, hg⟩ := List.eq_append_cons_of_mem hmem
  obtain ⟨lead, last, rfl, hlead, hlast⟩ := Text.exists_lastLine indent
  have hline : '\n' ∉ last ++ ("def" ++ g) := by simp [hlast, hg]
  have hcode : code =
      front ++ lead ++ (last ++ ("def" ++ g) ++ '\n' :: (more ++ name ++ rest)) := by
    rw [h.code]
    simp
  refine hlines (last ++ ("def" ++ g) ++ ['\n']) ?_ ?_
  · rw [hcode, Text.rawLines_append (h.line.append hlead), Text.rawLines_append_cons hline]
    exact List.mem_append_right _ List.mem_cons_self
  · have hsolid : Text.IsSolid "def" := Text.isSolid_of_isIdentifier (by decide)
    rw [← List.append_assoc last, List.append_assoc]
    refine Text.trim_pad (fun c hc ↦ h.blank c (List.mem_append_right lead hc)) hsolid ?_
    exact List.forall_mem_append.2 ⟨fun c hc ↦ hgap c (List.mem_append_left _ hc),
      List.forall_mem_singleton.2 (by decide)⟩

/-- The line of a definition.  At the left margin there is a blank line in front of it. -/
theorem exists_line (h : FoundMethod code front indent name d rest) (hd : '\n' ∉ d) :
    ∃ earlier line later last, code.rawLines = earlier ++ line :: later ∧
      DefinesMethod last name line ∧
      (last = [] → ∃ blank ∈ earlier.getLast?, blank.isBlank = true) := by
  obtain ⟨lead, last, rfl, hlead, hlast⟩ := Text.exists_lastLine indent
  have hne : last ++ d ≠ [] := by
    obtain ⟨gap, -, -, -, rfl⟩ := h.names
    simp
  obtain ⟨more, later, ⟨behind, hmore⟩, hlines⟩ :=
    Text.exists_rawLine (h.line.append hlead) hne (by simp [hlast, hd]) rest
  have hcode : front ++ lead ++ (last ++ d ++ rest) = code := by
    rw [h.code]
    simp
  rw [hcode] at hlines
  refine ⟨(front ++ lead).rawLines, last ++ d ++ more, later, last, hlines,
    ⟨d, more, List.append_assoc .., fun c hc ↦ h.blank c (List.mem_append_right lead hc), h.names,
      fun c hc ↦ h.behind c ?_⟩, fun hnil ↦ ?_⟩
  · rw [← hmore, List.head?_append, Option.mem_def.1 hc]
    rfl
  · have hleadne : lead.rawLines ≠ [] := fun hnone ↦ h.indented (by
      rw [hnil, ← lead.flatten_rawLines, hnone]
      rfl)
    refine ⟨lead.rawLines.getLast hleadne, ?_, List.all_eq_true.2 fun c hc ↦ ?_⟩
    · rw [Text.rawLines_append h.line, List.getLast?_append,
        List.getLast?_eq_some_getLast hleadne]
      rfl
    · refine h.blank c (List.mem_append_left last ?_)
      rw [← lead.flatten_rawLines]
      exact List.mem_flatten.2 ⟨_, List.getLast_mem hleadne, hc⟩

/-- An indented definition in a line is found. -/
theorem of_mem_rawLines {line : Text} (h : line ∈ code.rawLines) (hne : indent ≠ [])
    (hdef : DefinesMethod indent name line) :
    ∃ front d rest, FoundMethod code front indent name d rest := by
  obtain ⟨front, back, hcode, hfront, hback⟩ := Text.exists_of_mem_rawLines h
  obtain ⟨d, r, rfl, hblank, hname, hr⟩ := hdef
  refine ⟨front, d, r ++ back, by simpa using hcode, hfront, hne, hblank, hname, fun c hc ↦ ?_⟩
  cases r with
  | cons x r => exact hr c hc
  | nil =>
    rcases hback with hfeed | rfl
    · obtain ⟨gap, -, -, hword, rfl⟩ := hname
      rw [List.append_nil, ← List.append_assoc, List.getLast?_append,
        List.getLast?_eq_some_getLast hword.1] at hfeed
      have hlast := hword.2 _ (List.getLast_mem hword.1)
      rw [Option.some_inj.1 hfeed] at hlast
      exact absurd hlast (by decide)
    · exact absurd hc (by simp)

end FoundMethod

/-- The names of the methods found in the code of a class. -/
def methodNames (code : Text) : List Text := (methodPattern.collect code).map (·.get 1)

theorem exists_foundMethod {code name : Text} (h : name ∈ methodNames code) :
    ∃ front indent d rest, FoundMethod code front indent name d rest := by
  obtain ⟨m, hm, rfl⟩ := List.mem_map.1 h
  obtain ⟨front, c, hc, hmatch⟩ := Pattern.exists_reads_of_mem_collect hm
  obtain ⟨indent, d, rest, hfound, -⟩ := FoundMethod.of_matchAt hc hmatch
  exact ⟨front, indent, d, rest, hfound⟩

/-- **No definition is left out** for another one that is found. -/
theorem mem_methodNames {code front indent name d rest : Text}
    (hlines : ∀ line ∈ code.rawLines, line.trim ≠ "def")
    (h : FoundMethod code front indent name d rest) : name ∈ methodNames code := by
  obtain ⟨c, hc, -⟩ := Cursor.exists_reads (c := start code) (s := front) h.code
  obtain ⟨m, hm, hname, -⟩ := h.exists_matchAt hc
  rcases Pattern.mem_collect hc hm with hmem | ⟨m', front', c', hmem, hc', hm', hbefore, hover⟩
  · exact List.mem_map.2 ⟨m, hmem, hname⟩
  · obtain ⟨indent', d', rest', hfound, hstop⟩ := FoundMethod.of_matchAt hc' hm'
    have hoffset : c.offset = front.length := hc.offset.trans (Nat.zero_add _)
    have hoffset' : c'.offset = front'.length := hc'.offset.trans (Nat.zero_add _)
    have heq := h.eq_of_covered hfound (hfound.notMem hlines) (by omega) (by omega)
    exact List.mem_map.2 ⟨m', hmem, heq.symm⟩

/-! ## Methods that are not generated -/

/-- An indented line of the code defines a function of the given name. -/
def HoldsIndented (code name : Text) : Prop :=
  ∃ line ∈ code.rawLines, ∃ indent, indent ≠ [] ∧ DefinesMethod indent name line

/-- A line at the left margin does, directly behind a blank line. -/
def HoldsBehindBlank (code name : Text) : Prop :=
  ∃ earlier blank line later, code.rawLines = earlier ++ blank :: line :: later ∧
    blank.isBlank = true ∧ DefinesMethod [] name line

/-- The names that are found are those of indented definitions, and perhaps of definitions at the
left margin behind a blank line. -/
theorem methodNames_bounds {code name : Text} (hlines : ∀ line ∈ code.rawLines, line.trim ≠ "def") :
    (HoldsIndented code name → name ∈ methodNames code) ∧
      (name ∈ methodNames code → HoldsIndented code name ∨ HoldsBehindBlank code name) := by
  constructor
  · rintro ⟨line, hline, indent, hne, hdef⟩
    obtain ⟨front, d, rest, hfound⟩ := FoundMethod.of_mem_rawLines hline hne hdef
    exact mem_methodNames hlines hfound
  · intro h
    obtain ⟨front, indent, d, rest, hfound⟩ := exists_foundMethod h
    obtain ⟨earlier, line, later, last, hcode, hdef, hbefore⟩ :=
      hfound.exists_line (hfound.notMem hlines)
    by_cases hnil : last = []
    · obtain ⟨blank, hlast, hblank⟩ := hbefore hnil
      obtain ⟨init, rfl⟩ := List.getLast?_eq_some_iff.1 hlast
      exact .inr ⟨init, blank, line, later, by simpa using hcode, hblank, hnil ▸ hdef⟩
    · exact .inl ⟨line, hcode ▸ List.mem_append_right _ List.mem_cons_self, last, hnil, hdef⟩

namespace Overrides

variable {source before : Text} {sections : List ClassSection}

/-- **Which methods are written by hand.**  Those of a class are found in the code of its last body,
which is what stands behind its docstring.  If no line there is a lone keyword, they are all
functions that are defined behind an indentation, however deep, and none besides, except perhaps
for functions at the left margin behind a blank line.  A function of the library becomes a method
unless its method is written by hand. -/
theorem definesMethod_ofSource (h : IsSectioned source before sections) :
    (∀ cls, (∀ s ∈ sections, s.name ≠ cls) → ∀ name,
      (ofSource source).definesMethod cls name = false) ∧
    (∀ earlier s later, sections = earlier ++ s :: later → (∀ s' ∈ later, s'.name ≠ s.name) →
      DocSplit s.body ((ofSource source).docFor s.name) ((ofSource source).codeFor s.name) ∧
      ((∀ line ∈ ((ofSource source).codeFor s.name).rawLines, line.trim ≠ "def") → ∀ name,
        (HoldsIndented ((ofSource source).codeFor s.name) name →
          (ofSource source).definesMethod s.name name = true) ∧
        ((ofSource source).definesMethod s.name name = true →
          HoldsIndented ((ofSource source).codeFor s.name) name ∨
            HoldsBehindBlank ((ofSource source).codeFor s.name) name))) ∧
    ∀ lib : Sources, lib.overrides = ofSource source → ∀ cls f,
      f ∈ lib.generatedFunctions cls ↔ f ∈ lib.functionsOf cls ∧
        (ofSource source).definesMethod cls (lib.types.methodName cls f.name) = false := by
  refine ⟨fun cls hcls name ↦ ?_, fun earlier s later hsplit hlater ↦ ?_, fun lib hlib cls f ↦ ?_⟩
  · rw [definesMethod, getElem?_ofSource_eq_none h hcls]
    rfl
  · have hlast := getElem?_ofSource (hsplit ▸ h) hlater
    have hdefines (name : Text) : (ofSource source).definesMethod s.name name = true ↔
        name ∈ methodNames (splitDocstring s.body).2 := by
      rw [definesMethod, hlast, Option.any_some, ClassOverride.ofBody, Std.TreeSet.contains_ofList,
        List.contains_iff_mem]
      rfl
    rw [docFor_ofSource hlast, codeFor_ofSource hlast]
    refine ⟨docSplit_splitDocstring s.body, fun hlines name ↦ ?_⟩
    rw [hdefines]
    exact methodNames_bounds hlines
  · rw [Sources.generatedFunctions, List.mem_filter, hlib, Bool.not_eq_true']

/-- A class with a method that has a function of its own. -/
def nestedClass : ClassSection where
  header := "class C:\n"
  name := "C"
  body := "    def a(self):\n        def b():\n            pass\n"

/-- The source with that class. -/
def nestedSource : Text := nestedClass.header ++ nestedClass.body

theorem isSectioned_nestedSource : IsSectioned nestedSource [] [nestedClass] :=
  classSections_eq_iff.1 (by decide +kernel)

/-- What the lines of the class define. -/
theorem lines_nestedClass :
    nestedClass.body.rawLines = ([("    def a(self):\n" : Text), ("        def b():\n" : Text),
      ("            pass\n" : Text)] : List Text) ∧
    DefinesMethod "    " "a" "    def a(self):\n" ∧
    DefinesMethod "        " "b" "        def b():\n" :=
  ⟨by decide,
    ⟨"def a", "(self):\n", rfl, List.all_eq_true.1 rfl,
      ⟨" ", by decide, List.all_eq_true.1 rfl, ⟨by decide, List.all_eq_true.1 rfl⟩, rfl⟩,
      fun c hc ↦ Option.some_inj.1 hc ▸ rfl⟩,
    ⟨"def b", "():\n", rfl, List.all_eq_true.1 rfl,
      ⟨" ", by decide, List.all_eq_true.1 rfl, ⟨by decide, List.all_eq_true.1 rfl⟩, rfl⟩,
      fun c hc ↦ Option.some_inj.1 hc ▸ rfl⟩⟩

theorem definesMethod_ofSource_nested :
    (ofSource nestedSource).definesMethod nestedClass.name "a" = true ∧
    (ofSource nestedSource).definesMethod nestedClass.name "b" = true ∧
    (ofSource nestedSource).definesMethod "D" "a" = false := by
  obtain ⟨hnone, hlast, -⟩ := definesMethod_ofSource isSectioned_nestedSource
  obtain ⟨hlines, ha, hb⟩ := lines_nestedClass
  obtain ⟨-, hdefines⟩ := hlast [] nestedClass [] rfl (List.forall_mem_nil _)
  have hcode : (ofSource nestedSource).codeFor nestedClass.name = nestedClass.body := by
    decide +kernel
  rw [hcode, hlines] at hdefines
  have hname (name : Text) := (hdefines (by decide) name).1
  have hmem : ("    def a(self):\n" : Text) ∈ nestedClass.body.rawLines ∧
      ("        def b():\n" : Text) ∈ nestedClass.body.rawLines := by
    rw [hlines]
    decide
  exact ⟨hname "a" ⟨_, hmem.1, _, by decide, ha⟩, hname "b" ⟨_, hmem.2, _, by decide, hb⟩,
    hnone "D" (by decide) "a"⟩

/-- **A function in a method counts** as a method of the class, though no line of the class defines
it at the indentation of the class's methods. -/
theorem definesMethod_nestedSource :
    IsSectioned nestedSource [] [nestedClass] ∧
    (∃ line ∈ nestedClass.body.rawLines, DefinesMethod "    " "a" line) ∧
    (∀ line ∈ nestedClass.body.rawLines, ¬DefinesMethod "    " "b" line) ∧
    (ofSource nestedSource).definesMethod nestedClass.name "b" = true := by
  obtain ⟨hlines, ha, hb⟩ := lines_nestedClass
  rw [hlines]
  refine ⟨isSectioned_nestedSource, ⟨_, List.mem_cons_self, ha⟩, fun line hline h ↦ ?_,
    by decide +kernel⟩
  rcases List.mem_cons.1 hline with rfl | hline
  · exact absurd (h.unique ha).2 (by decide)
  rcases List.mem_cons.1 hline with rfl | hline
  · exact absurd (h.unique hb).1 (by decide)
  · obtain rfl := List.mem_singleton.1 hline
    obtain ⟨_, _, hpass, -, ⟨_, -, -, -, rfl⟩, -⟩ := h
    exact absurd (congrArg (·[4]?) hpass) (by simp)

end Overrides

end HeaderBindings
