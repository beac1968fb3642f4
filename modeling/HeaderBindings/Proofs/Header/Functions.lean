import HeaderBindings.Proofs.Header.Bodies
import HeaderBindings.Proofs.Header.Prototypes

/-!
# Reading functions and callbacks back

A function stands in a header as the export macro and its prototype, and the type of a callback as
`typedef` and its prototype, with the name in parentheses behind the callback tag.  The scanner
knows both by what they begin with, and by the closing parenthesis and the semicolon at their end.

* `Pattern.run_head` and `Pattern.run_arguments` follow what the two patterns share: all in front of
  the first parenthesis, and all up to the last one.
* `parts?_functionPattern` and `parts?_callbackPattern` are the parts that are found.
* `prototypes_headerText`: from any list of functions, and from any list of callbacks, the same
  prototypes are read back, and nothing is wrong with them.

The deprecation marker is looked for in the whole first line.  So it must be a part neither of a
word of the prototype (`WrittenPrototype.Exported`) nor of the macro and the tag that stand around
them.
`prototypes_lost` shows what becomes of functions that one of the conditions excludes.
-/

set_option autoImplicit false

namespace HeaderBindings

open Cursor (start)

namespace Pattern

variable {c c' : Cursor} {m : Match} {k : Cursor → Option Match} {s t : Text}

/-! ## The end of a declaration -/

theorem run_finalCall {e : Text} (he : ∀ x ∈ e, isBlank x = true)
    (h : c.Reads (')' :: (e ++ [';'])) c') (hend : c'.rest = []) :
    finalCall.run (fun c ↦ some (.empty c)) c = some (.empty c') := by
  obtain ⟨d, hclosing, hrest⟩ := Cursor.exists_reads (c := c) (s := [')'])
    (r := e ++ ([';'] ++ c'.rest)) (by rw [h.rest]; simp)
  obtain ⟨d', hblanks, hrest'⟩ := Cursor.exists_reads hrest
  obtain ⟨c'', hsemicolon, -⟩ := Cursor.exists_reads hrest'
  obtain rfl := ((hclosing.trans hblanks).trans hsemicolon).unique (by simpa using h)
  exact run_text hclosing (run_blanks hblanks he (run_finalSemicolon hsemicolon hend)
    (by rw [hrest']; simp; decide))

@[simp]
theorem occursIn_finalCall (s : Text) : finalCall.occursIn (s ++ [')', ';']) = true := by
  obtain ⟨c, hs, hrest⟩ := Cursor.exists_reads (c := start (s ++ [')', ';'])) rfl
  obtain ⟨c₁, h₁, hrest₁⟩ := Cursor.exists_reads (s := [')']) hrest
  obtain ⟨c₂, h₂, hrest₂⟩ := Cursor.exists_reads (s := [';']) (r := []) hrest₁
  exact isSome_search_of_passes hs (Passes.seq (Passes.seq (passes_text h₁)
    (passes_many (.refl c₁) (by simp))) (Passes.seq (passes_text h₂)
    (passes_place (by simp [hrest₂]))))

/-- Nothing ends without a semicolon. -/
theorem occursIn_finalCall_eq_false (h : ';' ∉ t) : finalCall.occursIn t = false := by
  rw [← Bool.not_eq_true, occursIn_iff]
  rintro ⟨s, c, hs, _, c', _, c₂, _, hclosing, hend, -⟩
  obtain ⟨u, hu⟩ := hclosing.reads
  have hwhole : t = _ := (hs.trans hu).rest
  rw [hwhole] at h
  exact h (List.mem_append_right _ (semicolon_mem_of_passes hend))

/-- **What stands between the parentheses** of a declaration goes on up to the last of them. -/
theorem run_arguments {i : Nat} {e : Text} (hs : c.Reads s c') (hlines : '\n' ∉ s)
    (he : ∀ x ∈ e, isBlank x = true) (hrest : c'.rest = ')' :: (e ++ [';'])) :
    ∃ c'', c'.Reads (')' :: (e ++ [';'])) c'' ∧
      (group i anything).run (finalCall.run fun c ↦ some (.empty c)) c =
        some (((Match.empty c'').mark (.closing i) c').mark (.opening i) c) := by
  obtain ⟨c'', hread, hend⟩ := Cursor.exists_reads (s := ')' :: (e ++ [';'])) (r := [])
    (by rw [hrest, List.append_nil])
  have hlast : ')' ∉ e ++ [';'] := by
    rw [List.mem_append, not_or]
    exact ⟨fun hmem ↦ absurd (he _ hmem) (by decide), by decide⟩
  exact ⟨c'', hread, run_group_of_last hs (Text.bne_of_notMem hlines) hrest hlast
    (run_finalCall he hread hend)⟩

/-- **What stands in front of the first parenthesis** of a declaration is read without the blanks
between them. -/
theorem run_head {i : Nat} {r : Text} (hs : c.Reads s c') (hsolid : s.IsSolid)
    (hlines : '\n' ∉ s) (hflat : '(' ∉ s.tail) {u : Text} {c'' : Cursor} (hu : c'.Reads u c'')
    (hblank : ∀ x ∈ u, isBlank x = true)
    (hrest : c''.rest = '(' :: r) (hk : (text ['(']).run k c'' = some m) :
    (group i lazyAnything₁).run (blanks.run ((text ['(']).run k)) c =
      some ((m.mark (.closing i) c').mark (.opening i) c) := by
  refine run_group (run_lazySome hs hsolid.ne_nil (Text.bne_of_notMem hlines) (close_group ?_)
    fun v w d hsplit hv hne hd ↦ ?_)
  · exact run_blanks hu hblank hk (by rw [hrest]; simp; decide)
  · have hnone : blanks.run ((text ['(']).run k) d = none := by
      -- From an earlier place only blanks may be skipped, but the last character is none.
      refine run_eq_none fun ms e hpass ↦ run_text_eq_none fun hfront ↦ ?_
      obtain ⟨⟨b, hb, hread⟩, -⟩ := hpass
      obtain ⟨r', hr'⟩ := hfront
      have hbs := List.all_eq_true.1 hb
      have hnoParen {b : Text} (hb : ∀ x ∈ b, isBlank x = true) : '(' ∉ b := fun hmem ↦
        absurd (hb _ hmem) (by decide)
      have hd' : d.rest = w ++ c'.rest := by
        have hsame := hd.rest.symm.trans hs.rest
        rw [hsplit, List.append_assoc] at hsame
        exact List.append_cancel_left hsame
      have hsame : w ++ u ++ '(' :: r = b ++ '(' :: r' := by
        rw [List.append_assoc, ← hrest, ← hu.rest, ← hd', hread.rest, ← hr']
        rfl
      have hwu : '(' ∉ w ++ u := by
        rw [List.mem_append, not_or]
        obtain ⟨x, v, rfl⟩ := List.exists_cons_of_ne_nil hv
        exact ⟨fun hmem ↦ hflat (by rw [hsplit]; exact List.mem_append_right v hmem),
          hnoParen hblank⟩
      have heq := Text.eq_of_notMem hsame hwu (hnoParen hbs)
      obtain ⟨q, y, hq, hy⟩ := hsolid.last
      obtain ⟨w', z, rfl⟩ := List.eq_nil_or_concat' w |>.resolve_left hne
      rw [hsplit, ← List.append_assoc] at hq
      obtain rfl := List.singleton_inj.1 (List.append_inj' hq rfl).2
      exact absurd ((hbs z (by rw [← heq]; simp)).symm.trans hy) (by simp)
    rw [hnone]
    rfl

end Pattern

section

variable {conventions : Conventions} {head name inner t b e : Text}

/-- **A function's two parts**: what stands in front of the parentheses and what stands between
them. -/
theorem parts?_functionText {e' : Text} (hsolid : head.IsSolid) (hlines : '\n' ∉ head)
    (hflat : '(' ∉ head.tail) (hinner : '\n' ∉ inner) (hne : b ≠ [])
    (hb : ∀ c ∈ b, isBlank c = true) (he : ∀ c ∈ e, isBlank c = true)
    (he' : ∀ c ∈ e', isBlank c = true)
    (ht : t = conventions.exportMacro ++ (b ++ (head ++ (e ++ '(' :: (inner ++ ')' ::
      (e' ++ [';'])))))) :
    (functionPattern conventions).parts? 2 t = some [head, inner] := by
  obtain ⟨c₁, h₁, hr₁⟩ := Cursor.exists_reads (c := start t) ht
  obtain ⟨c₂, h₂, hr₂⟩ := Cursor.exists_reads hr₁
  obtain ⟨c₃, h₃, hr₃⟩ := Cursor.exists_reads hr₂
  obtain ⟨c₃', h₃', hr₃'⟩ := Cursor.exists_reads hr₃
  obtain ⟨c₄, h₄, hr₄⟩ := Cursor.exists_reads (s := ['(']) hr₃'
  obtain ⟨c₅, h₅, hr₅⟩ := Cursor.exists_reads hr₄
  obtain ⟨c₆, -, hrun⟩ := Pattern.run_arguments (i := 2) h₅ hinner he' hr₅
  have hhead := Pattern.run_head (i := 1) h₃ hsolid hlines hflat h₃' he hr₃'
    (Pattern.run_text h₄ hrun)
  have hblanks := Pattern.run_blanks₁ h₂ hne hb hhead
    (by rw [hr₂]; exact hsolid.isBlank_of_mem_head? _)
  have hmatch : (functionPattern conventions).matchAt (start t) = some _ :=
    Pattern.run_textStart (Pattern.run_text h₁ hblanks)
  rw [Pattern.parts?, Pattern.search_of_matchAt hmatch]
  simp [Match.get, Match.get?, Match.place?, Match.mark, Match.empty, h₃.textTo, h₅.textTo,
    List.range_succ]

/-- The two parts of a function that ends with its last parenthesis and a semicolon. -/
theorem parts?_functionPattern (hsolid : head.IsSolid) (hlines : '\n' ∉ head) (hflat : '(' ∉ head)
    (hinner : '\n' ∉ inner) (hne : b ≠ []) (hb : ∀ c ∈ b, isBlank c = true)
    (he : ∀ c ∈ e, isBlank c = true)
    (ht : t = conventions.exportMacro ++ (b ++ (head ++ (e ++ '(' :: (inner ++ [')', ';']))))) :
    (functionPattern conventions).parts? 2 t = some [head, inner] :=
  parts?_functionText hsolid hlines (fun hmem ↦ hflat (List.mem_of_mem_tail hmem)) hinner hne hb he
    (List.forall_mem_nil _) ht

/-- **A callback's three parts**: the type of its result, its name and what stands between the last
parentheses. -/
theorem parts?_callbackPattern (htag : isIdentifier conventions.callbackTag = true)
    (hsolid : head.IsSolid) (hlines : '\n' ∉ head) (hflat : '(' ∉ head)
    (hname : isIdentifier name = true) (hinner : '\n' ∉ inner) (hne : b ≠ [])
    (hb : ∀ c ∈ b, isBlank c = true) (he : ∀ c ∈ e, isBlank c = true)
    (ht : t = typedefWord ++ (b ++ (head ++ (e ++ '(' :: (conventions.callbackTag ++
      '*' :: ' ' :: (name ++ ')' :: '(' :: (inner ++ [')', ';']))))))) :
    (callbackPattern conventions).parts? 3 t = some [head, name, inner] := by
  obtain ⟨c₁, h₁, hr₁⟩ := Cursor.exists_reads (c := start t) ht
  obtain ⟨c₂, h₂, hr₂⟩ := Cursor.exists_reads hr₁
  obtain ⟨c₃, h₃, hr₃⟩ := Cursor.exists_reads hr₂
  obtain ⟨c₄, h₄, hr₄⟩ := Cursor.exists_reads hr₃
  obtain ⟨c₅, h₅, hr₅⟩ := Cursor.exists_reads (s := ['(']) hr₄
  obtain ⟨c₆, h₆, hr₆⟩ := Cursor.exists_reads hr₅
  obtain ⟨c₇, h₇, hr₇⟩ := Cursor.exists_reads (s := ['*']) hr₆
  obtain ⟨c₈, h₈, hr₈⟩ := Cursor.exists_reads (s := [' ']) hr₇
  obtain ⟨c₉, h₉, hr₉⟩ := Cursor.exists_reads hr₈
  obtain ⟨d₁, k₁, hd₁⟩ := Cursor.exists_reads (s := [')']) hr₉
  obtain ⟨d₂, k₂, hd₂⟩ := Cursor.exists_reads (s := ['(']) hd₁
  obtain ⟨d₃, k₃, hd₃⟩ := Cursor.exists_reads hd₂
  obtain ⟨d₄, -, hrun⟩ := Pattern.run_arguments (i := 3) (e := []) k₃ hinner (by simp) hd₃
  have hopening := Pattern.run_noBlanks (Pattern.run_text k₂ hrun) (by rw [hd₁]; simp; decide)
  have hclosing := Pattern.run_noBlanks (Pattern.run_text k₁ hopening) (by rw [hr₉]; simp; decide)
  have hgroup := Pattern.run_group (p := .word₁) (Pattern.run_some₁ h₉
    (ne_nil_of_isIdentifier hname) (isWordChar_of_mem hname)
    (Pattern.close_group (i := 2) hclosing) (by rw [hr₉]; simp; decide))
  have hstar := Pattern.run_text h₇ (Pattern.run_blanks h₈ (by simp; decide) hgroup
    (by rw [hr₈]; exact isBlank_of_mem_head? hname _))
  have htext := Pattern.run_text h₆ (Pattern.run_noBlanks hstar (by rw [hr₆]; simp; decide))
  have htagged := Pattern.run_text h₅ (Pattern.run_noBlanks htext
    (by rw [hr₅]; exact isBlank_of_mem_head? htag _))
  have hhead := Pattern.run_head (i := 1) h₃ hsolid hlines
    (fun hmem ↦ hflat (List.mem_of_mem_tail hmem)) h₄ he hr₄ htagged
  have hblanks := Pattern.run_blanks₁ h₂ hne hb hhead
    (by rw [hr₂]; exact hsolid.isBlank_of_mem_head? _)
  have hmatch : (callbackPattern conventions).matchAt (start t) = some _ :=
    Pattern.run_textStart (Pattern.run_text h₁ hblanks)
  rw [Pattern.parts?, Pattern.search_of_matchAt hmatch]
  simp [Match.get, Match.get?, Match.place?, Match.mark, Match.empty, h₃.textTo, h₉.textTo,
    k₃.textTo, List.range_succ]

/-- A callback begins with `typedef` and comes to its tag behind a parenthesis. -/
theorem occursIn_callbackStart (htag : isIdentifier conventions.callbackTag = true) {u r : Text}
    (hu : ∀ c ∈ u.head?, isWordChar c = false) (hlines : '\n' ∉ u)
    (hr : ∀ c ∈ r.head?, isWordChar c = false) :
    (callbackStart conventions).occursIn
      (typedefWord ++ (u ++ '(' :: (conventions.callbackTag ++ r))) = true := by
  obtain ⟨c₁, h₁, hr₁⟩ := Cursor.exists_reads
    (c := start (typedefWord ++ (u ++ '(' :: (conventions.callbackTag ++ r)))) rfl
  obtain ⟨c₂, h₂, hr₂⟩ := Cursor.exists_reads hr₁
  obtain ⟨c₃, h₃, hr₃⟩ := Cursor.exists_reads (s := ['(']) hr₂
  obtain ⟨c₄, h₄, hr₄⟩ := Cursor.exists_reads hr₃
  have hbegin : c₁.atWordBoundary = true := by
    refine h₁.atWordBoundary (by decide) (isWordChar_of_mem isIdentifier_typedefWord) fun c hc ↦ ?_
    rw [hr₁, List.head?_append, Option.mem_def, Option.or_eq_some_iff] at hc
    rcases hc with hc | ⟨-, hc⟩
    · exact hu c hc
    · obtain rfl : '(' = c := Option.some_inj.1 hc
      decide
  have hend := h₄.atWordBoundary (ne_nil_of_isIdentifier htag) (isWordChar_of_mem htag)
    (by rwa [hr₄])
  have hline : ∀ x ∈ u, Pattern.notLineFeed x = true := Text.bne_of_notMem hlines
  exact Pattern.isSome_search_of_passes (.refl _) (Pattern.Passes.seq (Pattern.Passes.seq
    (Pattern.Passes.seq (Pattern.Passes.seq (Pattern.Passes.seq (Pattern.Passes.seq
    (Pattern.Passes.seq (Pattern.passes_place rfl) (Pattern.passes_text h₁))
    (Pattern.passes_place hbegin)) (Pattern.passes_many h₂ hline)) (Pattern.passes_text h₃))
    (Pattern.passes_many (.refl c₃) (by simp))) (Pattern.passes_text h₄))
    (Pattern.passes_place hend))

end

/-! ## Prototypes in a header -/

/-- A prototype as it is written. -/
structure WrittenPrototype where
  result : WrittenType
  name : DeclaredName
  params : WrittenParameters

namespace WrittenPrototype

/-- What stands in front of the parameters of an exported function: the macro, the type of the
result and the name. -/
def functionLead (conventions : Conventions) (f : WrittenPrototype) : Text :=
  conventions.exportMacro ++ ' ' :: (f.result.text ++ ' ' :: (f.name.1 ++ ['(']))

/-- What stands in front of the parameters of a callback. -/
def callbackLead (conventions : Conventions) (f : WrittenPrototype) : Text :=
  typedefWord ++ ' ' :: (f.result.text ++ ' ' :: '(' :: (conventions.callbackTag ++
    '*' :: ' ' :: (f.name.1 ++ [')', '('])))

/-- The prototype as that of an exported function. -/
def functionLayout (conventions : Conventions) (f : WrittenPrototype) : Layout :=
  f.params.layout conventions.callbackTag (f.functionLead conventions)

/-- The prototype as that of a callback. -/
def callbackLayout (conventions : Conventions) (f : WrittenPrototype) : Layout :=
  f.params.layout conventions.callbackTag (f.callbackLead conventions)

/-- The words that the prototype is written with, and the empty text. -/
def words (f : WrittenPrototype) : List Text := f.name.1 :: f.result.words ++ f.params.words

/-- What is read from the prototype. -/
def prototype (outputTypes : List Text) (f : WrittenPrototype) (location : Location) :
    Prototype where
  name := f.name.1
  type := f.result.type
  params := f.params.parameters.map fun p ↦
    { p.parameter with direction := if p.type ∈ outputTypes then .output else .input }
  location := location

/-- The parameters can be read back: they fit the callback tag, and there is not just one of type
`void`. -/
structure Readable (tag : Text) (f : WrittenPrototype) : Prop where
  fits : ∀ p ∈ f.params.parameters, p.Fits tag
  notVoid : f.params.parameters.map (·.type) ≠ ["void".toList]

/-- The function is neither to be left out nor marked as deprecated. -/
structure Exported (conventions : Conventions) (f : WrittenPrototype) : Prop extends
    f.Readable conventions.callbackTag where
  kept : f.name.1 ∉ conventions.excluded
  unmarked : ∀ w ∈ f.words, w.contains conventions.deprecatedMarker = false
  tagUnmarked : f.params.hasCallback = true →
    conventions.callbackTag.contains conventions.deprecatedMarker = false

variable {conventions : Conventions} (f : WrittenPrototype)

/-- The directions of parameters without documentation come from their types. -/
theorem withDirections_eq (outputTypes : List Text) (location : Location) :
    Prototype.withDirections
      { name := f.name.1, type := f.result.type, params := f.params.parameters.map (·.parameter)
        comment := [], doc := .ofComment [], location } outputTypes =
      f.prototype outputTypes location := by
  have hdoc : DocFields.ofComment [] = {} := by decide
  rw [Prototype.withDirections, prototype, hdoc]
  simp [Parameter.directionFor, WrittenParameter.parameter]

/-- A declaration that ends with its parameters closes with its last line. -/
theorem closes_layout (htag : isIdentifier conventions.callbackTag = true)
    (ps : WrittenParameters) {lead : Text} (hchars : ∀ c ∈ lead, isInnerChar c = true) :
    ∃ (inner : List Text) (last : Text),
      (ps.layout conventions.callbackTag lead).codes = inner ++ [last] ∧
        (∀ code ∈ inner, Pattern.finalCall.occursIn code = false) ∧
          Pattern.finalCall.occursIn last = true := by
  obtain ⟨inner, s, hcodes, hinner⟩ := ps.exists_codes_layout htag hchars
  exact ⟨inner, s ++ ");", hcodes,
    fun code hcode ↦ Pattern.occursIn_finalCall_eq_false (hinner code hcode),
    Pattern.occursIn_finalCall s⟩

/-- The type of the result in front of the name. -/
theorem isSolid_head : Text.IsSolid (f.result.text ++ ' ' :: f.name.1) := by
  simpa using f.result.isSolid_text.join [' '] (Text.isSolid_of_isIdentifier f.name.2.1)

theorem notMem_head {c : Char} (hc : c ∈ ['\n', '(']) : c ∉ f.result.text ++ ' ' :: f.name.1 := by
  simp only [List.mem_append, List.mem_cons, not_or]
  obtain rfl | rfl : c = '\n' ∨ c = '(' := by simpa using hc
  · exact ⟨f.result.notMem_text (by decide), by decide,
      notMem_of_isIdentifier f.name.2.1 (by decide)⟩
  · exact ⟨f.result.notMem_text (by decide), by decide,
      notMem_of_isIdentifier f.name.2.1 (by decide)⟩

theorem notMem_inner (htag : isIdentifier conventions.callbackTag = true) :
    '\n' ∉ f.params.inner conventions.callbackTag :=
  notMem_of_isInnerChar (f.params.isInnerChar_of_mem_inner htag) (by decide)

theorem isInnerChar_of_mem_functionLead (hexport : isIdentifier conventions.exportMacro = true) :
    ∀ c ∈ f.functionLead conventions, isInnerChar c = true := by
  have hmark : ∀ c ∈ [' ', '('], isInnerChar c = true := List.all_eq_true.1 (by decide)
  have hlead := isInnerChar_of_mem hexport
  have hname := isInnerChar_of_mem f.name.2.1
  have hresult := f.result.isInnerChar_of_mem_text
  intro c hc
  simp only [functionLead, List.mem_append, List.mem_cons] at hc
  grind

/-- The words of a whole exported function. -/
theorem mem_words_of_mem_wordRuns (hexport : isIdentifier conventions.exportMacro = true)
    (htag : isIdentifier conventions.callbackTag = true) {w : Text}
    (h : w ∈ Text.wordRuns (f.functionLayout conventions).joined) :
    w = conventions.exportMacro ∨ w = [] ∨ w ∈ f.words ∨
      (f.params.hasCallback = true ∧ w = conventions.callbackTag) := by
  have hend : Text.wordRuns [';'] = [[], []] := by decide
  have hjoined : (f.functionLayout conventions).joined = conventions.exportMacro ++ ' ' ::
      (f.result.text ++ ' ' :: (f.name.1 ++ '(' :: (f.params.inner conventions.callbackTag ++
        [')', ';']))) := by
    rw [functionLayout, WrittenParameters.joined_layout, functionLead]
    simp
  have hresult := f.result.mem_words_of_mem_wordRuns (w := w)
  have hinner := f.params.mem_words_of_mem_wordRuns htag (w := w)
  rw [hjoined, Text.wordRuns_append_cons (by decide), Text.wordRuns_append_cons (by decide),
    Text.wordRuns_append_cons (by decide), Text.wordRuns_append_cons (by decide), hend,
    Text.wordRuns_of_isIdentifier hexport, Text.wordRuns_of_isIdentifier f.name.2.1] at h
  simp only [words, List.mem_append, List.mem_cons, List.not_mem_nil, or_false] at h ⊢
  grind

/-- **An exported function is read as one declaration** with two parts. -/
theorem functionLayout_declares (hexport : isIdentifier conventions.exportMacro = true)
    (htag : isIdentifier conventions.callbackTag = true)
    (hmarker : isIdentifier conventions.deprecatedMarker = true)
    (hunmarked : conventions.exportMacro.contains conventions.deprecatedMarker = false)
    (hf : f.Exported conventions) :
    (f.functionLayout conventions).Declares (functionKind conventions)
      [f.result.text ++ ' ' :: f.name.1, f.params.inner conventions.callbackTag] where
  isCode := f.params.isCode_layout htag (f.isInnerChar_of_mem_functionLead hexport)
    ((beginsCode_of_isIdentifier hexport).append _)
  opens := by
    intro code hcode
    obtain ⟨s, hhead, -, hfront⟩ := (f.functionLayout conventions).exists_codes_head
    obtain rfl := Option.some_inj.1 (hhead.symm.trans hcode)
    obtain ⟨r, hr⟩ := f.params.exists_first_layout conventions.callbackTag
      (f.functionLead conventions)
    have hstarts : ((f.functionLayout conventions).first ++ s).startsWith conventions.exportMacro =
        true := by
      rw [Text.startsWith_iff, functionLayout, hr, functionLead, List.append_assoc,
        List.append_assoc]
      exact List.prefix_append _ _
    have hplain : ((f.functionLayout conventions).first ++ s).contains
        conventions.deprecatedMarker = false := by
      rw [← Bool.not_eq_true]
      intro hmarked
      have hwhole : (f.functionLayout conventions).joined.contains conventions.deprecatedMarker =
          true :=
        Text.contains_of_isInfix ((Text.contains_iff.1 hmarked).trans hfront.isInfix)
      obtain ⟨w, hw, hmarked⟩ := Text.exists_mem_wordRuns_of_contains
        (ne_nil_of_isIdentifier hmarker) (isWordChar_of_mem hmarker) hwhole
      rcases f.mem_words_of_mem_wordRuns hexport htag hw with rfl | rfl | hw | ⟨hcallback, rfl⟩
      · exact absurd (hmarked.symm.trans hunmarked) (by simp)
      · exact ne_nil_of_isIdentifier hmarker (List.infix_nil.1 (Text.contains_iff.1 hmarked))
      · exact absurd (hmarked.symm.trans (hf.unmarked w hw)) (by simp)
      · exact absurd (hmarked.symm.trans (hf.tagUnmarked hcallback)) (by simp)
    simp [functionKind, hstarts, hplain]
  closes := closes_layout htag f.params (f.isInnerChar_of_mem_functionLead hexport)
  parts := by
    refine parts?_functionPattern (b := [' ']) (e := []) f.isSolid_head
      (f.notMem_head (by decide)) (f.notMem_head (by decide)) (f.notMem_inner htag) (by simp)
      (by simp; decide) (by simp) ?_
    rw [functionLayout, WrittenParameters.joined_layout, functionLead]
    simp

/-- What becomes of an exported function. -/
theorem functionOfBlock_eq (htag : isIdentifier conventions.callbackTag = true)
    (hf : f.Exported conventions) (file : Text) (n : Nat) :
    functionOfBlock conventions file
        ⟨[f.result.text ++ ' ' :: f.name.1, f.params.inner conventions.callbackTag], [], n⟩ =
      (.kept (f.prototype conventions.outputTypes ⟨file, n⟩), []) := by
  have hhead : Declarator.parse conventions.callbackTag (f.result.text ++ ' ' :: f.name.1) =
      .named f.name.1 f.result.type := by
    have hread := WrittenParameter.parse_text (.declared (.plain f.result f.name))
      conventions.callbackTag trivial (u := []) (by simp)
    rwa [List.nil_append] at hread
  have hne : f.name.1.isEmpty = false := by simpa using ne_nil_of_isIdentifier f.name.2.1
  have hparams := readParameters_inner conventions f.name.1 (Location.display ⟨file, n⟩) htag
    f.params hf.fits hf.notVoid
  simp only [functionOfBlock, List.getElem?_cons_zero, List.getElem?_cons_succ, Option.getD_some,
    hhead, hne, Bool.false_eq_true, if_false, if_neg hf.kept, hparams]
  exact congrArg (fun f ↦ (FunctionFate.kept f, [])) (f.withDirections_eq conventions.outputTypes _)

/-! ### Callbacks -/

theorem isInnerChar_of_mem_callbackLead (htag : isIdentifier conventions.callbackTag = true) :
    ∀ c ∈ f.callbackLead conventions, isInnerChar c = true := by
  have hmark : ∀ c ∈ [' ', '(', ')', '*'], isInnerChar c = true := List.all_eq_true.1 (by decide)
  have htags := isInnerChar_of_mem htag
  have htypedef := isInnerChar_of_mem isIdentifier_typedefWord
  have hname := isInnerChar_of_mem f.name.2.1
  have hresult := f.result.isInnerChar_of_mem_text
  intro c hc
  simp only [callbackLead, List.mem_append, List.mem_cons] at hc
  grind

theorem occursIn_callbackLead (htag : isIdentifier conventions.callbackTag = true) (r : Text) :
    (callbackStart conventions).occursIn (f.callbackLead conventions ++ r) = true := by
  have hlead : f.callbackLead conventions ++ r = typedefWord ++ ((' ' ::
      (f.result.text ++ [' '])) ++ '(' :: (conventions.callbackTag ++ ('*' :: ' ' ::
        (f.name.1 ++ ')' :: '(' :: r)))) := by
    simp [callbackLead]
  rw [hlead]
  refine occursIn_callbackStart htag (by simp; decide) ?_ (by simp; decide)
  simp [f.result.notMem_text (c := '\n') (by decide)]

/-- **A callback is read as one declaration** with three parts. -/
theorem callbackLayout_declares (htag : isIdentifier conventions.callbackTag = true) :
    (f.callbackLayout conventions).Declares (callbackKind conventions)
      [f.result.text, f.name.1, f.params.inner conventions.callbackTag] where
  isCode := f.params.isCode_layout htag (f.isInnerChar_of_mem_callbackLead htag)
    ((beginsCode_of_isIdentifier isIdentifier_typedefWord).append _)
  opens := by
    intro code hcode
    obtain ⟨s, hhead, -, hfront⟩ := (f.callbackLayout conventions).exists_codes_head
    obtain rfl := Option.some_inj.1 (hhead.symm.trans hcode)
    obtain ⟨r, hr⟩ := f.params.exists_first_layout conventions.callbackTag
      (f.callbackLead conventions)
    have hcode : (f.callbackLayout conventions).first ++ s =
        f.callbackLead conventions ++ (r ++ s) := by
      rw [callbackLayout, hr, List.append_assoc]
    rw [hcode]
    exact f.occursIn_callbackLead htag _
  closes := closes_layout htag f.params (f.isInnerChar_of_mem_callbackLead htag)
  parts := by
    refine parts?_callbackPattern (b := [' ']) (e := [' ']) htag f.result.isSolid_text
      (f.result.notMem_text (by decide)) (f.result.notMem_text (by decide)) f.name.2.1
      (f.notMem_inner htag) (by simp) (by simp; decide) (by simp; decide) ?_
    rw [callbackLayout, WrittenParameters.joined_layout, callbackLead]
    simp

/-- What becomes of a callback. -/
theorem callbackOfBlock_eq (htag : isIdentifier conventions.callbackTag = true)
    (hf : f.Readable conventions.callbackTag) (file : Text) (n : Nat) :
    callbackOfBlock conventions file
        ⟨[f.result.text, f.name.1, f.params.inner conventions.callbackTag], [], n⟩ =
      (some (f.prototype conventions.outputTypes ⟨file, n⟩), []) := by
  have hparams := readParameters_inner conventions f.name.1 (Location.display ⟨file, n⟩) htag
    f.params hf.fits hf.notVoid
  have htype : plainType f.result.text = f.result.type := by
    rw [plainType, Declarator.constWord_eq, Pattern.removeAll_of_notMem Declarator.const_ne_nil
      Declarator.isWordChar_of_mem_const f.result.const_notMem_wordRuns, f.result.withoutBlanks_text]
  simp only [callbackOfBlock, List.getElem?_cons_zero, List.getElem?_cons_succ, Option.getD_some,
    htype, hparams]
  exact congrArg (fun f ↦ (some f, [])) (f.withDirections_eq conventions.outputTypes _)

/-- What is read from prototypes that are laid out one after the other. -/
def prototypes (outputTypes : List Text) (file : Text) (layout : WrittenPrototype → Layout)
    (fs : List WrittenPrototype) : List Prototype :=
  List.zipWith (fun f n ↦ f.prototype outputTypes ⟨file, n⟩) fs (Layout.lastLines 1 (fs.map layout))

end WrittenPrototype

open WrittenPrototype in
/-- **Functions and callbacks are read back** as they are written. -/
theorem prototypes_headerText (conventions : Conventions) (file : Text)
    (hexport : isIdentifier conventions.exportMacro = true)
    (htag : isIdentifier conventions.callbackTag = true)
    (hmarker : isIdentifier conventions.deprecatedMarker = true)
    (hunmarked : conventions.exportMacro.contains conventions.deprecatedMarker = false)
    (fs cs : List WrittenPrototype) (hfs : ∀ f ∈ fs, f.Exported conventions)
    (hcs : ∀ f ∈ cs, f.Readable conventions.callbackTag) :
    functionFates conventions file (Layout.headerText (fs.map (functionLayout conventions))) =
        (prototypes conventions.outputTypes file (functionLayout conventions) fs).map
          (fun f ↦ (.kept f, [])) ∧
      callbacks conventions file (Layout.headerText (cs.map (callbackLayout conventions))) =
        (prototypes conventions.outputTypes file (callbackLayout conventions) cs, []) := by
  constructor
  · rw [functionFates, Layout.map_blocks_headerText
      (fun f hf ↦ f.functionLayout_declares hexport htag hmarker hunmarked (hfs f hf))
      (fun f hf n ↦ f.functionOfBlock_eq htag (hfs f hf) file n), prototypes, List.map_zipWith]
  · have hfound := Layout.map_blocks_headerText
      (fun f (_ : f ∈ cs) ↦ f.callbackLayout_declares htag)
      (fun f hf n ↦ f.callbackOfBlock_eq htag (hcs f hf) file n)
    rw [← List.map_zipWith (f := fun p ↦ (some p, [])), ← prototypes] at hfound
    rw [callbacks, hfound]
    generalize prototypes _ _ _ cs = ps
    simp [List.filterMap_map, List.flatMap_map]

/-- A function with an array, a callback and further arguments, over two lines. -/
def addFunction : WrittenPrototype where
  result := ⟨⟨"XnStatus", by decide⟩, [], 0⟩
  name := ⟨"xnAdd", by decide⟩
  params := .listed
    (.declared (.array ⟨⟨"unsigned", by decide⟩, [⟨"int", by decide⟩], 0⟩ ⟨"sizes", by decide⟩
      ⟨"2", by decide⟩))
    [(.lineBreak ⟨"  ", by decide⟩, .declared (.callback ⟨⟨"void", by decide⟩, [], 0⟩
      ⟨"done", by decide⟩ ⟨"const XnChar* why, int (*how)(void)", by decide⟩)), (.blank, .variadic)]

/-- A callback with one parameter. -/
def doneCallback : WrittenPrototype where
  result := ⟨⟨"void", by decide⟩, [], 1⟩
  name := ⟨"XnDone", by decide⟩
  params := .listed (.declared (.plain ⟨⟨"int", by decide⟩, [], 1⟩ ⟨"pResult", by decide⟩)) []

theorem prototypes_headerText_twoLines :
    functionFates {} "a.h" ("XN_C_API XnStatus xnAdd(unsigned int sizes[2],\n" ++
        "  void (XN_CALLBACK_TYPE* done)(const XnChar* why, int (*how)(void)), ...);\n") =
      [(.kept
        { name := "xnAdd", type := "XnStatus"
          params := [⟨"sizes", "unsignedint*", .input⟩, ⟨"done", "CALLBACK", .input⟩,
            ⟨"varargs", "...", .input⟩]
          location := ⟨"a.h", 2⟩ }, [])] ∧
      callbacks {} "a.h" "typedef void* (XN_CALLBACK_TYPE* XnDone)(int* pResult);\n" =
        ([{ name := "XnDone", type := "void*", params := [⟨"pResult", "int*", .output⟩]
            location := ⟨"a.h", 1⟩ }], []) := by
  have hadd : addFunction.Exported {} := ⟨⟨by decide, by decide⟩, by decide, by decide, by decide⟩
  have hdone : doneCallback.Readable "XN_CALLBACK_TYPE" := ⟨by decide, by decide⟩
  have haddText : Layout.headerText ([addFunction].map (WrittenPrototype.functionLayout {})) =
      "XN_C_API XnStatus xnAdd(unsigned int sizes[2],\n" ++
        "  void (XN_CALLBACK_TYPE* done)(const XnChar* why, int (*how)(void)), ...);\n" := by
    decide +kernel
  have hdoneText : Layout.headerText ([doneCallback].map (WrittenPrototype.callbackLayout {})) =
      "typedef void* (XN_CALLBACK_TYPE* XnDone)(int* pResult);\n" := by
    decide +kernel
  obtain ⟨hfunctions, hcallbacks⟩ := prototypes_headerText {} "a.h" (by decide) (by decide)
    (by decide) (by decide) [addFunction] [doneCallback] (by simpa using hadd)
    (by simpa using hdone)
  rw [← haddText, ← hdoneText]
  refine ⟨hfunctions.trans (@congrArg _ _ _ [_] (List.map fun f ↦ (FunctionFate.kept f, [])) ?_),
    hcallbacks.trans ?_⟩
  · decide +kernel
  · decide +kernel

/-- Each hypothesis excludes functions that are not read back: a macro or a tag that holds the
marker, the tag `const`, a type that is `void` but for its blanks, and an array size or a `void` in
place of parameters that are taken for something else. -/
theorem prototypes_lost :
    (functionFates { exportMacro := "DEPRECATED_API" } "a.h"
        "DEPRECATED_API int f(int x);\n").filterMap (·.1.kept?) = [] ∧
      (functionFates { callbackTag := "DEPRECATED_TAG" } "a.h"
        "XN_C_API int f(int (DEPRECATED_TAG* g)(int));\n").filterMap (·.1.kept?) = [] ∧
      (functionFates { callbackTag := "const" } "a.h"
        "XN_C_API int f(int (const* g)(int));\n").filterMap (·.1.kept?) = [] ∧
      (functionFates {} "a.h" "XN_C_API int f(vo id x);\n").filterMap (·.1.kept?) =
        [{ name := "f", type := "int", params := [], location := ⟨"a.h", 1⟩ }] ∧
      (functionFates {} "a.h" "XN_C_API int f(int x[(XN_CALLBACK_TYPE* y)]);\n").filterMap
        (·.1.kept?) = [{ name := "f", type := "int", params := [⟨"y", "CALLBACK", .input⟩]
                         location := ⟨"a.h", 1⟩ }] ∧
      (functionFates { deprecatedMarker := "void" } "a.h"
        "XN_C_API int f(void);\n").filterMap (·.1.kept?) = [] := by
  decide +kernel

end HeaderBindings
