import HeaderBindings.Proofs.Header.ConstantLines
import HeaderBindings.Proofs.Text.Lines

/-!
# Which values constants have

The line of a constant adds the same thing wherever it stands, `AddsConstants`.  What it adds
follows from how it is read, and this file compares that with what the line says.

* An integer is taken whole, and so is a string if no opening mark of a comment stands in it
  (`ConstantHead.addsConstants_literal_iff`).  Otherwise the string is cut at the mark.
* A line without a value adds nothing only if hardly anything stands behind the name
  (`ConstantHead.addsConstants_empty_iff`).

`constants_url` has lines whose values are not what they say.
-/

set_option autoImplicit false

namespace HeaderBindings

/-! ## A line among others -/

/-- How a line ends in front of a text. -/
inductive LineEnd (line b : Text) : Text → Prop
  | lineFeed (h : line.getLast? ≠ some '\r') : LineEnd line b ['\n']
  | carriageReturn : LineEnd line b ['\r', '\n']
  | endOfText (h : b = []) : LineEnd line b []

/-- Wherever the line stands, it adds the given constants to those of the other lines. -/
def AddsConstants (conventions : Conventions) (line : Text) (entries : List (Text × Text)) : Prop :=
  ∀ a ending b, a.EndsLine → LineEnd line b ending →
    constants conventions (a ++ (line ++ (ending ++ b))) =
      constants conventions a ++ entries ++ constants conventions b

section

variable {conventions : Conventions} {line value tail : Text}

theorem lines_insertLine {a b ending : Text} (ha : a.EndsLine) (hline : '\n' ∉ line)
    (hne : line ≠ []) (hending : LineEnd line b ending) :
    (a ++ (line ++ (ending ++ b))).lines = a.lines ++ line :: b.lines := by
  rw [Text.lines_append ha]
  congr 1
  cases hending with
  | lineFeed h => rw [List.singleton_append, Text.lines_append_cons hline,
      Text.withoutLineEnd_append_of_ne h]
  | carriageReturn =>
    have hreturn : '\n' ∉ line ++ ['\r'] := by simpa using hline
    have hwhole : line ++ (['\r', '\n'] ++ b) = line ++ ['\r'] ++ '\n' :: b := by simp
    rw [hwhole, Text.lines_append_cons hreturn, Text.withoutLineEnd_append, if_pos (by simp),
      List.dropLast_concat]
  | endOfText h => rw [h, List.append_nil, List.append_nil, Text.lines_of_notMem hne hline]; rfl

theorem addsConstants_iff (hline : '\n' ∉ line) (hne : line ≠ []) (entries : List (Text × Text)) :
    AddsConstants conventions line entries ↔
      entries = (((constantPattern conventions).search line).map
        fun g ↦ (g.get 1, g.get 2)).toList := by
  constructor
  · intro hadds
    have halone := hadds [] [] [] (by simp [Text.EndsLine]) (.endOfText rfl)
    rw [constants, lines_insertLine (by simp [Text.EndsLine]) hline hne (.endOfText rfl)] at halone
    rw [List.filterMap_append, List.filterMap_cons] at halone
    cases hsearch : (constantPattern conventions).search line <;>
      simpa [hsearch, constants, Text.lines, Text.rawLines] using halone.symm
  · rintro rfl a ending b ha hending
    simp only [constants, lines_insertLine ha hline hne hending, List.filterMap_append,
      List.filterMap_cons]
    cases (constantPattern conventions).search line <;> simp

end

/-! ## Comments in a value -/

/-- An opening mark of a comment stands somewhere in the text. -/
def HoldsComment (t : Text) : Prop := ∃ comment, comment <:+ t ∧ opensComment comment = true

section

variable {t : Text}

theorem opensComment_append (h : opensComment t = true) (r : Text) :
    opensComment (t ++ r) = true := by
  rw [opensComment_iff] at h ⊢
  exact h.imp (·.trans (List.prefix_append t r)) (·.trans (List.prefix_append t r))

theorem holdsComment_cons {c : Char} (h : HoldsComment t) : HoldsComment (c :: t) := by
  obtain ⟨comment, hsuffix, hopens⟩ := h
  exact ⟨comment, hsuffix.trans (List.suffix_cons c t), hopens⟩

/-- A text without comments stays, unless its last character is the first one of an opening mark. -/
theorem beforeComment_append (hfree : ¬HoldsComment t) (hlast : '/' ∉ t.getLast?) (r : Text) :
    beforeComment (t ++ r) = t ++ beforeComment r := by
  induction t with
  | nil => rfl
  | cons c t ih =>
    have hopens : ¬opensComment (c :: (t ++ r)) = true := by
      intro hopens
      obtain ⟨d, s, hcons, hd⟩ := exists_cons_of_opensComment hopens
      obtain ⟨rfl, hrest⟩ := List.cons.inj hcons
      cases t with
      | nil => exact hlast rfl
      | cons e t =>
        obtain rfl : e = d := (List.cons.inj hrest).1
        refine hfree ⟨_, List.suffix_rfl, opensComment_iff.2 ?_⟩
        rcases hd with rfl | rfl
        · exact .inl ⟨t, rfl⟩
        · exact .inr ⟨t, rfl⟩
    have hlater : '/' ∉ t.getLast? := fun hmem ↦ hlast (by
      rw [List.getLast?_cons, Option.mem_def.1 hmem]
      rfl)
    rw [List.cons_append, beforeComment, if_neg hopens,
      ih (fun hholds ↦ hfree (holdsComment_cons hholds)) hlater]
    rfl

theorem length_beforeComment_lt (h : HoldsComment t) (r : Text) :
    (beforeComment (t ++ r)).length < t.length := by
  induction t with
  | nil =>
    obtain ⟨comment, hsuffix, hopens⟩ := h
    rw [List.suffix_nil.1 hsuffix] at hopens
    exact absurd hopens (by decide)
  | cons c t ih =>
    rw [List.cons_append, beforeComment]
    split
    · simp
    · rename_i hnot
      obtain ⟨comment, hsuffix, hopens⟩ := h
      rcases List.suffix_cons_iff.1 hsuffix with rfl | hsuffix
      · exact absurd (opensComment_append hopens r) hnot
      · rw [List.length_cons, List.length_cons]
        exact Nat.succ_lt_succ (ih ⟨comment, hsuffix, hopens⟩)

/-- In front of a comment behind a value stand blanks. -/
theorem isBlank_of_mem_beforeComment (h : EndsValue t) :
    ∀ c ∈ beforeComment t, isBlank c = true := by
  have hblank : ∀ c ∈ t.takeWhile isBlank, isBlank c = true := fun c ↦ List.mem_takeWhile_imp
  have hslash : '/' ∉ t.takeWhile isBlank := fun hmem ↦ absurd (hblank _ hmem) (by decide)
  have hfree : ¬HoldsComment (t.takeWhile isBlank) := by
    rintro ⟨comment, hsuffix, hopens⟩
    obtain ⟨d, s, rfl, -⟩ := exists_cons_of_opensComment hopens
    exact hslash (hsuffix.subset List.mem_cons_self)
  have hrest : beforeComment t.trimStart = [] := by
    rcases h with h | h
    · rw [h]
      rfl
    · exact beforeComment_of_opens h
  have hwhole : t = t.takeWhile isBlank ++ t.trimStart := List.takeWhile_append_dropWhile.symm
  rw [hwhole, beforeComment_append hfree fun hmem ↦ hslash (List.mem_of_getLast? hmem), hrest,
    List.append_nil]
  exact hblank

end

/-! ## Values taken whole -/

/-- An integer literal: digits and letters behind a first digit, and maybe a sign. -/
def IsInteger (t : Text) : Prop :=
  ∃ sign d digits, t = sign ++ d :: digits ∧ (sign = [] ∨ sign = ['-'] ∨ sign = ['+']) ∧
    d.isDigit = true ∧ ∀ c ∈ digits, isWordChar c = true

/-- A string literal. -/
def IsQuoted (t : Text) : Prop :=
  ∃ inner, t = '\x22' :: (inner ++ ['\x22']) ∧ '\x22' ∉ inner ∧ '\n' ∉ inner

/-- A literal of one of the two sorts. -/
def IsLiteral (t : Text) : Prop := IsInteger t ∨ IsQuoted t

/-- A literal begins and ends with something that is neither a blank nor a slash. -/
theorem IsLiteral.exists_cons {value : Text} (h : IsLiteral value) :
    ∃ x t, value = x :: t ∧ isBlank x = false ∧ x ≠ '/' ∧
      ∀ y ∈ t.getLast?, isBlank y = false ∧ y ≠ '/' := by
  have hword {c : Char} (hc : isWordChar c = true) : isBlank c = false ∧ c ≠ '/' := by
    refine ⟨?_, ?_⟩
    · by_contra hblank
      exact absurd (hc.symm.trans (isWordChar_of_isBlank (by simpa using hblank))) (by simp)
    · rintro rfl
      exact absurd hc (by decide)
  rcases h with ⟨sign, d, digits, rfl, hsign, hd, hdigits⟩ | ⟨inner, rfl, -, -⟩
  · have hd : isWordChar d = true :=
      isWordChar_of_isIdentChar (by simp [isIdentChar, Char.isAlphanum, hd])
    rcases hsign with rfl | rfl | rfl
    · exact ⟨d, digits, rfl, (hword hd).1, (hword hd).2,
        fun y hy ↦ hword (hdigits y (List.mem_of_getLast? hy))⟩
    · refine ⟨'-', d :: digits, rfl, by decide, by decide, fun y hy ↦ hword ?_⟩
      exact (List.mem_cons.1 (List.mem_of_getLast? hy)).elim (· ▸ hd) (hdigits y)
    · refine ⟨'+', d :: digits, rfl, by decide, by decide, fun y hy ↦ hword ?_⟩
      exact (List.mem_cons.1 (List.mem_of_getLast? hy)).elim (· ▸ hd) (hdigits y)
  · refine ⟨'\x22', _, rfl, by decide, by decide, fun y hy ↦ ?_⟩
    rw [List.getLast?_concat] at hy
    obtain rfl := Option.some_inj.1 hy
    decide

theorem not_holdsComment_of_isInteger {value : Text} (h : IsInteger value) :
    ¬HoldsComment value := by
  obtain ⟨sign, d, digits, rfl, hsign, hd, hdigits⟩ := h
  rintro ⟨comment, hsuffix, hopens⟩
  obtain ⟨e, s, rfl, -⟩ := exists_cons_of_opensComment hopens
  have hmem := hsuffix.subset List.mem_cons_self
  rw [List.mem_append, List.mem_cons] at hmem
  rcases hmem with hmem | rfl | hmem
  · rcases hsign with rfl | rfl | rfl <;> exact absurd hmem (by decide)
  · exact absurd hd (by decide)
  · exact absurd (hdigits _ hmem) (by decide)

/-- **A value is taken whole** exactly if no comment seems to begin in it. -/
theorem leadingValue_append_iff {value tail : Text} (hvalue : IsLiteral value)
    (htail : EndsValue tail) : leadingValue (value ++ tail) = value ↔ ¬HoldsComment value := by
  obtain ⟨x, t, rfl, -, hx, hlast⟩ := hvalue.exists_cons
  have hholds : HoldsComment (x :: t) → HoldsComment t := by
    rintro ⟨comment, hsuffix, hopens⟩
    rcases List.suffix_cons_iff.1 hsuffix with rfl | hsuffix
    · obtain ⟨d, s, hcons, -⟩ := exists_cons_of_opensComment hopens
      exact absurd (List.cons.inj hcons).1 hx
    · exact ⟨comment, hsuffix, hopens⟩
  rw [List.cons_append, leadingValue]
  constructor
  · intro htaken hcomment
    have hless := length_beforeComment_lt (hholds hcomment) tail
    have htrimmed := (Text.trimEnd_prefix (beforeComment (t ++ tail))).length_le
    rw [(List.cons.inj htaken).2] at htrimmed
    omega
  · intro hfree
    have hslash : '/' ∉ t.getLast? := fun hmem ↦ (hlast _ hmem).2 rfl
    have hblank := isBlank_of_mem_beforeComment htail
    rw [beforeComment_append (fun hcomment ↦ hfree (holdsComment_cons hcomment)) hslash]
    rcases List.eq_nil_or_concat' t with rfl | ⟨s, y, rfl⟩
    · rw [List.nil_append, Text.trimEnd_eq, Text.trimStart, List.dropWhile_eq_nil_iff.2 fun c hc ↦
        hblank c (List.mem_reverse.1 hc)]
      rfl
    · have hy := (hlast y (List.getLast?_concat ..)).1
      rw [Text.trimEnd_pad s (Text.isSolid_of_forall (by simp) (by simpa using hy)) hblank]

theorem constantValue?_eq_none_iff {rest : Text} : constantValue? rest = none ↔
    rest.takeWhile isBlank = [] ∨ (rest.takeWhile isBlank).length = 1 ∧ rest.trimStart = [] := by
  rw [constantValue?]
  split_ifs with hnone hnil hmore
  · simp [hnone]
  · have hsome : (rest.takeWhile isBlank).getLast? ≠ none := by simpa using hnone
    have hlength : (rest.takeWhile isBlank).length ≠ 1 := by omega
    simp [hnone, hlength]
  · have hpos := List.length_pos_iff.2 hnone
    have hlength : (rest.takeWhile isBlank).length = 1 := by omega
    simp [hlength, hnil]
  · simp [hnone, hnil]

namespace ConstantHead

variable {conventions : Conventions} (h : ConstantHead conventions) {rest : Text}

theorem constant?_eq_some_iff {value : Text} :
    h.constant? rest = some (h.name, value) ↔ constantValue? rest = some value := by
  rw [constant?]
  cases constantValue? rest with
  | some v => simp
  | none =>
    have hname : ([] : Text) ≠ h.name := h.name_ne_nil.symm
    simp [hname]

theorem constant?_eq_none_iff : h.constant? rest = none ↔ constantValue? rest = none ∧
    ¬(conventions.constantLead = [] ∧ 2 ≤ h.behind.length) := by
  rw [constant?]
  cases constantValue? rest <;> simp

theorem text_ne_nil : h.text ++ rest ≠ [] := by simp [text]

/-- A line adds what is read of it and nothing else. -/
theorem addsConstants_text_iff (hline : '\n' ∉ h.text ++ rest)
    (hrest : ∀ c ∈ rest.head?, isWordChar c = false) (entries : List (Text × Text)) :
    AddsConstants conventions (h.text ++ rest) entries ↔ entries = (h.constant? rest).toList := by
  rw [addsConstants_iff hline h.text_ne_nil, h.search_eq hline hrest]

theorem isWordChar_of_mem_head? {gap : Text} (hgap : ∀ c ∈ gap, isBlank c = true) (tail : Text)
    (htail : gap = [] → ∀ c ∈ tail.head?, isWordChar c = false) :
    ∀ c ∈ (gap ++ tail).head?, isWordChar c = false := by
  cases gap with
  | nil => exact htail rfl
  | cons x gap =>
    rintro c ⟨⟩
    exact isWordChar_of_isBlank (hgap x List.mem_cons_self)

theorem constantValue?_gap {gap value : Text} (hne : gap ≠ []) (hgap : ∀ c ∈ gap, isBlank c = true)
    (hvalue : value ≠ []) (hfront : ∀ c ∈ value.head?, isBlank c = false) :
    constantValue? (gap ++ value) = some (leadingValue value) := by
  have htrim : (gap ++ value).trimStart = value := Text.trimStart_append hgap hfront
  have htake : (gap ++ value).takeWhile isBlank ≠ [] := by
    rw [List.takeWhile_append_of_pos hgap]
    exact List.append_ne_nil_of_left_ne_nil hne _
  rw [constantValue?, htrim, if_neg htake, if_neg hvalue]

/-- **A value as it stands in the line** is added exactly if no comment seems to begin in it. -/
theorem addsConstants_literal_iff {gap value tail : Text} (hne : gap ≠ [])
    (hgap : ∀ c ∈ gap, isBlank c = true) (hvalue : IsLiteral value) (htail : EndsValue tail)
    (hline : '\n' ∉ h.text ++ (gap ++ (value ++ tail))) :
    AddsConstants conventions (h.text ++ (gap ++ (value ++ tail))) [(h.name, value)] ↔
      ¬HoldsComment value := by
  have hrest := isWordChar_of_mem_head? hgap (value ++ tail)
    fun hnil ↦ absurd hnil hne
  have hread : constantValue? (gap ++ (value ++ tail)) = some (leadingValue (value ++ tail)) := by
    obtain ⟨x, t, rfl, hx, -, -⟩ := hvalue.exists_cons
    exact constantValue?_gap hne hgap (List.cons_ne_nil _ _) (by rintro c ⟨⟩; exact hx)
  have hsingle {entry : Text × Text} {o : Option (Text × Text)} :
      [entry] = o.toList ↔ o = some entry := by
    cases o <;> simp [eq_comm]
  rw [h.addsConstants_text_iff hline hrest, hsingle, constant?_eq_some_iff, hread, Option.some_inj,
    leadingValue_append_iff hvalue htail]

/-- **A line without a value** adds nothing exactly if at most one blank stands behind the name, and
no comment behind that blank. -/
theorem addsConstants_empty_iff {gap comment : Text} (hgap : ∀ c ∈ gap, isBlank c = true)
    (hcomment : comment = [] ∨ opensComment comment = true)
    (hline : '\n' ∉ h.text ++ (gap ++ comment)) :
    AddsConstants conventions (h.text ++ (gap ++ comment)) [] ↔
      (gap = [] ∨ gap.length = 1 ∧ comment = []) ∧
        ¬(conventions.constantLead = [] ∧ 2 ≤ h.behind.length) := by
  have hfront : ∀ c ∈ comment.head?, c = '/' := by
    intro c hc
    rcases hcomment with rfl | hopens
    · exact absurd hc (by simp)
    · obtain ⟨d, s, rfl, -⟩ := exists_cons_of_opensComment hopens
      exact (Option.some_inj.1 hc).symm
  have hrest := isWordChar_of_mem_head? hgap comment
    fun _ c hc ↦ by rw [hfront c hc]; decide
  have htrim : (gap ++ comment).trimStart = comment :=
    Text.trimStart_append hgap fun c hc ↦ by rw [hfront c hc]; decide
  have htake : (gap ++ comment).takeWhile isBlank = gap := by
    have hwhole := List.takeWhile_append_dropWhile (p := isBlank) (l := gap ++ comment)
    rw [show (gap ++ comment).dropWhile isBlank = comment from htrim] at hwhole
    exact List.append_cancel_right hwhole
  rw [h.addsConstants_text_iff hline hrest, eq_comm, Option.toList_eq_nil_iff,
    constant?_eq_none_iff, constantValue?_eq_none_iff, htake, htrim]

/-- **What the line of a constant adds.**  It is one thing wherever the line stands.  An integer is
taken whole and without what follows it, and so is a string unless the opening mark of a comment
stands in it.  A line without a value adds nothing exactly if it ends with the name or with one
blank behind it, or if a comment follows the name at once; otherwise the comment or a blank becomes
the value. -/
theorem addsConstants :
    (∀ rest, '\n' ∉ h.text ++ rest → (∀ c ∈ rest.head?, isWordChar c = false) →
      AddsConstants conventions (h.text ++ rest) (h.constant? rest).toList) ∧
    (∀ gap value tail, gap ≠ [] → (∀ c ∈ gap, isBlank c = true) → EndsValue tail →
      '\n' ∉ h.text ++ (gap ++ (value ++ tail)) →
      (IsInteger value →
        AddsConstants conventions (h.text ++ (gap ++ (value ++ tail))) [(h.name, value)]) ∧
      (IsQuoted value →
        (AddsConstants conventions (h.text ++ (gap ++ (value ++ tail))) [(h.name, value)] ↔
          ¬HoldsComment value))) ∧
    ∀ gap comment, (∀ c ∈ gap, isBlank c = true) → (comment = [] ∨ opensComment comment = true) →
      '\n' ∉ h.text ++ (gap ++ comment) →
      (AddsConstants conventions (h.text ++ (gap ++ comment)) [] ↔
        (gap = [] ∨ gap.length = 1 ∧ comment = []) ∧
          ¬(conventions.constantLead = [] ∧ 2 ≤ h.behind.length)) := by
  refine ⟨fun rest hline hrest ↦ (h.addsConstants_text_iff hline hrest _).2 rfl,
    fun gap value tail hne hgap htail hline ↦ ⟨fun hvalue ↦ ?_, fun hvalue ↦ ?_⟩,
    fun gap comment hgap hcomment hline ↦ h.addsConstants_empty_iff hgap hcomment hline⟩
  · exact (h.addsConstants_literal_iff hne hgap (.inl hvalue) htail hline).2
      (not_holdsComment_of_isInteger hvalue)
  · exact h.addsConstants_literal_iff hne hgap (.inr hvalue) htail hline

end ConstantHead

/-- A constant up to its name, as it is mostly written. -/
def urlHead : ConstantHead {} where
  before := []
  inner := []
  behind := [' ']
  name := "XN_URL"
  isBlank_before := List.all_eq_true.1 rfl
  isBlank_inner := List.all_eq_true.1 rfl
  isBlank_behind := List.all_eq_true.1 (by decide)
  behind_ne_nil := by decide
  lead_prefix := by decide
  isWordChar_name := List.all_eq_true.1 (by decide)
  name_ne_nil := by decide

theorem addsConstants_url : AddsConstants {} "#define XN_URL 16 // bytes" [("XN_URL", "16")] ∧
    ¬AddsConstants {} "#define XN_URL \"http://x\"" [("XN_URL", "\"http://x\"")] ∧
    AddsConstants {} "#define XN_URL" [] ∧ ¬AddsConstants {} "#define XN_URL // none" [] := by
  obtain ⟨-, hliteral, hnone⟩ := urlHead.addsConstants
  have hnil : ∀ c ∈ ([] : Text), isBlank c = true := List.all_eq_true.1 rfl
  have hblank : ∀ c ∈ [' '], isBlank c = true := List.all_eq_true.1 (by decide)
  refine ⟨?_, fun hwhole ↦ ?_, ?_, fun hempty ↦ ?_⟩
  · refine (hliteral [' '] "16" " // bytes" (by decide) hblank ?_ (by decide)).1 ?_
    · exact .inr (by decide)
    · exact ⟨[], '1', ['6'], rfl, .inl rfl, by decide, List.all_eq_true.1 (by decide)⟩
  · have hcut := hliteral [' '] "\"http://x\"" [] (by decide) hblank (.inl rfl) (by decide)
    refine (hcut.2 ⟨"http://x", rfl, by decide, by decide⟩).1 hwhole ?_
    exact ⟨"//x\"", ⟨"\"http:", rfl⟩, by decide⟩
  · exact (hnone [] [] hnil (.inl rfl) (by decide)).2 ⟨.inl rfl, by decide⟩
  · refine absurd ((hnone [' '] "// none" hblank (.inr (by decide)) (by decide)).1 hempty) ?_
    decide

/-- **Values can be cut, and comments can be values**: the address ends where a comment seems to
begin, and where no value stands the comment is one. -/
theorem constants_url :
    constants {} "#define XN_URL \"http://x\"\n" =
        ([("XN_URL", "\"http:")] : List (Text × Text)) ∧
      constants {} "#define XN_FLAG // flag\n" =
        ([("XN_FLAG", "// flag")] : List (Text × Text)) ∧
      constants {} "#define XN_FLAG  \n" = ([("XN_FLAG", " ")] : List (Text × Text)) := by
  decide +kernel

end HeaderBindings
