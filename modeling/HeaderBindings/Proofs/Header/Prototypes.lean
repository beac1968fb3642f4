import HeaderBindings.Header.Functions
import HeaderBindings.Proofs.Header.Declarators
import HeaderBindings.Proofs.Header.Layout

/-!
# Prototypes as they are written

A prototype is written as the type of its result, its name and a list of parameters, which may go on
in a new line behind each comma.  An exported function and the type of a callback differ in what
stands in front of the list only, so both are laid out by `WrittenParameters.layout`.

* `WrittenParameters.joined_layout`: the code of the whole is the same wherever lines end.
* `WrittenParameters.exists_codes_layout`: only the last line holds the semicolon.
* `readParameters_inner`: from what stands between the parentheses all parameters are read, and
  nothing is wrong with them.
-/

set_option autoImplicit false

namespace HeaderBindings

/-! ## Parameters -/

/-- A parameter as it is written. -/
inductive WrittenParameter where
  | declared (d : WrittenDeclarator)
  /-- The three dots behind which further arguments may be passed. -/
  | variadic

namespace WrittenParameter

/-- The parameter in the headers of a library with the given callback tag. -/
def text (tag : Text) : WrittenParameter → Text
  | declared d => d.text tag
  | variadic => "..."

/-- The name that the parameter is read with. -/
def name : WrittenParameter → Text
  | declared d => d.name
  | variadic => Declarator.variadicName

/-- The type that the parameter is read with. -/
def type : WrittenParameter → Text
  | declared d => d.type
  | variadic => "..."

/-- The parameter takes a callback. -/
def isCallback : WrittenParameter → Bool
  | declared d => d.isCallback
  | variadic => false

/-- The words that the parameter is written with, and the empty text. -/
def words : WrittenParameter → List Text
  | declared d => d.words
  | variadic => [[]]

/-- What the parameter asks of the callback tag. -/
def Fits (tag : Text) : WrittenParameter → Prop
  | declared d => d.Fits tag
  | variadic => True

instance (tag : Text) : (p : WrittenParameter) → Decidable (p.Fits tag)
  | declared d => inferInstanceAs (Decidable (d.Fits tag))
  | variadic => isTrue trivial

variable (p : WrittenParameter) (tag : Text)

theorem beginsCode_text : BeginsCode (p.text tag) := by
  cases p with
  | declared d => exact d.beginsCode_text tag
  | variadic => exact ⟨'.', "..".toList, rfl, by decide, by decide, by decide⟩

theorem name_ne_nil : p.name ≠ [] := by
  cases p with
  | declared d => exact ne_nil_of_isIdentifier d.isIdentifier_name
  | variadic => exact List.cons_ne_nil _ _

section

variable {tag} (htag : isIdentifier tag = true)

include htag

theorem isInnerChar_of_mem_text : ∀ c ∈ p.text tag, isInnerChar c = true := by
  cases p with
  | declared d => exact d.isInnerChar_of_mem_text fun _ ↦ htag
  | variadic =>
    exact List.all_eq_true.1 (by decide : "...".toList.all isInnerChar = true)

theorem isClosed_text : isClosed ',' 0 (p.text tag) = true := by
  cases p with
  | declared d => exact d.isClosed_text fun _ ↦ htag
  | variadic =>
    change isClosed ',' 0 "..." = true
    decide

theorem mem_words_of_mem_wordRuns {w : Text} (h : w ∈ Text.wordRuns (p.text tag)) :
    w ∈ p.words ∨ (p.isCallback = true ∧ w = tag) := by
  cases p with
  | declared d => exact d.mem_words_of_mem_wordRuns (fun _ ↦ htag) h
  | variadic =>
    have hdots : Text.wordRuns "..." = [[], [], [], []] := by decide
    rw [text, hdots] at h
    exact Or.inl (by simpa [words] using h)

end

/-- **What is read from a parameter** is its name and its type. -/
theorem parse_text (hp : p.Fits tag) {u : Text} (hu : ∀ c ∈ u, isBlank c = true) :
    Declarator.parse tag (u ++ p.text tag) = .named p.name p.type := by
  cases p with
  | declared d =>
    have hread := Declarator.parse_text d hp hu (v := []) (by simp)
    rwa [List.append_nil] at hread
  | variadic =>
    have hsolid : Text.IsSolid "..." := Text.isSolid_of_all (by decide) (by decide)
    have hplain : Declarator.parse tag (u ++ "...".toList ++ []) = Declarator.parsePlain "..." :=
      Declarator.parse_eq_parsePlain hu (by simp) hsolid (by decide) (by decide) (by decide)
        (by decide)
    rw [List.append_nil] at hplain
    exact hplain.trans (by decide)

end WrittenParameter

/-! ## Lists of parameters -/

/-- A list of parameters as it is written. -/
inductive WrittenParameters where
  /-- Nothing between the parentheses. -/
  | empty
  /-- The word `void` alone, which says that there are no parameters. -/
  | void
  /-- Parameters with a comma and a gap between them. -/
  | listed (first : WrittenParameter) (more : List (Gap × WrittenParameter))

/-- What stands behind a parameter: a comma, or the end of the whole declaration. -/
def closingOf {α : Type} (more : List α) : Text := if more.isEmpty then ");" else ","

/-- The parameters behind the first one, each with what stands behind it. -/
def closedPieces (tag : Text) : List (Gap × WrittenParameter) → List (Gap × Text)
  | [] => []
  | (gap, p) :: more => (gap, p.text tag ++ closingOf more) :: closedPieces tag more

namespace WrittenParameters

/-- The parameters. -/
def parameters : WrittenParameters → List WrittenParameter
  | empty => []
  | void => []
  | listed first more => first :: more.map (·.2)

/-- The code between the parentheses. -/
def inner (tag : Text) : WrittenParameters → Text
  | empty => []
  | void => "void"
  | listed first more => first.text tag ++ more.flatMap fun p ↦ ',' :: ' ' :: p.2.text tag

/-- The words that the list is written with, and the empty text. -/
def words : WrittenParameters → List Text
  | empty => [[]]
  | void => ["void"]
  | listed first more => [] :: first.words ++ more.flatMap fun p ↦ p.2.words

/-- One of the parameters takes a callback. -/
def hasCallback (ps : WrittenParameters) : Bool := ps.parameters.any (·.isCallback)

/-- A declaration that ends with the list, behind the text in front of it. -/
def layout (tag lead : Text) : WrittenParameters → Layout
  | empty => ⟨lead ++ ");", []⟩
  | void => ⟨lead ++ "void);", []⟩
  | listed first more => ⟨lead ++ first.text tag ++ closingOf more, closedPieces tag more⟩

variable {tag : Text}

theorem joinWith_closedPieces (more : List (Gap × WrittenParameter)) : ∀ s : Text,
    Text.joinWith [' '] ((s ++ closingOf more) :: (closedPieces tag more).map (·.2)) =
      s ++ more.flatMap (fun p ↦ ',' :: ' ' :: p.2.text tag) ++ ");" := by
  induction more with
  | nil =>
    intro s
    rw [closedPieces, List.map_nil, joinWith_singleton]
    simp [closingOf]
  | cons p more ih =>
    intro s
    obtain ⟨gap, p⟩ := p
    rw [closedPieces, List.map_cons, joinWith_cons_cons, ih]
    simp [closingOf]

/-- **The code of the whole** does not show where lines end. -/
theorem joined_layout (ps : WrittenParameters) (lead : Text) :
    (ps.layout tag lead).joined = lead ++ ps.inner tag ++ ");" := by
  cases ps with
  | empty => simp [layout, inner, Layout.joined, Layout.pieces]
  | void => simp [layout, inner, Layout.joined, Layout.pieces]
  | listed first more =>
    rw [layout, Layout.joined, Layout.pieces, joinWith_closedPieces, inner]
    simp

theorem exists_first_layout (ps : WrittenParameters) (tag lead : Text) :
    ∃ r, (ps.layout tag lead).first = lead ++ r := by
  cases ps with
  | empty => exact ⟨_, rfl⟩
  | void => exact ⟨_, rfl⟩
  | listed first more => exact ⟨_, List.append_assoc _ _ _⟩

section

variable (htag : isIdentifier tag = true)

include htag

theorem isInnerChar_of_mem_inner (ps : WrittenParameters) :
    ∀ c ∈ ps.inner tag, isInnerChar c = true := by
  intro c hc
  cases ps with
  | empty => simp [inner] at hc
  | void => exact List.all_eq_true.1 (by decide : "void".toList.all isInnerChar = true) c hc
  | listed first more =>
    simp only [inner, List.mem_append, List.mem_flatMap, List.mem_cons] at hc
    rcases hc with hc | ⟨p, -, rfl | rfl | hc⟩
    · exact first.isInnerChar_of_mem_text htag c hc
    · decide
    · decide
    · exact p.2.isInnerChar_of_mem_text htag c hc

end

/-- A piece of a layout is code. -/
theorem isCode_closingOf {α : Type} (more : List α) {s : Text} (hs : BeginsCode s)
    (hchars : ∀ c ∈ s, isInnerChar c = true) : IsCode (s ++ closingOf more) := by
  have hclosing : closingOf more = ");" ∨ closingOf more = "," := by
    rw [closingOf]
    split
    · exact Or.inl rfl
    · exact Or.inr rfl
  rcases hclosing with h | h <;> rw [h] <;>
    exact isCode_append hs hchars (Text.isSolid_of_all (by decide) (by decide)) (by decide)
      (by decide)

section

variable (htag : isIdentifier tag = true) (ps : WrittenParameters) {lead : Text}
  (hchars : ∀ c ∈ lead, isInnerChar c = true)

include htag hchars

/-- The pieces of a layout are code if what stands in front of the list is. -/
theorem isCode_layout (hlead : BeginsCode lead) :
    ∀ piece ∈ (ps.layout tag lead).pieces, IsCode piece := by
  have hvoid : ∀ c ∈ lead ++ "void".toList, isInnerChar c = true := by
    rw [List.forall_mem_append]
    exact ⟨hchars, List.all_eq_true.1 (by decide)⟩
  have hclosed (more : List (Gap × WrittenParameter)) :
      ∀ piece ∈ closedPieces tag more, IsCode piece.2 := by
    induction more with
    | nil => simp [closedPieces]
    | cons p more ih =>
      intro piece hpiece
      rcases List.mem_cons.1 hpiece with rfl | hpiece
      · exact isCode_closingOf more (p.2.beginsCode_text tag) (p.2.isInnerChar_of_mem_text htag)
      · exact ih piece hpiece
  intro piece hpiece
  cases ps with
  | empty =>
    obtain rfl := List.mem_singleton.1 hpiece
    exact isCode_closingOf ([] : List Unit) hlead hchars
  | void =>
    obtain rfl := List.mem_singleton.1 hpiece
    have hcode := isCode_closingOf ([] : List Unit) (hlead.append "void".toList) hvoid
    rwa [List.append_assoc] at hcode
  | listed first more =>
    rcases List.mem_cons.1 hpiece with rfl | hpiece
    · refine isCode_closingOf more (hlead.append _) ?_
      rw [List.forall_mem_append]
      exact ⟨hchars, first.isInnerChar_of_mem_text htag⟩
    · obtain ⟨entry, hentry, rfl⟩ := List.mem_map.1 hpiece
      exact hclosed more entry hentry

/-- The last line of a layout ends with a parenthesis and a semicolon, and no other one holds a
semicolon. -/
theorem exists_codes_layout : ∃ (inner : List Text) (s : Text),
    (ps.layout tag lead).codes = inner ++ [s ++ ");"] ∧ ∀ code ∈ inner, ';' ∉ code := by
  have hlead : ';' ∉ lead := notMem_of_isInnerChar hchars (by decide)
  have htext (p : WrittenParameter) : ';' ∉ p.text tag :=
    notMem_of_isInnerChar (p.isInnerChar_of_mem_text htag) (by decide)
  have hclosed (more : List (Gap × WrittenParameter)) : ∀ s : Text, ';' ∉ s →
      ∃ (init : List Text) (last : Text),
        (s ++ closingOf more) :: (closedPieces tag more).map (·.2) = init ++ [last ++ ");"] ∧
          ∀ piece ∈ init, ';' ∉ piece := by
    induction more with
    | nil => exact fun s _ ↦ ⟨[], s, rfl, by simp⟩
    | cons p more ih =>
      intro s hs
      obtain ⟨init, last, h, hinit⟩ := ih (p.2.text tag) (htext p.2)
      refine ⟨(s ++ ",") :: init, last, by rw [closedPieces, List.map_cons, h]; rfl, ?_⟩
      rw [List.forall_mem_cons]
      exact ⟨by simp [hs], hinit⟩
  have hpieces : ∃ (init : List Text) (last : Text),
      (ps.layout tag lead).pieces = init ++ [last ++ ");"] ∧ ∀ piece ∈ init, ';' ∉ piece := by
    cases ps with
    | empty => exact ⟨[], lead, rfl, by simp⟩
    | void => exact ⟨[], lead ++ "void", by simp [layout, Layout.pieces], by simp⟩
    | listed first more => exact hclosed more _ (by simp [hlead, htext first])
  obtain ⟨init, last, hpieces, hinit⟩ := hpieces
  obtain ⟨inner, s, hcodes, hinner⟩ := Layout.exists_codes (by decide) hpieces hinit
  exact ⟨inner, s ++ last, by rw [hcodes, List.append_assoc], hinner⟩

end

/-! ### Reading the list back -/

variable (htag : isIdentifier tag = true)

include htag

theorem mem_words_of_mem_wordRuns (ps : WrittenParameters) {w : Text}
    (h : w ∈ Text.wordRuns (ps.inner tag)) :
    w ∈ ps.words ∨ (ps.hasCallback = true ∧ w = tag) := by
  have hruns (more : List (Gap × WrittenParameter)) : ∀ s : Text,
      w ∈ Text.wordRuns (s ++ more.flatMap fun p ↦ ',' :: ' ' :: p.2.text tag) →
      w ∈ Text.wordRuns s ∨ w = [] ∨ ∃ p ∈ more, w ∈ Text.wordRuns (p.2.text tag) := by
    induction more with
    | nil => intro s hs; exact Or.inl (by simpa using hs)
    | cons p more ih =>
      intro s hs
      rw [List.flatMap_cons, List.cons_append, List.cons_append,
        Text.wordRuns_append_cons (by decide), Text.wordRuns_cons (by decide)] at hs
      rcases List.mem_append.1 hs with hs | hs
      · exact Or.inl hs
      · rcases List.mem_cons.1 hs with hs | hs
        · exact Or.inr (Or.inl hs)
        · rcases ih _ hs with hs | hs | ⟨q, hq, hw⟩
          · exact Or.inr (Or.inr ⟨p, List.mem_cons_self, hs⟩)
          · exact Or.inr (Or.inl hs)
          · exact Or.inr (Or.inr ⟨q, List.mem_cons_of_mem p hq, hw⟩)
  cases ps with
  | empty =>
    have hnil : Text.wordRuns [] = [[]] := rfl
    rw [inner, hnil] at h
    exact Or.inl h
  | void =>
    have hvoid : Text.wordRuns "void" = ["void".toList] := by decide
    rw [inner, hvoid] at h
    exact Or.inl h
  | listed first more =>
    have hparam (p : WrittenParameter) (hp : p ∈ (listed first more).parameters)
        (hw : w ∈ Text.wordRuns (p.text tag)) :
        w ∈ p.words ∨ ((listed first more).hasCallback = true ∧ w = tag) :=
      (p.mem_words_of_mem_wordRuns htag hw).imp_right fun ⟨hcallback, hw⟩ ↦
        ⟨List.any_eq_true.2 ⟨p, hp, hcallback⟩, hw⟩
    rcases hruns more _ h with hw | rfl | ⟨p, hp, hw⟩
    · exact (hparam first List.mem_cons_self hw).imp_left fun hw ↦ by simp [words, hw]
    · exact Or.inl (by simp [words])
    · refine (hparam p.2 (List.mem_cons_of_mem _ (List.mem_map_of_mem hp)) hw).imp_left fun hw ↦ ?_
      simp only [words, List.mem_append, List.mem_flatMap]
      exact Or.inr ⟨p, hp, hw⟩

/-- The list is cut at its own commas only. -/
theorem splitTopLevel_listed (first : WrittenParameter) (more : List (Gap × WrittenParameter)) :
    splitTopLevel ',' ((listed first more).inner tag) =
      first.text tag :: more.map fun p ↦ ' ' :: p.2.text tag := by
  have hsplit (more : List (Gap × WrittenParameter)) : ∀ s : Text, isClosed ',' 0 s = true →
      splitTopLevel ',' (s ++ more.flatMap fun p ↦ ',' :: ' ' :: p.2.text tag) =
        s :: more.map fun p ↦ ' ' :: p.2.text tag := by
    induction more with
    | nil => intro s hs; simpa using splitTopLevel_of_isClosed hs
    | cons p more ih =>
      intro s hs
      have hnext : isClosed ',' 0 (' ' :: p.2.text tag) = true :=
        (isClosed_blank_cons (by decide)).trans (p.2.isClosed_text htag)
      rw [List.flatMap_cons, List.cons_append, splitTopLevel_append_cons hs (by decide) (by decide),
        ih _ hnext, List.map_cons]
  exact hsplit more _ (first.isClosed_text htag)

end WrittenParameters

/-- The only thing that is dropped is a single parameter of type `void`. -/
theorem dropVoid_eq {ps : List Parameter} (h : ps.map (·.type) ≠ ["void".toList]) :
    dropVoid ps = ps := by
  match ps with
  | [] => rfl
  | [p] => exact if_neg fun hp ↦ h (by simp [hp])
  | p :: q :: ps => rfl

/-- A parameter as it is read, before it gets its direction. -/
def WrittenParameter.parameter (p : WrittenParameter) : Parameter where
  name := p.name
  type := p.type

section

variable (conventions : Conventions) (declaration location : Text)

theorem readParameter_text (p : WrittenParameter) (hp : p.Fits conventions.callbackTag) {u : Text}
    (hu : ∀ c ∈ u, isBlank c = true) :
    readParameter conventions declaration location (u ++ p.text conventions.callbackTag) =
      (some p.parameter, none) := by
  rw [readParameter, p.parse_text _ hp hu]
  rfl

/-- A `void` alone stands for no parameters. -/
theorem readParameters_void :
    readParameters conventions declaration location "void" = (some [], []) := by
  have hread : Declarator.parse conventions.callbackTag "void" = .named [] "void" := by
    have hplain : Declarator.parse conventions.callbackTag ([] ++ "void".toList ++ []) =
        Declarator.parsePlain "void" :=
      Declarator.parse_eq_parsePlain (by simp) (by simp)
        (Text.isSolid_of_isIdentifier (by decide)) (by decide) (by decide) (by decide) (by decide)
    exact hplain.trans (by decide)
  have hsplit : splitTopLevel ',' "void" = ["void".toList] := by decide
  rw [readParameters, hsplit, List.map_singleton, readParameter, hread]
  rfl

variable {conventions declaration location}

/-- Each piece between the commas is read as the parameter that it was written for. -/
theorem map_readParameter_listed (htag : isIdentifier conventions.callbackTag = true)
    (first : WrittenParameter) (more : List (Gap × WrittenParameter))
    (hfits : ∀ p ∈ first :: more.map (·.2), p.Fits conventions.callbackTag) :
    (splitTopLevel ',' ((WrittenParameters.listed first more).inner conventions.callbackTag)).map
        (readParameter conventions declaration location) =
      (first :: more.map (·.2)).map fun p ↦ (some p.parameter, none) := by
  have hfirst := readParameter_text conventions declaration location first
    (hfits first List.mem_cons_self) (u := []) (by simp)
  rw [List.nil_append] at hfirst
  rw [WrittenParameters.splitTopLevel_listed htag, List.map_cons, List.map_cons, List.map_map,
    List.map_map, hfirst]
  refine congrArg (_ :: ·) (List.map_congr_left fun p hp ↦ ?_)
  exact readParameter_text conventions declaration location p.2
    (hfits p.2 (List.mem_cons_of_mem _ (List.mem_map_of_mem hp))) (u := [' ']) (by simp; decide)

/-- Pieces that are all read as parameters give these and no diagnostic. -/
theorem readParameters_of_map {t : Text} {ps : List WrittenParameter}
    (h : (splitTopLevel ',' t).map (readParameter conventions declaration location) =
      ps.map fun p ↦ (some p.parameter, none))
    (hvoid : ps.map (·.type) ≠ ["void".toList]) :
    readParameters conventions declaration location t = (some (ps.map (·.parameter)), []) := by
  have hnamed : (ps.map (·.parameter)).find? (·.name.isEmpty) = none := by
    refine List.find?_eq_none.2 fun p hp ↦ ?_
    obtain ⟨q, -, rfl⟩ := List.mem_map.1 hp
    have hname : q.parameter.name ≠ [] := q.name_ne_nil
    simpa only [List.isEmpty_iff] using hname
  have hkept : dropVoid (ps.map (·.parameter)) = ps.map (·.parameter) := by
    refine dropVoid_eq ?_
    rw [List.map_map]
    exact hvoid
  have hparams : (ps.map fun p ↦
        ((some p.parameter, none) : Option Parameter × Option Diagnostic)).filterMap (·.1) =
      ps.map (·.parameter) := by
    simp [List.filterMap_map]
  have hrefused : (ps.map fun p ↦
        ((some p.parameter, none) : Option Parameter × Option Diagnostic)).filterMap (·.2) = [] := by
    simp [List.filterMap_map]
  rw [readParameters, h]
  simp only [hparams, hrefused, hkept, hnamed]

variable (conventions declaration location)

/-- **All parameters of a list are read** from the code between the parentheses. -/
theorem readParameters_inner (htag : isIdentifier conventions.callbackTag = true)
    (ps : WrittenParameters)
    (hfits : ∀ p ∈ ps.parameters, p.Fits conventions.callbackTag)
    (hvoid : ps.parameters.map (·.type) ≠ ["void".toList]) :
    readParameters conventions declaration location (ps.inner conventions.callbackTag) =
      (some (ps.parameters.map (·.parameter)), []) := by
  cases ps with
  | empty => rfl
  | void => exact readParameters_void conventions declaration location
  | listed first more =>
    exact readParameters_of_map (map_readParameter_listed htag first more hfits) hvoid

end

end HeaderBindings
