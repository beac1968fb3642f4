import HeaderBindings.Proofs.Header.FunctionText
import HeaderBindings.Proofs.Header.Placement
import HeaderBindings.Proofs.Header.Respacing
import HeaderBindings.Proofs.Header.StructText
import HeaderBindings.Proofs.Header.TopLevel

/-!
# Structs and functions with other blanks

A struct is cut into entries and the arguments of a function into parameters, and each piece is read
as a declarator.  So blanks at some place of a declaration matter to one piece at most, to the one
that the place lies in.

* `halves`: that piece, in its two halves.  `filterMap_splitTopLevel_seam`: nothing else of a list
  depends on the blanks.
* `StructText.seam` and `FunctionText.seam`: what is read of a struct or of a function does not
  depend on blanks at a place where the declarator that they stand in can be broken.
-/

set_option autoImplicit false

namespace HeaderBindings

open Pattern

/-! ## One blank in the place of others -/

section

variable {u m v : Text}

theorem notMem_oneBlank {x : Char} (hx : x ≠ ' ') (h : x ∉ u ++ m ++ v) : x ∉ u ++ ' ' :: v := by
  simp only [List.mem_append, List.mem_cons, not_or] at h ⊢
  exact ⟨h.1.1, hx, h.2⟩

theorem isBlank_oneBlank (h : ∀ c ∈ u ++ m ++ v, isBlank c = true) :
    ∀ c ∈ u ++ ' ' :: v, isBlank c = true := by
  rw [List.forall_mem_append] at h ⊢
  exact ⟨(List.forall_mem_append.1 h.1).1, List.forall_mem_cons.2 ⟨by decide, h.2⟩⟩

theorem symbols_oneBlank (hm : IsSeam (u.Apart v) m) :
    Text.symbols (u ++ ' ' :: v) = Text.symbols (u ++ m ++ v) := by
  have hone := Text.symbols_seam (isSeam_singleton (u.Apart v))
  rw [List.append_assoc, List.singleton_append] at hone
  rw [hone, Text.symbols_seam hm]

end

/-! ## Lists with other blanks -/

/-- The piece of a list that goes on from one text into another one, in its two halves. -/
def halves (sep : Char) (a b : Text) : Text × Text :=
  ((splitTopLevel sep a).getLastD [], (splitAtDepth sep (depthBehind 0 a) b).headD [])

theorem splitAtDepth_blanks {sep : Char} (hsep : isBlank sep = false) {m : Text}
    (hm : ∀ c ∈ m, isBlank c = true) (depth : Nat) (t : Text) :
    splitAtDepth sep depth (m ++ t) = growBy m (splitAtDepth sep depth t) := by
  induction m with
  | nil =>
    obtain ⟨piece, pieces, h⟩ := List.exists_cons_of_ne_nil (splitAtDepth_ne_nil sep depth t)
    rw [List.nil_append, h]
    rfl
  | cons c m ih =>
    obtain ⟨hc, hrest⟩ := List.forall_mem_cons.1 hm
    have hne {x : Char} (hx : isBlank x = false) : c ≠ x := by
      rintro rfl
      exact absurd (hc.symm.trans hx) (by simp)
    rw [List.cons_append, splitAtDepth, if_neg (hne (by decide)), if_neg (hne (by decide)),
      if_neg fun h ↦ hne hsep h.1, ih hrest, grow_growBy]

/-- **Blanks in a list** stand in one piece of it. -/
theorem splitTopLevel_seam {sep : Char} (hsep : isBlank sep = false) (a b : Text) : ∃ ps qs,
    ∀ m : Text, (∀ c ∈ m, isBlank c = true) →
      splitTopLevel sep (a ++ m ++ b) =
        ps ++ ((halves sep a b).1 ++ m ++ (halves sep a b).2) :: qs := by
  obtain ⟨ps, x, ha, hmore⟩ := splitAtDepth_append_cases sep a 0
  obtain ⟨y, qs, hb⟩ := List.exists_cons_of_ne_nil
    (splitAtDepth_ne_nil sep (depthBehind 0 a) b)
  have hx : (halves sep a b).1 = x := by
    rw [halves, splitTopLevel, ha]
    simp
  have hy : (halves sep a b).2 = y := by
    rw [halves, hb]
    rfl
  refine ⟨ps, qs, fun m hm ↦ ?_⟩
  rw [hx, hy, splitTopLevel, List.append_assoc, hmore, splitAtDepth_blanks hsep hm, hb]
  simp [growBy]

/-- A piece of a list holds only what the list holds. -/
theorem mem_of_mem_splitAtDepth {sep x : Char} {t piece : Text} (hx : x ∈ piece) : ∀ {depth},
    piece ∈ splitAtDepth sep depth t → x ∈ t := by
  induction t generalizing piece with
  | nil =>
    intro depth h
    rw [splitAtDepth, List.mem_singleton] at h
    rwa [h] at hx
  | cons c t ih =>
    intro depth h
    have hgrow {depth : Nat} (h : piece ∈ splitAtDepth.grow c (splitAtDepth sep depth t)) :
        x ∈ c :: t := by
      obtain ⟨p, ps, hsplit⟩ := List.exists_cons_of_ne_nil (splitAtDepth_ne_nil sep depth t)
      rw [hsplit, splitAtDepth.grow, List.mem_cons] at h
      rcases h with rfl | h
      · rcases List.mem_cons.1 hx with rfl | hx
        · exact List.mem_cons_self
        · exact List.mem_cons_of_mem c (ih hx (by rw [hsplit]; exact List.mem_cons_self))
      · exact List.mem_cons_of_mem c (ih hx (by rw [hsplit]; exact List.mem_cons_of_mem p h))
    rw [splitAtDepth] at h
    split at h
    · exact hgrow h
    split at h
    · exact hgrow h
    split at h
    · rcases List.mem_cons.1 h with rfl | h
      · exact absurd hx List.not_mem_nil
      · exact List.mem_cons_of_mem c (ih hx h)
    · exact hgrow h

theorem notMem_halves {sep x : Char} (hsep : isBlank sep = false) {a b m : Text}
    (hm : ∀ c ∈ m, isBlank c = true) (h : x ∉ a ++ m ++ b) :
    x ∉ (halves sep a b).1 ++ m ++ (halves sep a b).2 := by
  obtain ⟨ps, qs, hsplit⟩ := splitTopLevel_seam hsep a b
  refine fun hmem ↦ h (@mem_of_mem_splitAtDepth sep x _ _ hmem 0 ?_)
  rw [← splitTopLevel, hsplit m hm]
  simp

/-- What is read of each piece of a list. -/
theorem filterMap_splitTopLevel_seam {α : Type} {sep : Char} (hsep : isBlank sep = false)
    {f : Text → Option α} {p : Prop} {a b m : Text} (hm : IsSeam p m)
    (h : f ((halves sep a b).1 ++ m ++ (halves sep a b).2) =
      f ((halves sep a b).1 ++ ' ' :: (halves sep a b).2)) :
    (splitTopLevel sep (a ++ m ++ b)).filterMap f =
      (splitTopLevel sep (a ++ ' ' :: b)).filterMap f := by
  obtain ⟨ps, qs, hsplit⟩ := splitTopLevel_seam hsep a b
  have hone := hsplit [' '] (isSeam_singleton p).blank
  rw [List.append_assoc, List.singleton_append, List.append_assoc, List.singleton_append] at hone
  rw [hsplit m hm.blank, hone]
  simp only [List.filterMap_append, List.filterMap_cons, h]

/-! ## Structs -/

/-- The entry of a struct that a place between two texts lies in, in its two halves. -/
def brokenField? (front rest : Text) : Option (Text × Text) :=
  match front.splitAtFirst? ['\x7b'], Text.splitAtFirst? rest.reverse ['\x7d'] with
  | some (_, a), some (_, b) => some (halves ';' a (List.reverse b))
  | _, _ => none

/-- A field with a name is read from the text. -/
def isField (tag t : Text) : Bool :=
  match Declarator.parse tag t with
  | .named name _ => !name.isEmpty
  | _ => false

/-- A struct can be broken at a place without blanks: no word goes on there, the entry that the
place lies in can be broken, and no constructor becomes a field. -/
def StructBreaks (tag name front rest : Text) : Prop :=
  front.Apart rest ∧ ∀ e ∈ brokenField? front rest, Declarator.Breakable e.1 e.2 ∧
    (name <:+ e.1 → e.2.head? = some '(' → isField tag (e.1 ++ ' ' :: e.2) = false)

instance (tag name front rest : Text) : Decidable (StructBreaks tag name front rest) :=
  inferInstanceAs (Decidable (_ ∧ ∀ e ∈ brokenField? front rest, _ ∧ (_ → _ → _)))

/-- A text without blanks that stands in two texts with blanks between them stands in one of them,
or there are no blanks. -/
theorem infix_seam {p : Prop} {w x m y : Text} (hw : ∀ c ∈ w, isBlank c = false) (hm : IsSeam p m)
    (h : w <:+: x ++ m ++ y) : w <:+: x ∨ w <:+: y ∨
      (m = [] ∧ ∃ n n', w = n ++ n' ∧ n ≠ [] ∧ n' ≠ [] ∧ n <:+ x ∧ n' <+: y) := by
  obtain ⟨s, t, hwhole⟩ := h
  cases w with
  | nil => exact Or.inl (List.nil_infix)
  | cons k w =>
    have hk := hw k List.mem_cons_self
    rw [List.append_assoc, List.cons_append] at hwhole
    rcases hm.cases hwhole hk with ⟨d, rfl, hrest⟩ | ⟨d, rfl, rfl⟩
    · rw [List.append_assoc] at hrest
      rcases List.append_eq_append_iff.1 hrest with ⟨e, rfl, -⟩ | ⟨e, rfl, hend⟩
      · exact Or.inl ⟨s, e, by simp⟩
      · cases e with
        | nil => exact Or.inl ⟨s, [], by simp⟩
        | cons z e =>
          cases m with
          | cons c m =>
            obtain ⟨rfl, -⟩ := List.cons.inj hend
            exact absurd ((hm.blank _ List.mem_cons_self).symm.trans (hw _ (by simp))) (by simp)
          | nil =>
            refine Or.inr (Or.inr ⟨rfl, k :: d, z :: e, by simp, by simp, by simp,
              ⟨s, rfl⟩, ⟨t, ?_⟩⟩)
            simpa using hend.symm
    · exact Or.inr (Or.inl ⟨d, t, by simp⟩)

/-- What a constructor begins with stands on one side of a place, or the place is in front of its
parenthesis. -/
theorem infix_constructor_seam {p : Prop} {name x m y : Text} (hname : name.IsWord)
    (hm : IsSeam p m) (happ : p → x.Apart y) (h : name ++ ['('] <:+: x ++ m ++ y) :
    name ++ ['('] <:+: x ∨ name ++ ['('] <:+: y ∨
      (m = [] ∧ name <:+ x ∧ y.head? = some '(') := by
  have hsolid : ∀ c ∈ name ++ ['('], isBlank c = false := by
    intro c hc
    rw [List.mem_append, List.mem_singleton] at hc
    rcases hc with hc | rfl
    · exact Bool.eq_false_iff.2 fun hcBlank ↦
        absurd ((isWordChar_of_isBlank hcBlank).symm.trans (hname.2 c hc)) (by simp)
    · decide
  refine (infix_seam hsolid hm h).imp_right (Or.imp_right ?_)
  rintro ⟨rfl, n, n', hsplit, hne, hne', hn, hn'⟩
  obtain ⟨q, z, rfl⟩ := List.eq_nil_or_concat' n' |>.resolve_left hne'
  rw [← List.append_assoc] at hsplit
  obtain ⟨hq, hz⟩ := List.append_inj' hsplit rfl
  obtain rfl := List.singleton_inj.1 hz
  cases q with
  | nil =>
    rw [List.append_nil] at hq
    obtain ⟨r, rfl⟩ := hn'
    exact ⟨rfl, hq ▸ hn, rfl⟩
  | cons c q =>
    -- The name would go on across the place.
    have hword := hq ▸ hname.2
    obtain ⟨s, rfl⟩ := hn
    obtain ⟨r, rfl⟩ := hn'
    have hlast := hword _ (List.mem_append_left _ (List.getLast_mem hne))
    have hfirst := hword c (by simp)
    have happ := happ (hm.loose rfl)
    simp [Text.Apart, List.getLast?_append, List.getLast?_eq_some_getLast hne, hlast,
      hfirst] at happ

/-- A text from which no field is read gives none. -/
theorem readField_eq_none {conventions : Conventions} {name t : Text} (location : Text)
    (h : isField conventions.callbackTag t = false) :
    (readField conventions name location t).1 = none := by
  rw [readField]
  split
  · rfl
  · cases hparse : Declarator.parse conventions.callbackTag t with
    | nothing => rfl
    | unparsable => rfl
    | named name type =>
      have hempty : name.isEmpty = true := by simpa [isField, hparse] using h
      simp only [hempty, if_true]

section

variable {conventions : Conventions} (htag : ∀ c ∈ conventions.callbackTag, isWordChar c = true)

include htag

/-- **An entry with other blanks** gives the same field, or none again. -/
theorem readField_seam (location : Text) {name x y m : Text} (hname : name.IsWord)
    (hlines : '\n' ∉ x ++ m ++ y)
    (hm : IsSeam (Declarator.Breakable x y ∧ (name <:+ x → y.head? = some '(' →
      isField conventions.callbackTag (x ++ ' ' :: y) = false)) m) :
    (readField conventions name location (x ++ m ++ y)).1 =
      (readField conventions name location (x ++ ' ' :: y)).1 := by
  have hblank : x ++ ' ' :: y = x ++ [' '] ++ y := by simp
  have hside {m' : Text} (h : name ++ ['('] <:+: x ∨ name ++ ['('] <:+: y) :
      name ++ ['('] <:+: x ++ m' ++ y := by
    rcases h with h | h
    · exact h.trans ⟨[], m' ++ y, by simp⟩
    · exact h.trans ⟨x ++ m', [], by simp⟩
  by_cases hmaker : name ++ ['('] <:+: x ++ m ++ y
  · have hnone {t : Text} (h : name ++ ['('] <:+: t) :
        (readField conventions name location t).1 = none := by
      rw [readField, if_pos (Text.contains_iff.2 h)]
    rw [hnone hmaker]
    rcases infix_constructor_seam hname hm (·.1.1) hmaker with h | h | ⟨rfl, hx, hy⟩
    · exact (hnone (hblank ▸ hside (Or.inl h))).symm
    · exact (hnone (hblank ▸ hside (Or.inr h))).symm
    · exact (readField_eq_none location ((hm.loose rfl).2 hx hy)).symm
  · have hmaker' : ¬name ++ ['('] <:+: x ++ ' ' :: y := by
      intro h
      rw [hblank] at h
      rcases infix_constructor_seam hname (isSeam_singleton (x.Apart y)) id h with
        h | h | ⟨hnil, -⟩
      · exact hmaker (hside (Or.inl h))
      · exact hmaker (hside (Or.inr h))
      · exact absurd hnil (by simp)
    rw [readField, readField, if_neg (by rwa [Text.contains_iff]),
      if_neg (by rwa [Text.contains_iff]), Declarator.parse_seam htag hlines (hm.imp And.left)]
    split
    · split <;> rfl
    · rfl
    · rfl

end

/-- The field of an entry does not depend on where its diagnostic points to. -/
theorem structOfBlock_congr {conventions : Conventions} {file doc name inner inner' w w' : Text}
    {n : Nat} (h : ∀ location,
      (splitTopLevel ';' inner).filterMap (fun e ↦ (readField conventions name location e).1) =
        (splitTopLevel ';' inner').filterMap fun e ↦ (readField conventions name location e).1) :
    (structOfBlock conventions file ⟨[name, inner, w], doc, n⟩).1 =
      (structOfBlock conventions file ⟨[name, inner', w'], doc, n⟩).1 := by
  simp [structOfBlock, List.filterMap_map, h]

/-- A place between the braces lies in an entry. -/
theorem brokenField?_entry {head d e last : Text} (hhead : '\x7b' ∉ head) (hlast : '\x7d' ∉ last) :
    brokenField? (head ++ '\x7b' :: d) (e ++ '\x7d' :: last) = some (halves ';' d e) := by
  have hreverse : List.reverse (e ++ '\x7d' :: last) =
      List.reverse last ++ '\x7d' :: List.reverse e := by simp
  rw [brokenField?, Text.splitAtFirst?_append_cons hhead, hreverse,
    Text.splitAtFirst?_append_cons fun hmem ↦ hlast (List.mem_reverse.1 hmem)]
  simp

/-- The end of a struct may have other blanks in front of its semicolon. -/
theorem IsStructEnd.oneBlank {typeName u m v : Text} (hv : v ≠ [])
    (hm : IsSeam (u.Apart v) m) (h : IsStructEnd typeName (u ++ m ++ v)) :
    IsStructEnd typeName (u ++ ' ' :: v) := by
  obtain ⟨v, c, rfl⟩ := List.eq_nil_or_concat' v |>.resolve_left hv
  obtain ⟨s, hs, hword, hsymbols⟩ := h
  rw [← List.append_assoc] at hs
  obtain ⟨rfl, hc⟩ := List.append_inj' hs rfl
  obtain rfl := List.singleton_inj.1 hc
  exact ⟨u ++ ' ' :: v, by simp, hword,
    (symbols_oneBlank (hm.imp Text.Apart.of_prefix)).trans hsymbols⟩

/-- The front of a struct may have other blanks. -/
theorem IsStructHead.oneBlank {name u m v : Text} (hu : u ≠ []) (hm : IsSeam (u.Apart v) m)
    (h : IsStructHead name (u ++ m ++ v)) : IsStructHead name (u ++ ' ' :: v) := by
  obtain ⟨c, u, rfl⟩ := List.exists_cons_of_ne_nil hu
  exact ⟨h.first, h.word, symbols_oneBlank hm ▸ h.symbols⟩

/-- **A struct with other blanks** is a struct of the same name, from which the same is read. -/
theorem StructText.seam {conventions : Conventions}
    (htag : ∀ c ∈ conventions.callbackTag, isWordChar c = true) {file doc u m v : Text} {n : Nat}
    {head name inner last typeName : Text} (hu : u ≠ []) (hv : v ≠ [])
    (hm : IsSeam (StructBreaks conventions.callbackTag name u v) m)
    (h : StructText (u ++ m ++ v) head name inner last typeName) :
    ∃ head' inner' last', StructText (u ++ ' ' :: v) head' name inner' last' typeName ∧
      (structOfBlock conventions file ⟨[name, inner', typeName], doc, n⟩).1 =
        (structOfBlock conventions file ⟨[name, inner, typeName], doc, n⟩).1 := by
  have hwhole : head ++ '\x7b' :: (inner ++ '\x7d' :: last) = u ++ m ++ v := h.whole.symm
  rcases hm.cases hwhole (by decide) with ⟨d, rfl, hrest⟩ | ⟨d, rfl, rfl⟩
  · rcases hm.cases hrest (by decide) with ⟨e, rfl, rfl⟩ | ⟨e, rfl, rfl⟩
    · -- The place lies behind the body.
      have hfront : head ++ '\x7b' :: (inner ++ '\x7d' :: e) =
          head ++ '\x7b' :: (inner ++ ['\x7d']) ++ e := by simp
      have hend := h.last.oneBlank hv (hm.imp fun h ↦ Text.Apart.of_suffix (hfront ▸ h.1))
      exact ⟨head, inner, e ++ ' ' :: v, ⟨by simp, h.head, hend, h.line⟩, rfl⟩
    · -- The place lies in an entry.
      have hentry := brokenField?_entry (d := d) (e := e) h.head.notMem h.last.notMem
      have hfield (location : Text) := readField_seam htag location h.head.word
        (notMem_halves (by decide) hm.blank h.line) (hm.imp fun h ↦ h.2 _ hentry)
      exact ⟨head, d ++ ' ' :: e, last, ⟨by simp, h.head, h.last,
        notMem_oneBlank (by decide) h.line⟩, structOfBlock_congr fun location ↦
          (filterMap_splitTopLevel_seam (by decide) hm (hfield location)).symm⟩
  · -- The place lies in front of the body.
    exact ⟨u ++ ' ' :: d, inner, last, ⟨by simp,
      h.head.oneBlank hu (hm.imp fun h ↦ Text.Apart.of_prefix h.1), h.last, h.line⟩, rfl⟩

/-! ## Functions -/

/-- The declarator of a function that a place between two texts lies in, in its two halves: the
function itself, or one of its parameters. -/
def brokenDeclarator? (exportMacro front rest : Text) : Option (Text × Text) :=
  match Text.trimStart (front.drop exportMacro.length) with
  | [] => none
  | c :: a =>
    match Text.splitAtFirst? a ['('] with
    | none => some (c :: a, rest.takeWhile (· != '('))
    | some (_, args) =>
      match Text.splitAtFirst? rest.reverse [')'] with
      | none => none
      | some (_, b) => some (halves ',' args (List.reverse b))

/-- A function can be broken at a place without blanks: no word goes on there, and the declarator
that the place lies in can be broken. -/
def FunctionBreaks (exportMacro front rest : Text) : Prop :=
  front.Apart rest ∧ ∀ e ∈ brokenDeclarator? exportMacro front rest, Declarator.Breakable e.1 e.2

instance (exportMacro front rest : Text) : Decidable (FunctionBreaks exportMacro front rest) :=
  inferInstanceAs (Decidable (_ ∧ ∀ e ∈ brokenDeclarator? exportMacro front rest, _))

section

variable {lead d e : Text} {c : Char} (hlead : ∀ x ∈ lead, isBlank x = true)
  (hc : isBlank c = false) (exportMacro : Text)

include hlead hc

theorem trimStart_drop_exportMacro (t : Text) :
    Text.trimStart ((exportMacro ++ (lead ++ c :: t)).drop exportMacro.length) = c :: t := by
  rw [List.drop_left]
  exact Text.trimStart_append hlead fun x hx ↦ Option.some_inj.1 hx ▸ hc

/-- A place in front of the parentheses lies in the function itself. -/
theorem brokenDeclarator?_front (hd : '(' ∉ d) (he : '(' ∉ e) (rest : Text) :
    brokenDeclarator? exportMacro (exportMacro ++ (lead ++ c :: d)) (e ++ '(' :: rest) =
      some (c :: d, e) := by
  have hnone : Text.splitAtFirst? d ['('] = none :=
    Option.isNone_iff_eq_none.1
      (Option.isSome_eq_false_iff.1 (Text.contains_singleton_eq_false hd))
  have htake : (e ++ '(' :: rest).takeWhile (· != '(') = e := by
    rw [List.takeWhile_append_of_pos (Text.bne_of_notMem he),
      List.takeWhile_cons_of_neg (by simp), List.append_nil]
  simp only [brokenDeclarator?, trimStart_drop_exportMacro hlead hc, hnone, htake]

/-- A place between the parentheses lies in a parameter. -/
theorem brokenDeclarator?_arguments {s last : Text} (hs : '(' ∉ s)
    (hlast : ∀ x ∈ last, isBlank x = true) :
    brokenDeclarator? exportMacro (exportMacro ++ (lead ++ c :: (s ++ '(' :: d)))
      (e ++ ')' :: (last ++ [';'])) = some (halves ',' d e) := by
  have hclosing : ')' ∉ ';' :: List.reverse last := by
    rw [List.mem_cons, List.mem_reverse, not_or]
    exact ⟨by decide, fun hmem ↦ absurd (hlast _ hmem) (by decide)⟩
  have hreverse : List.reverse (e ++ ')' :: (last ++ [';'])) =
      (';' :: List.reverse last) ++ ')' :: List.reverse e := by simp
  simp only [brokenDeclarator?, trimStart_drop_exportMacro hlead hc,
    Text.splitAtFirst?_append_cons hs, hreverse, Text.splitAtFirst?_append_cons hclosing,
    List.reverse_reverse]

end

theorem Declarator.parse_trimEnd (tag t : Text) : parse tag t.trimEnd = parse tag t := by
  obtain ⟨b, hb, hblank⟩ := Text.exists_trimEnd_append t
  have htrim : t.trimEnd.trim = t.trim := by
    conv =>
      rhs
      rw [hb]
    exact (Text.trim_append_blanks hblank _).symm
  rw [parse, parse, htrim]

section

variable {conventions : Conventions}

theorem readParameters_congr {args args' declaration location : Text}
    (h : (splitTopLevel ',' args).filterMap
        (fun e ↦ (readParameter conventions declaration location e).1) =
      (splitTopLevel ',' args').filterMap
        fun e ↦ (readParameter conventions declaration location e).1) :
    (readParameters conventions declaration location args).1 =
      (readParameters conventions declaration location args').1 := by
  simp only [readParameters, List.filterMap_map, Function.comp_def, h]
  split <;> rfl

theorem functionOfBlock_congr {file doc front front' args args' : Text} {n : Nat}
    (hfront : Declarator.parse conventions.callbackTag front =
      Declarator.parse conventions.callbackTag front')
    (hargs : ∀ declaration location, (readParameters conventions declaration location args).1 =
      (readParameters conventions declaration location args').1) :
    (functionOfBlock conventions file ⟨[front, args], doc, n⟩).1 =
      (functionOfBlock conventions file ⟨[front', args'], doc, n⟩).1 := by
  simp only [functionOfBlock, List.getElem?_cons_zero, List.getElem?_cons_succ, Option.getD_some,
    hfront]
  split
  · rename_i name type _
    split
    · rfl
    split
    · rfl
    have hsame := hargs name (Location.display ⟨file, n⟩)
    cases hread : readParameters conventions name (Location.display ⟨file, n⟩) args with
    | mk params wrong =>
      cases hread' : readParameters conventions name (Location.display ⟨file, n⟩) args' with
      | mk params' wrong' =>
        rw [hread, hread'] at hsame
        obtain rfl : params = params' := hsame
        cases params <;> rfl
  · rfl

/-- **A parameter with other blanks** is the same parameter. -/
theorem readParameter_seam (htag : ∀ c ∈ conventions.callbackTag, isWordChar c = true)
    (declaration location : Text) {x y m : Text} (hlines : '\n' ∉ x ++ m ++ y)
    (hm : IsSeam (Declarator.Breakable x y) m) :
    (readParameter conventions declaration location (x ++ m ++ y)).1 =
      (readParameter conventions declaration location (x ++ ' ' :: y)).1 := by
  rw [readParameter, readParameter, Declarator.parse_seam htag hlines hm]
  split <;> rfl

/-- Arguments with other blanks in one of them are the same parameters. -/
theorem readParameters_seam (htag : ∀ c ∈ conventions.callbackTag, isWordChar c = true)
    {x y m : Text} (hlines : '\n' ∉ x ++ m ++ y)
    (hm : IsSeam (Declarator.Breakable (halves ',' x y).1 (halves ',' x y).2) m)
    (declaration location : Text) :
    (readParameters conventions declaration location (x ++ m ++ y)).1 =
      (readParameters conventions declaration location (x ++ ' ' :: y)).1 := by
  have hread := readParameter_seam htag declaration location
    (notMem_halves (by decide) hm.blank hlines) hm
  exact readParameters_congr (filterMap_splitTopLevel_seam (by decide) hm hread)

/-- **A function with other blanks** has the same fate. -/
theorem FunctionText.seam (htag : ∀ c ∈ conventions.callbackTag, isWordChar c = true)
    {file doc u m v : Text} {n : Nat} {lead front args last : Text}
    (hu : conventions.exportMacro <+: u) (hv : v ≠ [])
    (hm : IsSeam (FunctionBreaks conventions.exportMacro u v) m)
    (h : FunctionText conventions (u ++ m ++ v) lead front args last) :
    ∃ lead' front' args' last',
      FunctionText conventions (u ++ ' ' :: v) lead' front' args' last' ∧
        (functionOfBlock conventions file ⟨[front'.trimEnd, args'], doc, n⟩).1 =
          (functionOfBlock conventions file ⟨[front.trimEnd, args], doc, n⟩).1 := by
  obtain ⟨u, rfl⟩ := hu
  obtain ⟨c, s, rfl, hc, hflat⟩ := h.exists_first
  have hline := h.line
  rw [List.mem_append, not_or] at hline
  have hwhole : lead ++ c :: (s ++ '(' :: (args ++ ')' :: (last ++ [';']))) = u ++ m ++ v := by
    have hwhole := h.whole
    rw [List.append_assoc, List.append_assoc] at hwhole
    simpa using (List.append_cancel_left hwhole).symm
  rcases hm.cases hwhole hc with ⟨d, rfl, hrest⟩ | ⟨d, rfl, rfl⟩
  · rcases hm.cases hrest (by decide) with ⟨d', rfl, hrest'⟩ | ⟨e, rfl, rfl⟩
    · rcases hm.cases hrest' (by decide) with ⟨e, rfl, hlast⟩ | ⟨e, rfl, rfl⟩
      · -- The place lies behind the parentheses.
        obtain ⟨v, x, rfl⟩ := List.eq_nil_or_concat' v |>.resolve_left hv
        rw [← List.append_assoc] at hlast
        obtain ⟨rfl, hx⟩ := List.append_inj' hlast rfl
        obtain rfl := List.singleton_inj.1 hx
        exact ⟨lead, c :: s, args, e ++ ' ' :: v,
          { h with whole := by simp, blank_last := isBlank_oneBlank h.blank_last }, rfl⟩
      · -- The place lies in the arguments.
        have hparameter := brokenDeclarator?_arguments (d := d') (e := e) h.blank_lead hc
          conventions.exportMacro hflat h.blank_last
        have hread := readParameters_seam htag hline.2 (hm.imp fun h ↦ h.2 _ hparameter)
        have hline' : '\n' ∉ c :: s ++ (d' ++ ' ' :: e) := by
          rw [List.mem_append, not_or]
          exact ⟨hline.1, notMem_oneBlank (by decide) hline.2⟩
        exact ⟨lead, c :: s, d' ++ ' ' :: e, last, { h with whole := by simp, line := hline' },
          functionOfBlock_congr rfl fun declaration location ↦ (hread declaration location).symm⟩
    · -- The place lies in front of the parentheses.
      have hflat' := hflat
      rw [List.mem_append, List.mem_append, not_or, not_or] at hflat'
      have hfront := brokenDeclarator?_front h.blank_lead hc conventions.exportMacro hflat'.1.1
        hflat'.2 (args ++ ')' :: (last ++ [';']))
      have hread := Declarator.parse_seam htag (u := c :: d) hline.1
        (hm.imp fun h ↦ h.2 _ hfront)
      have hline' : '\n' ∉ c :: (d ++ ' ' :: e) ++ args := by
        rw [List.mem_append, not_or]
        exact ⟨notMem_oneBlank (u := c :: d) (by decide) hline.1, hline.2⟩
      refine ⟨lead, c :: (d ++ ' ' :: e), args, last,
        { h with
          whole := by simp
          exists_first := ⟨c, _, rfl, hc, notMem_oneBlank (by decide) hflat⟩
          line := hline' }, functionOfBlock_congr ?_ fun _ _ ↦ rfl⟩
      rw [Declarator.parse_trimEnd, Declarator.parse_trimEnd]
      exact hread.symm
  · -- The place lies right behind the macro.
    exact ⟨u ++ ' ' :: d, c :: s, args, last,
      { h with
        whole := by simp
        ne_nil := by simp
        blank_lead := isBlank_oneBlank h.blank_lead }, rfl⟩

end

end HeaderBindings
