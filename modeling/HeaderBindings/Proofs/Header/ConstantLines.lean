import HeaderBindings.Header.Names
import HeaderBindings.Proofs.Text.Finding
import HeaderBindings.Proofs.Text.Words

/-!
# How the line of a constant is read

The name of a constant is followed by blanks, a value and maybe a comment.  The value is any text at
all, as little of it as will do, so where it ends is decided by what is in front of the first thing
that looks like a comment, and where it begins by what the blanks in front of it leave.

* `exists_endsValue`: behind its first character the value goes on to the first opening mark of a
  comment, less the blanks there.  `leadingValue` is that text.
* `constantValue?` is what the pattern finds behind a name.  The first character is taken whatever
  it is: a slash that begins a comment, or, if nothing else is there, a blank that the pattern gives
  back.
* `ConstantHead.search_eq`: what is read of a whole line.  The part in front of the name is read in
  one way only (`ConstantHead.exists_search`); the name is too, unless names need not begin with
  anything.
-/

set_option autoImplicit false

namespace HeaderBindings

/-! ## Up to a comment -/

/-- The text begins with the opening mark of a comment. -/
def opensComment (t : Text) : Bool := t.startsWith "//" || t.startsWith "/*"

/-- The text up to the first opening mark of a comment. -/
def beforeComment : Text → Text
  | [] => []
  | c :: t => if opensComment (c :: t) then [] else c :: beforeComment t

/-- Nothing follows but blanks and maybe a comment. -/
def EndsValue (t : Text) : Prop := t.trimStart = [] ∨ opensComment t.trimStart = true

section

variable {t r : Text}

theorem opensComment_iff :
    opensComment t = true ↔ ("//" : Text) <+: t ∨ ("/*" : Text) <+: t := by
  rw [opensComment, Bool.or_eq_true, Text.startsWith_iff, Text.startsWith_iff]

/-- A comment begins with a slash. -/
theorem exists_cons_of_opensComment (h : opensComment t = true) :
    ∃ d s, t = '/' :: d :: s ∧ (d = '/' ∨ d = '*') := by
  rcases opensComment_iff.1 h with ⟨s, rfl⟩ | ⟨s, rfl⟩
  · exact ⟨'/', s, rfl, .inl rfl⟩
  · exact ⟨'*', s, rfl, .inr rfl⟩

theorem beforeComment_of_opens (h : opensComment t = true) : beforeComment t = [] := by
  obtain ⟨d, s, rfl, -⟩ := exists_cons_of_opensComment h
  rw [beforeComment, if_pos h]

theorem exists_beforeComment_append (t : Text) :
    ∃ r, t = beforeComment t ++ r ∧ (r = [] ∨ opensComment r = true) := by
  induction t with
  | nil => exact ⟨[], rfl, .inl rfl⟩
  | cons c t ih =>
    rw [beforeComment]
    split
    · rename_i hopens
      exact ⟨c :: t, rfl, .inr hopens⟩
    · obtain ⟨r, ht, hr⟩ := ih
      exact ⟨r, by rw [List.cons_append, ← ht], hr⟩

/-- No comment begins in front of the first one. -/
theorem opensComment_eq_false (hwhole : t = beforeComment t ++ r) {x y : Text}
    (hsplit : beforeComment t = x ++ y) (hy : y ≠ []) : opensComment (y ++ r) = false := by
  induction t generalizing x with
  | nil => exact absurd (List.append_eq_nil_iff.1 hsplit.symm).2 hy
  | cons c t ih =>
    by_cases hopens : opensComment (c :: t) = true
    · rw [beforeComment_of_opens hopens] at hsplit
      exact absurd (List.append_eq_nil_iff.1 hsplit.symm).2 hy
    · rw [beforeComment, if_neg hopens] at hwhole hsplit
      rw [List.cons_append, List.cons.injEq] at hwhole
      cases x with
      | nil =>
        rw [List.nil_append] at hsplit
        rw [← hsplit, List.cons_append, ← hwhole.2]
        simpa using hopens
      | cons d x => exact ih hwhole.2 (List.cons.inj hsplit).2

/-- **Where a value ends**: the first place that only blanks and a comment follow is the end of what
stands in front of the first comment, less the blanks there. -/
theorem exists_endsValue (t : Text) :
    ∃ s, t = (beforeComment t).trimEnd ++ s ∧ EndsValue s ∧
      ∀ u v, (beforeComment t).trimEnd = u ++ v → v ≠ [] → ¬EndsValue (v ++ s) := by
  obtain ⟨r, ht, hr⟩ := exists_beforeComment_append t
  obtain ⟨b, hb, hblank⟩ := Text.exists_trimEnd_append (beforeComment t)
  refine ⟨b ++ r, by rw [← List.append_assoc, ← hb, ← ht], ?_, fun u v hsplit hv hends ↦ ?_⟩
  · have hrest : (b ++ r).trimStart = r := by
      refine Text.trimStart_append hblank fun c hc ↦ ?_
      rcases hr with rfl | hr
      · exact absurd hc (by simp)
      · obtain ⟨d, s, rfl, -⟩ := exists_cons_of_opensComment hr
        obtain rfl : '/' = c := Option.some_inj.1 hc
        decide
    rw [EndsValue, hrest]
    exact hr
  · obtain ⟨s, y, hlast, hy⟩ := Text.exists_last_trimEnd
      (t := beforeComment t) (by rw [hsplit]; exact List.append_ne_nil_of_right_ne_nil u hv)
    have hmem : y ∈ v := by
      obtain ⟨w, z, rfl⟩ := List.eq_nil_or_concat' v |>.resolve_left hv
      rw [hlast, ← List.append_assoc] at hsplit
      obtain ⟨-, hz⟩ := List.append_inj' hsplit rfl
      rw [← hz]
      simp
    obtain ⟨w, z, v', rfl, hw, hz⟩ := Text.exists_first_of_mem hmem hy
    have hrest : Text.trimStart (w ++ z :: v' ++ (b ++ r)) = z :: v' ++ b ++ r := by
      rw [List.append_assoc, Text.trimStart_append hw (by rintro c ⟨⟩; exact hz)]
      simp
    rw [EndsValue, hrest] at hends
    have hfalse := opensComment_eq_false ht (x := u ++ w) (y := z :: v' ++ b)
      (by rw [hb, hsplit]; simp) (by simp)
    rw [hfalse] at hends
    exact absurd hends (by simp)

end

/-! ## Finding the value -/

namespace Pattern

/-- What may follow the value of a constant. -/
def valueEnd : Pattern :=
  .blanks ++ (.optional (.either ("//" ++ .anything) ("/*" ++ .anything)) ++ .textEnd)

/-- What follows the name of a constant. -/
def constantTail : Pattern := .blanks₁ ++ (.group 2 .lazyAnything₁ ++ valueEnd)

/-- The match of nothing behind a pattern. -/
def accept (c : Cursor) : Option Match := some (.empty c)

section

variable {c : Cursor} {m : Match} {t rest : Text}

theorem exists_run_valueEnd (hline : '\n' ∉ c.rest) (h : EndsValue c.rest) :
    ∃ m, valueEnd.run accept c = some m ∧ m.marks = [] := by
  obtain ⟨a, ha, hra⟩ := Cursor.exists_reads (c := c) (s := c.rest.takeWhile isBlank)
    (r := c.rest.trimStart) List.takeWhile_append_dropWhile.symm
  have hfree : ∀ x ∈ a.rest, notLineFeed x = true := fun x hx ↦ by
    rw [ha.rest] at hline
    exact bne_iff_ne.2 fun heq ↦ hline (List.mem_append_right _ (heq ▸ hx))
  have hblanks : blanks.Passes c [] a := passes_many ha fun x ↦ List.mem_takeWhile_imp
  have hcomment : ∃ ms d, (optional (either ("//" ++ anything) ("/*" ++ anything))).Passes a ms d ∧
      d.rest = [] := by
    rw [EndsValue, ← hra] at h
    rcases h with h | h
    · exact ⟨[], a, .inr ⟨.refl a, rfl⟩, h⟩
    · obtain ⟨x, s, hrest, hx⟩ := exists_cons_of_opensComment h
      obtain ⟨b, hb, hrb⟩ := Cursor.exists_reads (c := a) (s := ['/', x]) (r := s) hrest
      obtain ⟨d, hd, hrd⟩ := Cursor.exists_reads (c := b) (s := s) (r := [])
        (by rw [hrb, List.append_nil])
      have hs : ∀ y ∈ s, notLineFeed y = true := fun y hy ↦ hfree y (by simp [hrest, hy])
      have hanything : anything.Passes b [] d := passes_many hd hs
      refine ⟨[], d, .inl ?_, hrd⟩
      rcases hx with rfl | rfl
      · exact .inl (.seq (passes_text hb) hanything)
      · exact .inr (.seq (passes_text hb) hanything)
  obtain ⟨ms, d, hpass, hd⟩ := hcomment
  have hend : textEnd.Passes d [] d := passes_place (by rw [hd]; rfl)
  obtain ⟨m, hm⟩ := Option.isSome_iff_exists.1
    (isSome_run valueEnd (k := accept) (hblanks.seq (hpass.seq hend)) rfl)
  obtain ⟨ms', e, m', hpass', haccept, hmarks, -⟩ := passes_of_run valueEnd hm
  refine ⟨m, hm, ?_⟩
  rw [hmarks, hpass'.marks_eq_nil rfl, ← Option.some_inj.1 haccept]
  rfl

theorem run_valueEnd_eq_none {k : Cursor → Option Match} (h : ¬EndsValue c.rest) :
    valueEnd.run k c = none := by
  refine run_eq_none_of_passes fun ms c' hpass ↦ h ?_
  obtain ⟨_, a, _, ⟨⟨b, hb, ha⟩, _⟩, ⟨_, d, _, hcomment, ⟨hend, _, _⟩, _⟩, _⟩ := hpass
  have hd : d.rest = [] := List.isEmpty_iff.1 hend
  have hblank : ∀ x ∈ b, isBlank x = true := List.all_eq_true.1 hb
  have hopens : a.rest = [] ∨ opensComment a.rest = true := by
    rcases hcomment with (⟨-, e, -, ⟨he, -⟩, -, -⟩ | ⟨-, e, -, ⟨he, -⟩, -, -⟩) | ⟨he, -⟩
    · exact .inr (opensComment_iff.2 (.inl ⟨e.rest, he.rest.symm⟩))
    · exact .inr (opensComment_iff.2 (.inr ⟨e.rest, he.rest.symm⟩))
    · exact .inl (he.eq_of_nil ▸ hd)
  have hrest : c.rest.trimStart = a.rest := by
    rw [ha.rest, Text.trimStart_append hblank fun x hx ↦ ?_]
    rcases hopens with hnil | hopens
    · rw [hnil] at hx
      exact absurd hx (by simp)
    · obtain ⟨y, s, hcons, -⟩ := exists_cons_of_opensComment hopens
      rw [hcons] at hx
      obtain rfl : '/' = x := Option.some_inj.1 hx
      decide
  rw [EndsValue, hrest]
  exact hopens

end

end Pattern

/-- The value that is read from its first character on: up to the first comment behind that
character, and without the blanks there. -/
def leadingValue : Text → Text
  | [] => []
  | c :: t => c :: (beforeComment t).trimEnd

/-- The value that is read behind a name.  Where only blanks follow, the last of them is the value
unless it is the only one. -/
def constantValue? (rest : Text) : Option Text :=
  let gap := rest.takeWhile isBlank
  if gap = [] then none
  else if rest.trimStart = [] then if 2 ≤ gap.length then gap.getLast?.map ([·]) else none
  else some (leadingValue rest.trimStart)

namespace Pattern

section

variable {c : Cursor} {m : Match} {t rest : Text}

/-- The first character is taken in any case, and then as little as can be. -/
theorem exists_run_value {x : Char} (hrest : c.rest = x :: t) (hline : '\n' ∉ c.rest) :
    ∃ m d, (group 2 lazyAnything₁ ++ valueEnd).run accept c = some m ∧
      m.marks = [(.opening 2, c), (.closing 2, d)] ∧ c.Reads (leadingValue (x :: t)) d := by
  obtain ⟨s, ht, hends, hearlier⟩ := exists_endsValue t
  obtain ⟨d, hd, hrd⟩ := Cursor.exists_reads (c := c) (s := leadingValue (x :: t)) (r := s)
    (by rw [hrest, leadingValue, List.cons_append, ← ht])
  have hmem : ∀ y ∈ leadingValue (x :: t), y ∈ c.rest := fun y hy ↦
    hd.rest ▸ List.mem_append_left _ hy
  have hlater : '\n' ∉ d.rest := fun hmem ↦ hline (hd.rest ▸ List.mem_append_right _ hmem)
  obtain ⟨m, hm, hmarks⟩ := exists_run_valueEnd hlater (hrd ▸ hends)
  refine ⟨_, d, run_group (run_lazySome hd (by simp [leadingValue]) ?_ (close_group hm) ?_), ?_, hd⟩
  · exact fun y hy ↦ bne_iff_ne.2 fun heq ↦ hline (heq ▸ hmem y hy)
  · intro u v e hsplit hu hv he
    obtain ⟨y, u, rfl⟩ := List.exists_cons_of_ne_nil hu
    have htail : (beforeComment t).trimEnd = u ++ v := (List.cons.inj hsplit).2
    have hrest' : e.rest = v ++ s := by
      refine List.append_cancel_left (?_ : y :: u ++ e.rest = y :: u ++ (v ++ s))
      rw [← he.rest, hd.rest, hsplit, hrd, List.append_assoc]
    rw [run_valueEnd_eq_none (hrest' ▸ hearlier u v htail hv)]
    rfl
  · simp [Match.mark, hmarks]

/-- Blanks in front of something that is not found behind any more of them. -/
theorem run_blanks₁_of_later {c' : Cursor} {k : Cursor → Option Match} {s : Text}
    (h : c.Reads s c') (hne : s ≠ []) (hs : ∀ x ∈ s, isBlank x = true) (hk : k c' = some m)
    (hlater : ∀ u d, u ≠ [] → (∀ x ∈ u, isBlank x = true) → c'.Reads u d → k d = none) :
    blanks₁.run k c = some m := by
  obtain ⟨x, s, rfl⟩ := List.exists_cons_of_ne_nil hne
  obtain ⟨hrest, hreads⟩ := h.uncons
  have hone := Cursor.Reads.one c.offset c.prev x (s ++ c'.rest)
  rw [← hrest] at hone
  exact run_one hone (hs x List.mem_cons_self)
    (run_greedy hreads (fun y hy ↦ hs y (List.mem_cons_of_mem x hy)) hk hlater)

/-- At the end of a line there is no value. -/
theorem run_value_eq_none {k : Cursor → Option Match} (h : c.rest = []) :
    (group 2 lazyAnything₁ ++ valueEnd).run k c = none := by
  refine run_eq_none_of_passes fun ms c' ⟨_, d, _, ⟨_, hpass, _⟩, _, _⟩ ↦ ?_
  obtain ⟨_, e, _, ⟨⟨x, -, hx⟩, -⟩, -, -⟩ := hpass
  rw [hx.rest] at h
  exact absurd h (by simp)

theorem exists_run_constantTail {value : Text} (hline : '\n' ∉ c.rest)
    (h : constantValue? c.rest = some value) :
    ∃ m a d, constantTail.run accept c = some m ∧
      m.marks = [(.opening 2, a), (.closing 2, d)] ∧ a.Reads value d := by
  have hgap : ∀ x ∈ c.rest.takeWhile isBlank, isBlank x = true := fun x ↦ List.mem_takeWhile_imp
  have hwhole : c.rest = c.rest.takeWhile isBlank ++ c.rest.trimStart :=
    List.takeWhile_append_dropWhile.symm
  rw [constantValue?] at h
  split_ifs at h with hne hnil hmore
  · -- Only blanks follow, so the last one is left for the value.
    obtain ⟨gap, x, hlast⟩ := List.eq_nil_or_concat' (c.rest.takeWhile isBlank) |>.resolve_left hne
    rw [hlast, List.getLast?_concat] at h
    obtain rfl : [x] = value := Option.some_inj.1 h
    rw [hlast] at hwhole hgap hmore
    obtain ⟨a, ha, hra⟩ := Cursor.exists_reads (c := c) (s := gap) (r := [x])
      (by rw [hwhole, hnil, List.append_nil])
    have hfree : '\n' ∉ a.rest := fun hmem ↦ hline (ha.rest ▸ List.mem_append_right _ hmem)
    obtain ⟨m, d, hm, hmarks, hreads⟩ := exists_run_value hra hfree
    refine ⟨m, a, d, run_blanks₁_of_later ha ?_ ?_ hm fun u e hu _ he ↦ ?_, hmarks, hreads⟩
    · rintro rfl
      exact absurd hmore (by simp)
    · exact fun y hy ↦ hgap y (List.mem_append_left _ hy)
    · obtain ⟨y, u, rfl⟩ := List.exists_cons_of_ne_nil hu
      have hend : [x] = y :: u ++ e.rest := hra.symm.trans he.rest
      exact run_value_eq_none (List.append_eq_nil_iff.1 (List.cons.inj hend).2.symm).2
  · obtain rfl := Option.some_inj.1 h
    obtain ⟨x, t, htrim⟩ := List.exists_cons_of_ne_nil hnil
    obtain ⟨a, ha, hra⟩ := Cursor.exists_reads hwhole
    have hfree : '\n' ∉ a.rest := fun hmem ↦ hline (ha.rest ▸ List.mem_append_right _ hmem)
    obtain ⟨m, d, hm, hmarks, hreads⟩ := exists_run_value (hra.trans htrim) hfree
    refine ⟨m, a, d, run_blanks₁ ha hne hgap hm ?_, hmarks, htrim ▸ hreads⟩
    rw [hra]
    exact Text.head?_trimStart c.rest

theorem run_constantTail_eq_none {k : Cursor → Option Match} (h : constantValue? c.rest = none) :
    constantTail.run k c = none := by
  refine run_eq_none (p := blanks₁) fun ms a hpass ↦ run_value_eq_none ?_
  obtain ⟨b, hne, hb, ha⟩ := hpass.some₁
  have hblank : ∀ x ∈ b, isBlank x = true := List.all_eq_true.1 hb
  have hlength : b.length ≤ (c.rest.takeWhile isBlank).length := by
    rw [ha.rest, List.takeWhile_append_of_pos hblank, List.length_append]
    omega
  have hpos := List.length_pos_iff.2 hne
  have hwhole : c.rest = c.rest.takeWhile isBlank ++ c.rest.trimStart :=
    List.takeWhile_append_dropWhile.symm
  rw [constantValue?] at h
  split_ifs at h with hnone hnil hmore
  · rw [hnone] at hlength
    exact absurd hlength (by simpa using hne)
  · obtain ⟨gap, x, hlast⟩ := List.eq_nil_or_concat' (c.rest.takeWhile isBlank) |>.resolve_left hnone
    rw [hlast, List.getLast?_concat] at h
    exact absurd h (by simp)
  · rw [hnil, List.append_nil] at hwhole
    have htotal := congrArg List.length ha.rest
    rw [hwhole, List.length_append] at htotal
    exact List.length_eq_zero_iff.1 (by omega)

end

end Pattern

/-! ## The line of a constant -/

/-- The line of a constant up to the end of its name. -/
structure ConstantHead (conventions : Conventions) where
  before : Text
  inner : Text
  behind : Text
  name : Text
  isBlank_before : ∀ c ∈ before, isBlank c = true
  isBlank_inner : ∀ c ∈ inner, isBlank c = true
  isBlank_behind : ∀ c ∈ behind, isBlank c = true
  behind_ne_nil : behind ≠ []
  lead_prefix : conventions.constantLead <+: name
  isWordChar_name : ∀ c ∈ name, isWordChar c = true
  name_ne_nil : name ≠ []

namespace ConstantHead

variable {conventions : Conventions} (h : ConstantHead conventions) {rest : Text}

/-- The text of the line up to there. -/
def text : Text := h.before ++ '#' :: (h.inner ++ ("define" ++ (h.behind ++ h.name)))

/-- What is read of the line.  A name of its own is not needed where names need not begin with
anything, and then the blanks in front of it are enough for one. -/
def constant? (rest : Text) : Option (Text × Text) :=
  match constantValue? rest with
  | some value => some (h.name, value)
  | none =>
    if conventions.constantLead = [] ∧ 2 ≤ h.behind.length then
      some ([], leadingValue (h.name ++ rest))
    else none

theorem isBlank_of_mem_head? (rest : Text) :
    ∀ c ∈ (h.name ++ rest).head?, isBlank c = false := by
  obtain ⟨x, t, hname⟩ := List.exists_cons_of_ne_nil h.name_ne_nil
  intro c hc
  rw [hname] at hc
  obtain rfl : x = c := Option.some_inj.1 hc
  by_contra hblank
  have hword := isWordChar_of_isBlank (by simpa using hblank)
  exact absurd ((h.isWordChar_name x (hname ▸ List.mem_cons_self)).symm.trans hword) (by simp)

/-- The pattern behind the blanks in front of the name. -/
def namePattern (conventions : Conventions) : Pattern :=
  .group 1 (.text conventions.constantLead ++ .word) ++ .constantTail

/-- What the name is read for. -/
theorem run_namePattern_eq_none {c : Cursor} {k : Cursor → Option Match}
    (hc : c.rest = h.name ++ rest) (hrest : ∀ x ∈ rest.head?, isWordChar x = false)
    (hvalue : constantValue? rest = none) : (namePattern conventions).run k c = none := by
  refine Pattern.run_eq_none (p := .group 1 _) fun ms d hpass ↦ Pattern.run_constantTail_eq_none ?_
  obtain ⟨_, ⟨_, b, _, ⟨hlead, _⟩, ⟨⟨w, hw, hword⟩, _⟩, _⟩, _⟩ := hpass
  have hw : ∀ x ∈ w, isWordChar x = true := List.all_eq_true.1 hw
  obtain ⟨v, hname⟩ := h.lead_prefix
  have hsame : w ++ d.rest = v ++ rest := by
    refine List.append_cancel_left
      (?_ : conventions.constantLead ++ (w ++ d.rest) = conventions.constantLead ++ (v ++ rest))
    rw [← hword.rest, ← hlead.rest, hc, ← hname, List.append_assoc]
  rcases List.append_eq_append_iff.1 hsame with ⟨x, rfl, hd⟩ | ⟨x, rfl, hr⟩
  · cases x with
    | nil => rwa [hd]
    | cons y x =>
      -- The name goes on, and a value needs a blank in front of it.
      have hblank : isBlank y = false := by
        by_contra hblank
        have hy := isWordChar_of_isBlank (c := y) (by simpa using hblank)
        have hmem : y ∈ h.name := hname ▸ List.mem_append_right _ (by simp)
        exact absurd ((h.isWordChar_name y hmem).symm.trans hy) (by simp)
      rw [hd, constantValue?, if_pos]
      exact List.takeWhile_cons_of_neg (by simp [hblank])
  · cases x with
    | nil => rwa [← List.nil_append d.rest, ← hr]
    | cons y x =>
      exact absurd ((hw y (by simp)).symm.trans (hrest y (by rw [hr]; rfl))) (by simp)

/-- Blanks are read up to the same place whatever reads them. -/
theorem eq_of_blanks {b b' r r' : Text} (hb : ∀ c ∈ b, isBlank c = true)
    (hb' : ∀ c ∈ b', isBlank c = true) (hr : ∀ c ∈ r.head?, isBlank c = false)
    (hr' : ∀ c ∈ r'.head?, isBlank c = false) (heq : b ++ r = b' ++ r') : b = b' ∧ r = r' := by
  have hrest : r = r' := by
    rw [← Text.trimStart_append hb hr, heq, Text.trimStart_append hb' hr']
  rw [hrest] at heq
  exact ⟨List.append_cancel_right heq, hrest⟩

/-- **The line up to the name** is read in one way only. -/
theorem exists_search (rest : Text) : ∃ c, c.rest = h.behind ++ (h.name ++ rest) ∧
    (constantPattern conventions).search (h.text ++ rest) =
      (Pattern.blanks₁ ++ namePattern conventions).run Pattern.accept c := by
  obtain ⟨c₁, h₁, hr₁⟩ := Cursor.exists_reads (c := .start (h.text ++ rest)) (s := h.before)
    (r := '#' :: (h.inner ++ ("define" ++ (h.behind ++ (h.name ++ rest)))))
    (by simp [Cursor.start, text])
  obtain ⟨c₂, h₂, hr₂⟩ := Cursor.exists_reads (s := ['#']) hr₁
  obtain ⟨c₃, h₃, hr₃⟩ := Cursor.exists_reads hr₂
  obtain ⟨c₄, h₄, hr₄⟩ := Cursor.exists_reads hr₃
  have hhash : ∀ x ∈ c₁.rest.head?, isBlank x = false := by
    rw [hr₁]
    rintro x ⟨⟩
    decide
  have hdefine : ∀ x ∈ c₃.rest.head?, isBlank x = false := by
    rw [hr₃]
    rintro x ⟨⟩
    decide
  refine ⟨c₄, hr₄, ?_⟩
  cases hrun : (Pattern.blanks₁ ++ namePattern conventions).run Pattern.accept c₄ with
  | some m =>
    exact Pattern.search_of_matchAt (Pattern.run_textStart (Pattern.run_blanks h₁ h.isBlank_before
      (Pattern.run_text h₂ (Pattern.run_blanks h₃ h.isBlank_inner (Pattern.run_text h₄ hrun)
        hdefine)) hhash))
  | none =>
    refine Pattern.search_eq_none fun s c hs ↦ ?_
    refine Pattern.run_eq_none (p := .textStart) fun _ _ ⟨hstart, hc, _⟩ ↦ hc ▸ ?_
    obtain rfl := hs.eq_nil_of_prev hstart
    obtain rfl := hs.eq_of_nil
    refine Pattern.run_eq_none (p := .blanks) fun _ d₁ ⟨⟨b₁, hb₁, k₁⟩, _⟩ ↦ ?_
    refine Pattern.run_eq_none (p := .text "#") fun _ d₂ ⟨k₂, _⟩ ↦ ?_
    obtain ⟨rfl, -⟩ := eq_of_blanks (List.all_eq_true.1 hb₁) h.isBlank_before
      (by rw [k₂.rest]; rintro x ⟨⟩; decide) hhash (k₁.rest.symm.trans h₁.rest)
    obtain rfl := k₁.unique h₁
    obtain rfl := k₂.unique h₂
    refine Pattern.run_eq_none (p := .blanks) fun _ d₃ ⟨⟨b₃, hb₃, k₃⟩, _⟩ ↦ ?_
    refine Pattern.run_eq_none (p := .text "define") fun _ d₄ ⟨k₄, _⟩ ↦ ?_
    obtain ⟨rfl, -⟩ := eq_of_blanks (List.all_eq_true.1 hb₃) h.isBlank_inner
      (by rw [k₄.rest]; rintro x ⟨⟩; decide) hdefine (k₃.rest.symm.trans h₃.rest)
    obtain rfl := k₃.unique h₃
    obtain rfl := k₄.unique h₄
    exact hrun

/-- What the pattern of the name gives. -/
theorem exists_run_namePattern {c : Cursor} {w tail value : Text}
    (hlead : conventions.constantLead <+: w) (hname : ∀ x ∈ w, isWordChar x = true)
    (hc : c.rest = w ++ tail) (hline : '\n' ∉ c.rest)
    (htail : ∀ x ∈ tail.head?, isWordChar x = false) (hvalue : constantValue? tail = some value) :
    ∃ m, (namePattern conventions).run Pattern.accept c = some m ∧
      m.get 1 = w ∧ m.get 2 = value := by
  obtain ⟨v, rfl⟩ := hlead
  obtain ⟨b, hb, hrb⟩ := Cursor.exists_reads (hc.trans (List.append_assoc ..))
  obtain ⟨d, hd, hrd⟩ := Cursor.exists_reads hrb
  have hfree : '\n' ∉ d.rest := fun hmem ↦ hline (by
    rw [hb.rest, hd.rest]
    exact List.mem_append_right _ (List.mem_append_right _ hmem))
  obtain ⟨m, a, e, hm, hmarks, hreads⟩ :=
    Pattern.exists_run_constantTail hfree (hrd.symm ▸ hvalue)
  refine ⟨_, Pattern.run_group (Pattern.run_text hb (Pattern.run_greedy_of_head hd
    (fun x hx ↦ hname x (List.mem_append_right _ hx)) (Pattern.close_group hm)
    (by rwa [hrd]))), ?_, ?_⟩
  · simp [Match.get, Match.get?, Match.place?, Match.mark, (hb.trans hd).textTo]
  · simp [Match.get, Match.get?, Match.place?, Match.mark, hmarks, hreads.textTo]

/-- One blank in front of something makes it a value. -/
theorem constantValue?_cons {y : Char} (hy : isBlank y = true) (rest : Text) :
    constantValue? (y :: (h.name ++ rest)) = some (leadingValue (h.name ++ rest)) := by
  have hblank : ∀ c ∈ [y], isBlank c = true := by simpa using hy
  have htrim : Text.trimStart (y :: (h.name ++ rest)) = h.name ++ rest :=
    Text.trimStart_append hblank (h.isBlank_of_mem_head? rest)
  rw [constantValue?, htrim, List.takeWhile_cons_of_pos hy, if_neg (List.cons_ne_nil _ _),
    if_neg (List.append_ne_nil_of_left_ne_nil h.name_ne_nil rest)]

/-- Of the blanks in front of the name some are read. -/
theorem exists_of_blanks {b g r : Text} (hb : ∀ c ∈ b, isBlank c = true)
    (heq : b ++ r = g ++ (h.name ++ rest)) : ∃ x, g = b ++ x ∧ r = x ++ (h.name ++ rest) := by
  rcases List.append_eq_append_iff.1 heq with ⟨x, hg, hr⟩ | ⟨x, hg, hr⟩
  · exact ⟨x, hg, hr⟩
  · cases x with
    | nil => exact ⟨[], by simp [hg], by simp [hr]⟩
    | cons y x =>
      have hy := hb y (hg ▸ by simp)
      exact absurd (hy.symm.trans (h.isBlank_of_mem_head? rest y (by rw [hr]; rfl))) (by simp)

section

variable {c : Cursor} (hc : c.rest = h.behind ++ (h.name ++ rest))
  (hrest : ∀ x ∈ rest.head?, isWordChar x = false)

include hc hrest

/-- Behind the blanks the name is read, if there is a value. -/
theorem exists_run_of_value {value : Text} (hline : '\n' ∉ c.rest)
    (hvalue : constantValue? rest = some value) :
    ∃ m, (Pattern.blanks₁ ++ namePattern conventions).run Pattern.accept c = some m ∧
      m.get 1 = h.name ∧ m.get 2 = value := by
  obtain ⟨d, hd, hrd⟩ := Cursor.exists_reads hc
  obtain ⟨m, hm, hname, hget⟩ := exists_run_namePattern h.lead_prefix h.isWordChar_name hrd
    (fun hmem ↦ hline (hd.rest ▸ List.mem_append_right _ hmem)) hrest hvalue
  refine ⟨m, Pattern.run_blanks₁ hd h.behind_ne_nil h.isBlank_behind hm ?_, hname, hget⟩
  rw [hrd]
  exact h.isBlank_of_mem_head? rest

/-- Without a value, the blanks but for the last one can stand in front of an empty name. -/
theorem exists_run_of_noLead (hline : '\n' ∉ c.rest) (hvalue : constantValue? rest = none)
    (hlead : conventions.constantLead = []) (hlong : 2 ≤ h.behind.length) :
    ∃ m, (Pattern.blanks₁ ++ namePattern conventions).run Pattern.accept c = some m ∧
      m.get 1 = [] ∧ m.get 2 = leadingValue (h.name ++ rest) := by
  obtain ⟨gap, y, hlast⟩ := List.eq_nil_or_concat' h.behind |>.resolve_left h.behind_ne_nil
  have hgap : ∀ x ∈ gap, isBlank x = true := fun x hx ↦
    h.isBlank_behind x (hlast ▸ List.mem_append_left _ hx)
  have hy : isBlank y = true := h.isBlank_behind y (hlast ▸ by simp)
  have hne : gap ≠ [] := by
    rintro rfl
    exact absurd hlong (by simp [hlast])
  obtain ⟨d, hd, hrd⟩ := Cursor.exists_reads (c := c) (s := gap) (r := y :: (h.name ++ rest))
    (by rw [hc, hlast]; simp)
  obtain ⟨m, hm, hname, hget⟩ := exists_run_namePattern (w := []) (List.prefix_nil.2 hlead)
    (by simp) hrd (fun hmem ↦ hline (hd.rest ▸ List.mem_append_right _ hmem))
    (by rintro x ⟨⟩; exact isWordChar_of_isBlank hy) (h.constantValue?_cons hy rest)
  refine ⟨m, Pattern.run_blanks₁_of_later hd hne hgap hm fun u e hu hblank he ↦ ?_, hname, hget⟩
  obtain ⟨x, hy, he⟩ := h.exists_of_blanks (g := [y]) hblank (he.rest.symm.trans hrd)
  obtain ⟨z, u, rfl⟩ := List.exists_cons_of_ne_nil hu
  obtain ⟨-, rfl⟩ := List.append_eq_nil_iff.1 (List.cons.inj hy).2.symm
  exact h.run_namePattern_eq_none he hrest hvalue

/-- Otherwise nothing is read. -/
theorem run_eq_none_of_lead (hvalue : constantValue? rest = none)
    (hshort : ¬(conventions.constantLead = [] ∧ 2 ≤ h.behind.length)) :
    (Pattern.blanks₁ ++ namePattern conventions).run Pattern.accept c = none := by
  refine Pattern.run_eq_none (p := .blanks₁) fun _ d hpass ↦ ?_
  obtain ⟨b, hne, hb, hd⟩ := hpass.some₁
  obtain ⟨x, hx, hd⟩ := h.exists_of_blanks (List.all_eq_true.1 hb) (hd.rest.symm.trans hc)
  cases x with
  | nil => exact h.run_namePattern_eq_none hd hrest hvalue
  | cons z x =>
    refine Pattern.run_eq_none (p := .group 1 _) fun _ e hname ↦ absurd ?_ hshort
    obtain ⟨_, ⟨_, _, _, ⟨hlead, _⟩, _⟩, _⟩ := hname
    refine ⟨List.eq_nil_iff_forall_not_mem.2 fun l hl ↦ ?_, ?_⟩
    · -- A blank is left in front of the lead, and no name begins with one.
      obtain ⟨l, lead, hcons⟩ := List.exists_cons_of_ne_nil (List.ne_nil_of_mem hl)
      have hfront := hlead.rest
      rw [hd, hcons] at hfront
      obtain rfl : z = l := (List.cons.inj hfront).1
      have hword := h.isWordChar_name z (h.lead_prefix.subset (hcons ▸ List.mem_cons_self))
      have hblank := isWordChar_of_isBlank (h.isBlank_behind z (hx ▸ by simp))
      exact absurd (hword.symm.trans hblank) (by simp)
    · have hpos := List.length_pos_iff.2 hne
      rw [hx, List.length_append, List.length_cons]
      omega

end

/-- **What is read of a line** that begins like the one of a constant. -/
theorem search_eq (hline : '\n' ∉ h.text ++ rest)
    (hrest : ∀ x ∈ rest.head?, isWordChar x = false) :
    ((constantPattern conventions).search (h.text ++ rest)).map (fun g ↦ (g.get 1, g.get 2)) =
      h.constant? rest := by
  obtain ⟨c, hc, hsearch⟩ := h.exists_search rest
  have hwhole : h.text ++ rest = h.before ++ '#' :: (h.inner ++ "define") ++ c.rest := by
    simp [text, hc]
  have hfree : '\n' ∉ c.rest := fun hmem ↦ hline (hwhole ▸ List.mem_append_right _ hmem)
  rw [hsearch, constant?]
  cases hvalue : constantValue? rest with
  | some value =>
    obtain ⟨m, hm, hname, hget⟩ := h.exists_run_of_value hc hrest hfree hvalue
    rw [hm, Option.map_some, hname, hget]
  | none =>
    dsimp only
    split_ifs with hshort
    · obtain ⟨m, hm, hname, hget⟩ :=
        h.exists_run_of_noLead hc hrest hfree hvalue hshort.1 hshort.2
      rw [hm, Option.map_some, hname, hget]
    · rw [h.run_eq_none_of_lead hc hrest hvalue hshort]
      rfl

end ConstantHead

end HeaderBindings
