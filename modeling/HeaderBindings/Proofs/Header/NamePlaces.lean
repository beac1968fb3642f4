import HeaderBindings.Declarator
import HeaderBindings.Proofs.Text.Finding
import HeaderBindings.Proofs.Text.Words

/-!
# Where the name of a declarator stands

The name of a declarator is its last word, up to an array suffix.  The pattern that looks for it
can go through a text in more ways than one, since a star may count as a part of the type or of what
separates it from the name, and since an opening bracket may stand within an array suffix.

* `NamedAt t p w r array`: the text can be taken apart into what stands in front of a name, the name
  and what stands behind it.
* `exists_namedAt_of_search`: of all places for a name the first one is found.
* `parsePlain_of_namedAt` and `parsePlain_of_not_namedAt`: what is read follows from that place
  alone, or from there being none.
-/

set_option autoImplicit false

namespace HeaderBindings

open Cursor (start)
open Pattern

namespace Declarator

/-! ## Places for a name -/

/-- What separates a type from a name. -/
abbrev isGap (c : Char) : Bool := isBlank c || c == '*'

/-- A word that can be a name. -/
def IsName (w : Text) : Prop :=
  ∃ x u, w = x :: u ∧ isIdentStart x = true ∧ ∀ c ∈ u, isWordChar c = true

/-- A type, and what separates it from a name. -/
def IsTypeFront (front gap : Text) : Prop :=
  (∃ u y, front = u ++ [y] ∧ '\n' ∉ u ∧ isBlank y = false) ∧ gap ≠ [] ∧ ∀ c ∈ gap, isGap c = true

/-- What may stand behind a name: blanks, and perhaps an array suffix. -/
def IsTail (r : Text) (array : Bool) : Prop :=
  ∃ blanks suffix, r = blanks ++ suffix ∧ (∀ c ∈ blanks, isBlank c = true) ∧
    ((suffix = [] ∧ array = false) ∨
      ∃ size, suffix = '[' :: (size ++ [']']) ∧ ']' ∉ size ∧ array = true)

/-- A name stands behind the text `p` and in front of the text `r`, which holds an array suffix or
not. -/
structure NamedAt (t p w r : Text) (array : Bool) : Prop where
  whole : t = p ++ w ++ r
  front : ∃ front gap, p = front ++ gap ∧ IsTypeFront front gap
  name : IsName w
  tail : IsTail r array

theorem IsName.ne_nil {w : Text} (h : IsName w) : w ≠ [] := by
  obtain ⟨x, u, rfl, -⟩ := h
  exact List.cons_ne_nil x u

theorem isWordChar_of_isIdentStart {x : Char} (hx : isIdentStart x = true) :
    isWordChar x = true := isWordChar_of_isIdentChar (isIdentChar_of_isIdentStart hx)

theorem IsName.isWordChar {w : Text} (h : IsName w) : ∀ c ∈ w, isWordChar c = true := by
  obtain ⟨x, u, rfl, hx, hu⟩ := h
  exact List.forall_mem_cons.2 ⟨isWordChar_of_isIdentStart hx, hu⟩

theorem isName_of_isIdentifier {w : Text} (h : isIdentifier w = true) : IsName w := by
  obtain ⟨x, u, rfl, hx, hu⟩ := exists_cons_of_isIdentifier h
  exact ⟨x, u, rfl, hx, fun c hc ↦ isWordChar_of_isIdentChar (hu c hc)⟩

theorem isWordChar_of_isGap {c : Char} (h : isGap c = true) : isWordChar c = false := by
  rw [isGap, Bool.or_eq_true, beq_iff_eq] at h
  rcases h with h | rfl
  · exact isWordChar_of_isBlank h
  · decide

/-- No word goes on behind a name. -/
theorem IsTail.head? {r : Text} {array : Bool} (h : IsTail r array) :
    ∀ c ∈ r.head?, isWordChar c = false := by
  obtain ⟨blanks, suffix, rfl, hblanks, hsuffix⟩ := h
  intro c hc
  cases blanks with
  | cons x blanks =>
    obtain rfl : x = c := by simpa using hc
    exact isWordChar_of_isBlank (hblanks x List.mem_cons_self)
  | nil =>
    rcases hsuffix with ⟨rfl, -⟩ | ⟨size, rfl, -⟩
    · simp at hc
    · obtain rfl : '[' = c := by simpa using hc
      decide

/-- Whether there is an array suffix is seen in the text. -/
theorem IsTail.unique {r : Text} {array array' : Bool} (h : IsTail r array)
    (h' : IsTail r array') : array = array' := by
  have hmem {array : Bool} (h : IsTail r array) : array = true ↔ ']' ∈ r := by
    obtain ⟨blanks, suffix, rfl, hblanks, ⟨rfl, rfl⟩ | ⟨size, rfl, -, rfl⟩⟩ := h
    · rw [List.append_nil]
      exact ⟨fun h ↦ absurd h (by simp), fun h ↦ absurd (hblanks _ h) (by decide)⟩
    · simp
  rw [Bool.eq_iff_iff, hmem h, hmem h']

/-- Two names that stand behind the same text are one, and so are their array suffixes. -/
theorem NamedAt.unique {t p w r w' r' : Text} {array array' : Bool} (h : NamedAt t p w r array)
    (h' : NamedAt t p w' r' array') : w = w' ∧ array = array' := by
  have hrest : w ++ r = w' ++ r' := by
    have hwhole := h.whole.symm.trans h'.whole
    rw [List.append_assoc, List.append_assoc] at hwhole
    exact List.append_cancel_left hwhole
  obtain rfl := Text.eq_of_append_eq hrest h.name.isWordChar h'.name.isWordChar h.tail.head?
    h'.tail.head?
  exact ⟨rfl, h.tail.unique (List.append_cancel_left hrest ▸ h'.tail)⟩

/-- No word goes on in front of a name. -/
theorem NamedAt.isWordChar_getLast? {t p w r : Text} {array : Bool} (h : NamedAt t p w r array) :
    ∀ c ∈ p.getLast?, HeaderBindings.isWordChar c = false := by
  obtain ⟨front, gap, rfl, -, hne, hgap⟩ := h.front
  intro c hc
  rw [List.getLast?_append_of_ne_nil front hne] at hc
  exact isWordChar_of_isGap (hgap c (List.mem_of_getLast? hc))

/-- What stands in front of a name begins with what stands in front of an earlier one. -/
theorem NamedAt.exists_between {t p p' w w' r r' : Text} {array array' : Bool}
    (h : NamedAt t p w r array) (h' : NamedAt t p' w' r' array') (hle : p'.length ≤ p.length) :
    ∃ e, p = p' ++ e ∧ w' ++ r' = e ++ (w ++ r) := by
  have hwhole : p ++ (w ++ r) = p' ++ (w' ++ r') := by
    simpa using h.whole.symm.trans h'.whole
  rcases List.append_eq_append_iff.1 hwhole with ⟨e, rfl, he⟩ | h
  · rw [List.length_append] at hle
    obtain rfl := List.length_eq_zero_iff.1 (by omega : e.length = 0)
    exact ⟨[], by simp, by simpa using he.symm⟩
  · exact h

/-- The type in front of a name reaches over all other names that stand before it. -/
theorem NamedAt.length_lt {t p p' w w' r r' front gap : Text} {array array' : Bool}
    (h : NamedAt t p w r array) (h' : NamedAt t p' w' r' array') (hp : p = front ++ gap)
    (hgap : ∀ c ∈ gap, isGap c = true) (hlt : p'.length < p.length) :
    p'.length < front.length := by
  obtain ⟨e, rfl, he⟩ := h.exists_between h' (Nat.le_of_lt hlt)
  obtain ⟨x, u, rfl, hx, -⟩ := h'.name
  -- The other name begins right behind `p'`, where a gap would hold no word character.
  have hnotMem : x ∉ gap := fun hmem ↦
    absurd ((isWordChar_of_isIdentStart hx).symm.trans (isWordChar_of_isGap (hgap x hmem)))
      (by simp)
  obtain ⟨e', rfl⟩ : ∃ e', e = x :: e' := by
    cases e with
    | nil => simp at hlt
    | cons y e' =>
      obtain ⟨rfl, -⟩ := List.cons.inj he
      exact ⟨e', rfl⟩
  rcases List.append_eq_append_iff.1 hp with ⟨d, rfl, hd⟩ | ⟨d, hd, rfl⟩
  · cases d with
    | nil =>
      rw [List.nil_append] at hd
      exact absurd (hd ▸ List.mem_cons_self) hnotMem
    | cons y d =>
      simp only [List.length_append, List.length_cons]
      omega
  · exact absurd (List.mem_append_right d List.mem_cons_self) hnotMem

/-- Behind every bracket that a text opens it closes one. -/
def ClosesBrackets (p : Text) : Prop := ∀ a b, p = a ++ '[' :: b → ']' ∈ b

theorem closesBrackets_of_notMem {p : Text} (h : '[' ∉ p) : ClosesBrackets p :=
  fun a b hp ↦ absurd (by rw [hp]; simp) h

/-- A closing bracket at the end closes all that stand in front of it. -/
theorem closesBrackets_concat (s : Text) : ClosesBrackets (s ++ [']']) := by
  intro a b hp
  have hlast : (a ++ '[' :: b).getLast? = some ']' := by rw [← hp, List.getLast?_concat]
  cases b with
  | nil => simp at hlast
  | cons c b =>
    rw [List.getLast?_append, List.getLast?_cons_cons, List.getLast?_cons, Option.some_or,
      ← List.getLast?_cons] at hlast
    exact List.mem_of_getLast? hlast

theorem ClosesBrackets.append {p q : Text} (hp : ClosesBrackets p) (hq : ClosesBrackets q) :
    ClosesBrackets (p ++ q) := by
  intro a b hsplit
  rcases List.append_eq_append_iff.1 hsplit with ⟨d, -, hd⟩ | ⟨d, hd, hb⟩
  · exact hq d b hd
  · cases d with
    | nil => exact hq [] b hb.symm
    | cons y d =>
      obtain ⟨rfl, rfl⟩ := List.cons.inj hb
      exact List.mem_append_left q (hp a d hd)

/-- A tail that goes on with a word holds an array suffix, which is not closed yet in front of the
word. -/
theorem IsTail.exists_bracket {d s : Text} {x : Char} {array : Bool}
    (h : IsTail (d ++ x :: s) array) (hx : isIdentStart x = true) :
    ∃ blanks b, d = blanks ++ '[' :: b ∧ ']' ∉ b := by
  obtain ⟨blanks, suffix, hr, hblanks, hsuffix⟩ := h
  have hnotMem : x ∉ blanks := fun hmem ↦
    absurd ((hblanks x hmem).symm.trans (isBlank_of_isIdentChar (isIdentChar_of_isIdentStart hx)))
      (by simp)
  obtain ⟨s', rfl⟩ := Text.exists_of_append_cons hr.symm hnotMem
  rw [← List.append_assoc] at hr
  rcases hsuffix with ⟨hnil, -⟩ | ⟨size, hsize, hclosing, -⟩
  · simp at hnil
  cases s' with
  | nil =>
    obtain ⟨rfl, -⟩ := List.cons.inj hsize
    exact absurd hx (by decide)
  | cons y b =>
    rw [List.cons_append] at hsize
    obtain ⟨rfl, hb⟩ := List.cons.inj hsize
    have hlength := congrArg List.length hb
    simp only [List.length_append, List.length_cons, List.length_nil] at hlength
    have hfront : b <+: size :=
      List.prefix_of_prefix_length_le ⟨x :: s, hb⟩ (List.prefix_append size [']']) (by omega)
    exact ⟨blanks, b, List.append_cancel_right hr, fun hmem ↦ hclosing (hfront.subset hmem)⟩

/-- In front of a name whose type closes all its brackets there is no place for another one. -/
theorem NamedAt.length_le {t p p' w w' r r' : Text} {array array' : Bool}
    (h : NamedAt t p w r array) (hclosed : ClosesBrackets p)
    (h' : NamedAt t p' w' r' array') : p.length ≤ p'.length := by
  refine Nat.le_of_not_lt fun hlt ↦ ?_
  obtain ⟨e, rfl, he⟩ := h.exists_between h' (Nat.le_of_lt hlt)
  have hne : e ≠ [] := by
    rintro rfl
    simp at hlt
  obtain ⟨x, u, rfl, hx, -⟩ := h.name
  -- The other name ends within `e`, and what is left of `e` belongs to its array suffix.
  obtain ⟨d, rfl, rfl⟩ : ∃ d, e = w' ++ d ∧ r' = d ++ (x :: u ++ r) := by
    rcases List.append_eq_append_iff.1 he with h | ⟨d, rfl, -⟩
    · exact h
    · have hlast := h.isWordChar_getLast? (e.getLast hne)
        (by rw [List.getLast?_append_of_ne_nil p' hne, List.getLast?_eq_some_getLast hne]; rfl)
      have hword := h'.name.isWordChar _ (List.mem_append_left d (List.getLast_mem hne))
      exact absurd (hword.symm.trans hlast) (by simp)
  obtain ⟨blanks, b, rfl, hnotMem⟩ := h'.tail.exists_bracket hx
  exact hnotMem (hclosed (p' ++ w' ++ blanks) b (by simp))

/-! ## The pattern of a name -/

/-- What the pattern of a name looks for behind the type. -/
def namePattern : Pattern :=
  .group 2 (.some₁ isGap) ++ .group 3 (.one isIdentStart ++ .word) ++ .blanks ++
    .optional (.group 4 ("[" ++ .many true (· != ']') ++ "]")) ++ .textEnd

/-- A type, as the pattern of a name looks for it. -/
def typePattern : Pattern := .many false notLineFeed ++ .one (!isBlank ·)

theorem matchAt_namedPattern (t : Text) : namedPattern.matchAt (start t) =
    (Pattern.group 1 typePattern).run (namePattern.run fun c ↦ some (.empty c)) (start t) := rfl

/-- There is a way through what can stand behind a type. -/
theorem passes_namePattern {c : Cursor} {gap w r : Text} {array : Bool}
    (hrest : c.rest = gap ++ w ++ r) (hne : gap ≠ []) (hgap : ∀ c ∈ gap, isGap c = true)
    (hname : IsName w) (htail : IsTail r array) : ∃ ms c', namePattern.Passes c ms c' := by
  obtain ⟨x, u, rfl, hx, hu⟩ := hname
  obtain ⟨blanks, suffix, rfl, hblanks, hsuffix⟩ := htail
  obtain ⟨c₁, h₁, hr₁⟩ := Cursor.exists_reads (c := c) (s := gap)
    (r := [x] ++ (u ++ (blanks ++ suffix))) (by simp [hrest])
  obtain ⟨c₂, h₂, hr₂⟩ := Cursor.exists_reads hr₁
  obtain ⟨c₃, h₃, hr₃⟩ := Cursor.exists_reads hr₂
  obtain ⟨c₄, h₄, hr₄⟩ := Cursor.exists_reads hr₃
  have hfront {ms : List (Mark × Cursor)} {c' : Cursor} (hsuffix : (Pattern.optional
      (.group 4 ("[" ++ .many true (· != ']') ++ "]"))).Passes c₄ ms c') (hend : c'.rest = []) :
      ∃ ms c', namePattern.Passes c ms c' :=
    ⟨_, _, Passes.seq (Passes.seq (Passes.seq (Passes.seq
      (Passes.group (passes_some₁ h₁ hne hgap))
      (Passes.group (Passes.seq (passes_one h₂ hx) (passes_many h₃ hu))))
      (passes_many h₄ hblanks)) hsuffix) (passes_place (by simp [hend]))⟩
  rcases hsuffix with ⟨rfl, -⟩ | ⟨size, rfl, hsize, -⟩
  · exact hfront (Or.inr (passes_text (.refl c₄))) hr₄
  · obtain ⟨c₅, h₅, hr₅⟩ := Cursor.exists_reads (s := ['[']) hr₄
    obtain ⟨c₆, h₆, hr₆⟩ := Cursor.exists_reads hr₅
    obtain ⟨c₇, h₇, hr₇⟩ := Cursor.exists_reads (s := [']']) (r := []) hr₆
    exact hfront (Or.inl (Passes.group (Passes.seq (Passes.seq (passes_text h₅)
      (passes_many h₆ (Text.bne_of_notMem hsize))) (passes_text h₇)))) hr₇

/-- What a way through the rest of the pattern finds. -/
theorem exists_of_passes_namePattern {c c' : Cursor} {ms : List (Mark × Cursor)}
    (h : namePattern.Passes c ms c') :
    ∃ gap w r array, c.rest = gap ++ w ++ r ∧ gap ≠ [] ∧ (∀ c ∈ gap, isGap c = true) ∧ IsName w ∧
      IsTail r array ∧ ∀ a b stop,
        let m : Match := ⟨(.opening 1, a) :: (.closing 1, b) :: ms, stop⟩
        m.get 2 = gap ∧ m.get 3 = w ∧ (m.get? 4).isSome = array := by
  obtain ⟨_, c₅, _, hpass, ⟨hend, rfl, rfl⟩, rfl⟩ := h
  obtain ⟨_, c₄, ms₄, hpass, hsuffix, rfl⟩ := hpass
  obtain ⟨_, c₃, _, hpass, ⟨⟨blanks, hblanks, hread₄⟩, rfl⟩, rfl⟩ := hpass
  obtain ⟨_, c₂, _, ⟨_, hgap, rfl⟩, ⟨_, hname, rfl⟩, rfl⟩ := hpass
  obtain rfl := hgap.marks_eq_nil rfl
  obtain rfl := hname.marks_eq_nil rfl
  obtain ⟨gap, hne, hgaps, hread₂⟩ := hgap.some₁
  obtain ⟨_, b, _, ⟨⟨x, hx, hone⟩, -⟩, ⟨⟨u, hu, hmany⟩, -⟩, -⟩ := hname
  have hread₃ := hone.trans hmany
  have hend : c'.rest = [] := List.isEmpty_iff.1 hend
  have hrest : c.rest = gap ++ (x :: u) ++ (blanks ++ c₄.rest) := by
    simpa using ((hread₂.trans hread₃).trans hread₄).rest
  have hname : IsName (x :: u) := ⟨x, u, rfl, hx, List.all_eq_true.1 hu⟩
  have hblanks := List.all_eq_true.1 hblanks
  rcases hsuffix with ⟨_, hsuffix, rfl⟩ | ⟨hread₅, rfl⟩
  · obtain rfl := hsuffix.marks_eq_nil rfl
    obtain ⟨_, d, _, ⟨_, d', _, ⟨hopening, -⟩, ⟨⟨size, hsize, hread₅⟩, -⟩, -⟩, ⟨hclosing, -⟩, -⟩ :=
      hsuffix
    have hsuffix : c₄.rest = '[' :: (size ++ [']']) := by
      rw [hopening.rest, hread₅.rest, hclosing.rest, hend]
      rfl
    have hnotMem : ']' ∉ size := fun hmem ↦
      absurd (List.all_eq_true.1 hsize ']' hmem) (by decide)
    refine ⟨gap, x :: u, _, true, hrest, hne, List.all_eq_true.1 hgaps, hname,
      ⟨blanks, c₄.rest, rfl, hblanks, Or.inr ⟨size, hsuffix, hnotMem, rfl⟩⟩,
      fun a b stop ↦ ⟨?_, ?_, ?_⟩⟩
    · simp [Match.get, Match.get?, Match.place?, hread₂.textTo]
    · simpa [Match.get, Match.get?, Match.place?] using hread₃.textTo
    · simp [Match.get?, Match.place?]
  · have hsuffix : c₄.rest = [] := by
      rw [hread₅.rest, hend]
      rfl
    refine ⟨gap, x :: u, _, false, hrest, hne, List.all_eq_true.1 hgaps, hname,
      ⟨blanks, c₄.rest, rfl, hblanks, Or.inl ⟨hsuffix, rfl⟩⟩, fun a b stop ↦ ⟨?_, ?_, ?_⟩⟩
    · simp [Match.get, Match.get?, Match.place?, hread₂.textTo]
    · simpa [Match.get, Match.get?, Match.place?] using hread₃.textTo
    · simp [Match.get?, Match.place?]

/-- What is found is a type with a name behind it, and there is no way on from a shorter type. -/
theorem exists_type_of_search {t : Text} {m : Match} (h : namedPattern.search t = some m) :
    ∃ u y gap r, m.get 1 = u ++ [y] ∧ m.get 2 = gap ∧ IsTypeFront (u ++ [y]) gap ∧
      t = u ++ [y] ++ gap ++ m.get 3 ++ r ∧ IsName (m.get 3) ∧ IsTail r (m.get? 4).isSome ∧
      ∀ u' v d y' d' ms c', u = u' ++ v → v ≠ [] → (start t).Reads u' d → isBlank y' = false →
        d.Reads [y'] d' → ¬namePattern.Passes d' ms c' := by
  rw [search_eq] at h
  obtain ⟨c, hc, hm⟩ := List.exists_of_findSome?_eq_some h
  obtain ⟨s, hs⟩ := Cursor.mem_places.1 hc
  obtain rfl : c = start t := by
    obtain ⟨_, _, _, ⟨_, _, _, ⟨_, _, _, ⟨_, _, _, ⟨_, _, _, ⟨_, _, _, ⟨_, _, _, ⟨hstart, -⟩, -⟩,
      -⟩, -⟩, -⟩, -⟩, -⟩, -⟩ := passes_of_run _ hm
    obtain rfl := hs.eq_nil_of_prev hstart
    exact hs.eq_of_nil
  rw [matchAt_namedPattern] at hm
  obtain ⟨m₁, htype, rfl⟩ := Option.map_eq_some_iff.1 hm
  obtain ⟨u, c₁, hu, hread, hone, hearlier⟩ := reads_of_lazy htype
  obtain ⟨_, c₂, m₂, ⟨⟨y, hy, hlast⟩, rfl⟩, hclose, hmarks, -⟩ := passes_of_run _ hone
  obtain ⟨m₃, hrun, rfl⟩ := Option.map_eq_some_iff.1 hclose
  obtain ⟨ms, c₃, m₄, hpass, hk, hmarks', -⟩ := passes_of_run _ hrun
  obtain rfl := Option.some_inj.1 hk
  obtain ⟨gap, w, r, array, hrest, hne, hgap, hname, htail, hget⟩ :=
    exists_of_passes_namePattern hpass
  have hmatch : m₁.mark (.opening 1) (start t) =
      ⟨(.opening 1, start t) :: (.closing 1, c₂) :: ms, m₁.stop⟩ := by
    rw [Match.mark, hmarks, Match.mark, hmarks']
    simp [Match.empty]
  obtain ⟨hget₂, hget₃, hget₄⟩ := hget (start t) c₂ m₁.stop
  have hget₁ : Match.get ⟨(.opening 1, start t) :: (.closing 1, c₂) :: ms, m₁.stop⟩ 1 =
      u ++ [y] := by
    simp [Match.get, Match.get?, Match.place?, (hread.trans hlast).textTo]
  have hlines : '\n' ∉ u := fun hmem ↦ absurd (hu _ hmem) (by decide)
  have hwhole : t = u ++ [y] ++ gap ++ w ++ r := by
    have hwhole : t = _ := (hread.trans hlast).rest
    rw [hwhole, hrest]
    simp
  rw [hmatch, hget₁, hget₂, hget₃, hget₄]
  refine ⟨u, y, gap, r, rfl, rfl, ⟨⟨u, y, rfl, hlines, by simpa using hy⟩, hne, hgap⟩, hwhole,
    hname, htail, ?_⟩
  intro u' v d y' d' ms' c' hsplit hv hd hy' hd' hpass'
  have hsome := isSome_run (.one (!isBlank ·)) (passes_one hd' (by simp [hy']))
    (k := fun c' ↦ ((namePattern.run fun c ↦ some (.empty c)) c').map (.mark (.closing 1) c'))
    (by rw [Option.isSome_map]; exact isSome_run _ hpass' rfl)
  rw [hearlier u' v d hsplit hv hd] at hsome
  exact absurd hsome (by simp)

/-- **The first place for a name is found.** -/
theorem exists_namedAt_of_search {t : Text} {m : Match} (h : namedPattern.search t = some m) :
    ∃ r, NamedAt t (m.get 1 ++ m.get 2) (m.get 3) r (m.get? 4).isSome ∧
      (∀ c ∈ m.get 2, isGap c = true) ∧
      ∀ p' w' r' array', NamedAt t p' w' r' array' →
        (m.get 1 ++ m.get 2).length ≤ p'.length := by
  obtain ⟨u, y, gap, r, hget₁, hget₂, hfront, hwhole, hname, htail, hearlier⟩ :=
    exists_type_of_search h
  have hnamed : NamedAt t (m.get 1 ++ m.get 2) (m.get 3) r (m.get? 4).isSome := by
    rw [hget₁, hget₂]
    exact ⟨hwhole, ⟨u ++ [y], gap, rfl, hfront⟩, hname, htail⟩
  refine ⟨r, hnamed, hget₂ ▸ hfront.2.2, fun p' w' r' array' hother ↦ ?_⟩
  refine Nat.le_of_not_lt fun hlt ↦ ?_
  have hshort := hnamed.length_lt hother rfl (hget₂ ▸ hfront.2.2) hlt
  obtain ⟨front, gap', rfl, ⟨u', y', rfl, -, hy'⟩, hne', hgap'⟩ := hother.front
  -- The repetition is lazy, so it would have stopped in front of `y'`.
  obtain ⟨v, hv, rfl⟩ : ∃ v, v ≠ [] ∧ u = u' ++ v := by
    have hsplit : u' ++ (y' :: (gap' ++ w' ++ r')) = u ++ (y :: (gap ++ m.get 3 ++ r)) := by
      simpa using hother.whole.symm.trans hwhole
    have hlength : u'.length < u.length := by
      have hpos := List.length_pos_iff.2 hne'
      rw [hget₁] at hshort
      simp only [List.length_append, List.length_singleton] at hshort
      omega
    rcases List.append_eq_append_iff.1 hsplit with ⟨v, rfl, -⟩ | ⟨v, rfl, -⟩
    · refine ⟨v, ?_, rfl⟩
      rintro rfl
      simp at hlength
    · rw [List.length_append] at hlength
      omega
  obtain ⟨d, hd, hrestd⟩ := Cursor.exists_reads (c := start t) (s := u')
    (r := [y'] ++ (gap' ++ w' ++ r')) (by simpa [start] using hother.whole)
  obtain ⟨d', hd', hrestd'⟩ := Cursor.exists_reads hrestd
  obtain ⟨ms, c', hpass⟩ := passes_namePattern hrestd' hne' hgap' hother.name hother.tail
  exact hearlier u' v d y' d' ms c' rfl hv hd hy' hd' hpass

/-- Where there is a place for a name, one is found. -/
theorem NamedAt.isSome_search {t p w r : Text} {array : Bool} (h : NamedAt t p w r array) :
    (namedPattern.search t).isSome = true := by
  obtain ⟨front, gap, rfl, ⟨u, y, rfl, hlines, hy⟩, hne, hgap⟩ := h.front
  obtain ⟨c₁, h₁, hr₁⟩ := Cursor.exists_reads (c := start t) (s := u)
    (r := [y] ++ (gap ++ w ++ r)) (by simpa [start] using h.whole)
  obtain ⟨c₂, h₂, hr₂⟩ := Cursor.exists_reads hr₁
  obtain ⟨ms, c', hpass⟩ := passes_namePattern hr₂ hne hgap h.name h.tail
  have htype : (Pattern.group 1 typePattern).Passes (start t) _ c₂ :=
    Passes.group (Passes.seq (passes_many h₁ (Text.bne_of_notMem hlines))
      (passes_one h₂ (by simp [hy])))
  have hmatch : (namedPattern.matchAt (start t)).isSome := by
    rw [matchAt_namedPattern]
    exact isSome_run _ htype (isSome_run _ hpass rfl)
  obtain ⟨m, hm⟩ := Option.isSome_iff_exists.1 hmatch
  rw [search_of_matchAt hm]
  rfl

/-- There is a first place for a name, if there is any. -/
theorem NamedAt.exists_first {t p w r : Text} {array : Bool} (h : NamedAt t p w r array) :
    ∃ p w r array, NamedAt t p w r array ∧
      ∀ p' w' r' array', NamedAt t p' w' r' array' → p.length ≤ p'.length := by
  obtain ⟨m, hm⟩ := Option.isSome_iff_exists.1 h.isSome_search
  obtain ⟨r, hnamed, -, hmin⟩ := exists_namedAt_of_search hm
  exact ⟨_, _, r, _, hnamed, hmin⟩

/-- Two places for a name do not differ by blanks only. -/
theorem NamedAt.eq_nil_of_withoutBlanks {t p e w w' r r' : Text} {array array' : Bool}
    (h : NamedAt t p w r array) (h' : NamedAt t (p ++ e) w' r' array')
    (he : e.withoutBlanks = []) : e = [] := by
  have hwhole : w ++ r = e ++ (w' ++ r') := by
    have hwhole := h.whole.symm.trans h'.whole
    simp only [List.append_assoc] at hwhole
    exact List.append_cancel_left hwhole
  obtain ⟨x, w, rfl, hx, -⟩ := h.name
  cases e with
  | nil => rfl
  | cons c e =>
    -- A word begins behind `p`, so no blank does.
    obtain ⟨rfl, -⟩ := List.cons.inj hwhole
    rw [Text.withoutBlanks, List.filter_eq_nil_iff] at he
    exact absurd (isBlank_of_isIdentChar (isIdentChar_of_isIdentStart hx))
      (by simpa using he x List.mem_cons_self)

/-! ## What is read -/

/-- Of what separates a type from its name the stars are what is no blank. -/
theorem filter_star_eq {gap : Text} (h : ∀ c ∈ gap, isGap c = true) :
    gap.filter (· == '*') = gap.withoutBlanks := by
  refine List.filter_congr fun c hc ↦ ?_
  have hgap := h c hc
  rw [isGap, Bool.or_eq_true, beq_iff_eq] at hgap
  rcases hgap with hgap | rfl
  · have hne : c ≠ '*' := by
      rintro rfl
      exact absurd hgap (by decide)
    simp [hgap, hne]
  · decide

section

variable {s t : Text} (hdrop : dropQualifiers t.length t = s)

include hdrop

/-- **A declarator with a name** is read as its first place for one: the name, and a type that is
made of all that stands in front of it, with a star for an array suffix. -/
theorem parsePlain_of_namedAt {p w r : Text} {array : Bool} (h : NamedAt s p w r array)
    (hfirst : ∀ p' w' r' array', NamedAt s p' w' r' array' → p.length ≤ p'.length) :
    parsePlain t = .named (if p.withoutBlanks = "..." then variadicName else w)
      (if array then p.withoutBlanks ++ ['*'] else p.withoutBlanks) := by
  obtain ⟨m, hm⟩ := Option.isSome_iff_exists.1 h.isSome_search
  obtain ⟨r', hfound, hgap, hmin⟩ := exists_namedAt_of_search hm
  obtain rfl : m.get 1 ++ m.get 2 = p := by
    have hlength : (m.get 1 ++ m.get 2).length = p.length :=
      Nat.le_antisymm (hmin _ _ _ _ h) (hfirst _ _ _ _ hfound)
    have hwhole := hfound.whole.symm.trans h.whole
    rw [List.append_assoc, List.append_assoc p] at hwhole
    exact (List.append_inj hwhole hlength).1
  obtain ⟨hw, harray⟩ := h.unique hfound
  have htype : (m.get 1 ++ (m.get 2).filter (· == '*')).withoutBlanks =
      (m.get 1 ++ m.get 2).withoutBlanks := by
    rw [filter_star_eq hgap, Text.withoutBlanks_append, Text.withoutBlanks_append,
      Text.withoutBlanks_idem]
  simp only [parsePlain, hdrop, hm, htype, hw, harray]

/-- **A declarator without a name** is read as a type made of all of it. -/
theorem parsePlain_of_not_namedAt (h : ∀ p w r array, ¬NamedAt s p w r array) :
    parsePlain t = .named (if s.withoutBlanks = "..." then variadicName else [])
      s.withoutBlanks := by
  have hnone : namedPattern.search s = none := by
    cases hm : namedPattern.search s with
    | none => rfl
    | some m =>
      obtain ⟨r, hfound, -⟩ := exists_namedAt_of_search hm
      exact absurd hfound (h _ _ _ _)
  simp only [parsePlain, hdrop, hnone]

end

end Declarator

end HeaderBindings
