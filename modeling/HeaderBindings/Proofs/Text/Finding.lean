import HeaderBindings.Proofs.Text.Passes

/-!
# Which match is found

`HeaderBindings.Proofs.Text.Passes` says what all ways through a pattern have in common.  To read a
declaration back from its text one has to know which of them is found, and this file follows it:
there is one rule for each kind of pattern, which reduces running it in front of a continuation to
running the continuation.

* A repetition that is greedy ends at a place behind which the continuation finds nothing more
  (`run_greedy`), and a lazy one at the first place from which the continuation finds anything
  (`run_lazy`).
* That a continuation finds nothing is said by the ways through it: `run_eq_none_of_passes`.
  In the other direction `isSome_run` says that a way is enough to find a match.
* `occursIn_iff` sums both up for a search that only asks whether there is a match, and
  `search_of_matchAt`, `search_behind` and `search_eq_none` are for one that takes the match apart.
* `mem_collect`: where all matches are collected, one is left out only if another one that begins
  before it reaches over the place where it begins.

Places are never computed.  They are given by what is read between them, `Cursor.Reads`.
-/

set_option autoImplicit false

namespace HeaderBindings

/-! ## Places of a text -/

namespace Cursor

/-- The place before a text. -/
def start (t : Text) : Cursor := ⟨0, none, t⟩

/-- Behind a text that comes next there is a place. -/
theorem exists_reads {c : Cursor} {s r : Text} (h : c.rest = s ++ r) :
    ∃ c', c.Reads s c' ∧ c'.rest = r :=
  ⟨⟨c.offset + s.length, s.getLast?.or c.prev, r⟩, ⟨h, rfl, rfl⟩, rfl⟩

/-- What is read leads to one place only. -/
theorem Reads.unique {c c' d : Cursor} {t : Text} (h : c.Reads t c') (h' : c.Reads t d) :
    c' = d := by
  obtain ⟨offset, prev, rest⟩ := c'
  obtain ⟨offset', prev', rest'⟩ := d
  have hrest : t ++ rest = t ++ rest' := h.rest.symm.trans h'.rest
  have hoffset : offset = offset' := h.offset.trans h'.offset.symm
  have hprev : prev = prev' := h.prev.trans h'.prev.symm
  rw [hoffset, hprev, List.append_cancel_left hrest]

/-- There is a place between two texts that are read one behind the other. -/
theorem Reads.split {c c' : Cursor} {s t : Text} (h : c.Reads (s ++ t) c') :
    ∃ b, c.Reads s b ∧ b.Reads t c' := by
  obtain ⟨b, hs, hrest⟩ := exists_reads (h.rest.trans (List.append_assoc s t c'.rest))
  obtain ⟨d, ht, -⟩ := exists_reads hrest
  exact ⟨b, hs, (hs.trans ht).unique h ▸ ht⟩

theorem Reads.eq_of_nil {c c' : Cursor} (h : c.Reads [] c') : c' = c := h.unique (.refl c)

/-- The place behind the first character read. -/
theorem Reads.uncons {c c' : Cursor} {x : Char} {t : Text} (h : c.Reads (x :: t) c') :
    c.rest = x :: (t ++ c'.rest) ∧
      (Cursor.mk (c.offset + 1) (some x) (t ++ c'.rest)).Reads t c' := by
  refine ⟨h.rest, rfl, ?_, ?_⟩
  · rw [h.offset, List.length_cons]
    change _ = c.offset + 1 + t.length
    omega
  · rw [h.prev]
    cases t with
    | nil => rfl
    | cons y t =>
      rw [List.getLast?_cons_cons]
      cases hlast : (y :: t).getLast? with
      | none => simp at hlast
      | some z => rfl

/-- Only before the text stands nothing. -/
theorem Reads.eq_nil_of_prev {c : Cursor} {s t : Text} (h : (start t).Reads s c)
    (hc : c.prev.isNone = true) : s = [] := by
  rw [h.prev] at hc
  change (s.getLast?.or none).isNone = true at hc
  simpa using hc

/-- Behind a word that something else follows there is a boundary. -/
theorem Reads.atWordBoundary {c c' : Cursor} {w : Text} (h : c.Reads w c') (hne : w ≠ [])
    (hw : ∀ x ∈ w, isWordChar x = true) (hhead : ∀ x ∈ c'.rest.head?, isWordChar x = false) :
    c'.atWordBoundary = true := by
  have hlast := hw _ (List.getLast_mem hne)
  rw [Cursor.atWordBoundary, h.prev, List.getLast?_eq_some_getLast hne]
  cases hrest : c'.rest with
  | nil => simp [hlast]
  | cons y r => simp [hlast, hhead y (by rw [hrest]; rfl)]

/-- In front of a word that stands behind something else there is a boundary. -/
theorem Reads.atWordBoundary_front {c c' : Cursor} {s : Text} (h : c.Reads s c') (hne : s ≠ [])
    (hlast : ∀ x ∈ s.getLast?, isWordChar x = false) {x : Char} (hx : isWordChar x = true)
    (hhead : c'.rest.head? = some x) : c'.atWordBoundary = true := by
  have hprev := hlast _ (List.getLast?_eq_some_getLast hne)
  rw [Cursor.atWordBoundary, h.prev, List.getLast?_eq_some_getLast hne, hhead]
  simp [hprev, hx]

theorem Reads.behind? {t : Text} : ∀ {c c' : Cursor}, c.Reads t c' → c.behind? t = some c' := by
  induction t with
  | nil => intro c c' h; rw [h.eq_of_nil]; rfl
  | cons x t ih =>
    intro c c' h
    obtain ⟨hrest, hreads⟩ := h.uncons
    rw [Cursor.behind?, hrest]
    simpa using ih hreads

theorem mem_placesFrom {c : Cursor} (t : Text) : ∀ (n : Nat) (prev : Option Char),
    c ∈ placesFrom n prev t ↔ ∃ s, (Cursor.mk n prev t).Reads s c := by
  induction t with
  | nil =>
    intro n prev
    rw [placesFrom, List.mem_singleton]
    constructor
    · rintro rfl
      exact ⟨[], .refl _⟩
    · rintro ⟨s, hs⟩
      obtain rfl : s = [] := (List.append_eq_nil_iff.1 hs.rest.symm).1
      exact hs.eq_of_nil
  | cons x t ih =>
    intro n prev
    rw [placesFrom, List.mem_cons, ih]
    constructor
    · rintro (rfl | ⟨s, hs⟩)
      · exact ⟨[], .refl _⟩
      · exact ⟨x :: s, (Reads.one n prev x t).trans hs⟩
    · rintro ⟨s, hs⟩
      cases s with
      | nil => exact Or.inl hs.eq_of_nil
      | cons y s =>
        obtain ⟨hrest, hreads⟩ := hs.uncons
        obtain ⟨rfl, rfl⟩ := List.cons.inj hrest
        exact Or.inr ⟨s, hreads⟩

/-- The places of a text are those that reading a part of it leads to. -/
theorem mem_places {c : Cursor} {t : Text} : c ∈ places t ↔ ∃ s, (start t).Reads s c :=
  mem_placesFrom t 0 none

end Cursor

open Cursor (start)

namespace Pattern

variable {p q : Pattern} {k : Cursor → Option Match} {c c' : Cursor} {m : Match} {s t : Text}
  {test : Char → Bool}

/-! ## Rules for the kinds of patterns -/

theorem run_text (h : c.Reads t c') (hk : k c' = some m) : (text t).run k c = some m := by
  rw [run, h.behind?]
  exact hk

theorem run_text_eq_none (h : ¬t <+: c.rest) : (text t).run k c = none := by
  rw [run, Option.bind_eq_none_iff]
  intro c' hc'
  exact absurd ⟨c'.rest, (Cursor.reads_of_behind? hc').rest.symm⟩ h

theorem run_place {test : Cursor → Bool} (h : test c = true) (hk : k c = some m) :
    (place test).run k c = some m := by
  rw [run, if_pos h]
  exact hk

theorem run_textStart (hk : k (start t) = some m) : textStart.run k (start t) = some m :=
  run_place rfl hk

theorem run_one {x : Char} (h : c.Reads [x] c') (hx : test x = true) (hk : k c' = some m) :
    (one test).run k c = some m := by
  obtain ⟨hrest, hreads⟩ := h.uncons
  rw [run, hrest]
  simp only [hx, if_true]
  rw [← hreads.eq_of_nil]
  exact hk

theorem run_group {i : Nat}
    (h : p.run (fun c' ↦ (k c').map (.mark (.closing i) c')) c = some m) :
    (group i p).run k c = some (m.mark (.opening i) c) := by
  rw [run, h]
  rfl

/-- The end of a group, where the pattern inside it has come to. -/
theorem close_group {i : Nat} (hk : k c = some m) :
    (k c).map (.mark (.closing i) c) = some (m.mark (.closing i) c) := by
  rw [hk]
  rfl

theorem run_left (h : p.run k c = some m) : (either p q).run k c = some m := by
  rw [run, h]
  rfl

theorem run_right (hp : p.run k c = none) (hq : q.run k c = some m) :
    (either p q).run k c = some m := by
  rw [run, hp]
  exact hq

/-- No way through a pattern, no match. -/
theorem run_eq_none_of_passes (h : ∀ ms c', ¬p.Passes c ms c') : p.run k c = none := by
  cases hrun : p.run k c with
  | none => rfl
  | some m =>
    obtain ⟨ms, c', m', hpass, -⟩ := passes_of_run p hrun
    exact absurd hpass (h ms c')

/-- No way to go on behind a pattern, no match. -/
theorem run_eq_none (h : ∀ ms c', p.Passes c ms c' → k c' = none) : p.run k c = none := by
  cases hrun : p.run k c with
  | none => rfl
  | some m =>
    obtain ⟨ms, c', m', hpass, hk, -⟩ := passes_of_run p hrun
    exact absurd ((h ms c' hpass).symm.trans hk) (by simp)

/-- **A greedy repetition** reads on up to a place from which the continuation finds something and
behind which it does not. -/
theorem run_greedy (h : c.Reads s c') (hs : ∀ x ∈ s, test x = true) (hk : k c' = some m)
    (hlater : ∀ u d, u ≠ [] → (∀ x ∈ u, test x = true) → c'.Reads u d → k d = none) :
    (many true test).run k c = some m := by
  have hend {n : Nat} {prev : Option Char} {x : Char} {r : Text}
      (hc' : c' = ⟨n, prev, x :: r⟩) :
      (if test x then runMany true test k (n + 1) (some x) r else none) = none := by
    split
    · rename_i hx
      cases hrun : runMany true test k (n + 1) (some x) r with
      | none => rfl
      | some m' =>
        obtain ⟨u, d, hu, hreads, hd⟩ := reads_of_runMany r hrun
        have hnone := hlater (x :: u) d (List.cons_ne_nil x u)
          (by simpa [hx] using hu) (hc' ▸ (Cursor.Reads.one n prev x r).trans hreads)
        exact absurd (hnone.symm.trans hd) (by simp)
    · rfl
  rw [run]
  induction s generalizing c with
  | nil =>
    obtain rfl := h.eq_of_nil
    obtain ⟨n, prev, rest⟩ := c'
    cases rest with
    | nil => exact hk
    | cons x r =>
      rw [runMany, hend rfl]
      exact hk
  | cons x s ih =>
    obtain ⟨hrest, hreads⟩ := h.uncons
    have hmore := ih hreads (fun y hy ↦ hs y (List.mem_cons_of_mem x hy))
    rw [hrest, runMany, if_pos (hs x List.mem_cons_self), hmore]
    rfl

/-- A greedy repetition in front of a character that ends it. -/
theorem run_greedy_of_head (h : c.Reads s c') (hs : ∀ x ∈ s, test x = true) (hk : k c' = some m)
    (hhead : ∀ x ∈ c'.rest.head?, test x = false) : (many true test).run k c = some m := by
  refine run_greedy h hs hk fun u d hne hu hreads ↦ ?_
  obtain ⟨x, u, rfl⟩ := List.exists_cons_of_ne_nil hne
  have hx := hhead x (by rw [hreads.rest]; rfl)
  exact absurd ((hu x List.mem_cons_self).symm.trans hx) (by simp)

/-- Blanks in front of something else. -/
theorem run_blanks (h : c.Reads s c') (hs : ∀ x ∈ s, isBlank x = true) (hk : k c' = some m)
    (hhead : ∀ x ∈ c'.rest.head?, isBlank x = false) : blanks.run k c = some m :=
  run_greedy_of_head h hs hk hhead

/-- No blanks at all. -/
theorem run_noBlanks (hk : k c = some m) (hhead : ∀ x ∈ c.rest.head?, isBlank x = false) :
    blanks.run k c = some m := run_blanks (.refl c) (by simp) hk hhead

/-- A greedy repetition as a group, in front of a text whose first character does not come again. -/
theorem run_group_of_last {i : Nat} {x : Char} {r after : Text} (h : c.Reads s c')
    (hs : ∀ x ∈ s, test x = true) (hrest : c'.rest = x :: r) (hx : x ∉ r)
    (hk : (text (x :: after)).run k c' = some m) :
    (group i (many true test)).run ((text (x :: after)).run k) c =
      some ((m.mark (.closing i) c').mark (.opening i) c) := by
  refine run_group (run_greedy h hs (close_group hk) fun u d hne _ hreads ↦ ?_)
  have hnone : (text (x :: after)).run k d = none := run_text_eq_none fun hfront ↦ by
    obtain ⟨y, u, rfl⟩ := List.exists_cons_of_ne_nil hne
    obtain ⟨-, hr⟩ := List.cons.inj (hrest.symm.trans hreads.rest)
    exact hx (hr ▸ List.mem_append_right u (hfront.subset List.mem_cons_self))
  rw [hnone]
  rfl

/-- **A lazy repetition** reads up to the first place from which the continuation finds
something. -/
theorem run_lazy (h : c.Reads s c') (hs : ∀ x ∈ s, test x = true) (hk : k c' = some m)
    (hearlier : ∀ u v d, s = u ++ v → v ≠ [] → c.Reads u d → k d = none) :
    (many false test).run k c = some m := by
  rw [run]
  induction s generalizing c with
  | nil =>
    obtain rfl := h.eq_of_nil
    obtain ⟨n, prev, rest⟩ := c'
    cases rest with
    | nil => exact hk
    | cons x r =>
      rw [runMany]
      change (k _).or _ = _
      rw [hk]
      rfl
  | cons x s ih =>
    obtain ⟨hrest, hreads⟩ := h.uncons
    have hmore := ih hreads (fun y hy ↦ hs y (List.mem_cons_of_mem x hy)) fun u v d hsplit hne hu ↦
      hearlier (x :: u) v d (by rw [hsplit]; rfl) hne (by
        have hfirst := Cursor.Reads.one c.offset c.prev x (s ++ c'.rest)
        rw [← hrest] at hfirst
        exact hfirst.trans hu)
    have hnone : k ⟨c.offset, c.prev, x :: (s ++ c'.rest)⟩ = none := by
      have := hearlier [] (x :: s) c rfl (List.cons_ne_nil x s) (.refl c)
      rwa [← hrest]
    rw [hrest, runMany, if_pos (hs x List.mem_cons_self)]
    change (k _).or _ = _
    rw [hnone]
    exact hmore

/-- What a lazy repetition has read, when nothing was found from any place before. -/
theorem reads_of_lazy (h : (many false test).run k c = some m) :
    ∃ s c', (∀ x ∈ s, test x = true) ∧ c.Reads s c' ∧ k c' = some m ∧
      ∀ u v d, s = u ++ v → v ≠ [] → c.Reads u d → k d = none := by
  have hhere {c : Cursor} (hk : k c = some m) : ∃ s c', (∀ x ∈ s, test x = true) ∧
      c.Reads s c' ∧ k c' = some m ∧
        ∀ u v d, s = u ++ v → v ≠ [] → c.Reads u d → k d = none :=
    ⟨[], c, by simp, .refl c, hk, fun u v d hsplit hv _ ↦
      absurd (List.append_eq_nil_iff.1 hsplit.symm).2 hv⟩
  obtain ⟨n, prev, rest⟩ := c
  rw [run] at h
  change runMany false test k n prev rest = some m at h
  induction rest generalizing n prev with
  | nil => exact hhere h
  | cons x rest ih =>
    rw [runMany] at h
    change (k _).or _ = _ at h
    rcases Option.or_eq_some_iff.1 h with hk | ⟨hnone, hlonger⟩
    · exact hhere hk
    split at hlonger
    · rename_i hx
      obtain ⟨s, c', hs, hreads, hk, hearlier⟩ := ih _ _ hlonger
      have hone := Cursor.Reads.one n prev x rest
      refine ⟨x :: s, c', List.forall_mem_cons.2 ⟨hx, hs⟩, hone.trans hreads, hk, ?_⟩
      intro u v d hsplit hv hu
      cases u with
      | nil => rw [hu.eq_of_nil, hnone]
      | cons y u =>
        obtain ⟨rfl, hmore⟩ := List.cons.inj hsplit
        obtain ⟨hrest, hreads'⟩ := hu.uncons
        obtain ⟨-, hrest⟩ := List.cons.inj hrest
        exact hearlier u v d hmore hv (hrest ▸ hreads')
    · exact absurd hlonger (by simp)

/-! ## At least one character -/

/-- At least one character, and then as many as there are. -/
theorem run_some₁ (h : c.Reads s c') (hne : s ≠ []) (hs : ∀ x ∈ s, test x = true)
    (hk : k c' = some m) (hhead : ∀ x ∈ c'.rest.head?, test x = false) :
    (some₁ test).run k c = some m := by
  obtain ⟨x, s, rfl⟩ := List.exists_cons_of_ne_nil hne
  obtain ⟨hrest, hreads⟩ := h.uncons
  have hone := Cursor.Reads.one c.offset c.prev x (s ++ c'.rest)
  rw [← hrest] at hone
  exact run_one hone (hs x List.mem_cons_self)
    (run_greedy_of_head hreads (fun y hy ↦ hs y (List.mem_cons_of_mem x hy)) hk hhead)

/-- At least one character, and then no more than needed. -/
theorem run_lazySome (h : c.Reads s c') (hne : s ≠ []) (hs : ∀ x ∈ s, test x = true)
    (hk : k c' = some m)
    (hearlier : ∀ u v d, s = u ++ v → u ≠ [] → v ≠ [] → c.Reads u d → k d = none) :
    (lazySome test).run k c = some m := by
  obtain ⟨x, s, rfl⟩ := List.exists_cons_of_ne_nil hne
  obtain ⟨hrest, hreads⟩ := h.uncons
  have hone := Cursor.Reads.one c.offset c.prev x (s ++ c'.rest)
  rw [← hrest] at hone
  refine run_one hone (hs x List.mem_cons_self)
    (run_lazy hreads (fun y hy ↦ hs y (List.mem_cons_of_mem x hy)) hk fun u v d hsplit hv hu ↦ ?_)
  exact hearlier (x :: u) v d (by rw [hsplit]; rfl) (List.cons_ne_nil x u) hv (hone.trans hu)

theorem run_blanks₁ (h : c.Reads s c') (hne : s ≠ []) (hs : ∀ x ∈ s, isBlank x = true)
    (hk : k c' = some m) (hhead : ∀ x ∈ c'.rest.head?, isBlank x = false) :
    blanks₁.run k c = some m := run_some₁ h hne hs hk hhead

/-! ## A way is enough -/

section

variable {i : Nat} {ms ms' : List (Mark × Cursor)} {d : Cursor} {x : Char}

theorem Passes.seq (hp : p.Passes c ms c') (hq : q.Passes c' ms' d) :
    (p ++ q).Passes c (ms ++ ms') d := ⟨ms, c', ms', hp, hq, rfl⟩

theorem Passes.group (h : p.Passes c ms c') :
    (group i p).Passes c ((.opening i, c) :: (ms ++ [(.closing i, c')])) c' := ⟨ms, h, rfl⟩

theorem passes_place {test : Cursor → Bool} (h : test c = true) : (place test).Passes c [] c :=
  ⟨h, rfl, rfl⟩

theorem passes_text (h : c.Reads t c') : (text t).Passes c [] c' := ⟨h, rfl⟩

theorem passes_one (h : c.Reads [x] c') (hx : test x = true) : (one test).Passes c [] c' :=
  ⟨⟨x, hx, h⟩, rfl⟩

theorem passes_many {greedy : Bool} (h : c.Reads s c') (hs : ∀ x ∈ s, test x = true) :
    (many greedy test).Passes c [] c' := ⟨⟨s, List.all_eq_true.2 hs, h⟩, rfl⟩

theorem passes_some₁ (h : c.Reads s c') (hne : s ≠ []) (hs : ∀ x ∈ s, test x = true) :
    (some₁ test).Passes c [] c' := by
  obtain ⟨x, s, rfl⟩ := List.exists_cons_of_ne_nil hne
  obtain ⟨hrest, hreads⟩ := h.uncons
  have hone := Cursor.Reads.one c.offset c.prev x (s ++ c'.rest)
  rw [← hrest] at hone
  exact (passes_one hone (hs x List.mem_cons_self)).seq
    (passes_many hreads fun y hy ↦ hs y (List.mem_cons_of_mem x hy))

end

theorem isSome_prefer {greedy : Bool} {longer shorter : Option Match}
    (h : longer.isSome ∨ shorter.isSome) : (prefer greedy longer shorter).isSome := by
  cases greedy <;> cases longer <;> cases shorter <;> simp_all [prefer]

theorem isSome_runMany {greedy : Bool} (hk : (k c').isSome) :
    ∀ {s : Text} {n : Nat} {prev : Option Char} {rest : Text}, (∀ x ∈ s, test x = true) →
      (Cursor.mk n prev rest).Reads s c' → (runMany greedy test k n prev rest).isSome := by
  intro s
  induction s with
  | nil =>
    intro n prev rest _ h
    obtain rfl := h.eq_of_nil
    cases rest with
    | nil => exact hk
    | cons x r => exact isSome_prefer (Or.inr hk)
  | cons x s ih =>
    intro n prev rest hs h
    obtain ⟨hrest, hreads⟩ := h.uncons
    change rest = _ at hrest
    rw [hrest, runMany]
    refine isSome_prefer (Or.inl ?_)
    rw [if_pos (hs x List.mem_cons_self)]
    exact ih (fun y hy ↦ hs y (List.mem_cons_of_mem x hy)) hreads

/-- **A way through a pattern to a place where the continuation finds something** is enough for a
match, though it need not be the one that is found. -/
theorem isSome_run (p : Pattern) : ∀ {k : Cursor → Option Match} {c c' : Cursor}
    {ms : List (Mark × Cursor)}, p.Passes c ms c' → (k c').isSome → (p.run k c).isSome := by
  induction p with
  | place test => rintro k c c' ms ⟨htest, rfl, -⟩ hk; rwa [run, if_pos htest]
  | text t => rintro k c c' ms ⟨h, -⟩ hk; rwa [run, h.behind?]
  | one test =>
    rintro k c c' ms ⟨⟨x, hx, h⟩, -⟩ hk
    obtain ⟨m, hm⟩ := Option.isSome_iff_exists.1 hk
    rw [run_one h hx hm]
    rfl
  | many greedy test =>
    rintro k c c' ms ⟨⟨t, ht, h⟩, -⟩ hk
    exact isSome_runMany hk (List.all_eq_true.1 ht) h
  | seq p q ihp ihq => rintro k c c' ms ⟨ms₁, b, ms₂, hp, hq, -⟩ hk; exact ihp hp (ihq hq hk)
  | either p q ihp ihq =>
    rintro k c c' ms (h | h) hk
    · rw [run, Option.isSome_or, ihp h hk, Bool.true_or]
    · rw [run, Option.isSome_or, ihq h hk, Bool.or_true]
  | group i p ih =>
    rintro k c c' ms ⟨inner, h, -⟩ hk
    rw [run, Option.isSome_map]
    exact ih h (by rwa [Option.isSome_map])

/-- **A pattern occurs in a text** if there is a way through it from one of the text's places. -/
theorem occursIn_iff : p.occursIn t = true ↔
    ∃ s c, (start t).Reads s c ∧ ∃ ms c', p.Passes c ms c' := by
  rw [occursIn, search_eq, List.findSome?_isSome_iff]
  constructor
  · rintro ⟨c, hc, hm⟩
    obtain ⟨s, hs⟩ := Cursor.mem_places.1 hc
    obtain ⟨m, hm⟩ := Option.isSome_iff_exists.1 hm
    obtain ⟨ms, c', m', hpass, -⟩ := passes_of_run p hm
    exact ⟨s, c, hs, ms, c', hpass⟩
  · rintro ⟨s, c, hs, ms, c', hpass⟩
    exact ⟨c, Cursor.mem_places.2 ⟨s, hs⟩, isSome_run p hpass rfl⟩

theorem isSome_search_of_passes (hs : (start t).Reads s c) {ms : List (Mark × Cursor)}
    (h : p.Passes c ms c') : (p.search t).isSome = true := occursIn_iff.2 ⟨s, c, hs, ms, c', h⟩

/-! ## Searching -/

theorem search_eq_none (h : ∀ s c, (start t).Reads s c → p.matchAt c = none) :
    p.search t = none := by
  rw [search_eq, List.findSome?_eq_none_iff]
  intro c hc
  obtain ⟨s, hs⟩ := Cursor.mem_places.1 hc
  exact h s c hs

/-- What a search finds is a way through the pattern from some place of the text. -/
theorem exists_reads_of_search (h : p.search t = some m) :
    ∃ s c, (start t).Reads s c ∧ p.Passes c m.marks m.stop := by
  rw [search_eq] at h
  obtain ⟨c, hc, hm⟩ := List.exists_of_findSome?_eq_some h
  obtain ⟨s, hs⟩ := Cursor.mem_places.1 hc
  obtain ⟨ms, c', m', hpass, hk, hmarks, hstop⟩ := passes_of_run p hm
  obtain rfl := Option.some_inj.1 hk
  refine ⟨s, c, hs, ?_⟩
  rw [hmarks, hstop]
  simpa [Match.empty] using hpass

/-- The match found is the one at the first place that has any. -/
theorem search_behind (h : (start t).Reads s c)
    (hearlier : ∀ u v d, s = u ++ v → v ≠ [] → (start t).Reads u d → p.matchAt d = none)
    (hm : p.matchAt c = some m) : p.search t = some m := by
  rw [search_eq, Cursor.places]
  change ((Cursor.placesFrom (start t).offset (start t).prev (start t).rest).findSome? _) = _
  revert h hearlier
  generalize start t = b
  induction s generalizing b with
  | nil =>
    intro h _
    obtain rfl := h.eq_of_nil
    obtain ⟨n, prev, rest⟩ := c
    cases rest <;> rw [Cursor.placesFrom, List.findSome?_cons, hm]
  | cons x s ih =>
    intro h hearlier
    obtain ⟨hrest, hreads⟩ := h.uncons
    have hone := Cursor.Reads.one b.offset b.prev x (s ++ c.rest)
    rw [← hrest] at hone
    have hnone := hearlier [] (x :: s) b rfl (List.cons_ne_nil x s) (.refl b)
    obtain ⟨n, prev, rest⟩ := b
    change rest = _ at hrest
    subst hrest
    rw [Cursor.placesFrom, List.findSome?_cons, hnone]
    refine ih _ hreads fun u v d hsplit hv hu ↦ ?_
    exact hearlier (x :: u) v d (by rw [hsplit]; rfl) hv (hone.trans hu)

/-- A match at the first place is the one found. -/
theorem search_of_matchAt (hm : p.matchAt (start t) = some m) : p.search t = some m := by
  refine search_behind (.refl (start t)) (fun u v d hsplit hv _ ↦ ?_) hm
  exact absurd (List.append_eq_nil_iff.1 hsplit.symm).2 hv

/-! ## All matches -/

theorem uncovered_sublist : ∀ (k : Nat) (chart : List (Cursor × Option Match)),
    (uncovered k chart).Sublist chart
  | _, [] => .slnil
  | k + 1, _ :: chart => (uncovered_sublist k chart).cons _
  | 0, (_, _) :: chart => (uncovered_sublist _ chart).cons_cons _

/-- The entries of a chart from a place on that no match reaches over. -/
def uncoveredFrom (p : Pattern) (k n : Nat) (prev : Option Char) (t : Text) :
    List (Cursor × Option Match) :=
  uncovered k ((Cursor.placesFrom n prev t).map fun c ↦ (c, p.matchAt c))

theorem collect_eq (p : Pattern) (t : Text) :
    p.collect t = (p.uncoveredFrom 0 0 none t).filterMap (·.2) := by
  rw [collect, chart_eq, Cursor.places, uncoveredFrom]

/-- An entry is a place of the text with the match there. -/
theorem exists_reads_of_mem_uncoveredFrom {entry : Cursor × Option Match}
    (h : entry ∈ p.uncoveredFrom 0 0 none t) :
    ∃ s, (start t).Reads s entry.1 ∧ p.matchAt entry.1 = entry.2 := by
  obtain ⟨c, hc, rfl⟩ := List.mem_map.1 ((uncovered_sublist _ _).subset h)
  obtain ⟨s, hs⟩ := Cursor.mem_places.1 hc
  exact ⟨s, hs, rfl⟩

/-- What is collected is the match at some place. -/
theorem exists_reads_of_mem_collect (h : m ∈ p.collect t) :
    ∃ s c, (start t).Reads s c ∧ p.matchAt c = some m := by
  rw [collect_eq] at h
  obtain ⟨entry, hentry, hm⟩ := List.mem_filterMap.1 h
  obtain ⟨s, hs, hmatch⟩ := exists_reads_of_mem_uncoveredFrom hentry
  exact ⟨s, entry.1, hs, hmatch.trans hm⟩

theorem uncoveredFrom_cons (n : Nat) (prev : Option Char) (x : Char) (t : Text) :
    p.uncoveredFrom 0 n prev (x :: t) =
      (⟨n, prev, x :: t⟩, p.matchAt ⟨n, prev, x :: t⟩) ::
        p.uncoveredFrom ((p.matchAt ⟨n, prev, x :: t⟩).elim 0 fun m ↦ m.stop.offset - n - 1)
          (n + 1) (some x) t := rfl

/-- A place stays unless it is one of the first ones, which are covered already, or a match that
stays begins before it and reaches over it. -/
theorem mem_uncoveredFrom (t : Text) : ∀ (k n : Nat) (prev : Option Char),
    ∀ c ∈ Cursor.placesFrom n prev t, n + k ≤ c.offset →
      (c, p.matchAt c) ∈ p.uncoveredFrom k n prev t ∨
      ∃ c' m, (c', some m) ∈ p.uncoveredFrom k n prev t ∧
        c'.offset < c.offset ∧ c.offset < m.stop.offset := by
  induction t with
  | nil =>
    intro k n prev c hc hk
    obtain rfl := List.mem_singleton.1 hc
    obtain rfl : k = 0 := by simp only at hk; omega
    exact .inl List.mem_cons_self
  | cons x t ih =>
    intro k n prev c hc hk
    rcases List.mem_cons.1 hc with rfl | hc
    · obtain rfl : k = 0 := by simp only at hk; omega
      exact .inl List.mem_cons_self
    cases k with
    | succ k => exact ih k (n + 1) (some x) c hc (by omega)
    | zero =>
      obtain ⟨s, hs⟩ := (Cursor.mem_placesFrom t (n + 1) (some x)).1 hc
      have hbehind : c.offset = n + 1 + s.length := hs.offset
      rw [uncoveredFrom_cons]
      by_cases hleft : n + 1 + (p.matchAt ⟨n, prev, x :: t⟩).elim 0
          (fun m ↦ m.stop.offset - n - 1) ≤ c.offset
      · refine (ih _ (n + 1) (some x) c hc hleft).imp (List.mem_cons_of_mem _) ?_
        rintro ⟨c', m, hmem, hover⟩
        exact ⟨c', m, List.mem_cons_of_mem _ hmem, hover⟩
      · cases hm : p.matchAt ⟨n, prev, x :: t⟩ with
        | none =>
          rw [hm, Option.elim_none] at hleft
          omega
        | some m =>
          rw [hm, Option.elim_some] at hleft
          exact .inr ⟨_, m, List.mem_cons_self, by simp only; omega, by omega⟩

/-- **A match is collected** unless one that is collected begins before it and reaches over the
place where it begins. -/
theorem mem_collect (hs : (start t).Reads s c) (hm : p.matchAt c = some m) :
    m ∈ p.collect t ∨ ∃ m' s' c', m' ∈ p.collect t ∧ (start t).Reads s' c' ∧
      p.matchAt c' = some m' ∧ c'.offset < c.offset ∧ c.offset < m'.stop.offset := by
  rw [collect_eq]
  rcases mem_uncoveredFrom (p := p) t 0 0 none c (Cursor.mem_places.2 ⟨s, hs⟩) (Nat.zero_le _)
    with hmem | ⟨c', m', hmem, hover⟩
  · exact .inl (List.mem_filterMap.2 ⟨_, hmem, hm⟩)
  · obtain ⟨s', hs', hm'⟩ := exists_reads_of_mem_uncoveredFrom hmem
    exact .inr ⟨m', s', c', List.mem_filterMap.2 ⟨_, hmem, rfl⟩, hs', hm', hover⟩

end Pattern

end HeaderBindings
