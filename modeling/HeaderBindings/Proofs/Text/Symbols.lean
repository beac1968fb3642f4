import HeaderBindings.Proofs.Text.Words

/-!
# Words and marks

What a declaration says depends on its words and on the other characters between them, and only here
and there on whether blanks stand between two of them.

* `Text.Apart`: no word goes on from one text into another one.
* `Text.symbols`: the words and the other characters of a text, without its blanks.  Texts that are
  apart have their symbols one after the other, with blanks between them or not (`symbols_seam`).
* `Text.exists_of_symbols_eq_cons`: the first symbol is found in the text, behind blanks.
-/

set_option autoImplicit false

namespace HeaderBindings

/-! ## Blanks between two texts -/

/-- No word goes on from the first text into the second one. -/
abbrev Text.Apart (u v : Text) : Prop :=
  (u.getLast?.any isWordChar && v.head?.any isWordChar) = false

/-- Blanks that may stand between two texts.  That there are none at all is subject to a
condition. -/
structure IsSeam (loose : Prop) (m : Text) : Prop where
  blank : ∀ c ∈ m, isBlank c = true
  loose : m = [] → loose

theorem isSeam_iff {loose : Prop} {m : Text} :
    IsSeam loose m ↔ m.all isBlank = true ∧ (m = [] → loose) := by
  constructor
  · rintro ⟨hblank, hloose⟩
    exact ⟨List.all_eq_true.2 hblank, hloose⟩
  · rintro ⟨hblank, hloose⟩
    exact ⟨List.all_eq_true.1 hblank, hloose⟩

instance (loose : Prop) [Decidable loose] (m : Text) : Decidable (IsSeam loose m) :=
  decidable_of_iff _ isSeam_iff.symm

theorem isSeam_singleton (loose : Prop) : IsSeam loose [' '] :=
  ⟨by simp; decide, fun h ↦ absurd h (by simp)⟩

/-- **A character that is no blank** stands on one side of a seam. -/
theorem IsSeam.cases {p : Prop} {s r u m v : Text} {k : Char} (hm : IsSeam p m)
    (h : s ++ k :: r = u ++ m ++ v) (hk : isBlank k = false) :
    (∃ d, u = s ++ k :: d ∧ r = d ++ m ++ v) ∨ ∃ d, s = u ++ m ++ d ∧ v = d ++ k :: r := by
  rw [List.append_assoc] at h
  rcases List.append_eq_append_iff.1 h with ⟨e, rfl, hrest⟩ | ⟨e, rfl, hrest⟩
  · cases e with
    | cons x e =>
      obtain ⟨rfl, rfl⟩ := List.cons.inj hrest
      exact Or.inl ⟨e, rfl, by simp⟩
    | nil =>
      -- Both begin behind `s`, so the seam is empty.
      cases m with
      | nil => exact Or.inr ⟨[], by simp, by simpa using hrest.symm⟩
      | cons y m =>
        obtain ⟨rfl, -⟩ := List.cons.inj hrest
        exact absurd ((hm.blank k List.mem_cons_self).symm.trans hk) (by simp)
  · rcases List.append_eq_append_iff.1 hrest with ⟨d, rfl, hd⟩ | ⟨d, rfl, hd⟩
    · exact Or.inr ⟨d, by simp, hd⟩
    · cases d with
      | nil => exact Or.inr ⟨[], by simp, by simpa using hd.symm⟩
      | cons y d =>
        obtain ⟨rfl, -⟩ := List.cons.inj hd
        exact absurd ((hm.blank k (by simp)).symm.trans hk) (by simp)

theorem IsSeam.imp {p q : Prop} {m : Text} (h : IsSeam p m) (hpq : p → q) : IsSeam q m :=
  ⟨h.blank, fun hm ↦ hpq (h.loose hm)⟩

namespace Text

variable {u v m : Text}

theorem apart_nil_left (v : Text) : Apart [] v := rfl

theorem apart_of_head? (h : ∀ c ∈ v.head?, isWordChar c = false) : Apart u v := by
  cases hv : v.head? with
  | none => simp [Apart, hv]
  | some c => simp [Apart, hv, h c hv]

theorem apart_of_getLast? (h : ∀ c ∈ u.getLast?, isWordChar c = false) : Apart u v := by
  cases hu : u.getLast? with
  | none => simp [Apart, hu]
  | some c => simp [Apart, hu, h c hu]

theorem Apart.cases (h : Apart u v) :
    (∀ c ∈ u.getLast?, isWordChar c = false) ∨ ∀ c ∈ v.head?, isWordChar c = false := by
  rw [Apart, Bool.and_eq_false_iff] at h
  rcases h with h | h
  · exact Or.inl fun c hc ↦ by simpa [Option.mem_def.1 hc] using h
  · exact Or.inr fun c hc ↦ by simpa [Option.mem_def.1 hc] using h

/-- A word that begins in front of a seam ends there, too, if no word goes on behind it. -/
theorem exists_behind_word {w r : Text} (hm : IsSeam (Apart u v) m) (hu : u ≠ [])
    (hw : ∀ c ∈ w, isWordChar c = true) (h : w ++ r = u ++ m ++ v) :
    ∃ e, u = w ++ e ∧ r = e ++ m ++ v := by
  rw [List.append_assoc] at h
  rcases List.append_eq_append_iff.1 h with ⟨e, rfl, hr⟩ | ⟨e, rfl, hr⟩
  · exact ⟨e, rfl, by simpa using hr⟩
  cases e with
  | nil => exact ⟨[], by simp, by simpa using hr.symm⟩
  | cons y e =>
    -- The word would go on behind `u`, where a blank stands or a word ends.
    have hy := hw y (by simp)
    cases m with
    | cons z m =>
      obtain ⟨rfl, -⟩ := List.cons.inj hr
      have hblank := isWordChar_of_isBlank (hm.blank _ List.mem_cons_self)
      exact absurd (hblank.symm.trans hy) (by simp)
    | nil =>
      rw [List.nil_append] at hr
      rcases (hm.loose rfl).cases with hlast | hhead
      · have hmem := hw _ (List.mem_append_left _ (List.getLast_mem hu))
        exact absurd ((hlast _ (List.getLast?_eq_some_getLast hu)).symm.trans hmem) (by simp)
      · exact absurd ((hhead y (by rw [hr]; rfl)).symm.trans hy) (by simp)

/-- Less of the first text is apart from the second one, too. -/
theorem Apart.of_suffix {s : Text} (h : Apart (s ++ u) v) : Apart u v := by
  rcases h.cases with hu | hv
  · refine apart_of_getLast? fun c hc ↦ hu c ?_
    rw [List.getLast?_append, Option.mem_def.1 hc]
    rfl
  · exact apart_of_head? hv

/-- Less of the second text is apart from the first one, too. -/
theorem Apart.of_prefix {s : Text} (h : Apart u (v ++ s)) : Apart u v := by
  rcases h.cases with hu | hv
  · exact apart_of_getLast? hu
  · refine apart_of_head? fun c hc ↦ hv c ?_
    rw [List.head?_append, Option.mem_def.1 hc]
    rfl

theorem apart_of_blanks_right (hm : ∀ c ∈ m, HeaderBindings.isBlank c = true) : Apart u m :=
  apart_of_head? fun c hc ↦ isWordChar_of_isBlank (hm c (List.mem_of_head? hc))

theorem apart_of_blanks_left (hm : ∀ c ∈ m, HeaderBindings.isBlank c = true) : Apart m v :=
  apart_of_getLast? fun c hc ↦ isWordChar_of_isBlank (hm c (List.mem_of_getLast? hc))

/-! ## Symbols -/

/-- The words of a text and its other characters, without the blanks. -/
def symbols : Text → List Text
  | [] => []
  | c :: t =>
    if HeaderBindings.isBlank c then symbols t
    else if isWordChar c && t.head?.any isWordChar then
      match symbols t with
      | w :: ws => (c :: w) :: ws
      | [] => [[c]]
    else [c] :: symbols t

theorem symbols_cons_of_isBlank {c : Char} (hc : HeaderBindings.isBlank c = true) (t : Text) :
    symbols (c :: t) = symbols t := by rw [symbols, if_pos hc]

theorem symbols_cons_of_apart {c : Char} (hc : HeaderBindings.isBlank c = false) {t : Text}
    (h : Apart [c] t) : symbols (c :: t) = [c] :: symbols t := by
  rw [symbols, if_neg (by simp [hc]), if_neg]
  rw [Bool.not_eq_true]
  exact h

/-- A word character in front of another one belongs to the same word. -/
theorem symbols_cons_cons {c d : Char} (hc : isWordChar c = true) (hd : isWordChar d = true)
    {t w : Text} {ws : List Text} (h : symbols (d :: t) = w :: ws) :
    symbols (c :: d :: t) = (c :: w) :: ws := by
  have hblank : HeaderBindings.isBlank c = false := Bool.eq_false_iff.2 fun hblank ↦
    absurd ((isWordChar_of_isBlank hblank).symm.trans hc) (by simp)
  rw [symbols, if_neg (by simp [hblank]), if_pos (by simp [hc, hd]), h]

/-- Text that begins with a word character has a symbol. -/
theorem exists_symbols_eq_cons {c : Char} (hc : isWordChar c = true) (t : Text) :
    ∃ w ws, symbols (c :: t) = w :: ws := by
  have hblank : HeaderBindings.isBlank c = false := Bool.eq_false_iff.2 fun hblank ↦
    absurd ((isWordChar_of_isBlank hblank).symm.trans hc) (by simp)
  rw [symbols, if_neg (by simp [hblank])]
  split
  · split <;> exact ⟨_, _, rfl⟩
  · exact ⟨_, _, rfl⟩

theorem symbols_of_blanks (hm : ∀ c ∈ m, HeaderBindings.isBlank c = true) : symbols m = [] := by
  induction m with
  | nil => rfl
  | cons c m ih =>
    rw [symbols_cons_of_isBlank (hm c List.mem_cons_self)]
    exact ih fun x hx ↦ hm x (List.mem_cons_of_mem c hx)

/-- **Texts that are apart have their symbols one after the other.** -/
theorem symbols_append (h : Apart u v) : symbols (u ++ v) = symbols u ++ symbols v := by
  induction u with
  | nil => rfl
  | cons c u ih =>
    have hmore := ih (Apart.of_suffix (s := [c]) h)
    rw [List.cons_append]
    by_cases hblank : HeaderBindings.isBlank c = true
    · rw [symbols_cons_of_isBlank hblank, symbols_cons_of_isBlank hblank, hmore]
    rw [Bool.not_eq_true] at hblank
    by_cases happ : Apart [c] u
    · have happ' : Apart [c] (u ++ v) := by
        cases u with
        | nil => exact h
        | cons d u => exact happ
      rw [symbols_cons_of_apart hblank happ, symbols_cons_of_apart hblank happ', hmore]
      rfl
    · cases u with
      | nil => exact absurd (by simp [Apart]) happ
      | cons d u =>
        obtain ⟨hc, hd⟩ : isWordChar c = true ∧ isWordChar d = true := by
          simpa [Apart] using happ
        obtain ⟨w, ws, hw⟩ := exists_symbols_eq_cons hd u
        rw [symbols_cons_cons hc hd hw]
        rw [hw, List.cons_append] at hmore
        exact symbols_cons_cons hc hd hmore

/-- Blanks in between change nothing. -/
theorem symbols_seam (hm : IsSeam (Apart u v) m) :
    symbols (u ++ m ++ v) = symbols u ++ symbols v := by
  cases m with
  | nil =>
    rw [List.append_nil]
    exact symbols_append (hm.loose rfl)
  | cons c m =>
    have hlast : ∀ x ∈ (u ++ c :: m).getLast?, isWordChar x = false := by
      intro x hx
      rw [List.getLast?_append, List.getLast?_cons, Option.some_or] at hx
      refine isWordChar_of_isBlank (hm.blank x (List.mem_of_getLast? ?_))
      rw [List.getLast?_cons]
      exact hx
    rw [symbols_append (apart_of_getLast? hlast),
      symbols_append (apart_of_blanks_right hm.blank), symbols_of_blanks hm.blank, List.append_nil]

theorem symbols_blanks_append {b : Text} (hb : ∀ c ∈ b, HeaderBindings.isBlank c = true)
    (t : Text) : symbols (b ++ t) = symbols t := by
  rw [symbols_append (apart_of_blanks_left hb), symbols_of_blanks hb, List.nil_append]

theorem symbols_mark {x : Char} (hword : isWordChar x = false)
    (hblank : HeaderBindings.isBlank x = false) (t : Text) :
    symbols (x :: t) = [x] :: symbols t :=
  symbols_cons_of_apart hblank (by simp [Apart, hword])

/-- A word is one symbol. -/
theorem symbols_of_forall {w : Text} (hne : w ≠ []) (hw : ∀ c ∈ w, isWordChar c = true) :
    symbols w = [w] := by
  induction w with
  | nil => exact absurd rfl hne
  | cons c w ih =>
    have hc := hw c List.mem_cons_self
    cases w with
    | nil =>
      have hblank : HeaderBindings.isBlank c = false := Bool.eq_false_iff.2 fun hblank ↦
        absurd ((isWordChar_of_isBlank hblank).symm.trans hc) (by simp)
      exact symbols_cons_of_apart hblank (by simp [Apart])
    | cons d w =>
      have hmore := ih (List.cons_ne_nil d w) fun x hx ↦ hw x (List.mem_cons_of_mem c hx)
      exact symbols_cons_cons hc (hw d (by simp)) hmore

/-- A word of at least one character. -/
def IsWord (w : Text) : Prop := w ≠ [] ∧ ∀ c ∈ w, isWordChar c = true

/-- A word does not begin with a blank. -/
theorem IsWord.isBlank_head? {w : Text} (h : IsWord w) (t : Text) :
    ∀ c ∈ (w ++ t).head?, HeaderBindings.isBlank c = false := by
  obtain ⟨x, w, rfl⟩ := List.exists_cons_of_ne_nil h.1
  intro c hc
  obtain rfl : x = c := by simpa using hc
  refine Bool.eq_false_iff.2 fun hblank ↦ ?_
  exact absurd (h.2 x List.mem_cons_self) (by simp [isWordChar_of_isBlank hblank])

theorem IsWord.symbols_append {w t : Text} (hw : IsWord w) (h : Apart w t) :
    symbols (w ++ t) = w :: symbols t := by
  rw [Text.symbols_append h, symbols_of_forall hw.1 hw.2]
  rfl

theorem apart_of_blanks_append {b : Text} (hb : ∀ c ∈ b, HeaderBindings.isBlank c = true)
    (hne : b ≠ []) (t : Text) : Apart u (b ++ t) := by
  obtain ⟨c, b, rfl⟩ := List.exists_cons_of_ne_nil hne
  refine apart_of_head? fun x hx ↦ ?_
  obtain rfl : c = x := by simpa using hx
  exact isWordChar_of_isBlank (hb c List.mem_cons_self)

/-- Two words need blanks between them. -/
theorem IsWord.ne_nil_of_apart {w w' b : Text} (hw : IsWord w) (hw' : IsWord w') {t : Text}
    (h : Apart w (b ++ w' ++ t)) : b ≠ [] := by
  rintro rfl
  obtain ⟨c, w', rfl⟩ := List.exists_cons_of_ne_nil hw'.1
  have hlast := hw.2 _ (List.getLast_mem hw.1)
  simp [Apart, List.getLast?_eq_some_getLast hw.1, hlast, hw'.2 c List.mem_cons_self] at h

/-- Without symbols there are only blanks. -/
theorem isBlank_of_symbols_eq_nil {t : Text} (h : symbols t = []) :
    ∀ c ∈ t, HeaderBindings.isBlank c = true := by
  induction t with
  | nil => simp
  | cons c t ih =>
    by_cases hblank : HeaderBindings.isBlank c = true
    · rw [symbols_cons_of_isBlank hblank] at h
      exact List.forall_mem_cons.2 ⟨hblank, ih h⟩
    · rw [symbols, if_neg hblank] at h
      split at h
      · split at h <;> exact absurd h (by simp)
      · exact absurd h (by simp)

/-- **The first symbol** stands behind blanks, and what follows is apart from it. -/
theorem exists_of_symbols_eq_cons {t w : Text} {ws : List Text} (h : symbols t = w :: ws) :
    ∃ b r, t = b ++ w ++ r ∧ (∀ c ∈ b, HeaderBindings.isBlank c = true) ∧ w ≠ [] ∧ Apart w r ∧
      symbols r = ws := by
  induction t generalizing w with
  | nil => exact absurd h (by simp [symbols])
  | cons c t ih =>
    by_cases hblank : HeaderBindings.isBlank c = true
    · rw [symbols_cons_of_isBlank hblank] at h
      obtain ⟨b, r, rfl, hb, hrest⟩ := ih h
      exact ⟨c :: b, r, rfl, List.forall_mem_cons.2 ⟨hblank, hb⟩, hrest⟩
    rw [Bool.not_eq_true] at hblank
    by_cases happ : Apart [c] t
    · rw [symbols_cons_of_apart hblank happ] at h
      obtain ⟨rfl, rfl⟩ := List.cons.inj h
      exact ⟨[], t, rfl, by simp, by simp, happ, rfl⟩
    · cases t with
      | nil => exact absurd (by simp [Apart]) happ
      | cons d t =>
        obtain ⟨hc, hd⟩ : isWordChar c = true ∧ isWordChar d = true := by
          simpa [Apart] using happ
        obtain ⟨w', ws', hw'⟩ := exists_symbols_eq_cons hd t
        rw [symbols_cons_cons hc hd hw'] at h
        obtain ⟨rfl, rfl⟩ := List.cons.inj h
        obtain ⟨b, r, hsplit, hb, hne, happ', hr⟩ := ih hw'
        cases b with
        | cons x b =>
          obtain ⟨rfl, -⟩ := List.cons.inj hsplit
          exact absurd ((isWordChar_of_isBlank (hb d (by simp))).symm.trans hd) (by simp)
        | nil =>
          refine ⟨[], r, by rw [hsplit]; rfl, by simp, by simp, ?_, hr⟩
          obtain ⟨y, w', rfl⟩ := List.exists_cons_of_ne_nil hne
          simpa [Apart, List.getLast?_cons_cons] using happ'

end Text

end HeaderBindings
