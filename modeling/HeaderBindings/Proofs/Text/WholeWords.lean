import HeaderBindings.Proofs.Text.Finding
import HeaderBindings.Proofs.Text.Words

/-!
# Removing a word

The word `const` is removed from a declarator wherever it stands between other characters than
those of words.  A removal that works on places and charts comes down to a law on texts: a character
that belongs to no word stays, and what is removed before it and behind it has nothing to do with
each other (`removeAll_append_cons`).  So a text is changed exactly in those of its runs that are
the word (`removeAll_of_notMem`), and nothing is ever added to it (`removeAll_sublist`).
-/

set_option autoImplicit false

namespace HeaderBindings

open Cursor (start)

namespace Pattern

/-! ## Removing from a place on -/

/-- What is left of the text behind a place. -/
def removeFrom (p : Pattern) (n : Nat) (prev : Option Char) (t : Text) : Text :=
  (uncovered 0 ((Cursor.placesFrom n prev t).map fun c ↦ (c, p.matchAt c))).flatMap remainder

variable {p : Pattern} {n : Nat} {prev : Option Char}

theorem removeAll_eq (p : Pattern) (t : Text) : p.removeAll t = p.removeFrom 0 none t := by
  rw [removeAll, chart_eq, Cursor.places, removeFrom]

@[simp]
theorem removeFrom_nil : p.removeFrom n prev [] = [] := by
  simp [removeFrom, Cursor.placesFrom, uncovered, remainder]

/-- A character at which no match begins stays. -/
theorem removeFrom_cons {c : Char} {t : Text} (h : p.matchAt ⟨n, prev, c :: t⟩ = none) :
    p.removeFrom n prev (c :: t) = c :: p.removeFrom (n + 1) (some c) t := by
  rw [removeFrom, Cursor.placesFrom, List.map_cons, h, uncovered, List.flatMap_cons]
  rfl

theorem getLast?_cons_or (x : Char) (u : Text) (prev : Option Char) :
    (x :: u).getLast?.or prev = u.getLast?.or (some x) := by
  cases u with
  | nil => rfl
  | cons y u =>
    rw [List.getLast?_cons_cons]
    cases hy : (y :: u).getLast? with
    | none => simp at hy
    | some z => rfl

theorem uncovered_length (u r : Text) : ∀ (n : Nat) (prev : Option Char),
    uncovered u.length ((Cursor.placesFrom n prev (u ++ r)).map fun c ↦ (c, p.matchAt c)) =
      uncovered 0 ((Cursor.placesFrom (n + u.length) (u.getLast?.or prev) r).map
        fun c ↦ (c, p.matchAt c)) := by
  induction u with
  | nil => intro n prev; rfl
  | cons x u ih =>
    intro n prev
    rw [getLast?_cons_or, List.cons_append, Cursor.placesFrom, List.map_cons, List.length_cons,
      uncovered, ih]
    simp only [Nat.add_assoc, Nat.add_comm 1]

/-- A match is passed over as a whole. -/
theorem removeFrom_match {w r : Text} {m : Match} (hw : w ≠ [])
    (h : p.matchAt ⟨n, prev, w ++ r⟩ = some m) (hstop : m.stop.offset = n + w.length) :
    p.removeFrom n prev (w ++ r) = p.removeFrom (n + w.length) (w.getLast?.or prev) r := by
  obtain ⟨x, w, rfl⟩ := List.exists_cons_of_ne_nil hw
  have hskip : m.stop.offset - n - 1 = w.length := by
    rw [hstop, List.length_cons]
    omega
  have hsome : n < m.stop.offset := by
    rw [hstop, List.length_cons]
    omega
  have hlast : (x :: w).getLast?.or prev = w.getLast?.or (some x) := getLast?_cons_or x w prev
  rw [List.cons_append] at h
  rw [removeFrom, List.cons_append, Cursor.placesFrom, List.map_cons, h, uncovered,
    List.flatMap_cons, Option.elim_some, hskip, uncovered_length, hlast]
  simp only [remainder, Option.any_some, hsome, decide_true, if_true, List.nil_append, removeFrom,
    List.length_cons, Nat.add_assoc, Nat.add_comm 1]

end Pattern

/-! ## Induction over the runs of a text -/

/-- A text is a run of word characters, or begins with one that some other character ends. -/
@[elab_as_elim]
theorem Text.wordInduction {motive : Text → Prop}
    (run : ∀ u : Text, (∀ c ∈ u, isWordChar c = true) → motive u)
    (runAnd : ∀ (u : Text) (x : Char) (t : Text), (∀ c ∈ u, isWordChar c = true) →
      isWordChar x = false → motive t → motive (u ++ x :: t)) (t : Text) : motive t := by
  have hruns : ∀ u : Text, (∀ c ∈ u, isWordChar c = true) → motive (u ++ t) := by
    induction t with
    | nil => simpa using run
    | cons c t ih =>
      intro u hu
      cases hc : isWordChar c with
      | true =>
        have hmore := ih (u ++ [c]) (by simpa [or_imp, forall_and, hc] using hu)
        rwa [List.append_assoc] at hmore
      | false => exact runAnd u c t hu hc (ih [] (by simp))
  exact hruns [] (by simp)

namespace Pattern

/-! ## Whole words -/

/-- A whole word. -/
def wholeWord (w : Text) : Pattern := .wordBoundary ++ .text w ++ .wordBoundary

/-- A run of word characters without the word. -/
def runWithout (w u : Text) : Text := if u = w then [] else u

variable {w u t : Text} {n : Nat} {prev : Option Char}

theorem matchAt_wholeWord (w : Text) (c : Cursor) : (wholeWord w).matchAt c =
    if c.atWordBoundary then (c.behind? w).bind fun c' ↦
      if c'.atWordBoundary then some (.empty c') else none
    else none := rfl

/-- Within a run no match begins. -/
theorem removeFrom_inside (hu : ∀ c ∈ u, isWordChar c = true) {x : Char}
    (hx : isWordChar x = true) (r : Text) : ∃ n' prev',
      (wholeWord w).removeFrom n (some x) (u ++ r) = u ++ (wholeWord w).removeFrom n' prev' r := by
  induction u generalizing n x with
  | nil => exact ⟨n, some x, rfl⟩
  | cons c u ih =>
    have hc := hu c List.mem_cons_self
    have hnone : (wholeWord w).matchAt ⟨n, some x, c :: (u ++ r)⟩ = none := by
      simp [matchAt_wholeWord, Cursor.atWordBoundary, hx, hc]
    obtain ⟨n', prev', h⟩ := ih (n := n + 1) (fun y hy ↦ hu y (List.mem_cons_of_mem c hy)) hc
    exact ⟨n', prev', by rw [List.cons_append, removeFrom_cons hnone, h, List.cons_append]⟩

section

variable (hne : w ≠ []) (hw : ∀ c ∈ w, isWordChar c = true)

include hne hw

/-- A run that is not the word does not begin with a match. -/
theorem matchAt_eq_none (hu : ∀ c ∈ u, isWordChar c = true) (heq : u ≠ w) {r : Text}
    (hr : ∀ c ∈ r.head?, isWordChar c = false) (n : Nat) (prev : Option Char) :
    (wholeWord w).matchAt ⟨n, prev, u ++ r⟩ = none := by
  have hwithin : ∀ c', (Cursor.mk n prev (u ++ r)).behind? w = some c' →
      c'.atWordBoundary = false := by
    intro c' hc'
    have hread := Cursor.reads_of_behind? hc'
    have hlast := hw _ (List.getLast_mem hne)
    rw [← Bool.not_eq_true, Cursor.atWordBoundary, hread.prev, List.getLast?_eq_some_getLast hne]
    intro hback
    refine heq (Text.eq_of_append_eq hread.rest hu hw hr fun c hc ↦ ?_)
    simpa [hlast, Option.mem_def.1 hc] using hback
  rw [matchAt_wholeWord, ite_eq_right_iff]
  intro _
  rw [Option.bind_eq_none_iff]
  intro c' hc'
  rw [hwithin c' hc']
  rfl

/-- A run of word characters goes as a whole or stays as a whole. -/
theorem removeFrom_run (hu : ∀ c ∈ u, isWordChar c = true)
    (hprev : ∀ c ∈ prev, isWordChar c = false)
    {r : Text} (hr : ∀ c ∈ r.head?, isWordChar c = false) : ∃ n' prev',
      (wholeWord w).removeFrom n prev (u ++ r) =
        runWithout w u ++ (wholeWord w).removeFrom n' prev' r := by
  by_cases heq : u = w
  · subst heq
    obtain ⟨c', hread, hrest⟩ := Cursor.exists_reads (c := ⟨n, prev, u ++ r⟩) rfl
    have hfront : (Cursor.mk n prev (u ++ r)).atWordBoundary = true := by
      obtain ⟨x, u, rfl⟩ := List.exists_cons_of_ne_nil hne
      have hx := hu x List.mem_cons_self
      cases prev with
      | none => simp [Cursor.atWordBoundary, hx]
      | some y => simp [Cursor.atWordBoundary, hx, hprev y rfl]
    have hback := hread.atWordBoundary hne hu (by rwa [hrest])
    have hmatch : (wholeWord u).matchAt ⟨n, prev, u ++ r⟩ = some (.empty c') := by
      simp [matchAt_wholeWord, hfront, hread.behind?, hback]
    refine ⟨n + u.length, u.getLast?.or prev, ?_⟩
    rw [removeFrom_match hne hmatch hread.offset, runWithout, if_pos rfl, List.nil_append]
  · rw [runWithout, if_neg heq]
    cases u with
    | nil => exact ⟨n, prev, rfl⟩
    | cons x u =>
      have hnone := matchAt_eq_none hne hw hu heq hr n prev
      have hx := hu x List.mem_cons_self
      obtain ⟨n', prev', h⟩ := removeFrom_inside (w := w) (n := n + 1)
        (fun c hc ↦ hu c (List.mem_cons_of_mem x hc)) hx r
      rw [List.cons_append] at hnone
      exact ⟨n', prev', by rw [List.cons_append, removeFrom_cons hnone, h, List.cons_append]⟩

theorem removeAll_run_append (hu : ∀ c ∈ u, isWordChar c = true) {r : Text}
    (hr : ∀ c ∈ r.head?, isWordChar c = false) : ∃ n' prev',
      (wholeWord w).removeAll (u ++ r) =
        runWithout w u ++ (wholeWord w).removeFrom n' prev' r := by
  rw [removeAll_eq]
  exact removeFrom_run hne hw hu (by simp) hr

/-- A character that belongs to no word stays. -/
theorem removeFrom_separator {x : Char} (hx : isWordChar x = false) (r : Text) :
    (wholeWord w).removeFrom n prev (x :: r) =
      x :: (wholeWord w).removeFrom (n + 1) (some x) r := by
  refine removeFrom_cons ?_
  obtain ⟨y, w, rfl⟩ := List.exists_cons_of_ne_nil hne
  have hxy : x ≠ y := by
    rintro rfl
    exact absurd ((hw x List.mem_cons_self).symm.trans hx) (by simp)
  simp [matchAt_wholeWord, Cursor.behind?, hxy]

/-- What is left of a text does not depend on what no word character stood before it. -/
theorem removeFrom_eq (t : Text) : ∀ (n : Nat) {prev : Option Char},
    (∀ c ∈ prev, isWordChar c = false) → (wholeWord w).removeFrom n prev t =
      (wholeWord w).removeAll t := by
  induction t using Text.wordInduction with
  | run u hu =>
    intro n prev hprev
    obtain ⟨n₁, prev₁, h₁⟩ := removeFrom_run hne hw hu hprev (n := n) (r := []) (by simp)
    obtain ⟨n₂, prev₂, h₂⟩ := removeAll_run_append hne hw hu (r := []) (by simp)
    rw [List.append_nil, removeFrom_nil] at h₁ h₂
    rw [h₁, h₂]
  | runAnd u x t hu hx ih =>
    intro n prev hprev
    have hr : ∀ c ∈ (x :: t).head?, isWordChar c = false := by simpa using hx
    obtain ⟨n₁, prev₁, h₁⟩ := removeFrom_run hne hw hu hprev (n := n) hr
    obtain ⟨n₂, prev₂, h₂⟩ := removeAll_run_append hne hw hu hr
    rw [removeFrom_separator hne hw hx, ih _ (by simpa using hx)] at h₁ h₂
    rw [h₁, h₂]

theorem removeAll_run (hu : ∀ c ∈ u, isWordChar c = true) :
    (wholeWord w).removeAll u = runWithout w u := by
  obtain ⟨n', prev', h⟩ := removeAll_run_append hne hw hu (r := []) (by simp)
  rw [List.append_nil, removeFrom_nil, List.append_nil] at h
  exact h

/-- **A character that belongs to no word** stays, and nothing is removed across it. -/
theorem removeAll_append_cons {x : Char} (hx : isWordChar x = false) (s t : Text) :
    (wholeWord w).removeAll (s ++ x :: t) =
      (wholeWord w).removeAll s ++ x :: (wholeWord w).removeAll t := by
  have hrun (u t : Text) (x : Char) (hu : ∀ c ∈ u, isWordChar c = true)
      (hx : isWordChar x = false) : (wholeWord w).removeAll (u ++ x :: t) =
        runWithout w u ++ x :: (wholeWord w).removeAll t := by
    obtain ⟨n', prev', h⟩ := removeAll_run_append hne hw hu (r := x :: t) (by simpa using hx)
    rw [h, removeFrom_separator hne hw hx,
      removeFrom_eq hne hw t _ (by simpa using hx)]
  induction s using Text.wordInduction with
  | run u hu => rw [hrun u t x hu hx, removeAll_run hne hw hu]
  | runAnd u y s hu hy ih =>
    rw [List.append_assoc, List.cons_append, hrun u _ y hu hy, ih, hrun u s y hu hy]
    simp

/-- **The runs of the text** are what they were, without those that are the word. -/
theorem wordRuns_removeAll (t : Text) :
    Text.wordRuns ((wholeWord w).removeAll t) = (Text.wordRuns t).map (runWithout w) := by
  have hrun (u : Text) (hu : ∀ c ∈ u, isWordChar c = true) :
      Text.wordRuns ((wholeWord w).removeAll u) = (Text.wordRuns u).map (runWithout w) := by
    have hwithout : ∀ c ∈ runWithout w u, isWordChar c = true := by
      rw [runWithout]
      split
      · simp
      · exact hu
    rw [removeAll_run hne hw hu, Text.wordRuns_of_forall hu, Text.wordRuns_of_forall hwithout]
    rfl
  induction t using Text.wordInduction with
  | run u hu => exact hrun u hu
  | runAnd u x t hu hx ih =>
    rw [removeAll_append_cons hne hw hx, Text.wordRuns_append_cons hx,
      Text.wordRuns_append_cons hx, ih, List.map_append, hrun u hu]

/-- No word is made by removing another one. -/
theorem mem_wordRuns_of_removeAll (hu : u ≠ [])
    (h : u ∈ Text.wordRuns ((wholeWord w).removeAll t)) : u ∈ Text.wordRuns t := by
  rw [wordRuns_removeAll hne hw] at h
  obtain ⟨run, hrun, heq⟩ := List.mem_map.1 h
  rw [runWithout] at heq
  split at heq
  · exact absurd heq.symm hu
  · exact heq ▸ hrun

/-- **A text without the word** is left alone. -/
theorem removeAll_of_notMem (h : w ∉ Text.wordRuns t) : (wholeWord w).removeAll t = t := by
  induction t using Text.wordInduction with
  | run u hu =>
    rw [Text.wordRuns_of_forall hu, List.mem_singleton] at h
    rw [removeAll_run hne hw hu, runWithout, if_neg (Ne.symm h)]
  | runAnd u x t hu hx ih =>
    rw [Text.wordRuns_append_cons hx, Text.wordRuns_of_forall hu, List.mem_append,
      List.mem_singleton, not_or] at h
    rw [removeAll_append_cons hne hw hx, ih h.2, removeAll_run hne hw hu, runWithout,
      if_neg (Ne.symm h.1)]

/-- Only characters of the text are left. -/
theorem removeAll_sublist (t : Text) : ((wholeWord w).removeAll t).Sublist t := by
  have hrun (u : Text) (hu : ∀ c ∈ u, isWordChar c = true) :
      ((wholeWord w).removeAll u).Sublist u := by
    rw [removeAll_run hne hw hu, runWithout]
    split
    · exact List.nil_sublist u
    · exact List.Sublist.refl u
  induction t using Text.wordInduction with
  | run u hu => exact hrun u hu
  | runAnd u x t hu hx ih =>
    rw [removeAll_append_cons hne hw hx]
    exact (hrun u hu).append (ih.cons_cons x)

end

end Pattern

end HeaderBindings
