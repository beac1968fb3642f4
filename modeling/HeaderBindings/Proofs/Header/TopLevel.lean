import HeaderBindings.Proofs.Header.Written

/-!
# Lists outside of parentheses

A list of parameters or of fields is cut at the separators that stand outside of parentheses.
Whether one does depends on all the text in front of it, of which `depthBehind` counts the
parentheses that are open.  A parenthesis that closes none is not counted, so every text has a
depth, balanced or not.

Two equations say what the pieces of a text are.

* `splitTopLevel_of_isWhole`: a text in which no separator stands outside of parentheses is its own
  piece.
* `splitTopLevel_append_separator`: at a separator outside of parentheses the text is cut, and what
  stands on either side of it is cut as if it stood alone.

They are made for induction over the first such separator of a text, `separatorInduction`, and from
them follows `splitTopLevel_exact`.  The pieces make up the text, the places between them are the
separators outside of parentheses and no others, and no piece can be cut again; and there is only
one list of pieces of which all this holds.
-/

set_option autoImplicit false

namespace HeaderBindings

/-! ## The depth of a place -/

/-- How many parentheses are open behind a text. -/
def depthBehind : Nat → Text → Nat
  | depth, [] => depth
  | depth, c :: t =>
    if c = '(' then depthBehind (depth + 1) t
    else if c = ')' then depthBehind (depth - 1) t
    else depthBehind depth t

theorem depthBehind_append (depth : Nat) (a b : Text) :
    depthBehind depth (a ++ b) = depthBehind (depthBehind depth a) b := by
  induction a generalizing depth with
  | nil => rfl
  | cons c a ih =>
    rw [List.cons_append, depthBehind, depthBehind]
    split_ifs <;> exact ih _

/-- No separator of the text stands outside of parentheses. -/
def IsWhole (sep : Char) (t : Text) : Prop := ∀ u v, t = u ++ sep :: v → depthBehind 0 u ≠ 0

/-- Between two of the pieces, what they make up is cut into the given texts. -/
def IsCut (sep : Char) (pieces : List Text) (before after : Text) : Prop :=
  ∃ ps qs, ps ≠ [] ∧ qs ≠ [] ∧ pieces = ps ++ qs ∧
    Text.joinWith [sep] ps = before ∧ Text.joinWith [sep] qs = after

/-- The pieces of a text between the separators outside of parentheses. -/
structure IsSplit (sep : Char) (t : Text) (pieces : List Text) : Prop where
  /-- There is at least one piece, which is empty if the text is. -/
  ne_nil : pieces ≠ []
  /-- Nothing of the text is lost. -/
  joined : Text.joinWith [sep] pieces = t
  /-- The text is cut at each separator in front of which no parenthesis is open, and nowhere
  else. -/
  isCut_iff : ∀ before after, IsCut sep pieces before after ↔
    t = before ++ sep :: after ∧ depthBehind 0 before = 0
  /-- No piece holds another such separator. -/
  whole : ∀ piece ∈ pieces, IsWhole sep piece

/-- **The first separator** outside of parentheses, if there is one. -/
theorem exists_first_separator {sep : Char} {t : Text} (h : ¬IsWhole sep t) :
    ∃ u v, t = u ++ sep :: v ∧ IsWhole sep u ∧ depthBehind 0 u = 0 := by
  obtain ⟨u, v, ht, hdepth⟩ : ∃ u v, t = u ++ sep :: v ∧ depthBehind 0 u = 0 := by
    simpa [IsWhole] using h
  by_cases hu : IsWhole sep u
  · exact ⟨u, v, ht, hu, hdepth⟩
  · -- It is not the first one: another one stands in the text in front of it.
    obtain ⟨first, more, hmore, hfirst⟩ := exists_first_separator hu
    exact ⟨first, more ++ sep :: v, by rw [ht, hmore]; simp, hfirst⟩
termination_by t.length
decreasing_by
  rw [ht, List.length_append, List.length_cons]
  omega

/-- **Induction over the separators** outside of parentheses: what holds of a text without one, and
of a text in front of another that it holds of, holds of every text. -/
@[elab_as_elim]
theorem separatorInduction (sep : Char) {motive : Text → Prop}
    (whole : ∀ t, IsWhole sep t → motive t)
    (cut : ∀ u v, IsWhole sep u → depthBehind 0 u = 0 → motive v → motive (u ++ sep :: v))
    (t : Text) : motive t := by
  by_cases h : IsWhole sep t
  · exact whole t h
  · obtain ⟨u, v, ht, hu, hdepth⟩ := exists_first_separator h
    rw [ht]
    exact cut u v hu hdepth (separatorInduction sep whole cut v)
termination_by t.length
decreasing_by
  rw [ht, List.length_append, List.length_cons]
  omega

section

variable {sep : Char} {t : Text}

/-! ## Where a text is cut -/

/-- The last piece of a text goes on in the text behind it. -/
theorem splitAtDepth_append_cases (sep : Char) (a : Text) : ∀ depth, ∃ ps x,
    splitAtDepth sep depth a = ps ++ [x] ∧ ∀ t, splitAtDepth sep depth (a ++ t) =
      ps ++ growBy x (splitAtDepth sep (depthBehind depth a) t) := by
  induction a with
  | nil =>
    intro depth
    refine ⟨[], [], rfl, fun t ↦ ?_⟩
    obtain ⟨piece, pieces, h⟩ := List.exists_cons_of_ne_nil (splitAtDepth_ne_nil sep depth t)
    rw [depthBehind, List.nil_append, h]
    rfl
  | cons c a ih =>
    intro depth
    have hgrow {depth : Nat} : ∃ ps x,
        splitAtDepth.grow c (splitAtDepth sep depth a) = ps ++ [x] ∧
          ∀ t, splitAtDepth.grow c (splitAtDepth sep depth (a ++ t)) =
            ps ++ growBy x (splitAtDepth sep (depthBehind depth a) t) := by
      obtain ⟨ps, x, ha, hmore⟩ := ih depth
      cases ps with
      | nil =>
        refine ⟨[], c :: x, by rw [ha]; rfl, fun t ↦ ?_⟩
        rw [hmore, List.nil_append, List.nil_append, grow_growBy]
      | cons p ps => exact ⟨(c :: p) :: ps, x, by rw [ha]; rfl, fun t ↦ by rw [hmore]; rfl⟩
    simp only [List.cons_append, splitAtDepth, depthBehind]
    split
    · exact hgrow
    split
    · exact hgrow
    split
    · rename_i hsep
      obtain ⟨ps, x, ha, hmore⟩ := ih 0
      refine ⟨[] :: ps, x, by rw [ha]; rfl, fun t ↦ ?_⟩
      rw [hmore, hsep.2]
      rfl
    · exact hgrow

theorem splitAtDepth_of_forall {depth : Nat}
    (h : ∀ u v, t = u ++ sep :: v → depthBehind depth u ≠ 0) : splitAtDepth sep depth t = [t] := by
  induction t generalizing depth with
  | nil => rfl
  | cons c t ih =>
    have hrest (u v : Text) (ht : t = u ++ sep :: v) : depthBehind depth (c :: u) ≠ 0 :=
      h (c :: u) v (by rw [ht]; rfl)
    rw [splitAtDepth]
    simp only [depthBehind] at hrest
    split_ifs at hrest ⊢ with hopening hclosing hsep
    · rw [ih hrest]; rfl
    · rw [ih hrest]; rfl
    · exact absurd hsep.2 (h [] t (by rw [hsep.1]; rfl))
    · rw [ih hrest]; rfl

/-- A text in which no separator stands outside of parentheses is its own piece. -/
theorem splitTopLevel_of_isWhole (h : IsWhole sep t) : splitTopLevel sep t = [t] :=
  splitAtDepth_of_forall h

theorem splitTopLevel_ne_nil (sep : Char) (t : Text) : splitTopLevel sep t ≠ [] :=
  splitAtDepth_ne_nil sep 0 t

theorem joinWith_append {ps qs : List Text} (hps : ps ≠ []) (hqs : qs ≠ []) :
    Text.joinWith [sep] (ps ++ qs) =
      Text.joinWith [sep] ps ++ sep :: Text.joinWith [sep] qs := by
  obtain ⟨q, qs, rfl⟩ := List.exists_cons_of_ne_nil hqs
  induction ps with
  | nil => exact absurd rfl hps
  | cons p ps ih =>
    cases ps with
    | nil => simp [joinWith_cons_cons]
    | cons p' ps =>
      rw [List.cons_append, List.cons_append, joinWith_cons_cons, joinWith_cons_cons,
        ← List.cons_append, ih (List.cons_ne_nil p' ps), ← List.append_assoc]

variable (hopening : sep ≠ '(') (hclosing : sep ≠ ')')

include hopening hclosing

/-- **A separator outside of parentheses** is where the text is cut, and the two sides of it are cut
as if each stood alone. -/
theorem splitTopLevel_append_separator {a : Text} (h : depthBehind 0 a = 0) (b : Text) :
    splitTopLevel sep (a ++ sep :: b) = splitTopLevel sep a ++ splitTopLevel sep b := by
  obtain ⟨ps, x, ha, hmore⟩ := splitAtDepth_append_cases sep a 0
  have hb : splitAtDepth sep 0 (sep :: b) = [] :: splitTopLevel sep b := by
    simp [splitAtDepth, splitTopLevel, hopening, hclosing]
  calc splitTopLevel sep (a ++ sep :: b)
      = ps ++ growBy x ([] :: splitTopLevel sep b) := by rw [splitTopLevel, hmore, h, hb]
    _ = (ps ++ [x]) ++ splitTopLevel sep b := by simp [growBy]
    _ = splitTopLevel sep a ++ splitTopLevel sep b := by rw [← ha]; rfl

theorem splitTopLevel_first {u : Text} (hu : IsWhole sep u) (h : depthBehind 0 u = 0) (v : Text) :
    splitTopLevel sep (u ++ sep :: v) = u :: splitTopLevel sep v := by
  rw [splitTopLevel_append_separator hopening hclosing h, splitTopLevel_of_isWhole hu]
  rfl

@[simp]
theorem joinWith_splitTopLevel (t : Text) : Text.joinWith [sep] (splitTopLevel sep t) = t := by
  induction t using separatorInduction sep with
  | whole t ht => rw [splitTopLevel_of_isWhole ht, joinWith_singleton]
  | cut u v hu h ih =>
    rw [splitTopLevel_append_separator hopening hclosing h,
      joinWith_append (splitTopLevel_ne_nil sep u) (splitTopLevel_ne_nil sep v), ih,
      splitTopLevel_of_isWhole hu, joinWith_singleton]

theorem isWhole_of_mem_splitTopLevel {piece : Text} (hpiece : piece ∈ splitTopLevel sep t) :
    IsWhole sep piece := by
  induction t using separatorInduction sep with
  | whole t ht =>
    rw [splitTopLevel_of_isWhole ht, List.mem_singleton] at hpiece
    rwa [hpiece]
  | cut u v hu h ih =>
    rw [splitTopLevel_first hopening hclosing hu h, List.mem_cons] at hpiece
    rcases hpiece with rfl | hpiece
    · exact hu
    · exact ih hpiece

/-- Behind a piece with no parenthesis left open, depth is counted anew. -/
theorem depthBehind_joinWith_cons {p : Text} (hp : depthBehind 0 p = 0) {ps : List Text}
    (hps : ps ≠ []) :
    depthBehind 0 (Text.joinWith [sep] (p :: ps)) = depthBehind 0 (Text.joinWith [sep] ps) := by
  have hseparator (t : Text) : depthBehind 0 (sep :: t) = depthBehind 0 t := by
    rw [depthBehind, if_neg hopening, if_neg hclosing]
  have hjoined : Text.joinWith [sep] (p :: ps) = p ++ sep :: Text.joinWith [sep] ps := by
    simpa using joinWith_append (List.cons_ne_nil p []) hps
  rw [hjoined, depthBehind_append, hp, hseparator]

/-- No parenthesis is open between two of the pieces. -/
theorem depthBehind_joinWith {ps qs : List Text} (hqs : qs ≠ [])
    (hsplit : splitTopLevel sep t = ps ++ qs) : depthBehind 0 (Text.joinWith [sep] ps) = 0 := by
  induction t using separatorInduction sep generalizing ps with
  | whole t ht =>
    rw [splitTopLevel_of_isWhole ht] at hsplit
    cases ps with
    | nil => rfl
    | cons p ps =>
      have hnil : ps ++ qs = [] := (List.cons.inj hsplit).2.symm
      exact absurd (List.append_eq_nil_iff.1 hnil).2 hqs
  | cut u v hu h ih =>
    rw [splitTopLevel_first hopening hclosing hu h] at hsplit
    cases ps with
    | nil => rfl
    | cons p ps =>
      obtain ⟨rfl, hv⟩ := List.cons.inj hsplit
      cases ps with
      | nil => rwa [joinWith_singleton]
      | cons p' ps =>
        rw [depthBehind_joinWith_cons hopening hclosing h (List.cons_ne_nil p' ps), ih hv]

theorem isCut_splitTopLevel_iff (t before after : Text) :
    IsCut sep (splitTopLevel sep t) before after ↔
      t = before ++ sep :: after ∧ depthBehind 0 before = 0 := by
  constructor
  · rintro ⟨ps, qs, hps, hqs, hsplit, rfl, rfl⟩
    refine ⟨?_, depthBehind_joinWith hopening hclosing hqs hsplit⟩
    rw [← joinWith_append hps hqs, ← hsplit, joinWith_splitTopLevel hopening hclosing]
  · rintro ⟨rfl, h⟩
    exact ⟨splitTopLevel sep before, splitTopLevel sep after, splitTopLevel_ne_nil sep before,
      splitTopLevel_ne_nil sep after, splitTopLevel_append_separator hopening hclosing h after,
      joinWith_splitTopLevel hopening hclosing before,
      joinWith_splitTopLevel hopening hclosing after⟩

/-- Whole pieces are found again in what they make up, if no parenthesis is open between them. -/
theorem splitTopLevel_joinWith {pieces : List Text} (hne : pieces ≠ [])
    (hwhole : ∀ piece ∈ pieces, IsWhole sep piece)
    (hdepth : ∀ before after, IsCut sep pieces before after → depthBehind 0 before = 0) :
    splitTopLevel sep (Text.joinWith [sep] pieces) = pieces := by
  induction pieces with
  | nil => exact absurd rfl hne
  | cons p pieces ih =>
    obtain ⟨hp, hwhole⟩ := List.forall_mem_cons.1 hwhole
    cases pieces with
    | nil => rw [joinWith_singleton, splitTopLevel_of_isWhole hp]
    | cons q pieces =>
      have hfirst : depthBehind 0 p = 0 :=
        hdepth p _ ⟨[p], q :: pieces, by simp, by simp, rfl, joinWith_singleton _ _, rfl⟩
      have hrest : splitTopLevel sep (Text.joinWith [sep] (q :: pieces)) = q :: pieces := by
        refine ih (List.cons_ne_nil q pieces) hwhole ?_
        rintro before after ⟨ps, qs, hps, hqs, hsplit, rfl, rfl⟩
        rw [← depthBehind_joinWith_cons hopening hclosing hfirst hps]
        exact hdepth _ _ ⟨p :: ps, qs, List.cons_ne_nil p ps, hqs, by rw [hsplit]; rfl, rfl, rfl⟩
      rw [joinWith_cons_cons, List.append_assoc, List.singleton_append,
        splitTopLevel_first hopening hclosing hp hfirst, hrest]

theorem isSplit_iff {pieces : List Text} :
    IsSplit sep t pieces ↔ pieces = splitTopLevel sep t := by
  constructor
  · rintro ⟨hne, rfl, hcut, hwhole⟩
    exact (splitTopLevel_joinWith hopening hclosing hne hwhole fun before after h ↦
      ((hcut before after).1 h).2).symm
  · rintro rfl
    exact ⟨splitTopLevel_ne_nil sep t, joinWith_splitTopLevel hopening hclosing t,
      isCut_splitTopLevel_iff hopening hclosing t,
      fun _ hpiece ↦ isWhole_of_mem_splitTopLevel hopening hclosing hpiece⟩

/-- **Splitting is exact and loses nothing.**  The pieces of a text are those between the separators
outside of parentheses, and no others are.  None of them is split again, and of the texts in front
of such a separator and behind it each is split on its own. -/
theorem splitTopLevel_exact :
    (∀ t pieces, IsSplit sep t pieces ↔ pieces = splitTopLevel sep t) ∧
    (∀ t, ∀ piece ∈ splitTopLevel sep t, splitTopLevel sep piece = [piece]) ∧
    ∀ a b, depthBehind 0 a = 0 →
      splitTopLevel sep (a ++ sep :: b) = splitTopLevel sep a ++ splitTopLevel sep b := by
  refine ⟨fun _ _ ↦ isSplit_iff hopening hclosing, fun _ _ hpiece ↦ ?_,
    fun _ b h ↦ splitTopLevel_append_separator hopening hclosing h b⟩
  exact splitTopLevel_of_isWhole (isWhole_of_mem_splitTopLevel hopening hclosing hpiece)

end

/-- A list in which parentheses are closed that were never opened, and others are never closed. -/
theorem splitTopLevel_exact_unbalanced :
    ',' ≠ '(' ∧ ',' ≠ ')' ∧
    splitTopLevel ',' ")a(b,c),é,((d,e" = [")a(b,c)".toList, "é".toList, "((d,e".toList] ∧
    IsSplit ',' ")a(b,c),é,((d,e" [")a(b,c)".toList, "é".toList, "((d,e".toList] ∧
    splitTopLevel ',' "((d,e" = ["((d,e".toList] ∧
    depthBehind 0 ")a(b,c)" = 0 ∧
    splitTopLevel ',' (")a(b,c)".toList ++ ',' :: "é,((d,e".toList) =
      splitTopLevel ',' ")a(b,c)" ++ splitTopLevel ',' "é,((d,e" := by
  have hopening : ',' ≠ '(' := by decide
  have hclosing : ',' ≠ ')' := by decide
  have hdepth : depthBehind 0 ")a(b,c)" = 0 := by decide
  have hpieces : splitTopLevel ',' ")a(b,c),é,((d,e" =
      [")a(b,c)".toList, "é".toList, "((d,e".toList] := by decide
  obtain ⟨hsplit, hagain, happend⟩ := splitTopLevel_exact hopening hclosing
  exact ⟨hopening, hclosing, hpieces, (hsplit _ _).2 hpieces.symm,
    hagain _ _ (by rw [hpieces]; simp), hdepth, happend _ _ hdepth⟩

end HeaderBindings
