import Mathlib.Data.List.Basic
import HeaderBindings.Text.Basic

/-!
# The lines of a text

Text is cut into lines behind its line feeds and nowhere else, so that a line does not depend on
what stands on other lines.  `lines_append_cons` says so for the first line, and `lines_append` for
a whole text in front of another: its lines are the lines of the two, provided that the first one
ends where a line ends.

The line end itself may be a line feed alone or behind a carriage return.  `withoutLineEnd_append`
is the one place where the two are told apart.  `MadeOf` says what lines a text has without cutting
it.
-/

set_option autoImplicit false

namespace HeaderBindings

namespace Text

variable {a b raw : Text}

/-! ## Line ends -/

/-- A carriage return at the end of a line belongs to its line end. -/
theorem withoutLineEnd_append (raw : Text) :
    withoutLineEnd (raw ++ ['\n']) = if raw.getLast? = some '\r' then raw.dropLast else raw := by
  rcases List.eq_nil_or_concat' raw with rfl | ⟨front, c, rfl⟩
  · rfl
  · rw [List.getLast?_append]
    by_cases hc : c = '\r'
    · simp [withoutLineEnd, hc]
    · rw [if_neg (by simpa using hc), withoutLineEnd]
      simp only [List.reverse_append, List.reverse_singleton, List.singleton_append]
      split
      · rename_i heq
        exact absurd (List.cons.inj (List.cons.inj heq).2).1 hc
      · rename_i heq
        rw [← (List.cons.inj heq).2]
        simp
      · rename_i hno
        exact (hno _ rfl).elim

theorem withoutLineEnd_append_of_ne (h : raw.getLast? ≠ some '\r') :
    withoutLineEnd (raw ++ ['\n']) = raw := by
  rw [withoutLineEnd_append, if_neg h]

theorem withoutLineEnd_prefix (raw : Text) : withoutLineEnd (raw ++ ['\n']) <+: raw := by
  rw [withoutLineEnd_append]
  split
  · exact List.dropLast_prefix raw
  · exact List.prefix_rfl

/-- What stands in front of a line end stays. -/
theorem withoutLineEnd_append_append (h : a.getLast? ≠ some '\r') (raw : Text) :
    withoutLineEnd (a ++ (raw ++ ['\n'])) = a ++ withoutLineEnd (raw ++ ['\n']) := by
  rw [← List.append_assoc, withoutLineEnd_append, withoutLineEnd_append]
  rcases List.eq_nil_or_concat' raw with rfl | ⟨front, c, rfl⟩
  · simp [h]
  · rw [← List.append_assoc, List.getLast?_append, List.getLast?_append]
    by_cases hc : c = '\r'
    · simp [hc]
    · simp [hc]

theorem withoutLineEnd_of_notMem (h : '\n' ∉ raw) : withoutLineEnd raw = raw := by
  rw [withoutLineEnd]
  split
  · rename_i heq
    exact absurd (List.mem_reverse.1 (heq ▸ List.mem_cons_self)) h
  · rename_i heq
    exact absurd (List.mem_reverse.1 (heq ▸ List.mem_cons_self)) h
  · rfl

/-! ## The first line -/

theorem rawLines_append_cons (h : '\n' ∉ raw) (rest : Text) :
    (raw ++ '\n' :: rest).rawLines = (raw ++ ['\n']) :: rest.rawLines := by
  induction raw with
  | nil => simp [rawLines]
  | cons c raw ih =>
    have hc : c ≠ '\n' := fun hc ↦ h (hc ▸ List.mem_cons_self)
    rw [List.cons_append, rawLines, if_neg hc, ih fun hmem ↦ h (List.mem_cons_of_mem c hmem)]
    rfl

/-- **The first line** of a text is what stands in front of its first line end. -/
theorem lines_append_cons (h : '\n' ∉ raw) (rest : Text) :
    (raw ++ '\n' :: rest).lines = withoutLineEnd (raw ++ ['\n']) :: rest.lines := by
  rw [lines, rawLines_append_cons h, List.map_cons]
  rfl

theorem rawLines_of_notMem (hne : raw ≠ []) (h : '\n' ∉ raw) : raw.rawLines = [raw] := by
  induction raw with
  | nil => exact absurd rfl hne
  | cons c raw ih =>
    have hc : c ≠ '\n' := fun hc ↦ h (hc ▸ List.mem_cons_self)
    rw [rawLines, if_neg hc]
    cases raw with
    | nil => rfl
    | cons d raw => rw [ih (List.cons_ne_nil _ _) fun hmem ↦ h (List.mem_cons_of_mem c hmem)]

/-- Text without a line end is its only line. -/
theorem lines_of_notMem (hne : raw ≠ []) (h : '\n' ∉ raw) : raw.lines = [raw] := by
  rw [lines, rawLines_of_notMem hne h, List.map_singleton, withoutLineEnd_of_notMem h]

/-- **Induction over the lines** of a text: what holds without a line end, and of a line in front of
a text that it holds of, holds of every text. -/
@[elab_as_elim]
theorem lineInduction {motive : Text → Prop} (last : ∀ raw, '\n' ∉ raw → motive raw)
    (line : ∀ raw rest, '\n' ∉ raw → motive rest → motive (raw ++ '\n' :: rest)) (t : Text) :
    motive t := by
  by_cases h : '\n' ∈ t
  · obtain ⟨raw, rest, ht, hraw⟩ := List.eq_append_cons_of_mem h
    rw [ht]
    exact line raw rest hraw (lineInduction last line rest)
  · exact last t h
termination_by t.length
decreasing_by
  rw [ht, List.length_append, List.length_cons]
  omega

/-- No line holds a line feed. -/
theorem notMem_of_mem_lines {t line : Text} (h : line ∈ t.lines) : '\n' ∉ line := by
  induction t using lineInduction with
  | last raw hraw =>
    by_cases hnil : raw = []
    · rw [hnil] at h
      exact absurd h List.not_mem_nil
    · rw [lines_of_notMem hnil hraw] at h
      exact List.mem_singleton.1 h ▸ hraw
  | line raw rest hraw ih =>
    rw [lines_append_cons hraw, List.mem_cons] at h
    rcases h with rfl | h
    · have hlead := withoutLineEnd_prefix raw
      exact fun hmem ↦ hraw (hlead.subset hmem)
    · exact ih h

/-- The text of the given lines. -/
def ofLines (raws : List Text) : Text := raws.flatMap (· ++ ['\n'])

/-- A line feed stands between any two lines, and one behind the last. -/
theorem ofLines_cons (raw : Text) (raws : List Text) :
    ofLines (raw :: raws) = joinWith ['\n'] (raw :: raws) ++ ['\n'] := by
  induction raws generalizing raw with
  | nil => simp [ofLines, joinWith, List.intercalate]
  | cons next raws ih =>
    have htail : ofLines (raw :: next :: raws) = raw ++ '\n' :: ofLines (next :: raws) := by
      simp [ofLines]
    rw [htail, ih]
    simp [joinWith, List.intercalate, List.intersperse]

/-- Lines are read back as they are written. -/
theorem lines_ofLines {raws : List Text}
    (h : ∀ raw ∈ raws, '\n' ∉ raw ∧ raw.getLast? ≠ some '\r') : (ofLines raws).lines = raws := by
  induction raws with
  | nil => rfl
  | cons raw raws ih =>
    obtain ⟨hline, hreturn⟩ := h raw List.mem_cons_self
    have htext : ofLines (raw :: raws) = raw ++ '\n' :: ofLines raws := by simp [ofLines]
    rw [htext, lines_append_cons hline, withoutLineEnd_append_of_ne hreturn,
      ih fun raw' hraw' ↦ h raw' (List.mem_cons_of_mem _ hraw')]

theorem lines_ne_nil {t : Text} (h : t ≠ []) : t.lines ≠ [] := by
  intro hlines
  rw [lines, List.map_eq_nil_iff] at hlines
  exact h (by rw [← flatten_rawLines t, hlines, List.flatten_nil])

/-- The text is made up of the lines.  A line ends with a line feed, maybe behind a carriage return,
and the last one may have no end. -/
inductive MadeOf : Text → List Text → Prop
  | nothing : MadeOf [] []
  | last {line : Text} (hne : line ≠ []) (h : '\n' ∉ line) : MadeOf line [line]
  | feed {line rest : Text} {lines : List Text} (h : '\n' ∉ line)
      (hreturn : line.getLast? ≠ some '\r') (hrest : MadeOf rest lines) :
      MadeOf (line ++ '\n' :: rest) (line :: lines)
  | returnFeed {line rest : Text} {lines : List Text} (h : '\n' ∉ line)
      (hrest : MadeOf rest lines) : MadeOf (line ++ '\r' :: '\n' :: rest) (line :: lines)

/-- **A text is made up of its lines.** -/
theorem madeOf_lines (t : Text) : MadeOf t t.lines := by
  induction t using lineInduction with
  | last raw hraw =>
    by_cases hne : raw = []
    · rw [hne]
      exact .nothing
    · rw [lines_of_notMem hne hraw]
      exact .last hne hraw
  | line raw rest hraw ih =>
    rw [lines_append_cons hraw, withoutLineEnd_append]
    split
    · rename_i hreturn
      obtain ⟨front, rfl⟩ := List.getLast?_eq_some_iff.1 hreturn
      rw [List.dropLast_concat, List.append_assoc]
      exact .returnFeed (fun h ↦ hraw (List.mem_append_left _ h)) ih
    · exact .feed hraw ‹_› ih

/-! ## One text behind another -/

/-- Nothing stands behind the last line end. -/
def EndsLine (t : Text) : Prop := ∀ c ∈ t.getLast?, c = '\n'

instance (t : Text) : Decidable t.EndsLine := Option.decidableForallMem t.getLast?

theorem rawLines_append (h : a.EndsLine) (b : Text) :
    (a ++ b).rawLines = a.rawLines ++ b.rawLines := by
  induction a with
  | nil => rfl
  | cons c a ih =>
    have hrest : EndsLine a := fun x hx ↦ h x (by
      rw [List.getLast?_cons, Option.mem_def.1 hx]
      rfl)
    rw [List.cons_append, rawLines, rawLines, ih hrest]
    by_cases hc : c = '\n'
    · rw [if_pos hc, if_pos hc]
      rfl
    · rw [if_neg hc, if_neg hc]
      cases hraw : rawLines a with
      | cons line lines => rfl
      | nil =>
        have ha : a = [] := by rw [← flatten_rawLines a, hraw, List.flatten_nil]
        exact absurd (h c (by rw [ha]; rfl)) hc

/-- **The lines of two texts** one behind the other are the lines of both, if the first one ends
where a line ends. -/
theorem lines_append (h : a.EndsLine) (b : Text) : (a ++ b).lines = a.lines ++ b.lines := by
  rw [lines, rawLines_append h, List.map_append]
  rfl

/-! ## Places of lines -/

theorem EndsLine.append (ha : a.EndsLine) (hb : b.EndsLine) : EndsLine (a ++ b) := by
  intro c hc
  rw [List.getLast?_append] at hc
  rcases Option.or_eq_some_iff.1 hc with hc | ⟨-, hc⟩
  · exact hb c hc
  · exact ha c hc

theorem endsLine_feed (raw : Text) : EndsLine (raw ++ ['\n']) := by
  intro c hc
  simpa using hc.symm

/-- The last line of a text stands behind its last line end. -/
theorem exists_lastLine (t : Text) :
    ∃ lead last : Text, t = lead ++ last ∧ lead.EndsLine ∧ '\n' ∉ last := by
  induction t using lineInduction with
  | last raw hraw => exact ⟨[], raw, rfl, by simp [EndsLine], hraw⟩
  | line raw rest hraw ih =>
    obtain ⟨lead, last, rfl, hlead, hlast⟩ := ih
    exact ⟨raw ++ ['\n'] ++ lead, last, by simp, (endsLine_feed raw).append hlead, hlast⟩

/-- What stands behind a line end is the start of a line. -/
theorem exists_rawLine (ha : a.EndsLine) (hne : raw ≠ []) (hraw : '\n' ∉ raw) (rest : Text) :
    ∃ more later, more <+: rest ∧
      (a ++ (raw ++ rest)).rawLines = a.rawLines ++ (raw ++ more) :: later := by
  rw [rawLines_append ha]
  by_cases hfeed : '\n' ∈ rest
  · obtain ⟨more, back, rfl, hmore⟩ := List.eq_append_cons_of_mem hfeed
    have hline : '\n' ∉ raw ++ more := by simp [hraw, hmore]
    refine ⟨more ++ ['\n'], rawLines back, ⟨back, by simp⟩, ?_⟩
    rw [← List.append_assoc raw, rawLines_append_cons hline, List.append_assoc]
  · refine ⟨rest, [], List.prefix_rfl, ?_⟩
    rw [rawLines_of_notMem (List.append_ne_nil_of_left_ne_nil hne rest) (by simp [hraw, hfeed])]

/-- A line stands between line ends, or at the end of the text. -/
theorem exists_of_mem_rawLines {t line : Text} (h : line ∈ t.rawLines) :
    ∃ front back : Text, t = front ++ (line ++ back) ∧ front.EndsLine ∧
      (line.getLast? = some '\n' ∨ back = []) := by
  induction t using lineInduction with
  | last raw hraw =>
    by_cases hne : raw = []
    · rw [hne] at h
      exact absurd h List.not_mem_nil
    · rw [rawLines_of_notMem hne hraw] at h
      obtain rfl := List.mem_singleton.1 h
      exact ⟨[], [], by simp, by simp [EndsLine], .inr rfl⟩
  | line raw rest hraw ih =>
    rw [rawLines_append_cons hraw, List.mem_cons] at h
    rcases h with rfl | h
    · exact ⟨[], rest, by simp, by simp [EndsLine], .inl (by simp)⟩
    · obtain ⟨front, back, rfl, hfront, hline⟩ := ih h
      exact ⟨raw ++ ['\n'] ++ front, back, by simp, (endsLine_feed raw).append hfront, hline⟩

end Text

end HeaderBindings
