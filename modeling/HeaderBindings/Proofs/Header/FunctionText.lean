import HeaderBindings.Proofs.Header.Functions

/-!
# The text of an exported function

The pattern of an exported function takes as little as it can in front of the parentheses and as
much as it can between them.  So the opening parenthesis is the first one behind the export macro
and another character, and the closing one is the last of all.

* `FunctionText`: a text is the export macro, a front, arguments in parentheses and a semicolon.
* `FunctionText.parts?`: such a text has as its parts the front without the blanks behind it, and
  the arguments.
* `FunctionText.of_parts?`: only such a text has a front that is more than blanks.
-/

set_option autoImplicit false

namespace HeaderBindings

open Cursor (start)
open Pattern

variable {conventions : Conventions}

/-- The text of an exported function, taken apart at its parentheses. -/
structure FunctionText (conventions : Conventions) (t lead front args last : Text) : Prop where
  whole : t = conventions.exportMacro ++
    (lead ++ (front ++ '(' :: (args ++ ')' :: (last ++ [';']))))
  ne_nil : lead ≠ []
  blank_lead : ∀ c ∈ lead, isBlank c = true
  blank_last : ∀ c ∈ last, isBlank c = true
  exists_first : ∃ c s, front = c :: s ∧ isBlank c = false ∧ '(' ∉ s
  line : '\n' ∉ front ++ args

namespace FunctionText

variable {t lead front args last : Text}

/-- **The parts of a function** are its front without blanks behind it and its arguments. -/
theorem parts? (h : FunctionText conventions t lead front args last) :
    (functionPattern conventions).parts? 2 t = some [front.trimEnd, args] := by
  obtain ⟨c, s, hfront, hc, hflat⟩ := h.exists_first
  obtain ⟨b, hb, hblank⟩ := Text.exists_trimEnd_append front
  have hline := h.line
  rw [List.mem_append, not_or] at hline
  have hhead : front.trimEnd = c :: Text.trimEnd s := by rw [hfront, Text.trimEnd_cons hc]
  have hne : front.trimEnd ≠ [] := by rw [hhead]; exact List.cons_ne_nil _ _
  obtain ⟨s', y, hlast, hy⟩ := Text.exists_last_trimEnd hne
  refine parts?_functionText (b := lead) (e := b) ⟨⟨c, _, hhead, hc⟩, ⟨s', y, hlast, hy⟩⟩
    (fun hmem ↦ hline.1 ((Text.trimEnd_prefix front).subset hmem)) ?_ hline.2 h.ne_nil h.blank_lead
    hblank h.blank_last ?_
  · rw [hhead]
    exact fun hmem ↦ hflat ((Text.trimEnd_prefix s).subset hmem)
  · rw [h.whole, ← List.append_assoc front.trimEnd, ← hb]

/-- What the pattern of a function reads. -/
theorem exists_of_parts? {parts : List Text}
    (h : (functionPattern conventions).parts? 2 t = some parts) :
    ∃ lead front args last, lead ≠ [] ∧ (∀ c ∈ lead, isBlank c = true) ∧
      (∀ c ∈ last, isBlank c = true) ∧ parts = [front, args] ∧
      ∃ b, t = conventions.exportMacro ++
        (lead ++ (front ++ (b ++ '(' :: (args ++ ')' :: (last ++ [';']))))) := by
  obtain ⟨g, hg, rfl⟩ := Option.map_eq_some_iff.1 h
  obtain ⟨s, c, hs, hpass⟩ := exists_reads_of_search hg
  obtain ⟨marks, stop⟩ := g
  obtain ⟨_, d₇, _, ⟨_, d₆, _, ⟨_, d₅, _, ⟨_, d₄, _, ⟨_, d₃, _, ⟨_, d₂, _, ⟨_, d₁, _,
    ⟨hstart, rfl, rfl⟩, ⟨hexport, rfl⟩, rfl⟩, hblanks, rfl⟩, ⟨_, hfront, rfl⟩, rfl⟩,
    ⟨⟨b, hb, hreadBlanks⟩, rfl⟩, rfl⟩, ⟨hopening, rfl⟩, rfl⟩, ⟨_, ⟨⟨args, -, hargs⟩, rfl⟩, rfl⟩,
    rfl⟩, ⟨_, d₉, _, ⟨_, d₈, _, ⟨hclosing, rfl⟩, ⟨⟨last, hlast, hreadLast⟩, rfl⟩, rfl⟩,
    ⟨_, d₁₀, _, ⟨hsemicolon, rfl⟩, ⟨hend, hstop, rfl⟩, rfl⟩, rfl⟩, hmarks⟩ := hpass
  obtain rfl := hs.eq_nil_of_prev hstart
  obtain rfl := hs.eq_of_nil
  obtain rfl := hblanks.marks_eq_nil rfl
  obtain rfl := hfront.marks_eq_nil rfl
  obtain ⟨lead, hne, hlead, hreadLead⟩ := hblanks.some₁
  obtain ⟨_, d, _, ⟨⟨x, -, hone⟩, -⟩, ⟨⟨u, -, hmany⟩, -⟩, -⟩ := hfront
  have hreadFront := hone.trans hmany
  have hend : d₁₀.rest = [] := List.isEmpty_iff.1 hend
  have hget {m : Match} (hm : m.marks = [(.opening 1, d₃), (.closing 1, d₄), (.opening 2, d₆),
      (.closing 2, d₇)]) : m.get 1 = x :: u ∧ m.get 2 = args := by
    have hfront : d₃.textTo d₄ = x :: u := hreadFront.textTo
    simp [Match.get, Match.get?, Match.place?, hm, hfront, hargs.textTo]
  refine ⟨lead, x :: u, args, last, hne, List.all_eq_true.1 hlead, List.all_eq_true.1 hlast,
    congrArg₂ (fun a b ↦ [a, b]) (hget hmarks).1 (hget hmarks).2, b, ?_⟩
  have hrest := hexport.rest
  rw [hreadLead.rest, hreadFront.rest, hreadBlanks.rest, hopening.rest, hargs.rest, hclosing.rest,
    hreadLast.rest, hsemicolon.rest, hend] at hrest
  simpa [start] using hrest

/-- If there is more than blanks in front of some parenthesis, the text is that of a function.  The
first parenthesis counts, which may stand in front of that one. -/
theorem exists_of_front {x : Char} (hlines : '\n' ∉ t) (hne : lead ≠ [])
    (hlead : ∀ c ∈ lead, isBlank c = true) (hlast : ∀ c ∈ last, isBlank c = true)
    (hx : x ∈ front) (hblank : isBlank x = false)
    (hwhole : t = conventions.exportMacro ++
      (lead ++ (front ++ '(' :: (args ++ ')' :: (last ++ [';']))))) :
    ∃ lead front args last, FunctionText conventions t lead front args last := by
  obtain ⟨b₀, c, s, rfl, hb₀, hc⟩ := Text.exists_first_of_mem hx hblank
  have hopens : '(' ∈ s ++ '(' :: (args ++ ')' :: (last ++ [';'])) := by simp
  obtain ⟨s', r, hfirst, hflat⟩ := List.eq_append_cons_of_mem hopens
  obtain ⟨q, rfl⟩ : ∃ q, r = q ++ (args ++ ')' :: (last ++ [';'])) := by
    obtain ⟨q, hq⟩ := Text.exists_of_append_cons hfirst.symm hflat
    cases q with
    | nil => exact ⟨[], (List.cons.inj hq).2⟩
    | cons z q => exact ⟨q ++ ['('], by rw [(List.cons.inj hq).2]; simp⟩
  have htext : t = conventions.exportMacro ++ (lead ++ b₀ ++ (c :: s' ++ '(' ::
      (q ++ args ++ ')' :: (last ++ [';'])))) := by
    rw [hwhole]
    simp only [List.append_assoc, List.cons_append] at hfirst ⊢
    rw [hfirst]
  refine ⟨lead ++ b₀, c :: s', q ++ args, last, htext, by simp [hne],
    List.forall_mem_append.2 ⟨hlead, hb₀⟩, hlast, ⟨c, s', rfl, hc, hflat⟩, fun hmem ↦ hlines ?_⟩
  rw [htext]
  simp only [List.mem_append, List.mem_cons] at hmem ⊢
  grind

/-- **Only the text of a function** has parts, unless there are only blanks in front of its
arguments. -/
theorem of_parts? {parts : List Text} (hlines : '\n' ∉ t)
    (h : (functionPattern conventions).parts? 2 t = some parts) :
    (∃ front args, parts = [front, args] ∧ ∀ c ∈ front, isBlank c = true) ∨
      ∃ lead front args last, FunctionText conventions t lead front args last := by
  obtain ⟨lead, front, args, last, hne, hlead, hlast, rfl, b, hwhole⟩ := exists_of_parts? h
  by_cases hblank : ∀ c ∈ front, isBlank c = true
  · exact Or.inl ⟨front, args, rfl, hblank⟩
  · obtain ⟨x, hx⟩ := Classical.not_forall.1 hblank
    obtain ⟨hx, hxBlank⟩ := Classical.not_imp.1 hx
    rw [Bool.not_eq_true] at hxBlank
    rw [← List.append_assoc front] at hwhole
    exact Or.inr (exists_of_front hlines hne hlead hlast (List.mem_append_left b hx) hxBlank hwhole)

end FunctionText

end HeaderBindings
