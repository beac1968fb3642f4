import HeaderBindings.Proofs.Header.Bodies
import HeaderBindings.Proofs.Text.Symbols

/-!
# The text of a struct

The pattern of a struct leaves blanks open in every place but one, between its keywords and its
name.  So what it takes for a struct can be said without it, and without going through the ways in
which it could match: up to the first brace the symbols `struct` and a name, perhaps behind
`typedef`, and behind the last brace perhaps a word, and a semicolon.

* `StructText`: a text is a struct with a certain name, certain code between its braces and a
  certain type name.
* `StructText.parts?` and `StructText.of_parts?`: exactly such a text has parts, and these three are
  they.
-/

set_option autoImplicit false

namespace HeaderBindings

open Cursor (start)
open Pattern

/-- The text in front of the body of a struct. -/
structure IsStructHead (name head : Text) : Prop where
  first : ∀ c ∈ head.head?, isBlank c = false
  word : name.IsWord
  symbols : head.symbols = [structWord, name] ∨ head.symbols = [typedefWord, structWord, name]

/-- The text behind the body of a struct, with its type name, which may be empty. -/
def IsStructEnd (typeName last : Text) : Prop :=
  ∃ s, last = s ++ [';'] ∧ (∀ c ∈ typeName, isWordChar c = true) ∧ s.symbols = typeName.symbols

/-- The text of a struct, taken apart at its first and its last brace. -/
structure StructText (t head name inner last typeName : Text) : Prop where
  whole : t = head ++ '\x7b' :: (inner ++ '\x7d' :: last)
  head : IsStructHead name head
  last : IsStructEnd typeName last
  line : '\n' ∉ inner

theorem isWord_of_isIdentifier {w : Text} (h : isIdentifier w = true) : w.IsWord :=
  ⟨ne_nil_of_isIdentifier h, isWordChar_of_mem h⟩

/-- The front of a struct is its keywords and its name, with blanks between them. -/
theorem IsStructHead.exists_words {name head : Text} (h : IsStructHead name head) :
    ∃ lead b₁ b₂, head = lead ++ (structWord ++ (b₁ ++ (name ++ b₂))) ∧
      (lead = [] ∨ ∃ b, lead = typedefWord ++ b ∧ b ≠ [] ∧ ∀ c ∈ b, isBlank c = true) ∧
      b₁ ≠ [] ∧ (∀ c ∈ b₁, isBlank c = true) ∧ ∀ c ∈ b₂, isBlank c = true := by
  have hstruct := isWord_of_isIdentifier isIdentifier_structWord
  have htypedef := isWord_of_isIdentifier isIdentifier_typedefWord
  have hnil {b t : Text} (hb : ∀ c ∈ b, isBlank c = true) (ht : head = b ++ t) : b = [] := by
    cases b with
    | nil => rfl
    | cons c b =>
      exact absurd ((hb c List.mem_cons_self).symm.trans (h.first c (by rw [ht]; rfl))) (by simp)
  have hwords {t : Text} (ht : t.symbols = [structWord, name]) :
      ∃ b b₁ b₂, t = b ++ (structWord ++ (b₁ ++ (name ++ b₂))) ∧ (∀ c ∈ b, isBlank c = true) ∧
        b₁ ≠ [] ∧ (∀ c ∈ b₁, isBlank c = true) ∧ ∀ c ∈ b₂, isBlank c = true := by
    obtain ⟨b, r, rfl, hb, -, happ, hr⟩ := Text.exists_of_symbols_eq_cons ht
    obtain ⟨b₁, b₂, rfl, hb₁, -, -, hb₂⟩ := Text.exists_of_symbols_eq_cons hr
    exact ⟨b, b₁, b₂, by simp, hb, hstruct.ne_nil_of_apart h.word happ, hb₁,
      Text.isBlank_of_symbols_eq_nil hb₂⟩
  rcases h.symbols with hs | hs
  · obtain ⟨b, b₁, b₂, ht, hb, hrest⟩ := hwords hs
    obtain rfl := hnil hb ht
    exact ⟨[], b₁, b₂, ht, Or.inl rfl, hrest⟩
  · obtain ⟨b, r, ht, hb, -, happ, hr⟩ := Text.exists_of_symbols_eq_cons hs
    rw [List.append_assoc] at ht
    obtain rfl := hnil hb ht
    obtain ⟨b, b₁, b₂, rfl, hb, hrest⟩ := hwords hr
    have hne : b ≠ [] := htypedef.ne_nil_of_apart hstruct (by rw [List.append_assoc]; exact happ)
    exact ⟨typedefWord ++ b, b₁, b₂, by rw [ht]; simp, Or.inr ⟨b, rfl, hne, hb⟩, hrest⟩

/-- Keywords and a name with blanks between them are the front of a struct. -/
theorem isStructHead_words {lead b₁ name b₂ : Text}
    (hlead : lead = [] ∨ ∃ b, lead = typedefWord ++ b ∧ b ≠ [] ∧ ∀ c ∈ b, isBlank c = true)
    (hne : b₁ ≠ []) (hb₁ : ∀ c ∈ b₁, isBlank c = true) (hname : name.IsWord)
    (hb₂ : ∀ c ∈ b₂, isBlank c = true) :
    IsStructHead name (lead ++ (structWord ++ (b₁ ++ (name ++ b₂)))) := by
  have hstruct := isWord_of_isIdentifier isIdentifier_structWord
  have hwords : Text.symbols (structWord ++ (b₁ ++ (name ++ b₂))) = [structWord, name] := by
    rw [hstruct.symbols_append (Text.apart_of_blanks_append hb₁ hne _),
      Text.symbols_blanks_append hb₁, hname.symbols_append (Text.apart_of_blanks_right hb₂),
      Text.symbols_of_blanks hb₂]
  rcases hlead with rfl | ⟨b, rfl, hbne, hb⟩
  · exact ⟨isBlank_of_mem_head? isIdentifier_structWord _, hname, Or.inl hwords⟩
  · have htypedef := isWord_of_isIdentifier isIdentifier_typedefWord
    refine ⟨?_, hname, Or.inr ?_⟩
    · rw [List.append_assoc]
      exact isBlank_of_mem_head? isIdentifier_typedefWord _
    · rw [List.append_assoc, htypedef.symbols_append (Text.apart_of_blanks_append hb hbne _),
        Text.symbols_blanks_append hb, hwords]

/-- The end of a struct is its type name between blanks, and a semicolon. -/
theorem isStructEnd_iff {w last : Text} : IsStructEnd w last ↔
    ∃ b b', last = b ++ (w ++ (b' ++ [';'])) ∧ (∀ c ∈ b, isBlank c = true) ∧
      (∀ c ∈ w, isWordChar c = true) ∧ ∀ c ∈ b', isBlank c = true := by
  constructor
  · rintro ⟨s, rfl, hw, hs⟩
    by_cases hne : w = []
    · subst hne
      exact ⟨s, [], by simp, Text.isBlank_of_symbols_eq_nil hs, hw, by simp⟩
    · rw [Text.symbols_of_forall hne hw] at hs
      obtain ⟨b, b', rfl, hb, -, -, hb'⟩ := Text.exists_of_symbols_eq_cons hs
      exact ⟨b, b', by simp, hb, hw, Text.isBlank_of_symbols_eq_nil hb'⟩
  · rintro ⟨b, b', rfl, hb, hw, hb'⟩
    refine ⟨b ++ (w ++ b'), by simp, hw, ?_⟩
    rw [Text.symbols_blanks_append hb, Text.symbols_append (Text.apart_of_blanks_right hb'),
      Text.symbols_of_blanks hb', List.append_nil]

theorem IsStructHead.notMem {name head : Text} (h : IsStructHead name head) :
    '\x7b' ∉ head := by
  have hblank {b : Text} (hb : ∀ c ∈ b, isBlank c = true) : '\x7b' ∉ b := fun hmem ↦
    absurd (hb _ hmem) (by decide)
  have hword {w : Text} (hw : ∀ c ∈ w, isWordChar c = true) : '\x7b' ∉ w := fun hmem ↦
    absurd (hw _ hmem) (by decide)
  obtain ⟨lead, b₁, b₂, rfl, hlead, -, hb₁, hb₂⟩ := h.exists_words
  have hnotMem : '\x7b' ∉ lead := by
    rcases hlead with rfl | ⟨b, rfl, -, hb⟩
    · exact List.not_mem_nil
    · rw [List.mem_append, not_or]
      exact ⟨by decide, hblank hb⟩
  simp only [List.mem_append, not_or]
  exact ⟨hnotMem, by decide, hblank hb₁, hword h.word.2, hblank hb₂⟩

/-- A type name is seen in the text. -/
theorem IsStructEnd.unique {w w' last : Text} (h : IsStructEnd w last)
    (h' : IsStructEnd w' last) : w = w' := by
  obtain ⟨s, rfl, hw, hs⟩ := h
  obtain ⟨s', hs', hw', hsymbols⟩ := h'
  obtain rfl := List.append_cancel_right hs'
  rw [hs] at hsymbols
  by_cases hne : w = [] <;> by_cases hne' : w' = []
  · rw [hne, hne']
  · rw [hne, Text.symbols_of_forall hne' hw'] at hsymbols
    exact absurd hsymbols (by simp [Text.symbols])
  · rw [hne', Text.symbols_of_forall hne hw] at hsymbols
    exact absurd hsymbols (by simp [Text.symbols])
  · rw [Text.symbols_of_forall hne hw, Text.symbols_of_forall hne' hw'] at hsymbols
    exact List.singleton_inj.1 hsymbols

theorem IsStructEnd.notMem {w last : Text} (h : IsStructEnd w last) : '\x7d' ∉ last := by
  obtain ⟨b, b', rfl, hb, hw, hb'⟩ := isStructEnd_iff.1 h
  simp only [List.mem_append, List.mem_singleton, not_or]
  exact ⟨fun hmem ↦ absurd (hb _ hmem) (by decide), fun hmem ↦ absurd (hw _ hmem) (by decide),
    fun hmem ↦ absurd (hb' _ hmem) (by decide), by decide⟩

/-- The pattern of a struct up to its body. -/
def structHead : Pattern :=
  .textStart ++ .optionalTypedef ++ "struct" ++ .blanks₁ ++ .group 1 .word₁ ++ .blanks

/-- What a way through that pattern reads. -/
theorem of_passes_structHead {c c' : Cursor} {ms : List (Mark × Cursor)}
    (h : structHead.Passes c ms c') : ∃ head name d d', c.prev.isNone = true ∧ c.Reads head c' ∧
      IsStructHead name head ∧ ms = [(.opening 1, d), (.closing 1, d')] ∧ d.Reads name d' := by
  obtain ⟨_, d₅, _, ⟨_, d₄, _, ⟨_, d₃, _, ⟨_, d₂, _, ⟨_, d₁, _, ⟨hstart, rfl, rfl⟩, htypedef, rfl⟩,
    ⟨hkeyword, rfl⟩, rfl⟩, hblanks, rfl⟩, ⟨_, hname, rfl⟩, rfl⟩, ⟨⟨b₂, hb₂, h₂⟩, rfl⟩, rfl⟩ := h
  obtain ⟨lead, hlead, hlead'⟩ : ∃ lead, d₁.Reads lead d₂ ∧
      (lead = [] ∨ ∃ b, lead = typedefWord ++ b ∧ b ≠ [] ∧ ∀ c ∈ b, isBlank c = true) := by
    rcases htypedef with ⟨_, _, _, ⟨htypedef, rfl⟩, hblanks, rfl⟩ | ⟨hnothing, rfl⟩
    · obtain ⟨b, hne, hb, hread⟩ := hblanks.some₁
      exact ⟨_, htypedef.trans hread, Or.inr ⟨b, rfl, hne, List.all_eq_true.1 hb⟩⟩
    · exact ⟨[], hnothing, Or.inl rfl⟩
  obtain rfl := htypedef.marks_eq_nil rfl
  obtain rfl := hblanks.marks_eq_nil rfl
  obtain rfl := hname.marks_eq_nil rfl
  obtain ⟨b₁, hne₁, hb₁, h₁⟩ := hblanks.some₁
  obtain ⟨name, hne, hname, hread⟩ := hname.some₁
  exact ⟨_, name, d₄, d₅, hstart,
    hlead.trans (hkeyword.trans (h₁.trans (hread.trans h₂))),
    isStructHead_words hlead' hne₁ (List.all_eq_true.1 hb₁) ⟨hne, List.all_eq_true.1 hname⟩
      (List.all_eq_true.1 hb₂), rfl, hread⟩

namespace StructText

variable {t head name inner last typeName : Text}

/-- There is a way through the pattern of a struct. -/
theorem exists_passes (h : StructText t head name inner last typeName) :
    ∃ ms c', structPattern.Passes (start t) ms c' := by
  obtain ⟨lead, b₁, b₂, hhead, hlead, hne₁, hb₁, hb₂⟩ := h.head.exists_words
  obtain ⟨b₃, b₄, hlast, hb₃, hw, hb₄⟩ := isStructEnd_iff.1 h.last
  obtain ⟨c₁, h₁, hr₁⟩ := Cursor.exists_reads (c := start t) (s := lead)
    (r := structWord ++ (b₁ ++ (name ++ (b₂ ++ '\x7b' :: (inner ++ '\x7d' :: (b₃ ++ (typeName ++
      (b₄ ++ [';']))))))))
    (by rw [start, h.whole, hhead, hlast]; simp)
  obtain ⟨c₂, h₂, hr₂⟩ := Cursor.exists_reads hr₁
  obtain ⟨c₃, h₃, hr₃⟩ := Cursor.exists_reads hr₂
  obtain ⟨c₄, h₄, hr₄⟩ := Cursor.exists_reads hr₃
  obtain ⟨c₅, h₅, hr₅⟩ := Cursor.exists_reads hr₄
  obtain ⟨c₆, h₆, hr₆⟩ := Cursor.exists_reads (s := ['\x7b']) hr₅
  obtain ⟨c₇, h₇, hr₇⟩ := Cursor.exists_reads hr₆
  obtain ⟨c₈, h₈, hr₈⟩ := Cursor.exists_reads (s := ['\x7d']) hr₇
  obtain ⟨c₉, h₉, hr₉⟩ := Cursor.exists_reads hr₈
  obtain ⟨d₁, k₁, hd₁⟩ := Cursor.exists_reads hr₉
  obtain ⟨d₂, k₂, hd₂⟩ := Cursor.exists_reads hd₁
  obtain ⟨d₃, k₃, hd₃⟩ := Cursor.exists_reads (s := [';']) (r := []) hd₂
  have htypedef : optionalTypedef.Passes (start t) [] c₁ := by
    rcases hlead with rfl | ⟨b, rfl, hne, hb⟩
    · exact Or.inr (passes_text h₁)
    · obtain ⟨d, hd, hr⟩ := Cursor.exists_reads (s := typedefWord) (r := b ++ c₁.rest)
        (by rw [h₁.rest]; simp)
      obtain ⟨d', hd', -⟩ := Cursor.exists_reads hr
      obtain rfl := (hd.trans hd').unique h₁
      exact Or.inl (Passes.seq (passes_text hd) (passes_some₁ hd' hne hb))
  exact ⟨_, _, Passes.seq (Passes.seq (Passes.seq (Passes.seq (Passes.seq (Passes.seq (Passes.seq
    (Passes.seq (Passes.seq (Passes.seq (Passes.seq (Passes.seq (passes_place rfl) htypedef)
    (passes_text h₂)) (passes_some₁ h₃ hne₁ hb₁)) (Passes.group (passes_some₁ h₄ h.head.word.1
    h.head.word.2))) (passes_many h₅ hb₂)) (passes_text h₆)) (Passes.group (passes_many h₇
    (Text.bne_of_notMem h.line)))) (passes_text h₈)) (passes_many h₉ hb₃)) (Passes.group
    (passes_many k₁ hw))) (passes_many k₂ hb₄)) (Passes.seq (passes_text k₃)
    (passes_place (by simp [hd₃])))⟩

/-- A text is a struct in one way only. -/
theorem unique {head' name' inner' last' typeName' : Text}
    (h : StructText t head name inner last typeName)
    (h' : StructText t head' name' inner' last' typeName') :
    name = name' ∧ inner = inner' ∧ typeName = typeName' := by
  have hwhole := h.whole.symm.trans h'.whole
  obtain rfl := Text.eq_of_notMem hwhole h.head.notMem h'.head.notMem
  obtain ⟨-, hbody⟩ := List.cons.inj (List.append_cancel_left hwhole)
  obtain rfl := Text.eq_of_notMem_right hbody h.last.notMem h'.last.notMem
  obtain ⟨-, rfl⟩ := List.cons.inj (List.append_cancel_left hbody)
  refine ⟨?_, rfl, h.last.unique h'.last⟩
  have hlast : head.symbols.getLast? = some name := by
    rcases h.head.symbols with hs | hs <;> rw [hs] <;> rfl
  have hlast' : head.symbols.getLast? = some name' := by
    rcases h'.head.symbols with hs | hs <;> rw [hs] <;> rfl
  exact Option.some_inj.1 (hlast.symm.trans hlast')

/-- What is found in a text as a struct. -/
theorem of_search {g : Match} (h : structPattern.search t = some g) :
    ∃ head last, StructText t head (g.get 1) (g.get 2) last (g.get 3) := by
  obtain ⟨s, c, hs, hpass⟩ := exists_reads_of_search h
  obtain ⟨marks, stop⟩ := g
  obtain ⟨_, d₇, _, ⟨_, d₆, _, ⟨_, d₅, _, ⟨_, d₄, _, ⟨_, d₃, _, ⟨_, d₂, _, ⟨_, d₁, _, hhead,
    ⟨hopening, rfl⟩, rfl⟩, ⟨_, ⟨⟨inner, hinner, hread⟩, rfl⟩, rfl⟩, rfl⟩, ⟨hclosing, rfl⟩, rfl⟩,
    ⟨⟨b₃, hb₃, h₃⟩, rfl⟩, rfl⟩, ⟨_, ⟨⟨w, hw, hword⟩, rfl⟩, rfl⟩, rfl⟩, ⟨⟨b₄, hb₄, h₄⟩, rfl⟩, rfl⟩,
    ⟨_, d₈, _, ⟨hsemicolon, rfl⟩, ⟨hend, hstop, rfl⟩, rfl⟩, hmarks⟩ := hpass
  obtain ⟨head, name, d, d', hstart, hreadHead, hstructHead, rfl, hreadName⟩ :=
    of_passes_structHead hhead
  obtain rfl := hs.eq_nil_of_prev hstart
  obtain rfl := hs.eq_of_nil
  have hend : d₈.rest = [] := List.isEmpty_iff.1 hend
  have hlast : IsStructEnd w (b₃ ++ (w ++ (b₄ ++ [';']))) := isStructEnd_iff.2
    ⟨b₃, b₄, rfl, List.all_eq_true.1 hb₃, List.all_eq_true.1 hw, List.all_eq_true.1 hb₄⟩
  have hline : '\n' ∉ inner := fun hmem ↦ absurd (List.all_eq_true.1 hinner _ hmem) (by decide)
  have hwhole : t = head ++ '\x7b' :: (inner ++ '\x7d' :: (b₃ ++ (w ++ (b₄ ++ [';'])))) := by
    have hrest := hreadHead.rest
    rw [hopening.rest, hread.rest, hclosing.rest, h₃.rest, hword.rest, h₄.rest, hsemicolon.rest,
      hend] at hrest
    exact hrest
  have hget {m : Match} (hm : m.marks = [(.opening 1, d), (.closing 1, d'), (.opening 2, d₂),
      (.closing 2, d₃), (.opening 3, d₅), (.closing 3, d₆)]) :
      m.get 1 = name ∧ m.get 2 = inner ∧ m.get 3 = w := by
    simp [Match.get, Match.get?, Match.place?, hm, hreadName.textTo, hread.textTo, hword.textTo]
  obtain ⟨h₁, h₂, h₃⟩ := hget hmarks
  rw [h₁, h₂, h₃]
  exact ⟨head, _, hwhole, hstructHead, hlast, hline⟩

/-- **The parts of a struct** are its name, what stands between its braces and its type name. -/
theorem parts? (h : StructText t head name inner last typeName) :
    structPattern.parts? 3 t = some [name, inner, typeName] := by
  obtain ⟨ms, c', hpass⟩ := h.exists_passes
  obtain ⟨g, hg⟩ := Option.isSome_iff_exists.1 (isSome_search_of_passes (.refl _) hpass)
  obtain ⟨head', last', h'⟩ := of_search hg
  obtain ⟨rfl, rfl, rfl⟩ := h.unique h'
  rw [Pattern.parts?, hg]
  rfl

/-- **Only the text of a struct** has such parts. -/
theorem of_parts? {parts : List Text} (h : structPattern.parts? 3 t = some parts) :
    ∃ head name inner last typeName, StructText t head name inner last typeName ∧
      parts = [name, inner, typeName] := by
  obtain ⟨g, hg, rfl⟩ := Option.map_eq_some_iff.1 h
  obtain ⟨head, last, hstruct⟩ := of_search hg
  exact ⟨head, _, _, last, _, hstruct, rfl⟩

end StructText

end HeaderBindings
