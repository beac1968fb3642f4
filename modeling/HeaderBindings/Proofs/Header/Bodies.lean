import HeaderBindings.Header.Structs
import HeaderBindings.Proofs.Header.Layout
import HeaderBindings.Proofs.Text.Finding

/-!
# Declarations with a body

Enumerations and structs are written alike: perhaps `typedef`, a keyword and a tag, a body in
braces, perhaps a type name, and a semicolon.  What the two share is dealt with here once for both.

* `bodyHead` and `bodyEnd` are the texts in front of the opening brace and from the closing brace
  on, and both are code (`isCode_bodyHead`, `isCode_bodyEnd`).
* `Pattern.run_optionalTypedef` and `Pattern.run_body` follow the common parts of the two patterns,
  in front of the keyword and from the opening brace on.
* `Pattern.occursIn_finalSemicolon` and `Pattern.occursIn_finalSemicolon_eq_false`: a line ends a
  declaration if a semicolon ends the line, and no line without a semicolon does.
-/

set_option autoImplicit false

namespace HeaderBindings

open Cursor (start)

/-! ## Words around a body -/

/-- An ASCII identifier. -/
abbrev Identifier := { w : Text // isIdentifier w = true }

/-- The word that the declaration of a type name begins with. -/
def typedefWord : Text := "typedef"

@[simp]
theorem isIdentifier_typedefWord : isIdentifier typedefWord = true := by decide

/-- The word that the declaration of a struct begins with. -/
def structWord : Text := "struct"

@[simp]
theorem isIdentifier_structWord : isIdentifier structWord = true := by decide

/-- The word and a blank in front of a declaration, or nothing. -/
def typedefLead (typedef : Bool) : Text := if typedef then typedefWord ++ [' '] else []

/-- A name and a blank in front of it, or nothing. -/
def afterBlank : Option Identifier → Text
  | some w => ' ' :: w.1
  | none => []

/-- The name, or the empty text. -/
def nameOf : Option Identifier → Text
  | some w => w.1
  | none => []

/-- The blanks in front of the name end where it begins. -/
theorem exists_afterBlank (name : Option Identifier) : ∃ u, afterBlank name = u ++ nameOf name ∧
    (∀ c ∈ u, isBlank c = true) ∧ (∀ c ∈ nameOf name, isWordChar c = true) ∧
      ∀ c ∈ (nameOf name ++ [';']).head?, isBlank c = false := by
  cases name with
  | some w =>
    exact ⟨[' '], rfl, by simp; decide, isWordChar_of_mem w.2, isBlank_of_mem_head? w.2 _⟩
  | none => exact ⟨[], rfl, by simp, by simp [nameOf], by simp [nameOf]; decide⟩

/-- The text up to a body: perhaps `typedef`, a keyword and perhaps a tag. -/
def bodyHead (typedef : Bool) (keyword : Text) (tag : Option Identifier) : Text :=
  typedefLead typedef ++ keyword ++ afterBlank tag

/-- The text from the closing brace on. -/
def bodyEnd (name : Option Identifier) : Text := '\x7d' :: (afterBlank name ++ [';'])

theorem notMem_afterBlank {c : Char} (hspace : c ≠ ' ') (hchar : isIdentChar c = false) :
    ∀ name : Option Identifier, c ∉ afterBlank name
  | none => List.not_mem_nil
  | some w => by
    rw [afterBlank, List.mem_cons, not_or]
    exact ⟨hspace, notMem_of_isIdentifier w.2 hchar⟩

theorem notMem_bodyHead {keyword : Text} (hkeyword : isIdentifier keyword = true) {c : Char}
    (hspace : c ≠ ' ') (hchar : isIdentChar c = false) (typedef : Bool) (tag : Option Identifier) :
    c ∉ bodyHead typedef keyword tag := by
  have hword {w : Text} (hw : isIdentifier w = true) : c ∉ w := notMem_of_isIdentifier hw hchar
  have htypedef : c ∉ typedefLead typedef := by
    cases typedef with
    | true => simp [typedefLead, hword isIdentifier_typedefWord, hspace]
    | false => exact List.not_mem_nil
  simp [bodyHead, htypedef, hword hkeyword, notMem_afterBlank hspace hchar]

theorem isCode_bodyHead {keyword : Text} (hkeyword : isIdentifier keyword = true) (typedef : Bool)
    (tag : Option Identifier) : IsCode (bodyHead typedef keyword tag) := by
  have hfront : BeginsCode (typedefLead typedef ++ keyword) := by
    cases typedef with
    | true => exact ((beginsCode_of_isIdentifier isIdentifier_typedefWord).append _).append _
    | false => exact beginsCode_of_isIdentifier hkeyword
  have hline := notMem_bodyHead hkeyword (c := '\n') (by decide) (by decide) typedef tag
  have hslash := notMem_bodyHead hkeyword (c := '/') (by decide) (by decide) typedef tag
  rw [bodyHead] at hline hslash ⊢
  cases tag with
  | some w =>
    rw [afterBlank, ← List.singleton_append, ← List.append_assoc] at hline hslash ⊢
    exact isCode_of_beginsCode ((hfront.append _).append _) (Text.isSolid_of_isIdentifier w.2) hline
      hslash
  | none =>
    rw [afterBlank, List.append_nil] at hline hslash ⊢
    exact isCode_of_beginsCode hfront (Text.isSolid_of_isIdentifier hkeyword) hline hslash

theorem isCode_openingBrace : IsCode ['\x7b'] :=
  isCode_of_beginsCode (s := []) ⟨'\x7b', [], rfl, by decide, by decide, by decide⟩
    (Text.isSolid_of_all (by decide) (by decide)) (by decide) (by decide)

theorem isCode_bodyEnd (name : Option Identifier) : IsCode (bodyEnd name) := by
  have hnotMem {c : Char} (hspace : c ≠ ' ') (hchar : isIdentChar c = false)
      (hc : c ∉ ['\x7d', ';']) : c ∉ bodyEnd name := by
    simp only [List.mem_cons, List.not_mem_nil, or_false, not_or] at hc
    simp [bodyEnd, hc, notMem_afterBlank hspace hchar]
  refine isCode_of_beginsCode (s := '\x7d' :: afterBlank name) (t := [';'])
    ⟨'\x7d', _, rfl, by decide, by decide, by decide⟩
    (Text.isSolid_of_all (by decide) (by decide)) ?_ ?_
  · exact hnotMem (by decide) (by decide) (by decide)
  · exact hnotMem (by decide) (by decide) (by decide)

namespace Pattern

variable {c c' : Cursor} {m : Match} {k : Cursor → Option Match} {t : Text}

/-! ## Matching -/

/-- The word `typedef` is passed over if it is there. -/
theorem run_optionalTypedef {typedef : Bool} (h : c.Reads (typedefLead typedef) c')
    (hk : k c' = some m) (hhead : ∀ x ∈ c'.rest.head?, isBlank x = false ∧ x ≠ 't') :
    optionalTypedef.run k c = some m := by
  cases typedef with
  | true =>
    obtain ⟨d, hd, hrest⟩ := Cursor.exists_reads (s := typedefWord) (r := ' ' :: c'.rest)
      (by rw [h.rest]; simp [typedefLead])
    obtain ⟨d', hd', -⟩ := Cursor.exists_reads (s := [' ']) hrest
    obtain rfl := (hd.trans hd').unique h
    exact run_left (run_text hd (run_blanks₁ hd' (by simp) (by simp; decide) hk
      fun x hx ↦ (hhead x hx).1))
  | false =>
    obtain rfl := Cursor.Reads.eq_of_nil h
    refine run_right (run_text_eq_none fun hfront ↦ ?_) (run_text (.refl c') hk)
    obtain ⟨r, hr⟩ := hfront
    exact (hhead 't' (by rw [← hr]; rfl)).2 rfl

theorem passes_optionalTypedef {typedef : Bool} (h : c.Reads (typedefLead typedef) c') :
    optionalTypedef.Passes c [] c' := by
  cases typedef with
  | true =>
    obtain ⟨d, hd, hrest⟩ := Cursor.exists_reads (s := typedefWord) (r := ' ' :: c'.rest)
      (by rw [h.rest]; simp [typedefLead])
    obtain ⟨d', hd', -⟩ := Cursor.exists_reads (s := [' ']) hrest
    obtain rfl := (hd.trans hd').unique h
    exact Or.inl (Passes.seq (passes_text hd) (passes_some₁ hd' (by simp) (by simp; decide)))
  | false => exact Or.inr (passes_text h)

theorem run_finalSemicolon (h : c.Reads [';'] c') (hend : c'.rest = []) :
    finalSemicolon.run (fun c ↦ some (.empty c)) c = some (.empty c') :=
  run_text h (run_place (by simp [hend]) rfl)

@[simp]
theorem occursIn_finalSemicolon (s : Text) : finalSemicolon.occursIn (s ++ [';']) = true := by
  obtain ⟨c, hs, hrest⟩ := Cursor.exists_reads (c := start (s ++ [';'])) rfl
  obtain ⟨c', h, hrest'⟩ := Cursor.exists_reads (s := [';']) (r := []) hrest
  exact isSome_search_of_passes hs (Passes.seq (passes_text h) (passes_place (by simp [hrest'])))

/-- Nothing ends without a semicolon. -/
theorem semicolon_mem_of_passes {ms : List (Mark × Cursor)} (h : finalSemicolon.Passes c ms c') :
    ';' ∈ c.rest := by
  obtain ⟨_, d, _, ⟨hsemicolon, -⟩, -, -⟩ := h
  rw [hsemicolon.rest]
  exact List.mem_cons_self

theorem occursIn_finalSemicolon_eq_false (h : ';' ∉ t) : finalSemicolon.occursIn t = false := by
  rw [← Bool.not_eq_true, occursIn_iff]
  rintro ⟨s, c, hs, _, c', hpass⟩
  have hwhole : t = _ := hs.rest
  rw [hwhole] at h
  exact h (List.mem_append_right s (semicolon_mem_of_passes hpass))

/-- **A body** goes on up to the last brace, behind which the type name stands. -/
theorem run_body {inner : Text} {name : Option Identifier} (hinner : '\n' ∉ inner)
    (hrest : c.rest = '\x7b' :: (inner ++ bodyEnd name)) :
    ∃ c₁ c₂ c₃ c₄ c₅, c₁.Reads inner c₂ ∧ c₃.Reads (nameOf name) c₄ ∧
      (text ['\x7b']).run ((group 2 anything).run ((text ['\x7d']).run (blanks.run
        ((group 3 word).run (blanks.run (finalSemicolon.run fun c ↦ some (.empty c))))))) c =
        some (((((Match.empty c₅).mark (.closing 3) c₄).mark (.opening 3) c₃).mark
          (.closing 2) c₂).mark (.opening 2) c₁) := by
  obtain ⟨c₁, h₁, hr₁⟩ := Cursor.exists_reads (s := ['\x7b']) hrest
  obtain ⟨c₂, h₂, hr₂⟩ := Cursor.exists_reads hr₁
  obtain ⟨d, hd, hrd⟩ := Cursor.exists_reads (s := ['\x7d']) (r := afterBlank name ++ [';']) hr₂
  obtain ⟨u, hu, hblanks, hword, hhead⟩ := exists_afterBlank name
  rw [hu, List.append_assoc] at hrd
  obtain ⟨c₃, h₃, hr₃⟩ := Cursor.exists_reads hrd
  obtain ⟨c₄, h₄, hr₄⟩ := Cursor.exists_reads hr₃
  obtain ⟨c₅, h₅, hr₅⟩ := Cursor.exists_reads (s := [';']) (r := []) hr₄
  have hend := run_noBlanks (run_finalSemicolon h₅ hr₅) (by rw [hr₄]; simp; decide)
  have hname := run_group (i := 3) (run_greedy_of_head h₄ hword (close_group hend)
    (by rw [hr₄]; simp; decide))
  have hrun := run_blanks h₃ hblanks hname (by rw [hr₃]; exact hhead)
  have hlast : '\x7d' ∉ afterBlank name ++ [';'] := by
    simp [notMem_afterBlank (c := '\x7d') (by decide) (by decide)]
  exact ⟨c₁, c₂, c₃, c₄, c₅, h₂, h₄, run_text h₁ (run_group_of_last h₂
    (Text.bne_of_notMem hinner) hr₂ hlast (run_text hd hrun))⟩

end Pattern

end HeaderBindings
