import HeaderBindings.Header.Names
import HeaderBindings.Proofs.Header.Tokens

/-!
# Reading type names back

`typedef type name;` is a type name: it begins with `typedef`, and the last word in front of the
semicolon is the name.  `struct`, `enum` and `union` right behind `typedef` are left out, and what
remains between there and the name is the type.

* `Pattern.run_named`: a lazy repetition that may read blanks and words stops in front of the name,
  because only the last word can stand right in front of the semicolon.
* `Pattern.run_lead`: a lead is passed over if there is one.
* `parts?_aliasPattern`: from a spelling of a type and a name the two are read back.
-/

set_option autoImplicit false

namespace HeaderBindings

open Cursor (start)

namespace Pattern

variable {c c' : Cursor} {m : Match} {k : Cursor → Option Match} {name v : Text}

/-! ## The name -/

/-- What is read behind the type. -/
def nameEnd : Pattern := blanks ++ (wordBoundary ++ (group 2 word₁ ++ (blanks ++ finalSemicolon)))

/-- **The name is the last word**: nothing but blanks may stand in front of it. -/
theorem isBlank_of_nameEnd {r : Text} {ms : List (Mark × Cursor)} (h : nameEnd.Passes c ms c')
    (hrest : c.rest = r ++ (name ++ (v ++ [';']))) (hname : isIdentifier name = true)
    (hr : ∀ x ∈ r.getLast?, isWordChar x = false) (hv : ∀ x ∈ v, isBlank x = true) :
    ∀ x ∈ r, isBlank x = true := by
  obtain ⟨_, c₁, _, ⟨⟨b, hb, h₁⟩, -⟩, ⟨_, _, _, ⟨hboundary, rfl, -⟩, ⟨_, c₂, _, ⟨_, hword, -⟩,
    ⟨_, c₃, _, ⟨⟨b', hb', h₃⟩, -⟩, ⟨_, c₄, _, ⟨h₄, -⟩, ⟨hend, rfl, -⟩, -⟩, -⟩, -⟩, -⟩, -⟩ := h
  obtain ⟨w, hne, hw, h₂⟩ := hword.some₁
  have hb := List.all_eq_true.1 hb
  have hw := List.all_eq_true.1 hw
  have hb' := List.all_eq_true.1 hb'
  have hstop : c'.rest = [] := List.isEmpty_iff.1 hend
  have hwhole : r ++ (name ++ (v ++ [';'])) = b ++ (w ++ (b' ++ [';'])) := by
    rw [← hrest, h₁.rest, h₂.rest, h₃.rest, h₄.rest, hstop]
    rfl
  -- Reversed, both sides are blanks behind a semicolon, then a longest word, then the rest.
  have hreversed : v.reverse ++ (name.reverse ++ r.reverse) =
      b'.reverse ++ (w.reverse ++ b.reverse) := by
    simpa using congrArg List.reverse hwhole
  have hlastName : ∀ x ∈ (name.reverse ++ r.reverse).head?, isBlank x = false := by
    rw [← List.reverse_append, List.head?_reverse]
    intro x hx
    rw [List.getLast?_append, List.getLast?_eq_some_getLast (ne_nil_of_isIdentifier hname),
      Option.some_or] at hx
    exact isBlank_of_isIdentChar
      (isIdentChar_of_mem hname x (Option.some_inj.1 hx ▸ List.getLast_mem _))
  have hlastWord : ∀ x ∈ (w.reverse ++ b.reverse).head?, isBlank x = false := by
    rw [← List.reverse_append, List.head?_reverse]
    intro x hx
    rw [List.getLast?_append, List.getLast?_eq_some_getLast hne, Option.some_or] at hx
    have hchar := hw x (Option.some_inj.1 hx ▸ List.getLast_mem hne)
    exact Bool.eq_false_iff.2 fun hx ↦ absurd ((isWordChar_of_isBlank hx).symm.trans hchar) (by simp)
  have hblanks := Text.eq_of_append_eq_of_forall hreversed (by simpa using hv) (by simpa using hb')
    hlastName hlastWord
  rw [hblanks] at hreversed
  have hwords := List.append_cancel_left hreversed
  have hfront : ∀ x ∈ b.getLast?, isWordChar x = false := fun x hx ↦
    isWordChar_of_isBlank (hb x (List.mem_of_getLast? hx))
  have heq := Text.eq_of_append_eq hwords (by simpa using isWordChar_of_mem hname)
    (by simpa using hw) (by simpa using hr) (by simpa using hfront)
  rw [heq] at hwords
  have hsame := List.reverse_inj.1 (List.append_cancel_left hwords)
  exact hsame ▸ hb

/-- From a place with more than blanks in front of the name nothing is read. -/
theorem run_nameEnd_eq_none {r : Text} (hrest : c.rest = r ++ (name ++ (v ++ [';'])))
    (hname : isIdentifier name = true) (hr : ∀ x ∈ r.getLast?, isWordChar x = false)
    (hv : ∀ x ∈ v, isBlank x = true) {y : Char} (hy : y ∈ r) (hblank : isBlank y = false) :
    nameEnd.run k c = none := by
  refine run_eq_none_of_passes fun ms c' hpass ↦ ?_
  have hblanks := isBlank_of_nameEnd hpass hrest hname hr hv
  exact absurd ((hblanks y hy).symm.trans hblank) (by simp)

/-- **The name is read** behind blanks. -/
theorem run_nameEnd {gap : Text} {c₁ c₂ : Cursor} (h₁ : c.Reads gap c₁) (h₂ : c₁.Reads name c₂)
    (hrest : c₂.rest = v ++ [';']) (hboundary : c₁.atWordBoundary = true)
    (hname : isIdentifier name = true) (hgap : ∀ x ∈ gap, isBlank x = true)
    (hv : ∀ x ∈ v, isBlank x = true) :
    ∃ e, nameEnd.run (fun c ↦ some (.empty c)) c =
      some (((Match.empty e).mark (.closing 2) c₂).mark (.opening 2) c₁) := by
  obtain ⟨c₃, h₃, hr₃⟩ := Cursor.exists_reads hrest
  obtain ⟨e, h₄, hr₄⟩ := Cursor.exists_reads (s := [';']) (r := []) hr₃
  have hend := run_blanks h₃ hv (run_finalSemicolon h₄ hr₄) (by rw [hr₃]; simp; decide)
  have hafter : ∀ x ∈ c₂.rest.head?, isWordChar x = false := by
    rw [hrest]
    intro x hx
    cases v with
    | nil =>
      obtain rfl : ';' = x := Option.some_inj.1 hx
      decide
    | cons y v =>
      obtain rfl : y = x := Option.some_inj.1 hx
      exact isWordChar_of_isBlank (hv y List.mem_cons_self)
  have hfirst : ∀ x ∈ c₁.rest.head?, isBlank x = false := by
    rw [h₂.rest]
    exact isBlank_of_mem_head? hname _
  have hword := run_group (p := .word₁) (run_some₁ h₂ (ne_nil_of_isIdentifier hname)
    (isWordChar_of_mem hname) (close_group (i := 2) hend) hafter)
  exact ⟨e, run_blanks h₁ hgap (run_place hboundary hword) hfirst⟩

/-- A character that may stand in the type of a type name. -/
abbrev isTypeChar (c : Char) : Bool := isWordChar c || isBlank c || c == '*'

/-- **The type stops in front of the name** and the blanks between them. -/
theorem run_named {core gap : Text} (hrest : c.rest = core ++ (gap ++ (name ++ (v ++ [';']))))
    (hsolid : core.IsSolid) (hcore : ∀ x ∈ core, isTypeChar x = true)
    (hgap : ∀ x ∈ gap, isBlank x = true)
    (hlast : ∀ x ∈ (core ++ gap).getLast?, isWordChar x = false)
    (hname : isIdentifier name = true) (hv : ∀ x ∈ v, isBlank x = true) :
    ∃ c₁ c₂ c₃ e, c.Reads core c₁ ∧ c₂.Reads name c₃ ∧
      (group 1 (lazySome isTypeChar)).run (nameEnd.run fun c ↦ some (.empty c)) c =
        some (((((Match.empty e).mark (.closing 2) c₃).mark (.opening 2) c₂).mark
          (.closing 1) c₁).mark (.opening 1) c) := by
  obtain ⟨c₁, h₁, hr₁⟩ := Cursor.exists_reads hrest
  obtain ⟨c₂, h₂, hr₂⟩ := Cursor.exists_reads hr₁
  obtain ⟨c₃, h₃, hr₃⟩ := Cursor.exists_reads hr₂
  have hboundary : c₂.atWordBoundary = true := by
    obtain ⟨x, r, hx, hstart, -⟩ := exists_cons_of_isIdentifier hname
    refine (h₁.trans h₂).atWordBoundary_front (List.append_ne_nil_of_left_ne_nil hsolid.ne_nil gap)
      hlast (isWordChar_of_isIdentChar (isIdentChar_of_isIdentStart hstart)) ?_
    rw [hr₂, hx]
    rfl
  obtain ⟨e, hnamed⟩ := run_nameEnd h₂ h₃ hr₃ hboundary hname hgap hv
  refine ⟨c₁, c₂, c₃, e, h₁, h₃, run_group (run_lazySome h₁ hsolid.ne_nil hcore (close_group hnamed)
    fun u w d hsplit _ hne hd ↦ ?_)⟩
  -- From an earlier place the last character of the type would have to be a blank.
  have hd' : d.rest = w ++ gap ++ (name ++ (v ++ [';'])) := by
    have hsame := hd.rest.symm.trans hrest
    rw [hsplit, List.append_assoc] at hsame
    rw [List.append_assoc]
    exact List.append_cancel_left hsame
  have hlast' : ∀ x ∈ (w ++ gap).getLast?, isWordChar x = false := by
    intro x hx
    refine hlast x ?_
    rw [hsplit, List.append_assoc, List.getLast?_append, Option.mem_def.1 hx]
    rfl
  obtain ⟨q, y, hq, hy⟩ := hsolid.last
  obtain ⟨w', z, rfl⟩ := List.eq_nil_or_concat' w |>.resolve_left hne
  rw [hsplit, ← List.append_assoc] at hq
  obtain rfl := List.singleton_inj.1 (List.append_inj' hq rfl).2
  have hnone : nameEnd.run (fun c ↦ some (.empty c)) d = none :=
    run_nameEnd_eq_none hd' hname hlast' hv (by simp) hy
  rw [hnone]
  rfl

/-! ## The word in front of the type -/

/-- The words that may be left out. -/
def leadPattern : Pattern := .either "struct" (.either "enum" "union")

theorem run_leadPattern {w : Text} (hw : w ∈ Token.leadWords) (h : c.Reads w c')
    (hk : k c' = some m) : leadPattern.run k c = some m := by
  have hother {t : Text} {x y : Char} (ht : t.head? = some x) (hy : w.head? = some y)
      (hne : x ≠ y) : (text t).run k c = none := by
    refine run_text_eq_none fun ⟨r, hr⟩ ↦ hne ?_
    have hfirst := congrArg List.head? (hr.trans h.rest)
    rw [List.head?_append, List.head?_append, ht, hy] at hfirst
    exact Option.some_inj.1 hfirst
  simp only [Token.leadWords, List.mem_cons, List.not_mem_nil, or_false] at hw
  rcases hw with rfl | rfl | rfl
  · exact run_left (run_text h hk)
  · exact run_right (hother rfl rfl (by decide)) (run_left (run_text h hk))
  · exact run_right (hother rfl rfl (by decide))
      (run_right (hother rfl rfl (by decide)) (run_text h hk))

theorem exists_reads_of_leadPattern {ms : List (Mark × Cursor)} (h : leadPattern.Passes c ms c') :
    ∃ w ∈ Token.leadWords, c.Reads w c' := by
  rcases h with ⟨h, -⟩ | ⟨h, -⟩ | ⟨h, -⟩ <;> exact ⟨_, by decide, h⟩

/-- **A lead is passed over**, and nothing else is. -/
theorem run_lead {lead : Text} (h : c.Reads lead c') (hlead : Spells.IsLeadOf lead c'.rest)
    (hr : ∀ x ∈ c'.rest.head?, isBlank x = false) (hk : k c' = some m) :
    (Pattern.optional (leadPattern ++ blanks₁)).run k c = some m := by
  rcases hlead with ⟨w, b, rfl, hw, hne, hb⟩ | ⟨rfl, w, y, s, hrest, hword, hw, hy⟩
  · obtain ⟨d, hd, hrest'⟩ := Cursor.exists_reads (h.rest.trans (List.append_assoc w b _))
    obtain ⟨d', hd', -⟩ := Cursor.exists_reads hrest'
    obtain rfl := (hd.trans hd').unique h
    exact run_left (run_leadPattern hw hd (run_blanks₁ hd' hne hb hk hr))
  · obtain rfl := h.eq_of_nil
    refine run_right (run_eq_none_of_passes ?_) (run_text (.refl c') hk)
    rintro ms d ⟨_, d', _, hpass, hblanks, -⟩
    obtain ⟨w', hw', hd'⟩ := exists_reads_of_leadPattern hpass
    obtain ⟨b, hne, hb, hd⟩ := hblanks.some₁
    have hsame : w ++ y :: s = w' ++ (b ++ d.rest) := by rw [← hrest, hd'.rest, hd.rest]
    have hwords : ∀ w ∈ Token.leadWords, isIdentifier w = true := by decide
    have heq := Text.eq_of_append_eq hsame (isWordChar_of_mem hword)
      (isWordChar_of_mem (hwords w' hw')) (by simpa using hy) fun x hx ↦ by
        obtain ⟨y, b, rfl⟩ := List.exists_cons_of_ne_nil hne
        obtain rfl : y = x := Option.some_inj.1 hx
        exact isWordChar_of_isBlank (List.all_eq_true.1 hb y List.mem_cons_self)
    exact hw (heq ▸ hw')

end Pattern

/-! ## Whole type names -/

/-- A type name as it stands on its line. -/
def aliasText (spelled : Text) : Text := typedefWord ++ ' ' :: (spelled ++ [';'])

section

variable {ts : List Token} {name : Identifier} {spelled : Text}

/-- **A type name's two parts**: a spelling of the type without a lead, and the name. -/
theorem parts?_aliasPattern (h : Spells spelled (ts ++ [.word name])) (hword : Token.HasType ts) :
    ∃ core, Spells core (Token.withoutLead ts) ∧
      aliasPattern.parts? 2 (aliasText spelled) = some [core, name.1] := by
  obtain ⟨u, t, v, rfl, hu, hv, hsolid, ht⟩ := h.exists_pad (by simp)
  obtain ⟨lead, r, rfl, hr, hhead, hlead⟩ := ht.exists_lead hword (by
    simpa using hsolid.isBlank_of_mem_head? [])
  obtain ⟨front, v', rfl, hv', hfront, hlast⟩ := hr.exists_name
  have hne : Token.withoutLead ts ≠ [] := by
    obtain ⟨w, rest, hcons⟩ := hword.withoutLead.exists_cons
    simp [hcons]
  have hfirst : ∀ t : Text, ∀ c ∈ (front ++ t).head?, isBlank c = false := by
    obtain ⟨x, r, rfl⟩ := List.exists_cons_of_ne_nil (hfront.ne_nil hne)
    have hx : isBlank x = false := hhead x rfl
    simpa using hx
  obtain ⟨core, gap, rfl, hcore, hgap, hspells⟩ := hfront.exists_core hne (by simpa using hfirst [])
  refine ⟨core, hspells, ?_⟩
  have htext : aliasText (u ++ (lead ++ (core ++ gap ++ name.1 ++ v')) ++ v) = typedefWord ++
      ((' ' :: u) ++ (lead ++ (core ++ (gap ++ (name.1 ++ (v' ++ v ++ [';'])))))) := by
    simp [aliasText]
  obtain ⟨c₁, h₁, hr₁⟩ := Cursor.exists_reads
    (c := start (aliasText (u ++ (lead ++ (core ++ gap ++ name.1 ++ v')) ++ v))) htext
  obtain ⟨c₂, h₂, hr₂⟩ := Cursor.exists_reads hr₁
  obtain ⟨c₃, h₃, hr₃⟩ := Cursor.exists_reads hr₂
  have hchars : ∀ x ∈ core, Pattern.isTypeChar x = true := by
    intro x hx
    rcases hspells.of_mem hx with hx | ⟨hx, -⟩ | rfl
    · simp [isWordChar_of_isIdentChar hx]
    · simp [hx]
    · decide
  obtain ⟨d₁, d₂, d₃, e, hreads, hreads', hrun⟩ := Pattern.run_named (v := v' ++ v) hr₃ hcore
    hchars hgap hlast name.2 (List.forall_mem_append.2 ⟨hv', hv⟩)
  have hleads := Pattern.run_lead h₃ (by simpa [hr₃] using hlead.append (v ++ [';']))
    (by simpa [hr₃] using hfirst (name.1 ++ (v' ++ v ++ [';']))) hrun
  have hblanks := Pattern.run_blanks₁ h₂ (by simp) (List.forall_mem_cons.2 ⟨by decide, hu⟩) hleads
    (by simpa [hr₂] using hsolid.isBlank_of_mem_head? (v ++ [';']))
  have hmatch : aliasPattern.matchAt (start _) = some _ :=
    Pattern.run_textStart (Pattern.run_text h₁ hblanks)
  rw [Pattern.parts?, Pattern.search_of_matchAt hmatch]
  simp [Match.get, Match.get?, Match.place?, Match.mark, Match.empty, hreads.textTo,
    hreads'.textTo, List.range_succ]

theorem aliasText_eq (spelled : Text) :
    aliasText spelled = typedefWord ++ ' ' :: spelled ++ [';'] := by simp [aliasText]

theorem isCode_aliasText (h : Spells spelled ts) : IsCode (aliasText spelled) := by
  rw [aliasText_eq]
  refine isCode_append ((beginsCode_of_isIdentifier isIdentifier_typedefWord).append _)
    (List.forall_mem_append.2 ⟨isInnerChar_of_mem isIdentifier_typedefWord,
      List.forall_mem_cons.2 ⟨by decide, h.isInnerChar_of_mem⟩⟩)
    (Text.isSolid_of_all (by decide) (by decide)) (by decide) (by decide)

/-- **A type name is read as one declaration** with two parts. -/
theorem aliasText_declares (h : Spells spelled (ts ++ [.word name])) (hword : Token.HasType ts) :
    ∃ core, Spells core (Token.withoutLead ts) ∧
      (Layout.mk (aliasText spelled) []).Declares aliasKind [core, name.1] := by
  obtain ⟨core, hcore, hparts⟩ := parts?_aliasPattern h hword
  have hjoined : (Layout.mk (aliasText spelled) []).joined = aliasText spelled :=
    joinWith_singleton _ _
  refine ⟨core, hcore, by simpa [Layout.pieces] using isCode_aliasText h, fun code hcode ↦ ?_,
    ⟨[], aliasText spelled, rfl, by simp, ?_⟩, ?_⟩
  · obtain rfl : aliasText spelled = code := Option.some_inj.1 hcode
    obtain ⟨m, hm, -⟩ := Option.map_eq_some_iff.1 hparts
    simp only [aliasKind, Pattern.occursIn, hm, Option.isSome_some]
  · rw [aliasText_eq]
    exact Pattern.occursIn_finalSemicolon _
  · simp only [aliasKind, hjoined, hparts]

/-- The type of a callback's result, or of a type name, is the tokens but for `const`. -/
theorem Spells.plainType (h : Spells spelled ts) :
    HeaderBindings.plainType spelled = Token.flat (Token.plain ts) :=
  h.removeAll_const.withoutBlanks

/-- **What is read from a type name** is the name and the type without its lead. -/
theorem aliases_aliasText (h : Spells spelled (ts ++ [.word name])) (hword : Token.HasType ts) :
    aliases (aliasText spelled ++ ['\n']) =
      [(name.1, Token.flat (Token.plain (Token.withoutLead ts)))] := by
  obtain ⟨core, hcore, hdeclares⟩ := aliasText_declares h hword
  have hfound := Layout.blocks_text hdeclares
  rw [Layout.text, List.flatMap_nil, List.append_nil] at hfound
  rw [aliases, hfound, ← hcore.plainType]
  rfl

end

end HeaderBindings
