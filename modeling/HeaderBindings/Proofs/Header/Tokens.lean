import HeaderBindings.Proofs.Header.Bodies
import HeaderBindings.Proofs.Header.Declarators
import Mathlib.Data.List.Induction

/-!
# Words and stars

A type is spelled with words and stars, and with blanks between them that mean nothing, except that
two words need one.  `Spells t ts` says that the text `t` is a spelling of the tokens `ts`.

Whatever is done to the text of a type can be said of its tokens.

* `Spells.withoutBlanks`: without its blanks the text is the tokens next to each other.
* `Spells.removeAll_const`: what is left when `const` is removed is a spelling of the other tokens.
* `Spells.exists_pad`: outer blanks may be left out.
* `Spells.exists_name`: a name at the end stands behind a spelling of what comes before it.
* `Spells.dropQualifiers`: leading qualifiers are dropped token by token.
* `Spells.exists_lead`: a first word like `struct` is told from the type behind it.
* `Spells.of_isSpelling`: of a given text it can be computed that it is a spelling.
-/

set_option autoImplicit false

namespace HeaderBindings

open Pattern

/-! ## Blanks around something else -/

/-- A text that is not all of one sort has a first character of another one. -/
theorem exists_first_of_mem {p : Char → Bool} {t : Text} {x : Char} (hx : x ∈ t)
    (hp : p x = false) : ∃ u c s, t = u ++ c :: s ∧ (∀ c ∈ u, p c = true) ∧ p c = false := by
  induction t with
  | nil => exact absurd hx List.not_mem_nil
  | cons c t ih =>
    cases hc : p c with
    | false => exact ⟨[], c, t, rfl, by simp, hc⟩
    | true =>
      have hmore : x ∈ t := (List.mem_cons.1 hx).resolve_left fun heq ↦
        absurd (heq ▸ hp) (by simp [hc])
      obtain ⟨u, d, s, rfl, hu, hd⟩ := ih hmore
      exact ⟨c :: u, d, s, rfl, List.forall_mem_cons.2 ⟨hc, hu⟩, hd⟩

/-- And a last one. -/
theorem exists_last_of_mem {p : Char → Bool} {t : Text} {x : Char} (hx : x ∈ t)
    (hp : p x = false) : ∃ s c v, t = s ++ [c] ++ v ∧ (∀ c ∈ v, p c = true) ∧ p c = false := by
  obtain ⟨v, c, s, hreverse, hv, hc⟩ := exists_first_of_mem (List.mem_reverse.2 hx) hp
  refine ⟨s.reverse, c, v.reverse, ?_, by simpa using hv, hc⟩
  rw [← List.reverse_reverse t, hreverse]
  simp

/-- A text that is not all blanks is code between blanks. -/
theorem exists_pad_of_mem {t : Text} {x : Char} (hx : x ∈ t) (hsolid : isBlank x = false) :
    ∃ u s v, t = u ++ s ++ v ∧ (∀ c ∈ u, isBlank c = true) ∧ (∀ c ∈ v, isBlank c = true) ∧
      s.IsSolid := by
  obtain ⟨u, c, r, rfl, hu, hc⟩ := exists_first_of_mem hx hsolid
  obtain ⟨s, d, v, hcode, hv, hd⟩ := exists_last_of_mem (t := c :: r) List.mem_cons_self hc
  refine ⟨u, s ++ [d], v, by rw [hcode, List.append_assoc u], hu, hv, ?_, ⟨s, d, rfl, hd⟩⟩
  cases s with
  | nil => exact ⟨d, [], rfl, hd⟩
  | cons y s =>
    obtain ⟨rfl, -⟩ := List.cons.inj hcode
    exact ⟨c, s ++ [d], rfl, hc⟩

/-! ## Tokens -/

/-- What a type is spelled with. -/
inductive Token where
  | word (w : Identifier)
  | star
deriving DecidableEq

namespace Token

def text : Token → Text
  | word w => w.1
  | star => ['*']

/-- The tokens next to each other. -/
def flat (ts : List Token) : Text := ts.flatMap text

/-- The word `const`. -/
def const : Token := word ⟨"const", by decide⟩

def isWord : Token → Bool
  | word _ => true
  | star => false

/-- A word that may stand in front of a type without being a part of it. -/
def isQualifier : Token → Bool
  | word w => w.1 ∈ Declarator.qualifiers
  | star => false

theorem text_ne_nil : ∀ token : Token, token.text ≠ []
  | word w => ne_nil_of_isIdentifier w.2
  | star => by simp [text]

theorem isBlank_of_mem_text : ∀ (token : Token), ∀ c ∈ token.text, isBlank c = false
  | word w => fun c hc ↦ isBlank_of_isIdentChar (isIdentChar_of_mem w.2 c hc)
  | star => by simp [text]; decide

@[simp]
theorem flat_append (ts ts' : List Token) : flat (ts ++ ts') = flat ts ++ flat ts' :=
  List.flatMap_append

theorem flat_eq_nil_iff {ts : List Token} : flat ts = [] ↔ ts = [] := by
  refine ⟨fun h ↦ List.eq_nil_iff_forall_not_mem.2 fun token hmem ↦ ?_, fun h ↦ by rw [h]; rfl⟩
  exact token.text_ne_nil (List.flatMap_eq_nil_iff.1 h token hmem)

/-! ### The tokens that count -/

/-- The tokens other than `const`. -/
def plain (ts : List Token) : List Token := ts.filter (· ≠ const)

/-- And without leading qualifiers. -/
def declared (ts : List Token) : List Token := (plain ts).dropWhile isQualifier

/-- The words that a type may have in front of it behind `typedef`. -/
def leadWords : List Text := ["struct", "enum", "union"]

def isLead : Token → Bool
  | word w => w.1 ∈ leadWords
  | star => false

/-- The tokens behind such a word, if there is one. -/
def withoutLead : List Token → List Token
  | [] => []
  | token :: ts => if token.isLead then ts else token :: ts

theorem word_eq_const_iff {w : Identifier} : word w = const ↔ w.1 = "const" := by
  rw [const, word.injEq, Subtype.ext_iff]

theorem plain_cons_of_ne {token : Token} (h : token ≠ const) (ts : List Token) :
    plain (token :: ts) = token :: plain ts := List.filter_cons_of_pos (by simpa using h)

@[simp]
theorem plain_const_cons (ts : List Token) : plain (const :: ts) = plain ts :=
  List.filter_cons_of_neg (by simp)

theorem plain_concat {w : Identifier} (hw : w.1 ≠ "const") (ts : List Token) :
    plain (ts ++ [word w]) = plain ts ++ [word w] := by
  rw [plain, List.filter_append]
  exact congrArg (plain ts ++ ·) (plain_cons_of_ne (word_eq_const_iff.not.2 hw) [])

/-- A lead is a qualifier, and so it is not `const`. -/
theorem of_isLead {token : Token} (h : token.isLead = true) :
    token.isQualifier = true ∧ token ≠ const := by
  have hleads : ∀ w ∈ leadWords, w ∈ Declarator.qualifiers ∧ w ≠ "const" := by decide
  cases token with
  | star => simp [isLead] at h
  | word w =>
    obtain ⟨hq, hne⟩ := hleads w.1 (by simpa [isLead] using h)
    exact ⟨by simpa [isQualifier] using hq, word_eq_const_iff.not.2 hne⟩

/-- A lead does not matter where leading qualifiers are dropped. -/
@[simp]
theorem declared_withoutLead (ts : List Token) : declared (withoutLead ts) = declared ts := by
  cases ts with
  | nil => rfl
  | cons token ts =>
    rw [withoutLead]
    split
    · rename_i hlead
      obtain ⟨hq, hne⟩ := of_isLead hlead
      rw [declared, declared, plain_cons_of_ne hne, List.dropWhile_cons_of_pos hq]
    · rfl

/-- **Nothing is dropped** just if no qualifier leads. -/
theorem flat_plain_eq_iff (ts : List Token) : flat (plain ts) = flat (declared ts) ↔
    ∀ token ∈ (plain ts).head?, token.isQualifier = false := by
  have hsplit : flat (plain ts) = flat ((plain ts).takeWhile isQualifier) ++ flat (declared ts) := by
    rw [declared, ← flat_append, List.takeWhile_append_dropWhile]
  rw [hsplit, List.append_left_eq_self, flat_eq_nil_iff]
  cases plain ts with
  | nil => simp
  | cons token ts => cases h : token.isQualifier <;> simp [h]

/-- If no qualifier leads, there is no lead either. -/
theorem withoutLead_eq {ts : List Token}
    (h : ∀ token ∈ (plain ts).head?, token.isQualifier = false) : withoutLead ts = ts := by
  cases ts with
  | nil => rfl
  | cons token ts =>
    refine if_neg fun hlead ↦ ?_
    obtain ⟨hq, hne⟩ := of_isLead hlead
    exact absurd (hq.symm.trans (h token (by rw [plain_cons_of_ne hne]; rfl))) (by simp)

/-- There is a type: a word that is neither `const` nor a leading qualifier. -/
def HasType (ts : List Token) : Prop := ∃ w rest, declared ts = word w :: rest

theorem HasType.exists_cons {ts : List Token} (h : HasType ts) : ∃ w rest, ts = word w :: rest := by
  obtain ⟨w, rest, h⟩ := h
  cases ts with
  | nil => simp [declared, plain] at h
  | cons token ts =>
    cases token with
    | word w => exact ⟨w, ts, rfl⟩
    | star =>
      have hne : star ≠ const := by decide
      simp [declared, plain_cons_of_ne hne, isQualifier] at h

theorem HasType.withoutLead {ts : List Token} (h : HasType ts) : HasType (withoutLead ts) := by
  rwa [HasType, declared_withoutLead]

end Token

open Token

/-- The text is a spelling of the tokens: between them blanks may stand on the same line, and
behind a word no other word comes without one. -/
inductive Spells : Text → List Token → Prop
  | nil : Spells [] []
  | blank {c : Char} {t : Text} {ts : List Token} (hc : isBlank c = true) (hline : c ≠ '\n')
      (h : Spells t ts) : Spells (c :: t) ts
  | star {t : Text} {ts : List Token} (h : Spells t ts) : Spells ('*' :: t) (.star :: ts)
  | word (w : Identifier) {t : Text} {ts : List Token}
      (hend : ∀ c ∈ t.head?, isWordChar c = false) (h : Spells t ts) :
      Spells (w.1 ++ t) (.word w :: ts)

namespace Spells

variable {t : Text} {ts : List Token} {name : Identifier}

/-! ## Characters -/

theorem of_mem (h : Spells t ts) {c : Char} (hc : c ∈ t) :
    isIdentChar c = true ∨ (isBlank c = true ∧ c ≠ '\n') ∨ c = '*' := by
  induction h with
  | nil => exact absurd hc List.not_mem_nil
  | blank hblank hline _ ih =>
    rcases List.mem_cons.1 hc with rfl | hc
    · exact Or.inr (Or.inl ⟨hblank, hline⟩)
    · exact ih hc
  | star _ ih =>
    rcases List.mem_cons.1 hc with rfl | hc
    · exact Or.inr (Or.inr rfl)
    · exact ih hc
  | word w _ _ ih =>
    rcases List.mem_append.1 hc with hc | hc
    · exact Or.inl (isIdentChar_of_mem w.2 c hc)
    · exact ih hc

/-- No character of another kind stands in a spelling. -/
theorem notMem (h : Spells t ts) {c : Char} (hchar : isIdentChar c = false)
    (hblank : isBlank c = false ∨ c = '\n') (hstar : c ≠ '*') : c ∉ t := by
  intro hc
  rcases h.of_mem hc with hword | ⟨hb, hline⟩ | heq
  · exact absurd (hword.symm.trans hchar) (by simp)
  · rcases hblank with hblank | rfl
    · exact absurd (hb.symm.trans hblank) (by simp)
    · exact hline rfl
  · exact hstar heq

theorem isInnerChar_of_mem (h : Spells t ts) : ∀ c ∈ t, isInnerChar c = true := by
  intro c hc
  have hnotMem {x : Char} (hchar : isIdentChar x = false) (hblank : isBlank x = false ∨ x = '\n')
      (hstar : x ≠ '*') : c ≠ x := by
    rintro rfl
    exact h.notMem hchar hblank hstar hc
  rw [isInnerChar, decide_eq_true_eq]
  simp only [List.mem_cons, List.not_mem_nil, or_false, not_or]
  exact ⟨hnotMem (by decide) (by decide) (by decide), hnotMem (by decide) (by decide) (by decide),
    hnotMem (by decide) (by decide) (by decide), hnotMem (by decide) (by decide) (by decide),
    hnotMem (by decide) (by decide) (by decide)⟩

/-- **Without its blanks** a spelling is the tokens next to each other. -/
theorem withoutBlanks (h : Spells t ts) : t.withoutBlanks = flat ts := by
  have hkept (token : Token) : token.text.withoutBlanks = token.text :=
    List.filter_eq_self.2 fun c hc ↦ by simp [token.isBlank_of_mem_text c hc]
  induction h with
  | nil => rfl
  | blank hc _ _ ih => rw [Text.withoutBlanks_cons_of_isBlank hc, ih]
  | @star t ts _ ih =>
    have hstar := hkept .star
    rw [← List.singleton_append, Text.withoutBlanks_append, ih]
    exact congrArg (· ++ flat ts) hstar
  | @word w t ts _ _ ih =>
    have hword := hkept (.word w)
    rw [Text.withoutBlanks_append, ih]
    exact congrArg (· ++ flat ts) hword

theorem ne_nil (h : Spells t ts) (hne : ts ≠ []) : t ≠ [] := by
  rintro rfl
  exact hne (Token.flat_eq_nil_iff.1 h.withoutBlanks.symm)

/-! ## Blanks around a spelling -/

theorem of_blank_cons {c : Char} (hc : isBlank c = true) (h : Spells (c :: t) ts) :
    Spells t ts := by
  generalize heq : c :: t = s at h
  cases h with
  | nil => simp at heq
  | blank _ _ h => exact (List.cons.inj heq).2 ▸ h
  | star =>
    obtain rfl := (List.cons.inj heq).1
    exact absurd hc (by decide)
  | word w =>
    have hfirst := isBlank_of_mem_head? w.2 _ c (by rw [← heq]; rfl)
    exact absurd (hc.symm.trans hfirst) (by simp)

theorem of_append_blank {c : Char} (hc : isBlank c = true) (h : Spells (t ++ [c]) ts) :
    Spells t ts := by
  generalize heq : t ++ [c] = s at h
  induction h generalizing t with
  | nil => simp at heq
  | blank hblank hline h ih =>
    cases t with
    | nil =>
      obtain ⟨-, rfl⟩ := List.cons.inj heq
      exact h
    | cons x t =>
      obtain ⟨rfl, hmore⟩ := List.cons.inj heq
      exact .blank hblank hline (ih hmore)
  | star h ih =>
    cases t with
    | nil =>
      obtain rfl := (List.cons.inj heq).1
      exact absurd hc (by decide)
    | cons x t =>
      obtain ⟨rfl, hmore⟩ := List.cons.inj heq
      exact .star (ih hmore)
  | @word w s ts hend h ih =>
    rcases List.eq_nil_or_concat' s with rfl | ⟨s, x, rfl⟩
    · have hlast : c ∈ w.1 := by
        rw [List.append_nil] at heq
        exact heq ▸ List.mem_append_right t List.mem_cons_self
      exact absurd (hc.symm.trans ((Token.word w).isBlank_of_mem_text c hlast)) (by simp)
    · rw [← List.append_assoc] at heq
      obtain ⟨rfl, hx⟩ := List.append_inj' heq rfl
      refine .word w (fun c hc ↦ hend c ?_) (ih (by rw [hx]))
      cases s with
      | nil => exact absurd hc (by simp)
      | cons y s => exact hc

theorem of_pad {u v : Text} (hu : ∀ c ∈ u, isBlank c = true) (hv : ∀ c ∈ v, isBlank c = true)
    (h : Spells (u ++ t ++ v) ts) : Spells t ts := by
  have hfront : Spells (t ++ v) ts := by
    clear hv
    induction u with
    | nil => exact h
    | cons c u ih =>
      rw [List.forall_mem_cons] at hu
      exact ih hu.2 (of_blank_cons hu.1 h)
  clear h
  induction v using List.reverseRecOn with
  | nil => simpa using hfront
  | append_singleton v c ih =>
    rw [← List.append_assoc] at hfront
    exact ih (fun x hx ↦ hv x (List.mem_append_left [c] hx))
      (of_append_blank (hv c (by simp)) hfront)

/-- **Outer blanks may be left out.** -/
theorem exists_pad (h : Spells t ts) (hne : ts ≠ []) : ∃ u s v, t = u ++ s ++ v ∧
    (∀ c ∈ u, isBlank c = true) ∧ (∀ c ∈ v, isBlank c = true) ∧ s.IsSolid ∧ Spells s ts := by
  obtain ⟨x, hx, hsolid⟩ : ∃ x ∈ t, isBlank x = false := by
    obtain ⟨token, ts, rfl⟩ := List.exists_cons_of_ne_nil hne
    obtain ⟨x, r, htoken⟩ := List.exists_cons_of_ne_nil token.text_ne_nil
    have hx : x ∈ t.withoutBlanks := by
      rw [h.withoutBlanks, flat, List.flatMap_cons, htoken]
      simp
    obtain ⟨hmem, hblank⟩ := List.mem_filter.1 hx
    exact ⟨x, hmem, by simpa using hblank⟩
  obtain ⟨u, s, v, rfl, hu, hv, hs⟩ := exists_pad_of_mem hx hsolid
  exact ⟨u, s, v, rfl, hu, hv, hs, of_pad hu hv h⟩

theorem trimStart (h : Spells t ts) : Spells t.trimStart ts := by
  induction t with
  | nil => exact h
  | cons c t ih =>
    rw [Text.trimStart, List.dropWhile_cons]
    split
    · exact ih (of_blank_cons ‹_› h)
    · exact h

/-- Between two words a blank stands. -/
theorem exists_blank_of_word {w : Identifier} (h : Spells t (.word w :: ts))
    (hend : ∀ c ∈ t.head?, isWordChar c = false) : ∃ c r, t = c :: r ∧ isBlank c = true := by
  cases h with
  | blank hblank => exact ⟨_, _, rfl, hblank⟩
  | word =>
    obtain ⟨x, s, hw, hx, -⟩ := exists_cons_of_isIdentifier w.2
    have hword := hend x (by simp [hw])
    have hchar := isWordChar_of_isIdentChar (isIdentChar_of_isIdentStart hx)
    exact absurd (hchar.symm.trans hword) (by simp)

/-! ## What is taken away from a spelling -/

/-- **Without `const`** a text is a spelling of the other tokens. -/
theorem removeAll_const (h : Spells t ts) :
    Spells (Declarator.constWord.removeAll t) (plain ts) := by
  induction h with
  | nil => exact .nil
  | blank hblank hline h ih =>
    rw [Declarator.removeAll_cons (isWordChar_of_isBlank hblank)]
    exact .blank hblank hline ih
  | star h ih =>
    rw [Declarator.removeAll_cons (by decide), plain_cons_of_ne (by decide)]
    exact .star ih
  | @word w t ts hend h ih =>
    have hword : Declarator.constWord.removeAll w.1 = runWithout "const" w.1 :=
      removeAll_run Declarator.const_ne_nil Declarator.isWordChar_of_mem_const
        (isWordChar_of_mem w.2)
    rw [Declarator.removeAll_append w.1 hend, hword, runWithout]
    by_cases hw : w.1 = "const"
    · rw [if_pos hw, List.nil_append, word_eq_const_iff.2 hw, plain_const_cons]
      exact ih
    · rw [if_neg hw, plain_cons_of_ne (word_eq_const_iff.not.2 hw)]
      exact .word w (Declarator.head?_removeAll hend) ih

/-- A first word stands at the beginning if no blank does. -/
theorem exists_of_word {w : Identifier} (h : Spells t (.word w :: ts))
    (hfirst : ∀ c ∈ t.head?, isBlank c = false) :
    ∃ r, t = w.1 ++ r ∧ (∀ c ∈ r.head?, isWordChar c = false) ∧ Spells r ts := by
  cases h with
  | blank hblank => exact absurd (hblank.symm.trans (hfirst _ rfl)) (by simp)
  | word _ hend h => exact ⟨_, rfl, hend, h⟩

/-- **A name at the end** stands behind a spelling of what comes before it. -/
theorem exists_name (h : Spells t (ts ++ [.word name])) :
    ∃ front v, t = front ++ name.1 ++ v ∧ (∀ c ∈ v, isBlank c = true) ∧ Spells front ts ∧
      ∀ c ∈ front.getLast?, isWordChar c = false := by
  generalize htokens : ts ++ [Token.word name] = all at h
  induction h generalizing ts with
  | nil => simp at htokens
  | @blank c t all hblank hline h ih =>
    obtain ⟨front, v, rfl, hv, hfront, hlast⟩ := ih htokens
    refine ⟨c :: front, v, rfl, hv, .blank hblank hline hfront, ?_⟩
    cases front with
    | nil => simpa using isWordChar_of_isBlank hblank
    | cons x front => exact hlast
  | @star t all h ih =>
    cases ts with
    | nil => simp at htokens
    | cons token ts =>
      obtain ⟨rfl, hmore⟩ := List.cons.inj htokens
      obtain ⟨front, v, rfl, hv, hfront, hlast⟩ := ih hmore
      refine ⟨'*' :: front, v, rfl, hv, .star hfront, ?_⟩
      cases front with
      | nil => simp; decide
      | cons x front => exact hlast
  | @word w t all hend h ih =>
    cases ts with
    | nil =>
      obtain ⟨heq, rfl⟩ := List.cons.inj htokens
      obtain rfl : name = w := Token.word.inj heq
      refine ⟨[], t, rfl, fun c hc ↦ ?_, .nil, by simp⟩
      -- no token is left, so there are only blanks
      have hblanks : t.withoutBlanks = [] := h.withoutBlanks
      simpa using List.filter_eq_nil_iff.1 hblanks c hc
    | cons token ts =>
      obtain ⟨rfl, hmore⟩ := List.cons.inj htokens
      obtain ⟨front, v, rfl, hv, hfront, hlast⟩ := ih hmore
      cases front with
      | nil =>
        obtain ⟨x, r, hname, hx, -⟩ := exists_cons_of_isIdentifier name.2
        have hword := hend x (by simp [hname])
        have hchar := isWordChar_of_isIdentChar (isIdentChar_of_isIdentStart hx)
        exact absurd (hchar.symm.trans hword) (by simp)
      | cons x front =>
        refine ⟨w.1 ++ x :: front, v, by simp, hv, .word w (by simpa using hend) hfront, ?_⟩
        simpa using hlast

/-- A qualifier in front of another word is dropped with the blanks behind it. -/
theorem dropQualifiers_cons {q w : Identifier} (h : Spells t (.word q :: .word w :: ts))
    (hfirst : ∀ c ∈ t.head?, isBlank c = false) (hq : q.1 ∈ Declarator.qualifiers) {bound : Nat}
    (hbound : t.length ≤ bound) (r : Text) :
    ∃ bound' t', Declarator.dropQualifiers bound (t ++ r) =
        Declarator.dropQualifiers bound' (t' ++ r) ∧
      Spells t' (.word w :: ts) ∧ (∀ c ∈ t'.head?, isBlank c = false) ∧ t'.length ≤ bound' := by
  obtain ⟨s, rfl, hend, hs⟩ := h.exists_of_word hfirst
  obtain ⟨c, s, rfl, hc⟩ := hs.exists_blank_of_word hend
  have hspells := (hs.of_blank_cons hc).trimStart
  have hne : Text.trimStart s ≠ [] := hspells.ne_nil (by simp)
  simp only [List.length_append, List.length_cons] at hbound
  obtain ⟨bound, rfl⟩ : ∃ n, bound = n + 1 := ⟨bound - 1, by omega⟩
  refine ⟨bound, Text.trimStart s, ?_, hspells, Text.head?_trimStart s, ?_⟩
  · rw [List.append_assoc, List.cons_append, Declarator.dropQualifiers,
      Declarator.afterQualifier?_append q.2 hq hc]
    exact congrArg _ (Text.trimStart_append_of_ne_nil hne r)
  · have hle : (Text.trimStart s).length ≤ s.length := (List.dropWhile_suffix isBlank).length_le
    omega

/-- **Leading qualifiers are dropped** token by token, if a word comes behind them, and what stands
behind the spelling stays there. -/
theorem dropQualifiers {r : Text} (hr : ∀ c ∈ r.head?, isWordChar c = false) :
    ∀ {ts : List Token} {t : Text} {bound : Nat}, Spells t ts →
      (∀ c ∈ t.head?, isBlank c = false) → t.length ≤ bound →
      (∃ w rest, ts.dropWhile isQualifier = .word w :: rest) →
        ∃ t', Declarator.dropQualifiers bound (t ++ r) = t' ++ r ∧
          Spells t' (ts.dropWhile isQualifier) ∧ ∀ c ∈ t'.head?, isBlank c = false
  | [], _, _, _, _, _, hword => by simp at hword
  | token :: ts, t, bound, h, hfirst, hbound, hword => by
    cases hq : token.isQualifier with
    | false =>
      rw [List.dropWhile_cons_of_neg (by simp [hq])] at hword ⊢
      obtain ⟨w, rest, heq⟩ := hword
      obtain ⟨rfl, rfl⟩ := List.cons.inj heq
      obtain ⟨s, rfl, hend, -⟩ := h.exists_of_word hfirst
      refine ⟨w.1 ++ s, ?_, h, hfirst⟩
      rw [List.append_assoc, Declarator.dropQualifiers_eq w.2 (by simpa [isQualifier] using hq)]
      cases s with
      | nil => exact hr
      | cons x s => exact hend
    | true =>
      rw [List.dropWhile_cons_of_pos hq] at hword ⊢
      cases token with
      | star => simp [isQualifier] at hq
      | word q =>
      -- a word comes behind the qualifier
      obtain ⟨w, ts, rfl⟩ : ∃ w rest, ts = .word w :: rest := by
        obtain ⟨w, rest, heq⟩ := hword
        cases ts with
        | nil => simp at heq
        | cons token ts =>
          cases token with
          | star => simp [isQualifier] at heq
          | word w' => exact ⟨w', ts, rfl⟩
      obtain ⟨bound', t', hstep, hspells, hhead, hlength⟩ :=
        h.dropQualifiers_cons hfirst (by simpa [isQualifier] using hq) hbound r
      rw [hstep]
      exact dropQualifiers hr hspells hhead hlength hword

/-! ## Parts of a spelling -/

/-- Behind the type only blanks are left out. -/
theorem exists_core (h : Spells t ts) (hne : ts ≠ []) (hfirst : ∀ c ∈ t.head?, isBlank c = false) :
    ∃ core gap, t = core ++ gap ∧ core.IsSolid ∧ (∀ c ∈ gap, isBlank c = true) ∧
      Spells core ts := by
  obtain ⟨u, s, v, rfl, hu, hv, hs, hspells⟩ := h.exists_pad hne
  cases u with
  | nil => exact ⟨s, v, rfl, hs, hv, hspells⟩
  | cons c u => exact absurd ((hu c List.mem_cons_self).symm.trans (hfirst c rfl)) (by simp)

/-- In front of a name a type is followed by blanks and stars, some of which may be its own. -/
theorem exists_gap {w : Identifier} (h : Spells t (.word w :: ts))
    (hfirst : ∀ c ∈ t.head?, isBlank c = false) (hlast : ∀ c ∈ t.getLast?, isWordChar c = false) :
    ∃ core gap, t = core ++ gap ∧ core.IsSolid ∧ gap ≠ [] ∧
      ∀ c ∈ gap, Declarator.isGap c = true := by
  obtain ⟨r, rfl, -⟩ := h.exists_of_word hfirst
  obtain ⟨x, w', hw, hx, -⟩ := exists_cons_of_isIdentifier w.2
  have hx := isIdentChar_of_isIdentStart hx
  have hword : Declarator.isGap x = false := by
    have hne : x ≠ '*' := by
      rintro rfl
      exact absurd hx (by decide)
    simp [isBlank_of_isIdentChar hx, hne]
  obtain ⟨s, c, gap, hsplit, hgap, hc⟩ := exists_last_of_mem (t := w.1 ++ r) (by simp [hw]) hword
  rw [Declarator.isGap, Bool.or_eq_false_iff, beq_eq_false_iff_ne] at hc
  refine ⟨s ++ [c], gap, hsplit, ⟨?_, s, c, rfl, hc.1⟩, ?_, hgap⟩
  · cases s with
    | nil => exact ⟨c, [], rfl, hc.1⟩
    | cons y s => exact ⟨y, s ++ [c], rfl, hfirst y (by rw [hsplit]; rfl)⟩
  · rintro rfl
    have hnotWord := hlast c (by rw [hsplit]; simp)
    rcases h.of_mem (c := c) (by rw [hsplit]; simp) with hc' | hc' | hc'
    · exact absurd ((isWordChar_of_isIdentChar hc').symm.trans hnotWord) (by simp)
    · exact absurd (hc'.1.symm.trans hc.1) (by simp)
    · exact hc.2 hc'

/-- What is left out in front of the text is a lead and the blanks behind it, or nothing in front of
another word. -/
def IsLeadOf (lead t : Text) : Prop :=
  (∃ w b, lead = w ++ b ∧ w ∈ leadWords ∧ b ≠ [] ∧ ∀ c ∈ b, isBlank c = true) ∨
    lead = [] ∧ ∃ w c s, t = w ++ c :: s ∧ isIdentifier w = true ∧ w ∉ leadWords ∧
      isWordChar c = false

theorem IsLeadOf.append {lead : Text} (h : IsLeadOf lead t) (s : Text) :
    IsLeadOf lead (t ++ s) := by
  refine h.imp id fun ⟨hnil, w, c, r, ht, hw⟩ ↦ ⟨hnil, w, c, r ++ s, ?_, hw⟩
  rw [ht, List.append_assoc, List.cons_append]

/-- **A lead** is told from the type behind it by the blanks between them. -/
theorem exists_lead (h : Spells t (ts ++ [.word name])) (hword : HasType ts)
    (hfirst : ∀ c ∈ t.head?, isBlank c = false) :
    ∃ lead r, t = lead ++ r ∧ Spells r (withoutLead ts ++ [.word name]) ∧
      (∀ c ∈ r.head?, isBlank c = false) ∧ IsLeadOf lead r := by
  obtain ⟨w, ts, rfl⟩ := hword.exists_cons
  obtain ⟨r, rfl, hend, hr⟩ := h.exists_of_word hfirst
  rw [Token.withoutLead]
  split
  · rename_i hlead
    have hrest : HasType ts := by
      have hmore := hword.withoutLead
      rwa [Token.withoutLead, if_pos hlead] at hmore
    obtain ⟨w', ts, rfl⟩ := hrest.exists_cons
    refine ⟨w.1 ++ r.takeWhile isBlank, r.trimStart, ?_, hr.trimStart, Text.head?_trimStart r,
      Or.inl ⟨w.1, r.takeWhile isBlank, rfl, by simpa [isLead] using hlead, ?_, ?_⟩⟩
    · rw [List.append_assoc, Text.trimStart, List.takeWhile_append_dropWhile]
    · obtain ⟨c, r, rfl, hc⟩ := hr.exists_blank_of_word hend
      simp [hc]
    · exact List.all_eq_true.1 List.all_takeWhile
  · rename_i hlead
    obtain ⟨c, r, rfl⟩ := List.exists_cons_of_ne_nil (hr.ne_nil (by simp))
    exact ⟨[], w.1 ++ c :: r, rfl, h, hfirst, Or.inr ⟨rfl, w.1, c, r, rfl, w.2,
      by simpa [isLead] using hlead, hend c rfl⟩⟩

/-! ## Deciding what is a spelling -/

/-- A blank that ends no line. -/
def isInlineBlank (c : Char) : Bool := isBlank c && c != '\n'

/-- The tokens are read one after the other, and nothing else but blanks. -/
def isSpelling : List Token → Text → Bool
  | [], t => t.all isInlineBlank
  | token :: ts, t =>
    match Text.afterLead? (t.dropWhile isInlineBlank) token.text with
    | some r => !(token.isWord && r.head?.any isWordChar) && isSpelling ts r
    | none => false

theorem of_blanks {b : Text} (hb : ∀ c ∈ b, isInlineBlank c = true) (h : Spells t ts) :
    Spells (b ++ t) ts := by
  induction b with
  | nil => exact h
  | cons c b ih =>
    rw [List.forall_mem_cons, isInlineBlank, Bool.and_eq_true, bne_iff_ne] at hb
    exact .blank hb.1.1 hb.1.2 (ih hb.2)

theorem of_isSpelling : ∀ {ts : List Token} {t : Text}, isSpelling ts t = true → Spells t ts
  | [], t, h => by
    have hblanks := of_blanks (List.all_eq_true.1 h) .nil
    rwa [List.append_nil] at hblanks
  | token :: ts, t, h => by
    rw [isSpelling] at h
    split at h
    · rename_i r hr
      rw [Bool.and_eq_true] at h
      have hmore := of_isSpelling h.2
      have htext : t.dropWhile isInlineBlank = token.text ++ r := Text.afterLead?_eq_some_iff.1 hr
      rw [← List.takeWhile_append_dropWhile (p := isInlineBlank) (l := t), htext]
      refine of_blanks (List.all_eq_true.1 List.all_takeWhile) ?_
      cases token with
      | star => exact .star hmore
      | word w =>
        refine .word w (fun c hc ↦ ?_) hmore
        have hend := h.1
        rw [Option.mem_def.1 hc] at hend
        simpa [isWord] using hend
    · exact absurd h (by simp)

end Spells

end HeaderBindings
