import Mathlib.Data.List.Basic
import Mathlib.Data.List.TakeWhile
import HeaderBindings.Text.Basic

/-!
# Words in a text

What a declaration looks like from the outside: identifiers, the blanks around a piece of code, and
the runs of word characters that it consists of.

* `trim_pad`: code that neither begins nor ends with a blank is what is left of it between blanks.
* `contains_iff`: a text contains what it has as an infix.
* `exists_mem_wordRuns_of_contains`: a word that a text contains lies within one of its runs.  So a
  text put together from words contains only words that one of them contains.
-/

set_option autoImplicit false

namespace HeaderBindings

/-! ## Identifiers -/

/-- A character of an ASCII identifier. -/
def isIdentChar (c : Char) : Bool := c.isAlphanum || c == '_'

/-- The text is an ASCII identifier. -/
def isIdentifier : Text → Bool
  | [] => false
  | c :: t => isIdentStart c && t.all isIdentChar

theorem isAlpha_iff {c : Char} : c.isAlpha = true ↔
    (65 ≤ c.toNat ∧ c.toNat ≤ 90) ∨ (97 ≤ c.toNat ∧ c.toNat ≤ 122) := by
  have hupper : c.isUpper = true ↔ 65 ≤ c.toNat ∧ c.toNat ≤ 90 := decide_eq_true_iff
  have hlower : c.isLower = true ↔ 97 ≤ c.toNat ∧ c.toNat ≤ 122 :=
    (Bool.and_eq_true_iff).trans (and_congr decide_eq_true_iff decide_eq_true_iff)
  rw [← hupper, ← hlower]
  exact Bool.or_eq_true_iff

theorem isDigit_iff {c : Char} : c.isDigit = true ↔ 48 ≤ c.toNat ∧ c.toNat ≤ 57 :=
  Char.isDigit_iff_toNat

theorem toNat_of_isIdentChar {c : Char} (h : isIdentChar c = true) :
    48 ≤ c.toNat ∧ c.toNat < 128 := by
  rw [isIdentChar, Char.isAlphanum, Bool.or_eq_true, Bool.or_eq_true, isAlpha_iff, isDigit_iff,
    beq_iff_eq] at h
  rcases h with h | rfl
  · omega
  · decide

theorem isAscii_of_isIdentChar {c : Char} (h : isIdentChar c = true) : isAscii c = true :=
  decide_eq_true (toNat_of_isIdentChar h).2

theorem isWordChar_of_isIdentChar {c : Char} (h : isIdentChar c = true) : isWordChar c = true := by
  rw [isWordChar, if_pos (isAscii_of_isIdentChar h)]
  exact h

/-- No character of an identifier is a blank. -/
theorem isBlank_of_isIdentChar {c : Char} (h : isIdentChar c = true) : isBlank c = false := by
  have hspace : c ≠ ' ' := by
    rintro rfl
    exact absurd h (by decide)
  have hlow := (toNat_of_isIdentChar h).1
  rw [isBlank, if_pos (isAscii_of_isIdentChar h)]
  simp only [Bool.or_eq_false_iff, beq_eq_false_iff_ne, Bool.and_eq_false_iff,
    decide_eq_false_iff_not]
  exact ⟨hspace, Or.inr (by omega)⟩

/-- The blanks beyond ASCII. -/
def wideBlanks : List Nat :=
  [0x85, 0xA0, 0x1680, 0x2000, 0x2001, 0x2002, 0x2003, 0x2004, 0x2005, 0x2006, 0x2007, 0x2008,
    0x2009, 0x200A, 0x2028, 0x2029, 0x202F, 0x205F, 0x3000]

/-- No blank of any script belongs to a word. -/
theorem isWordChar_of_isBlank {c : Char} (h : isBlank c = true) : isWordChar c = false := by
  cases hascii : isAscii c with
  | true =>
    rw [isBlank, if_pos hascii] at h
    simp only [Bool.or_eq_true, beq_iff_eq, Bool.and_eq_true, decide_eq_true_eq] at h
    rw [← Bool.not_eq_true, isWordChar, if_pos hascii]
    intro hword
    rcases h with rfl | h
    · exact absurd hword (by decide)
    · have hlow := (toNat_of_isIdentChar hword).1
      omega
  | false =>
    have hcode : c.toNat ∈ wideBlanks := by
      rw [isBlank, hascii] at h
      simp only [Bool.or_eq_true, beq_iff_eq, Bool.and_eq_true, decide_eq_true_eq,
        Bool.false_eq_true, if_false] at h
      simp only [wideBlanks, List.mem_cons, List.not_mem_nil, or_false]
      omega
    have hall : ∀ n ∈ wideBlanks, isWordChar (Char.ofNat n) = false := by decide +kernel
    rw [← Char.ofNat_toNat c]
    exact hall _ hcode

theorem isIdentChar_of_isIdentStart {c : Char} (h : isIdentStart c = true) :
    isIdentChar c = true := by
  rw [isIdentStart, Bool.or_eq_true] at h
  rw [isIdentChar, Char.isAlphanum, Bool.or_eq_true, Bool.or_eq_true]
  exact h.imp_left Or.inl

theorem exists_cons_of_isIdentifier {w : Text} (h : isIdentifier w = true) :
    ∃ c t, w = c :: t ∧ isIdentStart c = true ∧ ∀ x ∈ t, isIdentChar x = true := by
  cases w with
  | nil => exact absurd h (by simp [isIdentifier])
  | cons c t =>
    rw [isIdentifier, Bool.and_eq_true] at h
    exact ⟨c, t, rfl, h.1, List.all_eq_true.1 h.2⟩

theorem isIdentChar_of_mem {w : Text} (h : isIdentifier w = true) :
    ∀ c ∈ w, isIdentChar c = true := by
  obtain ⟨c, t, rfl, hc, ht⟩ := exists_cons_of_isIdentifier h
  intro x hx
  rcases List.mem_cons.1 hx with rfl | hx
  · exact isIdentChar_of_isIdentStart hc
  · exact ht x hx

theorem isWordChar_of_mem {w : Text} (h : isIdentifier w = true) :
    ∀ c ∈ w, isWordChar c = true := fun c hc ↦ isWordChar_of_isIdentChar (isIdentChar_of_mem h c hc)

theorem isBlank_of_mem_head? {w : Text} (h : isIdentifier w = true) (s : Text) :
    ∀ c ∈ (w ++ s).head?, isBlank c = false := by
  obtain ⟨x, r, rfl, hx, -⟩ := exists_cons_of_isIdentifier h
  simpa using isBlank_of_isIdentChar (isIdentChar_of_isIdentStart hx)

theorem notMem_of_isIdentifier {w : Text} (h : isIdentifier w = true) {c : Char}
    (hc : isIdentChar c = false) : c ∉ w := fun hmem ↦
  absurd ((isIdentChar_of_mem h c hmem).symm.trans hc) (by simp)

theorem ne_nil_of_isIdentifier {w : Text} (h : isIdentifier w = true) : w ≠ [] := by
  rintro rfl
  exact absurd h (by simp [isIdentifier])

namespace Text

/-! ## Blanks around code -/

/-- The text is not empty and neither begins nor ends with a blank. -/
structure IsSolid (t : Text) : Prop where
  first : ∃ c rest, t = c :: rest ∧ HeaderBindings.isBlank c = false
  last : ∃ rest c, t = rest ++ [c] ∧ HeaderBindings.isBlank c = false

theorem IsSolid.ne_nil {t : Text} (h : IsSolid t) : t ≠ [] := by
  obtain ⟨c, rest, rfl, -⟩ := h.first
  exact List.cons_ne_nil c rest

/-- What begins with one piece of code and ends with another one is code. -/
theorem IsSolid.isBlank_of_mem_head? {t : Text} (h : IsSolid t) (s : Text) :
    ∀ c ∈ (t ++ s).head?, HeaderBindings.isBlank c = false := by
  obtain ⟨c, r, rfl, hc⟩ := h.first
  simpa using hc

theorem IsSolid.join {s t : Text} (hs : IsSolid s) (m : Text) (ht : IsSolid t) :
    IsSolid (s ++ m ++ t) := by
  obtain ⟨c, rest, rfl, hc⟩ := hs.first
  obtain ⟨rest', c', rfl, hc'⟩ := ht.last
  exact ⟨⟨c, rest ++ m ++ (rest' ++ [c']), rfl, hc⟩,
    ⟨c :: rest ++ m ++ rest', c', by simp, hc'⟩⟩

theorem isSolid_of_forall {t : Text} (hne : t ≠ [])
    (h : ∀ c ∈ t, HeaderBindings.isBlank c = false) : IsSolid t := by
  refine ⟨?_, ?_⟩
  · obtain ⟨c, rest, rfl⟩ := List.exists_cons_of_ne_nil hne
    exact ⟨c, rest, rfl, h c List.mem_cons_self⟩
  · refine ⟨t.dropLast, t.getLast hne, (List.dropLast_concat_getLast hne).symm, ?_⟩
    exact h _ (List.getLast_mem hne)

theorem isSolid_of_all {t : Text} (hne : t ≠ []) (h : t.all (!HeaderBindings.isBlank ·) = true) :
    IsSolid t :=
  isSolid_of_forall hne fun c hc ↦ by simpa using List.all_eq_true.1 h c hc

theorem isSolid_of_isIdentifier {w : Text} (h : isIdentifier w = true) : IsSolid w :=
  isSolid_of_forall (ne_nil_of_isIdentifier h) fun c hc ↦
    isBlank_of_isIdentChar (isIdentChar_of_mem h c hc)

theorem head?_trimStart (t : Text) : ∀ c ∈ t.trimStart.head?, HeaderBindings.isBlank c = false := by
  intro c hc
  have hnot := List.head?_dropWhile_not HeaderBindings.isBlank t
  rw [Option.mem_def, Text.trimStart] at hc
  simpa [hc] using hnot

/-- The word characters at the start of a text, and what follows. -/
theorem exists_word_append (t : Text) : ∃ word rest, t = word ++ rest ∧
    (∀ c ∈ word, isWordChar c = true) ∧ ∀ c ∈ rest.head?, isWordChar c = false := by
  refine ⟨t.takeWhile isWordChar, t.dropWhile isWordChar, List.takeWhile_append_dropWhile.symm,
    fun c hc ↦ List.mem_takeWhile_imp hc, fun c hc ↦ ?_⟩
  have hnot := List.head?_dropWhile_not isWordChar t
  rw [Option.mem_def.1 hc] at hnot
  exact hnot

/-- Leading blanks end where something else begins. -/
theorem trimStart_append {u r : Text} (hu : ∀ c ∈ u, HeaderBindings.isBlank c = true)
    (hr : ∀ c ∈ r.head?, HeaderBindings.isBlank c = false) : (u ++ r).trimStart = r := by
  rw [trimStart, List.dropWhile_append_of_pos hu]
  cases r with
  | nil => rfl
  | cons c r => exact List.dropWhile_cons_of_neg (by simp [hr c rfl])

theorem trimStart_append_of_ne_nil {s : Text} (h : s.trimStart ≠ []) (t : Text) :
    (s ++ t).trimStart = s.trimStart ++ t := by
  rw [trimStart] at h
  rw [trimStart, List.dropWhile_append, if_neg (by rwa [List.isEmpty_iff])]
  rfl

theorem trimStart_append_of_eq_nil {s : Text} (h : s.trimStart = []) (t : Text) :
    (s ++ t).trimStart = t.trimStart := by
  rw [trimStart] at h
  rw [trimStart, List.dropWhile_append, if_pos (by rw [h]; rfl)]
  rfl

theorem trimEnd_eq (t : Text) : t.trimEnd = (trimStart t.reverse).reverse := rfl

theorem trimEnd_append_of_ne_nil (s : Text) {t : Text} (h : t.trimEnd ≠ []) :
    (s ++ t).trimEnd = s ++ t.trimEnd := by
  have hne : trimStart t.reverse ≠ [] := fun hnil ↦ h (by rw [trimEnd_eq, hnil]; rfl)
  rw [trimEnd_eq, trimEnd_eq, List.reverse_append, trimStart_append_of_ne_nil hne,
    List.reverse_append, List.reverse_reverse]

theorem trimEnd_append_of_eq_nil (s : Text) {t : Text} (h : t.trimEnd = []) :
    (s ++ t).trimEnd = s.trimEnd := by
  rw [trimEnd_eq, List.reverse_eq_nil_iff] at h
  rw [trimEnd_eq, trimEnd_eq, List.reverse_append, trimStart_append_of_eq_nil h]

theorem trimStart_pad {u t : Text} (hu : ∀ c ∈ u, HeaderBindings.isBlank c = true)
    (ht : IsSolid t) (v : Text) : (u ++ t ++ v).trimStart = t ++ v := by
  rw [List.append_assoc]
  exact trimStart_append hu (ht.isBlank_of_mem_head? v)

theorem trimEnd_pad (u : Text) {t v : Text} (ht : IsSolid t)
    (hv : ∀ c ∈ v, HeaderBindings.isBlank c = true) : (u ++ t ++ v).trimEnd = u ++ t := by
  obtain ⟨rest, c, rfl, hc⟩ := ht.last
  rw [trimEnd, dropTail, List.reverse_append,
    List.dropWhile_append_of_pos fun x hx ↦ hv x (List.mem_reverse.1 hx), ← List.append_assoc,
    List.reverse_append, List.reverse_singleton, List.singleton_append,
    List.dropWhile_cons_of_neg (by simp [hc])]
  simp

/-- **Code between blanks** is what is left when these are gone. -/
theorem trim_pad {u t v : Text} (hu : ∀ c ∈ u, HeaderBindings.isBlank c = true) (ht : IsSolid t)
    (hv : ∀ c ∈ v, HeaderBindings.isBlank c = true) : (u ++ t ++ v).trim = t := by
  rw [trim, trimStart_pad hu ht]
  exact trimEnd_pad [] ht hv

theorem IsSolid.trim {t : Text} (h : IsSolid t) : t.trim = t := by
  simpa using trim_pad (u := []) (v := []) (by simp) h (by simp)

/-- Code behind a single blank, as a piece of a list has it. -/
theorem IsSolid.trim_cons {t : Text} (h : IsSolid t) : Text.trim (' ' :: t) = t := by
  simpa using trim_pad (u := [' ']) (v := []) (by simp; decide) h (by simp)

theorem trimEnd_cons {c : Char} (hc : HeaderBindings.isBlank c = false) (t : Text) :
    trimEnd (c :: t) = c :: t.trimEnd := by
  by_cases h : t.trimEnd = []
  · rw [h, ← List.singleton_append, trimEnd_append_of_eq_nil [c] h, trimEnd_eq,
      List.reverse_singleton, trimStart, List.dropWhile_cons_of_neg (by simp [hc])]
    rfl
  · exact trimEnd_append_of_ne_nil [c] h

/-- It does not matter from which end blanks are taken first. -/
theorem trimStart_trimEnd (t : Text) : t.trimEnd.trimStart = t.trimStart.trimEnd := by
  induction t with
  | nil => rfl
  | cons c t ih =>
    cases hc : HeaderBindings.isBlank c with
    | false =>
      have hfront (t : Text) : trimStart (c :: t) = c :: t :=
        List.dropWhile_cons_of_neg (by simp [hc])
      rw [trimEnd_cons hc, hfront, hfront, trimEnd_cons hc]
    | true =>
      have hfront (t : Text) : trimStart (c :: t) = t.trimStart :=
        List.dropWhile_cons_of_pos hc
      rw [hfront, ← ih]
      by_cases h : trimEnd t = []
      · have hend : trimEnd (c :: t) = [] := by
          rw [← List.singleton_append, trimEnd_append_of_eq_nil [c] h, trimEnd_eq,
            List.reverse_singleton, hfront]
          rfl
        rw [h, hend]
      · have hend : trimEnd (c :: t) = c :: trimEnd t :=
          trimEnd_append_of_ne_nil [c] h
        rw [hend, hfront]

/-- Behind what is left there stood only blanks. -/
theorem exists_trimEnd_append (t : Text) :
    ∃ b, t = t.trimEnd ++ b ∧ ∀ c ∈ b, HeaderBindings.isBlank c = true := by
  refine ⟨(t.reverse.takeWhile HeaderBindings.isBlank).reverse, ?_, fun c hc ↦
    List.mem_takeWhile_imp (List.mem_reverse.1 hc)⟩
  rw [trimEnd, dropTail, ← List.reverse_append, List.takeWhile_append_dropWhile,
    List.reverse_reverse]

theorem trimEnd_prefix (t : Text) : t.trimEnd <+: t := by
  obtain ⟨b, hb, -⟩ := exists_trimEnd_append t
  exact ⟨b, hb.symm⟩

theorem trim_append_blanks {m : Text} (hm : ∀ c ∈ m, HeaderBindings.isBlank c = true) (t : Text) :
    trim (t ++ m) = t.trim := by
  have hend : m.trimEnd = [] := by
    rw [trimEnd_eq, List.reverse_eq_nil_iff]
    exact List.dropWhile_eq_nil_iff.2 fun c hc ↦ hm c (List.mem_reverse.1 hc)
  by_cases h : t.trimStart = []
  · rw [trim, trim, trimStart_append_of_eq_nil h, h]
    exact congrArg trimEnd (List.dropWhile_eq_nil_iff.2 hm)
  · rw [trim, trim, trimStart_append_of_ne_nil h, trimEnd_append_of_eq_nil _ hend]

theorem exists_last_trimEnd {t : Text} (h : t.trimEnd ≠ []) :
    ∃ s y, t.trimEnd = s ++ [y] ∧ HeaderBindings.isBlank y = false := by
  obtain ⟨s, y, hlast⟩ := List.eq_nil_or_concat' t.trimEnd |>.resolve_left h
  refine ⟨s, y, hlast, head?_trimStart t.reverse y ?_⟩
  have hreverse := congrArg List.reverse hlast
  rw [trimEnd_eq, List.reverse_reverse, List.reverse_append] at hreverse
  rw [hreverse]
  rfl

@[simp]
theorem withoutBlanks_append (s t : Text) :
    (s ++ t).withoutBlanks = s.withoutBlanks ++ t.withoutBlanks := List.filter_append s t

@[simp]
theorem withoutBlanks_idem (t : Text) : t.withoutBlanks.withoutBlanks = t.withoutBlanks := by
  simp [withoutBlanks]

theorem withoutBlanks_cons_of_isBlank {c : Char} (hc : HeaderBindings.isBlank c = true) (t : Text) :
    Text.withoutBlanks (c :: t) = t.withoutBlanks := List.filter_cons_of_neg (by simp [hc])

theorem withoutBlanks_eq_nil {t : Text} : t.withoutBlanks = [] ↔ t.trimEnd = [] := by
  rw [Text.withoutBlanks, List.filter_eq_nil_iff, trimEnd_eq, List.reverse_eq_nil_iff,
    trimStart, List.dropWhile_eq_nil_iff]
  simp

/-- In front of the first character that is no blank stand blanks. -/
theorem exists_first_of_mem {t : Text} {x : Char} (hx : x ∈ t)
    (hblank : HeaderBindings.isBlank x = false) :
    ∃ b y s, t = b ++ y :: s ∧ (∀ c ∈ b, HeaderBindings.isBlank c = true) ∧
      HeaderBindings.isBlank y = false := by
  have hne : t.trimStart ≠ [] := fun hnil ↦
    absurd ((List.dropWhile_eq_nil_iff.1 hnil x hx).symm.trans hblank) (by simp)
  obtain ⟨y, s, hcons⟩ := List.exists_cons_of_ne_nil hne
  refine ⟨t.takeWhile HeaderBindings.isBlank, y, s, ?_, fun c hc ↦ List.mem_takeWhile_imp hc,
    head?_trimStart t y (by rw [hcons]; rfl)⟩
  rw [← hcons]
  exact (List.takeWhile_append_dropWhile).symm

/-- Behind the last character that is no blank stand blanks. -/
theorem exists_last_of_mem {t : Text} {x : Char} (hx : x ∈ t)
    (hblank : HeaderBindings.isBlank x = false) :
    ∃ s y b, t = s ++ y :: b ∧ HeaderBindings.isBlank y = false ∧
      ∀ c ∈ b, HeaderBindings.isBlank c = true := by
  obtain ⟨b, y, s, hsplit, hb, hy⟩ := exists_first_of_mem (List.mem_reverse.2 hx) hblank
  refine ⟨s.reverse, y, b.reverse, ?_, hy, fun c hc ↦ hb c (List.mem_reverse.1 hc)⟩
  rw [← t.reverse_reverse, hsplit]
  simp

/-! ## Containing -/

theorem contains_of_isInfix {needle : Text} : ∀ {t : Text}, needle <:+: t → t.contains needle = true
  | [], h => by
    obtain rfl := List.infix_nil.1 h
    rfl
  | c :: t, h => by
    rw [contains, splitAtFirst?]
    split
    · rfl
    · rename_i hnone
      rcases List.infix_cons_iff.1 h with ⟨rest, hrest⟩ | h
      · rw [afterLead?_eq_some_iff.2 hrest.symm] at hnone
        exact absurd hnone (by simp)
      · rw [Option.isSome_map]
        exact contains_of_isInfix h

/-- **A text contains what it has as an infix.** -/
theorem contains_iff {t needle : Text} : t.contains needle = true ↔ needle <:+: t := by
  refine ⟨fun h ↦ ?_, contains_of_isInfix⟩
  obtain ⟨⟨before, after⟩, h⟩ := Option.isSome_iff_exists.1 h
  exact ⟨before, after, (splitAtFirst?_eq_some h).symm⟩

/-- A text starts with what it has as a prefix. -/
theorem startsWith_iff {t lead : Text} : t.startsWith lead = true ↔ lead <+: t := by
  rw [startsWith, Option.isSome_iff_exists]
  exact exists_congr fun rest ↦ afterLead?_eq_some_iff.trans eq_comm

theorem splitAtFirst?_eq_none_iff {t needle : Text} :
    t.splitAtFirst? needle = none ↔ ¬needle <:+: t := by
  rw [← contains_iff, contains, Bool.not_eq_true, Option.isSome_eq_false_iff,
    Option.isNone_iff_eq_none]

theorem contains_singleton_eq_false {t : Text} {c : Char} (h : c ∉ t) :
    t.contains [c] = false := by
  rw [← Bool.not_eq_true, contains_iff]
  exact fun hwithin ↦ h (hwithin.mem List.mem_cons_self)

/-- The characters of a text are other ones than one that it does not hold. -/
theorem bne_of_notMem {t : Text} {x : Char} (h : x ∉ t) : ∀ c ∈ t, (c != x) = true :=
  fun _ hc ↦ bne_iff_ne.2 fun heq ↦ h (heq ▸ hc)

/-- A text has a lead only if it holds the characters of the lead. -/
theorem afterLead?_eq_none {t lead : Text} {c : Char} (hc : c ∈ lead) (ht : c ∉ t) :
    t.afterLead? lead = none := by
  cases h : t.afterLead? lead with
  | none => rfl
  | some rest =>
    rw [afterLead?_eq_some_iff.1 h] at ht
    exact absurd (List.mem_append_left rest hc) ht

/-- A needle that begins a text is found there. -/
theorem splitAtFirst?_append {needle : Text} (hne : needle ≠ []) (rest : Text) :
    splitAtFirst? (needle ++ rest) needle = some ([], rest) := by
  obtain ⟨c, tail, rfl⟩ := List.exists_cons_of_ne_nil hne
  rw [List.cons_append, splitAtFirst?, ← List.cons_append, afterLead?_eq_some_iff.2 rfl]

/-- A needle that does not begin a text is searched for behind its first character. -/
theorem splitAtFirst?_cons {needle : Text} {c : Char} {t : Text} (h : ¬needle <+: c :: t) :
    splitAtFirst? (c :: t) needle = (splitAtFirst? t needle).map fun p ↦ (c :: p.1, p.2) := by
  have hlead : afterLead? (c :: t) needle = none := by
    cases hrest : afterLead? (c :: t) needle with
    | none => rfl
    | some rest => exact absurd ⟨rest, (afterLead?_eq_some_iff.1 hrest).symm⟩ h
  rw [splitAtFirst?, hlead]

/-- The parts of a text around the first place of a character. -/
theorem splitAtFirst?_append_cons {x : Char} {b : Text} : ∀ {a : Text}, x ∉ a →
    splitAtFirst? (a ++ x :: b) [x] = some (a, b)
  | [], _ => by simp [splitAtFirst?, afterLead?]
  | c :: a, h => by
    rw [List.mem_cons, not_or] at h
    rw [List.cons_append, splitAtFirst?, splitAtFirst?_append_cons h.2]
    simp [afterLead?, Ne.symm h.1]

/-- In front of its first place in a text, a piece of text does not begin. -/
theorem not_prefix_of_splitAtFirst? {needle u v after : Text} (hv : v ≠ []) : ∀ {t : Text},
    t.splitAtFirst? needle = some (u ++ v, after) → ¬needle <+: v ++ needle ++ after
  | [], h => by
    have hnil := splitAtFirst?_eq_some h
    simp_all
  | c :: t, h => by
    have hparts := splitAtFirst?_eq_some h
    rw [splitAtFirst?] at h
    split at h
    · simp_all
    · rename_i hnone
      obtain ⟨⟨before, after'⟩, hrest, heq⟩ := Option.map_eq_some_iff.1 h
      obtain ⟨hbefore, rfl⟩ := Prod.mk.inj heq
      cases u with
      | nil =>
        rintro ⟨rest, hrest⟩
        rw [List.nil_append, ← hrest] at hparts
        exact absurd (hnone.symm.trans (afterLead?_eq_some_iff.2 hparts)) (by simp)
      | cons x u =>
        obtain ⟨-, rfl⟩ := List.cons.inj hbefore
        exact not_prefix_of_splitAtFirst? hv hrest

/-! ## Pieces between separators -/

variable {p : Char → Bool}

theorem splitWhere_of_forall {t : Text} (h : ∀ c ∈ t, p c = false) : splitWhere p t = [t] := by
  induction t with
  | nil => rfl
  | cons c t ih =>
    rw [splitWhere, ih fun x hx ↦ h x (List.mem_cons_of_mem c hx)]
    simp [h c List.mem_cons_self]

/-- A separator ends one piece and begins another. -/
theorem splitWhere_append_cons {x : Char} (hx : p x = true) (b : Text) : ∀ a : Text,
    splitWhere p (a ++ x :: b) = splitWhere p a ++ splitWhere p b
  | [] => by
    obtain ⟨piece, pieces, h⟩ := List.exists_cons_of_ne_nil (splitWhere_ne_nil p b)
    simp [splitWhere, h, hx]
  | c :: a => by
    obtain ⟨piece, pieces, h⟩ := List.exists_cons_of_ne_nil (splitWhere_ne_nil p a)
    rw [List.cons_append, splitWhere, splitWhere_append_cons hx b a, splitWhere, h]
    by_cases hc : p c <;> simp [hc]

theorem splitOn_of_notMem {t : Text} {sep : Char} (h : sep ∉ t) : t.splitOn sep = [t] :=
  splitWhere_of_forall fun _ hc ↦ beq_eq_false_iff_ne.2 fun heq ↦ h (heq ▸ hc)

theorem splitOn_append_cons {a : Text} {sep : Char} (ha : sep ∉ a) (b : Text) :
    Text.splitOn (a ++ sep :: b) sep = a :: Text.splitOn b sep := by
  have hfirst : splitWhere (· == sep) a = [a] := splitOn_of_notMem ha
  rw [splitOn, splitWhere_append_cons (by simp), hfirst]
  rfl

theorem splitOn_append_last {b : Text} {sep : Char} (hb : sep ∉ b) (a : Text) :
    Text.splitOn (a ++ sep :: b) sep = a.splitOn sep ++ [b] := by
  have hlast : splitWhere (· == sep) b = [b] := splitOn_of_notMem hb
  rw [splitOn, splitWhere_append_cons (by simp), hlast]
  rfl

/-- The pieces are made of characters of the text. -/
theorem subset_of_mem_splitOn {sep : Char} {piece : Text} : ∀ {t : Text},
    piece ∈ splitOn t sep → piece ⊆ t
  | [], h => by rw [List.mem_singleton.1 h]; exact List.Subset.refl _
  | c :: t, h => by
    obtain ⟨first, more, hsplit⟩ := List.exists_cons_of_ne_nil (splitWhere_ne_nil (· == sep) t)
    have ih {piece : Text} (hpiece : piece ∈ first :: more) : piece ⊆ c :: t :=
      List.Subset.trans (subset_of_mem_splitOn (hsplit ▸ hpiece)) (List.subset_cons_self c t)
    rw [splitOn, splitWhere, hsplit] at h
    simp only at h
    split at h
    · rcases List.mem_cons.1 h with rfl | h
      · exact List.nil_subset _
      · exact ih h
    · rcases List.mem_cons.1 h with rfl | h
      · exact List.cons_subset.2 ⟨List.mem_cons_self, ih List.mem_cons_self⟩
      · exact ih (List.mem_cons_of_mem first h)

/-- A beginning of the text without separators is one of the first piece. -/
theorem prefix_of_splitWhere {m : Text} (hm : ∀ c ∈ m, p c = false) : ∀ {t piece : Text}
    {pieces : List Text}, splitWhere p t = piece :: pieces → m <+: t → m <+: piece := by
  induction m with
  | nil => exact fun _ _ ↦ List.nil_prefix
  | cons x m ih =>
    intro t piece pieces ht hfront
    obtain ⟨rest, rfl⟩ := hfront
    obtain ⟨piece', pieces', h⟩ := List.exists_cons_of_ne_nil (splitWhere_ne_nil p (m ++ rest))
    have hx := hm x List.mem_cons_self
    have hmore := ih (fun c hc ↦ hm c (List.mem_cons_of_mem x hc)) h (List.prefix_append m rest)
    rw [List.cons_append, splitWhere, h] at ht
    simp only [hx, Bool.false_eq_true, if_false, List.cons.injEq] at ht
    rw [← ht.1]
    exact (List.prefix_cons_inj x).2 hmore

/-- What holds no separator lies within a piece. -/
theorem exists_infix_of_splitWhere {m : Text} (hne : m ≠ []) (hm : ∀ c ∈ m, p c = false) :
    ∀ {t : Text}, m <:+: t → ∃ piece ∈ splitWhere p t, m <:+: piece := by
  intro t
  induction t with
  | nil => exact fun h ↦ absurd (List.infix_nil.1 h) hne
  | cons c t ih =>
    intro h
    obtain ⟨piece, pieces, hsplit⟩ := List.exists_cons_of_ne_nil (splitWhere_ne_nil p t)
    rw [splitWhere, hsplit]
    rcases List.infix_cons_iff.1 h with hfront | hwithin
    · obtain ⟨x, m, rfl⟩ := List.exists_cons_of_ne_nil hne
      obtain ⟨rfl, hmore⟩ := List.cons_prefix_cons.1 hfront
      have hpiece := prefix_of_splitWhere (fun y hy ↦ hm y (List.mem_cons_of_mem x hy)) hsplit
        hmore
      refine ⟨x :: piece, by simp [hm x List.mem_cons_self], ?_⟩
      exact ((List.prefix_cons_inj x).2 hpiece).isInfix
    · obtain ⟨found, hfound, hin⟩ := ih hwithin
      rw [hsplit] at hfound
      by_cases hc : p c
      · exact ⟨found, by simp [hc, List.mem_cons.1 hfound], hin⟩
      · rcases List.mem_cons.1 hfound with rfl | hfound
        · exact ⟨c :: found, by simp [hc], hin.trans (List.suffix_cons c found).isInfix⟩
        · exact ⟨found, by simp [hc, hfound], hin⟩

/-- The longest runs of word characters, with an empty one between two other characters. -/
def wordRuns (t : Text) : List Text := t.splitWhere fun c ↦ !isWordChar c

theorem wordRuns_of_forall {w : Text} (h : ∀ c ∈ w, isWordChar c = true) : wordRuns w = [w] :=
  splitWhere_of_forall fun c hc ↦ by simp [h c hc]

theorem wordRuns_of_isIdentifier {w : Text} (h : isIdentifier w = true) : wordRuns w = [w] :=
  wordRuns_of_forall (isWordChar_of_mem h)

theorem wordRuns_append_cons {x : Char} (hx : isWordChar x = false) (a b : Text) :
    wordRuns (a ++ x :: b) = wordRuns a ++ wordRuns b :=
  splitWhere_append_cons (by simp [hx]) b a

theorem wordRuns_cons {x : Char} (hx : isWordChar x = false) (b : Text) :
    wordRuns (x :: b) = [] :: wordRuns b := wordRuns_append_cons hx [] b

/-- **A word that a text contains lies within one of its runs.** -/
theorem exists_mem_wordRuns_of_contains {t w : Text} (hne : w ≠ [])
    (hw : ∀ c ∈ w, isWordChar c = true) (h : t.contains w = true) :
    ∃ run ∈ wordRuns t, run.contains w = true := by
  obtain ⟨run, hrun, hin⟩ := exists_infix_of_splitWhere (p := fun c ↦ !isWordChar c) hne
    (fun c hc ↦ by simp [hw c hc]) (contains_iff.1 h)
  exact ⟨run, hrun, contains_iff.2 hin⟩

/-- A text begins with one longest run of characters of a sort only. -/
theorem eq_of_append_eq_of_forall {p : Char → Bool} {u u' s s' : Text} (h : u ++ s = u' ++ s')
    (hu : ∀ c ∈ u, p c = true) (hu' : ∀ c ∈ u', p c = true) (hs : ∀ c ∈ s.head?, p c = false)
    (hs' : ∀ c ∈ s'.head?, p c = false) : u = u' := by
  have hnil {a r r' : Text} (hr : r = a ++ r') (hr₀ : ∀ c ∈ r.head?, p c = false)
      (ha : ∀ c ∈ a, p c = true) : a = [] := by
    cases a with
    | nil => rfl
    | cons c a =>
      have hc := hr₀ c (by rw [hr]; rfl)
      exact absurd ((ha c List.mem_cons_self).symm.trans hc) (by simp)
  rcases List.append_eq_append_iff.1 h with ⟨a, rfl, hrest⟩ | ⟨a, rfl, hrest⟩
  · rw [hnil hrest hs fun c hc ↦ hu' c (List.mem_append_right _ hc), List.append_nil]
  · rw [hnil hrest hs' fun c hc ↦ hu c (List.mem_append_right _ hc), List.append_nil]

/-- A text begins with one longest run of word characters only. -/
theorem eq_of_append_eq {u u' s s' : Text} (h : u ++ s = u' ++ s')
    (hu : ∀ c ∈ u, isWordChar c = true) (hu' : ∀ c ∈ u', isWordChar c = true)
    (hs : ∀ c ∈ s.head?, isWordChar c = false) (hs' : ∀ c ∈ s'.head?, isWordChar c = false) :
    u = u' := eq_of_append_eq_of_forall h hu hu' hs hs'

/-- A character that the first part of a text does not hold stands in the second one. -/
theorem exists_of_append_cons {x : Char} {a b s r : Text} (h : a ++ b = s ++ x :: r) (ha : x ∉ a) :
    ∃ s', b = s' ++ x :: r := by
  rcases List.append_eq_append_iff.1 h with ⟨u, -, hu⟩ | ⟨u, rfl, hu⟩
  · exact ⟨u, hu⟩
  · cases u with
    | nil => exact ⟨[], hu.symm⟩
    | cons y u =>
      refine absurd ?_ ha
      rw [(List.cons.inj hu).1]
      exact List.mem_append_right s List.mem_cons_self

/-- What stands in front of the first place of a character. -/
theorem eq_of_notMem {x : Char} {a b s s' : Text} (h : a ++ x :: s = b ++ x :: s') (ha : x ∉ a)
    (hb : x ∉ b) : a = b := by
  have hfront {a s : Text} (ha : x ∉ a) : (a ++ x :: s).takeWhile (· != x) = a := by
    have hne : ∀ c ∈ a, (c != x) = true := by
      intro c hc
      rw [bne_iff_ne]
      rintro rfl
      exact ha hc
    rw [List.takeWhile_append_of_pos hne, List.takeWhile_cons_of_neg (by simp), List.append_nil]
  rw [← hfront (s := s) ha, h, hfront hb]

/-- What stands in front of the last place of a character. -/
theorem eq_of_notMem_right {x : Char} {a b s s' : Text} (h : a ++ x :: s = b ++ x :: s')
    (hs : x ∉ s) (hs' : x ∉ s') : a = b := by
  have hreverse : s.reverse ++ x :: a.reverse = s'.reverse ++ x :: b.reverse := by
    simpa using congrArg List.reverse h
  have hsame := eq_of_notMem hreverse (by simpa using hs) (by simpa using hs')
  obtain rfl := List.reverse_inj.1 hsame
  exact List.append_cancel_right h

/-- A word between two other characters, or an end of the text, is a run of it. -/
theorem mem_wordRuns {u w v : Text} (hw : ∀ c ∈ w, isWordChar c = true)
    (hu : ∀ c ∈ u.getLast?, isWordChar c = false) (hv : ∀ c ∈ v.head?, isWordChar c = false) :
    w ∈ wordRuns (u ++ w ++ v) := by
  have hbehind : w ∈ wordRuns (w ++ v) := by
    cases v with
    | nil => simp [wordRuns_of_forall hw]
    | cons y v => simp [wordRuns_append_cons (hv y rfl), wordRuns_of_forall hw]
  rcases List.eq_nil_or_concat' u with rfl | ⟨u, x, rfl⟩
  · exact hbehind
  · have hx : isWordChar x = false := hu x (by simp)
    rw [List.append_assoc, List.append_assoc, List.singleton_append,
      wordRuns_append_cons hx]
    exact List.mem_append_right _ hbehind

end Text

end HeaderBindings
