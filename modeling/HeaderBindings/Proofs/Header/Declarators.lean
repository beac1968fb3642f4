import HeaderBindings.Proofs.Header.NamePlaces
import HeaderBindings.Proofs.Header.Written
import HeaderBindings.Proofs.Text.WholeWords

/-!
# Reading a declarator back

`Declarator.parse_text`: what is read from a written declarator is the name and the type that it was
written for, whatever blanks stand around it.  The three patterns that `Declarator.parse` tries are
dealt with one by one.

* `const` is removed, which changes nothing but what stands between brackets or in the parameter
  list of a callback (`removeAll_front`).
* The pattern of a callback matches at the first parenthesis, or nowhere (`search_callback`,
  `search_callback_eq_none`).
* The pattern of a name finds the only place for a name, since the type in front of it closes all
  its brackets (`parsePlain_of_dropQualifiers`).
-/

set_option autoImplicit false

namespace HeaderBindings

open Cursor (start)
open Pattern

namespace Declarator

variable {tag : Text}

/-! ## Callback declarators -/

/-- A callback declarator begins with a parenthesis, behind which the tag stands. -/
theorem exists_rest_of_passes {c c' : Cursor} {ms : List (Mark × Cursor)}
    (h : (callbackPattern tag).Passes c ms c') : ∃ r, c.rest = '(' :: r ∧
      (isIdentifier tag = true → tag ∈ Text.wordRuns r) := by
  obtain ⟨-, c₈, -, ⟨-, c₇, -, ⟨-, c₆, -, ⟨-, c₅, -, ⟨-, c₄, -, ⟨-, c₃, -, ⟨-, c₂, -, ⟨-, c₁, -,
    ⟨hopening, -⟩, ⟨⟨s, hs, hblanks⟩, -⟩, -⟩, ⟨hread, -⟩, -⟩, ⟨⟨s', hs', hblanks'⟩, -⟩, -⟩,
    ⟨hstar, -⟩, -⟩, -⟩, -⟩, -⟩, -⟩ := h
  refine ⟨c₁.rest, hopening.rest, fun htag ↦ ?_⟩
  have hr : c₁.rest = s ++ tag ++ (s' ++ '*' :: c₅.rest) := by
    rw [hblanks.rest, hread.rest, hblanks'.rest, hstar.rest]
    simp
  rw [hr]
  refine Text.mem_wordRuns (isWordChar_of_mem htag) (fun c hc ↦ ?_) fun c hc ↦ ?_
  · exact isWordChar_of_isBlank (List.all_eq_true.1 hs c (List.mem_of_getLast? hc))
  · cases s' with
    | nil =>
      obtain rfl : '*' = c := by simpa using hc
      decide
    | cons x s' =>
      obtain rfl : x = c := by simpa using hc
      exact isWordChar_of_isBlank (List.all_eq_true.1 hs' x List.mem_cons_self)

/-- Text in which the tag stands behind no parenthesis holds no callback declarator. -/
theorem search_callback_eq_none {t : Text}
    (h : ∀ s r, t = s ++ '(' :: r → isIdentifier tag = true ∧ tag ∉ Text.wordRuns r) :
    (callbackPattern tag).search t = none := by
  refine search_eq_none fun s c hs ↦ run_eq_none_of_passes fun ms c' hpass ↦ ?_
  obtain ⟨r, hr, hmem⟩ := exists_rest_of_passes hpass
  have hsplit := h s r (by rw [← hr]; exact hs.rest)
  exact hsplit.2 (hmem hsplit.1)

/-- An array suffix hides no callback declarator if its size does not hold the tag. -/
theorem search_callback_eq_none_of_array {a s : Text} (ha : '(' ∉ a)
    (hs : '(' ∈ s → isIdentifier tag = true ∧ tag ∉ Text.wordRuns s) :
    (callbackPattern tag).search (a ++ '[' :: (s ++ [']'])) = none := by
  refine search_callback_eq_none fun b r hsplit ↦ ?_
  obtain ⟨b', hb'⟩ := Text.exists_of_append_cons (a := a ++ ['[']) (b := s ++ [']'])
    (by simpa using hsplit) (by simpa using ha)
  have hopening : '(' ∈ s := by
    have hin : '(' ∈ s ++ [']'] := by rw [hb']; simp
    simpa using hin
  obtain ⟨htag, hnotMem⟩ := hs hopening
  refine ⟨htag, fun hmem ↦ ?_⟩
  have hword : tag ∈ Text.wordRuns (s ++ [']']) := by
    rw [hb', Text.wordRuns_append_cons (by decide)]
    exact List.mem_append_right _ hmem
  rw [Text.wordRuns_append_cons (by decide)] at hword
  rcases List.mem_append.1 hword with hword | hword
  · exact hnotMem hword
  · exact ne_nil_of_isIdentifier htag (List.mem_singleton.1 hword)

/-- A callback declarator matches where it begins. -/
theorem matchAt_callback (htag : isIdentifier tag = true) {name r : Text}
    (hname : isIdentifier name = true) {c : Cursor}
    (hc : c.rest = '(' :: (tag ++ '*' :: ' ' :: (name ++ ')' :: r))) :
    ∃ m, (callbackPattern tag).matchAt c = some m ∧ m.get 1 = name := by
  obtain ⟨c₁, h₁, hr₁⟩ := Cursor.exists_reads (s := ['(']) hc
  obtain ⟨c₂, h₂, hr₂⟩ := Cursor.exists_reads hr₁
  obtain ⟨c₃, h₃, hr₃⟩ := Cursor.exists_reads (s := ['*']) hr₂
  obtain ⟨c₄, h₄, hr₄⟩ := Cursor.exists_reads (s := [' ']) hr₃
  obtain ⟨c₅, h₅, hr₅⟩ := Cursor.exists_reads hr₄
  obtain ⟨c₆, h₆, hr₆⟩ := Cursor.exists_reads (s := [')']) hr₅
  refine ⟨((Match.empty c₆).mark (.closing 1) c₅).mark (.opening 1) c₄, ?_, ?_⟩
  · have hclose := run_text (k := fun c ↦ some (.empty c)) h₆ rfl
    have hname₅ := run_noBlanks hclose (by rw [hr₅]; simp; decide)
    have hgroup := run_group (p := .word₁) (run_some₁ h₅ (ne_nil_of_isIdentifier hname)
      (isWordChar_of_mem hname) (close_group (i := 1) hname₅) (by rw [hr₅]; simp; decide))
    have hstar := run_text h₃ (run_blanks h₄ (by simp; decide) hgroup
      (by rw [hr₄]; exact isBlank_of_mem_head? hname _))
    have htext := run_text h₂ (run_noBlanks hstar (by rw [hr₂]; simp; decide))
    exact run_text h₁ (run_noBlanks htext (by rw [hr₁]; exact isBlank_of_mem_head? htag _))
  · simp [Match.get, Match.get?, Match.place?, Match.mark, Match.empty, h₅.textTo]

/-- **The first parenthesis** is where a callback declarator is found. -/
theorem search_callback (htag : isIdentifier tag = true) {front name r : Text}
    (hfront : '(' ∉ front) (hname : isIdentifier name = true) :
    ∃ m, (callbackPattern tag).search
        (front ++ '(' :: (tag ++ '*' :: ' ' :: (name ++ ')' :: r))) = some m ∧ m.get 1 = name := by
  obtain ⟨c, hc, hrest⟩ := Cursor.exists_reads
    (c := start (front ++ '(' :: (tag ++ '*' :: ' ' :: (name ++ ')' :: r)))) rfl
  obtain ⟨m, hm, hget⟩ := matchAt_callback htag hname hrest
  refine ⟨m, search_behind hc (fun u v d hsplit hne hd ↦ ?_) hm, hget⟩
  refine run_eq_none_of_passes fun ms c' hpass ↦ hfront ?_
  obtain ⟨r', hr', -⟩ := exists_rest_of_passes hpass
  obtain ⟨x, v, rfl⟩ := List.exists_cons_of_ne_nil hne
  have hx : x = '(' := by
    have hsame := hd.rest
    rw [hr', hsplit, List.append_assoc] at hsame
    exact (List.cons.inj (List.append_cancel_left hsame)).1
  rw [hsplit, hx]
  simp

/-! ## Qualifiers -/

theorem isIdentifier_of_mem_qualifiers : ∀ q ∈ qualifiers, isIdentifier q = true := by decide

/-- A text whose first word is no qualifier keeps it. -/
theorem dropQualifiers_eq {w s : Text} (hw : isIdentifier w = true) (hq : w ∉ qualifiers)
    (hs : ∀ c ∈ s.head?, isWordChar c = false) (bound : Nat) :
    dropQualifiers bound (w ++ s) = w ++ s := by
  have hnone : afterQualifier? (w ++ s) = none := by
    refine List.findSome?_eq_none_iff.2 fun q hmem ↦ ?_
    cases hlead : (w ++ s).afterLead? q with
    | none => rfl
    | some rest =>
      cases rest with
      | nil => rfl
      | cons c rest =>
        -- A blank behind the qualifier would make it the whole first word.
        refine if_neg fun hc ↦ hq ?_
        have heq := Text.eq_of_append_eq (Text.afterLead?_eq_some_iff.1 hlead)
          (isWordChar_of_mem hw) (isWordChar_of_mem (isIdentifier_of_mem_qualifiers q hmem)) hs
          (by simpa using isWordChar_of_isBlank hc)
        rwa [heq]
  cases bound with
  | zero => rfl
  | succ bound => rw [dropQualifiers, hnone]

/-- A leading qualifier is told by the blank behind it. -/
theorem afterQualifier?_append {q r : Text} (hword : isIdentifier q = true) (hq : q ∈ qualifiers)
    {c : Char} (hc : isBlank c = true) :
    afterQualifier? (q ++ c :: r) = some (Text.trimStart r) := by
  obtain ⟨before, after, hsplit, hnotMem⟩ := List.eq_append_cons_of_mem hq
  refine List.findSome?_eq_some_iff.2 ⟨before, q, after, hsplit, ?_, fun q' hq' ↦ ?_⟩
  · rw [Text.afterLead?_eq_some_iff.2 rfl]
    exact if_pos hc
  · cases hlead : (q ++ c :: r).afterLead? q' with
    | none => rfl
    | some rest =>
      cases rest with
      | nil => rfl
      | cons c' rest =>
        refine if_neg fun hc' ↦ hnotMem ?_
        have hword' := isIdentifier_of_mem_qualifiers q' (hsplit ▸ List.mem_append_left _ hq')
        have heq := Text.eq_of_append_eq (Text.afterLead?_eq_some_iff.1 hlead).symm
          (isWordChar_of_mem hword') (isWordChar_of_mem hword)
          (by simpa using isWordChar_of_isBlank hc') (by simpa using isWordChar_of_isBlank hc)
        exact heq ▸ hq'

/-! ## Names and types -/

/-- An array suffix as it may stand behind a name, or nothing. -/
def IsSuffix (suffix : Text) : Prop :=
  suffix = [] ∨ ∃ size, suffix = '[' :: (size ++ [']']) ∧ '[' ∉ size ∧ ']' ∉ size

/-- A suffix can stand behind a name, with blanks in between. -/
theorem IsSuffix.isTail {suffix pad : Text} (h : IsSuffix suffix)
    (hpad : ∀ c ∈ pad, isBlank c = true) : IsTail (pad ++ suffix) (!suffix.isEmpty) := by
  refine ⟨pad, suffix, rfl, hpad, ?_⟩
  rcases h with rfl | ⟨size, rfl, -, hsize⟩
  · exact Or.inl ⟨rfl, rfl⟩
  · exact Or.inr ⟨size, rfl, hsize, rfl⟩

section

variable {front name pad suffix : Text} (hname : isIdentifier name = true)

include hname

/-- What is read behind the qualifiers is the type without its blanks, whatever blanks and stars
separate it from the name and whatever blanks come behind that. -/
theorem parsePlain_of_dropQualifiers {t gap : Text}
    (hdrop : dropQualifiers t.length t = front ++ gap ++ name ++ pad ++ suffix)
    (hsolid : front.IsSolid) (hlines : '\n' ∉ front) (hclosed : ClosesBrackets (front ++ gap))
    (hne : gap ≠ []) (hgap : ∀ c ∈ gap, isGap c = true)
    (hdots : (front ++ gap).withoutBlanks ≠ "...") (hpad : ∀ c ∈ pad, isBlank c = true)
    (hsuffix : IsSuffix suffix) :
    parsePlain t = .named name (if suffix = [] then (front ++ gap).withoutBlanks
      else (front ++ gap).withoutBlanks ++ ['*']) := by
  obtain ⟨u, y, rfl, hy⟩ := hsolid.last
  have hnamed : NamedAt (u ++ [y] ++ gap ++ name ++ pad ++ suffix) (u ++ [y] ++ gap) name
      (pad ++ suffix) (!suffix.isEmpty) := by
    refine ⟨by simp, ⟨u ++ [y], gap, rfl, ⟨u, y, rfl, ?_, hy⟩, hne, hgap⟩,
      isName_of_isIdentifier hname, hsuffix.isTail hpad⟩
    exact fun hmem ↦ hlines (List.mem_append_left _ hmem)
  rw [parsePlain_of_namedAt hdrop hnamed fun p' w' r' array' h ↦ hnamed.length_le hclosed h,
    if_neg hdots]
  cases suffix <;> rfl

/-- **A type, a name and perhaps an array suffix** are read as they are written. -/
theorem parsePlain_eq (t : WrittenType) (hsuffix : IsSuffix suffix) :
    parsePlain (t.text ++ ' ' :: name ++ suffix) =
      .named name (if suffix = [] then t.type else t.type ++ ['*']) := by
  have hdrop : ∀ bound, dropQualifiers bound (t.text ++ ' ' :: name ++ suffix) =
      t.text ++ [' '] ++ name ++ [] ++ suffix := by
    have hfirst : t.text ++ ' ' :: name ++ suffix = t.first.1 ++
        (t.more.flatMap (fun w ↦ ' ' :: w.1) ++ List.replicate t.stars '*' ++
          ' ' :: name ++ suffix) := by simp [WrittenType.text]
    have hsame : t.text ++ ' ' :: name ++ suffix = t.text ++ [' '] ++ name ++ [] ++ suffix := by
      simp
    rw [← hsame, hfirst]
    refine dropQualifiers_eq t.first.2.1 (fun hq ↦ t.first.2.2 (List.mem_cons_of_mem _ hq)) ?_
    cases t.more with
    | cons w more => simp; decide
    | nil => cases t.stars <;> simp [List.replicate_succ] <;> decide
  have hplain : (t.text ++ [' ']).withoutBlanks = t.type := by
    rw [Text.withoutBlanks_append, t.withoutBlanks_text]
    exact List.append_nil _
  have hdots : t.type ≠ "..." := by
    obtain ⟨c, w, hw, hc, -⟩ := exists_cons_of_isIdentifier t.first.2.1
    rw [WrittenType.type, WrittenType.words, hw]
    rintro heq
    obtain rfl := (List.cons.inj heq).1
    exact absurd hc (by decide)
  have hclosed : ClosesBrackets (t.text ++ [' ']) := by
    refine closesBrackets_of_notMem ?_
    rw [List.mem_append, List.mem_singleton, not_or]
    exact ⟨t.notMem_text (by decide), by decide⟩
  rw [parsePlain_of_dropQualifiers hname (hdrop _) t.isSolid_text (t.notMem_text (by decide))
    hclosed (by simp) (by simp; decide) (hplain ▸ hdots) (by simp) hsuffix, hplain]

end

/-! ## Whole declarators -/

theorem constWord_eq : constWord = wholeWord "const" := rfl

theorem const_ne_nil : "const".toList ≠ [] := by decide

theorem isWordChar_of_mem_const : ∀ c ∈ "const".toList, isWordChar c = true :=
  List.all_eq_true.1 (by decide)

@[simp]
theorem removeAll_nil : constWord.removeAll [] = [] := rfl

/-- Nothing is removed across another character than those of words. -/
theorem removeAll_cut (s : Text) {x : Char} (hx : isWordChar x = false) (t : Text) :
    constWord.removeAll (s ++ x :: t) = constWord.removeAll s ++ x :: constWord.removeAll t :=
  removeAll_append_cons const_ne_nil isWordChar_of_mem_const hx s t

/-- What stands in front of another character than those of words is kept if it does not hold
`const`. -/
theorem removeAll_front {s : Text} (hs : "const".toList ∉ Text.wordRuns s) {x : Char}
    (hx : isWordChar x = false) (t : Text) :
    constWord.removeAll (s ++ x :: t) = s ++ x :: constWord.removeAll t := by
  rw [removeAll_cut s hx, constWord_eq,
    removeAll_of_notMem const_ne_nil isWordChar_of_mem_const hs]

/-- What is removed within brackets or parentheses leaves these alone. -/
theorem removeAll_closed (s : Text) {x : Char} (hx : isWordChar x = false) :
    constWord.removeAll (s ++ [x]) = constWord.removeAll s ++ [x] := by
  rw [removeAll_cut s hx, removeAll_nil]

/-- A first character that belongs to no word stays the first one. -/
theorem removeAll_cons {x : Char} (hx : isWordChar x = false) (t : Text) :
    constWord.removeAll (x :: t) = x :: constWord.removeAll t := removeAll_cut [] hx t

/-- Nothing is removed across a place behind which no word goes on. -/
theorem removeAll_append (s : Text) {t : Text} (ht : ∀ c ∈ t.head?, isWordChar c = false) :
    constWord.removeAll (s ++ t) = constWord.removeAll s ++ constWord.removeAll t := by
  cases t with
  | nil => rw [removeAll_nil, List.append_nil, List.append_nil]
  | cons x t => rw [removeAll_cut s (ht x rfl), removeAll_cons (ht x rfl)]

/-- No word comes to the beginning. -/
theorem head?_removeAll {t : Text} (ht : ∀ c ∈ t.head?, isWordChar c = false) :
    ∀ c ∈ (constWord.removeAll t).head?, isWordChar c = false := by
  cases t with
  | nil => simp
  | cons x t =>
    rw [removeAll_cons (ht x rfl)]
    exact ht

variable {s t u v : Text}

section

variable (hu : ∀ c ∈ u, isBlank c = true) (hv : ∀ c ∈ v, isBlank c = true) (hsolid : t.IsSolid)
  (hfirst : t.head? ≠ some '\x7d') (hbrace : '\x7b' ∉ t)

include hu hv hsolid hfirst hbrace

/-- What is read from a declarator between blanks, when its `const` are removed. -/
theorem parse_eq (hremoved : (constWord.removeAll t).trim = s) :
    parse tag (u ++ t ++ v) =
      match (callbackPattern tag).search s with
      | some m => .named (m.get 1) callbackType
      | none => parsePlain s := by
  rw [parse, Text.trim_pad hu hsolid hv]
  have hempty : t.isEmpty = false := by simpa using hsolid.ne_nil
  have hopens := Text.contains_singleton_eq_false hbrace
  split
  · exact absurd rfl hfirst
  · cases hsearch : (callbackPattern tag).search s <;>
      simp only [hempty, hopens, Bool.false_eq_true, if_false, hremoved, hsearch]

/-- Text without parentheses is no callback declarator. -/
theorem parse_eq_parsePlain (hplain : '(' ∉ t)
    (hconst : "const".toList ∉ Text.wordRuns t) : parse tag (u ++ t ++ v) = parsePlain t := by
  have hremoved : constWord.removeAll t = t :=
    removeAll_of_notMem const_ne_nil isWordChar_of_mem_const hconst
  have hnone : (callbackPattern tag).search t = none :=
    search_callback_eq_none fun s r ht ↦ absurd (by rw [ht]; simp) hplain
  rw [parse_eq hu hv hsolid hfirst hbrace ((congrArg Text.trim hremoved).trans hsolid.trim),
    hnone]

end

/-! ### Each kind of declarator -/

section

variable (type : WrittenType) (name : DeclaredName)

theorem const_notMem_named : "const".toList ∉ Text.wordRuns (type.text ++ ' ' :: name.1) := by
  rw [Text.wordRuns_append_cons (by decide), Text.wordRuns_of_isIdentifier name.2.1,
    List.mem_append, List.mem_singleton, not_or]
  exact ⟨type.const_notMem_wordRuns, Ne.symm name.2.2⟩

theorem opening_notMem_named : '(' ∉ type.text ++ ' ' :: name.1 := by
  simp only [List.mem_append, List.mem_cons, not_or]
  exact ⟨type.notMem_text (by decide), by decide, notMem_of_isIdentifier name.2.1 (by decide)⟩

/-- Of an array declarator only the size can hold a `const`. -/
theorem removeAll_array (size : Text) :
    constWord.removeAll (type.text ++ ' ' :: name.1 ++ '[' :: (size ++ [']'])) =
      type.text ++ ' ' :: name.1 ++ '[' :: (constWord.removeAll size ++ [']']) := by
  rw [removeAll_front (const_notMem_named type name) (by decide), removeAll_closed _ (by decide)]

/-- Of a callback declarator only the list of parameters can hold a `const`. -/
theorem removeAll_callback (htag : isIdentifier tag = true) (hconst : tag ≠ "const")
    (params : Text) :
    constWord.removeAll (type.text ++ ' ' :: '(' ::
        (tag ++ '*' :: ' ' :: (name.1 ++ ')' :: '(' :: (params ++ [')'])))) =
      type.text ++ ' ' :: '(' ::
        (tag ++ '*' :: ' ' :: (name.1 ++ ')' :: '(' :: (constWord.removeAll params ++ [')']))) := by
  have htags : "const".toList ∉ Text.wordRuns (tag ++ '*' :: ' ' :: (name.1 ++ [')'])) := by
    rw [Text.wordRuns_append_cons (by decide), Text.wordRuns_cons (by decide),
      Text.wordRuns_append_cons (by decide), Text.wordRuns_of_isIdentifier htag,
      Text.wordRuns_of_isIdentifier name.2.1]
    change "const".toList ∉ [tag, [], name.1, []]
    simp only [List.mem_cons, List.not_mem_nil, or_false, not_or]
    exact ⟨Ne.symm hconst, by decide, Ne.symm name.2.2, by decide⟩
  have hfront : "const".toList ∉ Text.wordRuns
      (type.text ++ ' ' :: '(' :: (tag ++ '*' :: ' ' :: (name.1 ++ [')']))) := by
    rw [Text.wordRuns_append_cons (by decide), Text.wordRuns_cons (by decide), List.mem_append,
      List.mem_cons, not_or, not_or]
    exact ⟨type.const_notMem_wordRuns, by decide, htags⟩
  have hremoved := removeAll_front hfront (x := '(') (by decide) (params ++ [')'])
  rw [removeAll_closed _ (by decide)] at hremoved
  simpa using hremoved

theorem mem_of_mem_removeAll {s : Text} {c : Char} (h : c ∈ constWord.removeAll s) : c ∈ s :=
  (removeAll_sublist const_ne_nil isWordChar_of_mem_const s).subset h

/-- What is left of an array declarator is not taken for one of a callback. -/
theorem search_callback_array (size : ArraySize)
    (hd : (WrittenDeclarator.array type name size).Fits tag) :
    (callbackPattern tag).search
      (type.text ++ ' ' :: name.1 ++ '[' :: (constWord.removeAll size.1 ++ [']'])) = none := by
  refine search_callback_eq_none_of_array (opening_notMem_named type name) fun hmem ↦ ?_
  obtain ⟨htag, hnotMem⟩ := hd (mem_of_mem_removeAll hmem)
  exact ⟨htag, fun hword ↦ hnotMem (mem_wordRuns_of_removeAll const_ne_nil
    isWordChar_of_mem_const (ne_nil_of_isIdentifier htag) hword)⟩

theorem parsePlain_array (size : ArraySize) :
    parsePlain (type.text ++ ' ' :: name.1 ++ '[' :: (constWord.removeAll size.1 ++ [']'])) =
      .named name.1 (type.type ++ ['*']) := by
  have hread := parsePlain_eq name.2.1 type (Or.inr ⟨constWord.removeAll size.1, rfl,
    fun hmem ↦ size.2.2.2.1 (mem_of_mem_removeAll hmem),
    fun hmem ↦ size.2.2.2.2 (mem_of_mem_removeAll hmem)⟩)
  rwa [if_neg (List.cons_ne_nil _ _)] at hread

end

/-- **What is read from a written declarator** is its name and its type, whatever blanks stand
around it. -/
theorem parse_text (d : WrittenDeclarator) (hd : d.Fits tag)
    (hu : ∀ c ∈ u, isBlank c = true) (hv : ∀ c ∈ v, isBlank c = true) :
    parse tag (u ++ d.text tag ++ v) = .named d.name d.type := by
  have hbrace : '\x7b' ∉ d.text tag :=
    notMem_of_isInnerChar (d.isInnerChar_of_mem_text hd.isIdentifier) (by decide)
  have hfirst : (d.text tag).head? ≠ some '\x7d' := by
    obtain ⟨c, t, ht, hc⟩ := d.exists_text_eq_cons tag
    rw [ht]
    intro heq
    obtain rfl := Option.some_inj.1 heq
    exact absurd hc (by decide)
  have hsolid := d.isSolid_text tag
  have hlast {c : Char} (hc : isBlank c = false) : Text.IsSolid [c] :=
    Text.isSolid_of_forall (by simp) (by simpa using hc)
  cases d with
  | plain type name =>
    rw [parse_eq_parsePlain hu hv hsolid hfirst hbrace (opening_notMem_named type name)
      (const_notMem_named type name)]
    have hread := parsePlain_eq name.2.1 type (Or.inl rfl)
    rwa [List.append_nil, if_pos rfl] at hread
  | array type name size =>
    have hclosed : Text.IsSolid
        (type.text ++ ' ' :: name.1 ++ '[' :: (constWord.removeAll size.1 ++ [']'])) := by
      simpa using type.isSolid_text.join (' ' :: name.1 ++ '[' :: constWord.removeAll size.1)
        (hlast (by decide))
    rw [parse_eq hu hv hsolid hfirst hbrace
        ((congrArg Text.trim (removeAll_array type name size.1)).trans hclosed.trim),
      search_callback_array type name size hd]
    exact parsePlain_array type name size
  | callback result name params =>
    obtain ⟨htag, hconst⟩ := hd
    have hfront : '(' ∉ result.text ++ [' '] := by
      simpa using result.notMem_text (c := '(') (by decide)
    obtain ⟨m, hm, hget⟩ := search_callback htag hfront name.2.1
      (r := '(' :: (constWord.removeAll params.1 ++ [')']))
    simp only [List.append_assoc, List.cons_append, List.nil_append] at hm
    have hclosed : Text.IsSolid (result.text ++ ' ' :: '(' :: (tag ++ '*' :: ' ' :: (name.1 ++
        ')' :: '(' :: (constWord.removeAll params.1 ++ [')'])))) := by
      simpa using result.isSolid_text.join (' ' :: '(' :: (tag ++ '*' :: ' ' :: (name.1 ++
        ')' :: '(' :: constWord.removeAll params.1))) (hlast (by decide))
    rw [parse_eq hu hv hsolid hfirst hbrace ((congrArg Text.trim
      (removeAll_callback result name htag hconst params.1)).trans hclosed.trim), hm]
    exact congrArg (Declarator.named · callbackType) hget

end Declarator

end HeaderBindings
