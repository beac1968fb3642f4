import HeaderBindings.Proofs.Header.Fates
import HeaderBindings.Proofs.Text.Symbols

/-!
# Declarators with other blanks

A declarator is read in steps.  What stands in front of it and `const` are taken away, a callback is
looked for, qualifiers are dropped, and from the rest a name is taken off the end.  Do blanks
between two characters make a difference?  If there are some already, or none within a word, then
not in the first steps.  But a qualifier is one only with a blank behind it, and a name needs
something between itself and its type.

* `search_callback_seam`: a callback is recognised by its symbols.
* `bare_cases`: what is left without `const` and without what stands around it.
* `unqualified_cases`: qualifiers are dropped on one side of the blanks, or all in front of them is.
* `namedAt_seam`: a name is found in the same place, and so the same is read (`parsePlain_seam`).
* `parse_seam`: all in all the blanks make no difference, where `Breakable` says what it takes if
  there are none.
-/

set_option autoImplicit false

namespace HeaderBindings

open Cursor (start)
open Pattern

namespace Declarator

variable {tag : Text}

/-! ## Callbacks -/

/-- What a way through the pattern of a callback declarator reads. -/
theorem exists_of_passes_callback {c c' : Cursor} {ms : List (Mark × Cursor)}
    (h : (callbackPattern tag).Passes c ms c') :
    ∃ b₁ b₂ b₃ b₄ w r, c.rest = '(' :: (b₁ ++ (tag ++ (b₂ ++ '*' :: (b₃ ++ (w ++
        (b₄ ++ ')' :: r)))))) ∧
      (∀ b ∈ [b₁, b₂, b₃, b₄], ∀ c ∈ b, isBlank c = true) ∧ w ≠ [] ∧
      (∀ c ∈ w, isWordChar c = true) ∧ ∀ stop, Match.get ⟨ms, stop⟩ 1 = w := by
  obtain ⟨_, c₈, _, ⟨_, c₇, _, ⟨_, c₆, _, ⟨_, c₅, _, ⟨_, c₄, _, ⟨_, c₃, _, ⟨_, c₂, _, ⟨_, c₁, _,
    ⟨hopening, rfl⟩, ⟨⟨b₁, hb₁, h₁⟩, rfl⟩, rfl⟩, ⟨htag, rfl⟩, rfl⟩, ⟨⟨b₂, hb₂, h₂⟩, rfl⟩, rfl⟩,
    ⟨hstar, rfl⟩, rfl⟩, ⟨⟨b₃, hb₃, h₃⟩, rfl⟩, rfl⟩, ⟨_, hname, rfl⟩, rfl⟩, ⟨⟨b₄, hb₄, h₄⟩, rfl⟩,
    rfl⟩, ⟨hclosing, rfl⟩, rfl⟩ := h
  obtain rfl := hname.marks_eq_nil rfl
  obtain ⟨w, hne, hw, hread⟩ := hname.some₁
  refine ⟨b₁, b₂, b₃, b₄, w, c'.rest, ?_, ?_, hne, List.all_eq_true.1 hw, fun stop ↦ ?_⟩
  · rw [hopening.rest, h₁.rest, htag.rest, h₂.rest, hstar.rest, h₃.rest, hread.rest, h₄.rest,
      hclosing.rest]
    rfl
  · simp only [List.mem_cons, List.not_mem_nil, or_false]
    rintro b (rfl | rfl | rfl | rfl)
    · exact List.all_eq_true.1 hb₁
    · exact List.all_eq_true.1 hb₂
    · exact List.all_eq_true.1 hb₃
    · exact List.all_eq_true.1 hb₄
  · simp [Match.get, Match.get?, Match.place?, hread.textTo]

/-- There is a way through such a text. -/
theorem passes_callback {c : Cursor} {b₁ b₂ b₃ b₄ w r : Text}
    (hc : c.rest = '(' :: (b₁ ++ (tag ++ (b₂ ++ '*' :: (b₃ ++ (w ++ (b₄ ++ ')' :: r)))))))
    (hb : ∀ b ∈ [b₁, b₂, b₃, b₄], ∀ c ∈ b, isBlank c = true) (hne : w ≠ [])
    (hw : ∀ c ∈ w, isWordChar c = true) : ∃ ms c', (callbackPattern tag).Passes c ms c' := by
  obtain ⟨c₁, h₁, hr₁⟩ := Cursor.exists_reads (s := ['(']) hc
  obtain ⟨c₂, h₂, hr₂⟩ := Cursor.exists_reads hr₁
  obtain ⟨c₃, h₃, hr₃⟩ := Cursor.exists_reads hr₂
  obtain ⟨c₄, h₄, hr₄⟩ := Cursor.exists_reads hr₃
  obtain ⟨c₅, h₅, hr₅⟩ := Cursor.exists_reads (s := ['*']) hr₄
  obtain ⟨c₆, h₆, hr₆⟩ := Cursor.exists_reads hr₅
  obtain ⟨c₇, h₇, hr₇⟩ := Cursor.exists_reads hr₆
  obtain ⟨c₈, h₈, hr₈⟩ := Cursor.exists_reads hr₇
  obtain ⟨c₉, h₉, hr₉⟩ := Cursor.exists_reads (s := [')']) hr₈
  exact ⟨_, _, Passes.seq (Passes.seq (Passes.seq (Passes.seq (Passes.seq (Passes.seq (Passes.seq
    (Passes.seq (passes_text h₁) (passes_many h₂ (hb b₁ (by simp)))) (passes_text h₃))
    (passes_many h₄ (hb b₂ (by simp)))) (passes_text h₅)) (passes_many h₆ (hb b₃ (by simp))))
    (Passes.group (passes_some₁ h₇ hne hw))) (passes_many h₈ (hb b₄ (by simp)))) (passes_text h₉)⟩

/-- The symbols of such a text. -/
theorem symbols_callback {b₁ b₂ b₃ b₄ w : Text}
    (hb : ∀ b ∈ [b₁, b₂, b₃, b₄], ∀ c ∈ b, isBlank c = true) (hne : w ≠ [])
    (hw : ∀ c ∈ w, isWordChar c = true) (r : Text) :
    Text.symbols (b₁ ++ (tag ++ (b₂ ++ '*' :: (b₃ ++ (w ++ (b₄ ++ ')' :: r)))))) =
      tag.symbols ++ ['*'] :: w :: [')'] :: r.symbols := by
  have hmark {b : Text} (hb : ∀ c ∈ b, isBlank c = true) {x : Char} (hx : isWordChar x = false)
      (t : Text) : ∀ c ∈ (b ++ x :: t).head?, isWordChar c = false := by
    intro c hc
    cases b with
    | nil =>
      obtain rfl : x = c := by simpa using hc
      exact hx
    | cons y b =>
      obtain rfl : y = c := by simpa using hc
      exact isWordChar_of_isBlank (hb y List.mem_cons_self)
  rw [Text.symbols_blanks_append (hb b₁ (by simp)),
    Text.symbols_append (Text.apart_of_head? (hmark (hb b₂ (by simp)) (by decide) _)),
    Text.symbols_blanks_append (hb b₂ (by simp)), Text.symbols_mark (by decide) (by decide),
    Text.symbols_blanks_append (hb b₃ (by simp)),
    Text.symbols_append (Text.apart_of_head? (hmark (hb b₄ (by simp)) (by decide) _)),
    Text.symbols_of_forall hne hw, Text.symbols_blanks_append (hb b₄ (by simp)),
    Text.symbols_mark (by decide) (by decide)]
  rfl

/-- Text with such symbols is such a text. -/
theorem exists_of_symbols_callback (htag : ∀ c ∈ tag, isWordChar c = true) {t w : Text}
    {ws : List Text} (h : t.symbols = tag.symbols ++ ['*'] :: w :: [')'] :: ws) :
    ∃ b₁ b₂ b₃ b₄ r, t = b₁ ++ (tag ++ (b₂ ++ '*' :: (b₃ ++ (w ++ (b₄ ++ ')' :: r))))) ∧
      ∀ b ∈ [b₁, b₂, b₃, b₄], ∀ c ∈ b, isBlank c = true := by
  obtain ⟨b₁, t, rfl, hb₁, ht⟩ : ∃ b₁ t', t = b₁ ++ (tag ++ t') ∧ (∀ c ∈ b₁, isBlank c = true) ∧
      t'.symbols = ['*'] :: w :: [')'] :: ws := by
    by_cases hnil : tag = []
    · subst hnil
      exact ⟨[], t, rfl, by simp, h⟩
    · rw [Text.symbols_of_forall hnil htag] at h
      obtain ⟨b, r, rfl, hb, -, -, hr⟩ := Text.exists_of_symbols_eq_cons h
      exact ⟨b, r, by simp, hb, hr⟩
  obtain ⟨b₂, t, rfl, hb₂, -, -, ht⟩ := Text.exists_of_symbols_eq_cons ht
  obtain ⟨b₃, t, rfl, hb₃, -, -, ht⟩ := Text.exists_of_symbols_eq_cons ht
  obtain ⟨b₄, t, rfl, hb₄, -, -, -⟩ := Text.exists_of_symbols_eq_cons ht
  refine ⟨b₁, b₂, b₃, b₄, t, by simp, ?_⟩
  simp only [List.mem_cons, List.not_mem_nil, or_false]
  rintro b (rfl | rfl | rfl | rfl) <;> assumption

/-- Which callback is declared at a place depends on the symbols alone. -/
theorem exists_matchAt_callback (htag : ∀ c ∈ tag, isWordChar c = true) {n n' : Nat}
    {prev prev' : Option Char} {r r' : Text} (hsymbols : r.symbols = r'.symbols) {m : Match}
    (h : (callbackPattern tag).matchAt ⟨n, prev, '(' :: r⟩ = some m) :
    ∃ m', (callbackPattern tag).matchAt ⟨n', prev', '(' :: r'⟩ = some m' ∧ m'.get 1 = m.get 1 := by
  have hread {c : Cursor} {m : Match} (h : (callbackPattern tag).matchAt c = some m) {r : Text}
      (hc : c.rest = '(' :: r) : ∃ w ws, m.get 1 = w ∧ w ≠ [] ∧ (∀ c ∈ w, isWordChar c = true) ∧
        r.symbols = tag.symbols ++ ['*'] :: w :: [')'] :: ws := by
    obtain ⟨ms, c', m', hpass, hk, hmarks, -⟩ := passes_of_run _ h
    obtain rfl := Option.some_inj.1 hk
    obtain ⟨b₁, b₂, b₃, b₄, w, s, hrest, hb, hne, hw, hget⟩ := exists_of_passes_callback hpass
    obtain ⟨-, rfl⟩ := List.cons.inj (hc.symm.trans hrest)
    have hm : m = ⟨ms, m.stop⟩ := by rw [← (hmarks.trans (List.append_nil ms) : m.marks = ms)]
    exact ⟨w, _, by rw [hm, hget], hne, hw, symbols_callback hb hne hw s⟩
  obtain ⟨w, ws, hget, hne, hw, hws⟩ := hread h rfl
  obtain ⟨b₁, b₂, b₃, b₄, s, rfl, hb⟩ := exists_of_symbols_callback htag (hsymbols ▸ hws)
  obtain ⟨ms, c', hpass⟩ := @passes_callback tag ⟨n', prev', _⟩ b₁ b₂ b₃ b₄ w s rfl hb hne hw
  obtain ⟨m', hm'⟩ := Option.isSome_iff_exists.1
    (isSome_run (k := fun c ↦ some (.empty c)) _ hpass rfl)
  obtain ⟨w', ws', hget', -, -, hws'⟩ := hread hm' rfl
  refine ⟨m', hm', ?_⟩
  rw [← hsymbols, hws] at hws'
  have hsame := List.append_cancel_left hws'
  rw [hget, hget']
  simp only [List.cons.injEq] at hsame
  exact hsame.2.1.symm

/-- The callback that is declared in a text from some place on. -/
def calledBack (tag : Text) (n : Nat) (prev : Option Char) (t : Text) : Option Text :=
  ((Cursor.placesFrom n prev t).findSome? (callbackPattern tag).matchAt).map (·.get 1)

theorem calledBack_cons (n : Nat) (prev : Option Char) (c : Char) (t : Text) :
    calledBack tag n prev (c :: t) =
      (((callbackPattern tag).matchAt ⟨n, prev, c :: t⟩).map (·.get 1)).or
        (calledBack tag (n + 1) (some c) t) := by
  rw [calledBack, Cursor.placesFrom, List.findSome?_cons, calledBack]
  cases (callbackPattern tag).matchAt ⟨n, prev, c :: t⟩ <;> rfl

/-- A callback is declared in parentheses. -/
theorem matchAt_callback_eq_none {c : Cursor} (h : c.rest.head? ≠ some '(') :
    (callbackPattern tag).matchAt c = none := by
  refine run_eq_none_of_passes fun ms c' hpass ↦ h ?_
  obtain ⟨_, _, _, _, _, _, hrest, -⟩ := exists_of_passes_callback hpass
  rw [hrest]
  rfl

theorem calledBack_congr (htag : ∀ c ∈ tag, isWordChar c = true) {n n' : Nat}
    {prev prev' : Option Char} {c : Char} {t t' : Text} (hsymbols : t.symbols = t'.symbols)
    (h : calledBack tag (n + 1) (some c) t = calledBack tag (n' + 1) (some c) t') :
    calledBack tag n prev (c :: t) = calledBack tag n' prev' (c :: t') := by
  rw [calledBack_cons, calledBack_cons, h]
  congr 1
  by_cases hc : c = '('
  · subst hc
    cases hm : (callbackPattern tag).matchAt ⟨n, prev, '(' :: t⟩ with
    | some m =>
      obtain ⟨m', hm', hget⟩ :=
        @exists_matchAt_callback tag htag n n' prev prev' t t' hsymbols m hm
      rw [hm', Option.map_some, Option.map_some, hget]
    | none =>
      cases hm' : (callbackPattern tag).matchAt ⟨n', prev', '(' :: t'⟩ with
      | none => rfl
      | some m' =>
        obtain ⟨m, hsome, -⟩ :=
          @exists_matchAt_callback tag htag n' n prev' prev t' t hsymbols.symm m' hm'
        exact absurd (hm.symm.trans hsome) (by simp)
  · rw [matchAt_callback_eq_none (by simpa using hc), matchAt_callback_eq_none (by simpa using hc)]

theorem calledBack_blanks {m : Text} (hm : ∀ c ∈ m, isBlank c = true) (v : Text) :
    ∀ n prev, ∃ n' prev', calledBack tag n prev (m ++ v) = calledBack tag n' prev' v := by
  induction m with
  | nil => exact fun n prev ↦ ⟨n, prev, rfl⟩
  | cons c m ih =>
    intro n prev
    obtain ⟨n', prev', h⟩ := ih (fun x hx ↦ hm x (List.mem_cons_of_mem c hx)) (n + 1) (some c)
    refine ⟨n', prev', ?_⟩
    have hc : c ≠ '(' := by
      rintro rfl
      exact absurd (hm _ List.mem_cons_self) (by decide)
    rw [List.cons_append, calledBack_cons, matchAt_callback_eq_none (by simpa using hc), h]
    rfl

/-- **Which callback a text declares** does not depend on blanks between its symbols. -/
theorem search_callback_seam (htag : ∀ c ∈ tag, isWordChar c = true) {u v m : Text}
    (hm : IsSeam (u.Apart v) m) :
    ((callbackPattern tag).search (u ++ m ++ v)).map (·.get 1) =
      ((callbackPattern tag).search (u ++ ' ' :: v)).map (·.get 1) := by
  have hplace (v : Text) : ∀ n n' prev prev', calledBack tag n prev v =
      calledBack tag n' prev' v := by
    induction v with
    | nil =>
      intro n n' prev prev'
      have hnone (n : Nat) (prev : Option Char) : calledBack tag n prev [] = none := by
        rw [calledBack, Cursor.placesFrom, List.findSome?_cons,
          matchAt_callback_eq_none (by simp)]
        rfl
      rw [hnone, hnone]
    | cons c v ih => exact fun n n' prev prev' ↦ calledBack_congr htag rfl (ih _ _ _ _)
  have hseam : ∀ n prev n' prev', calledBack tag n prev (u ++ m ++ v) =
      calledBack tag n' prev' (u ++ ' ' :: v) := by
    induction u with
    | nil =>
      intro n prev n' prev'
      obtain ⟨n₁, prev₁, h₁⟩ := @calledBack_blanks tag m hm.blank v n prev
      obtain ⟨n₂, prev₂, h₂⟩ :=
        @calledBack_blanks tag [' '] (isSeam_singleton True).blank v n' prev'
      exact h₁.trans ((hplace v _ _ _ _).trans h₂.symm)
    | cons c u ih =>
      intro n prev n' prev'
      have hmore := hm.imp (Text.Apart.of_suffix (s := [c]))
      have hblank : Text.symbols (u ++ ' ' :: v) = Text.symbols u ++ Text.symbols v := by
        simpa using Text.symbols_seam (isSeam_singleton (Text.Apart u v))
      exact calledBack_congr htag ((Text.symbols_seam hmore).trans hblank.symm) (ih hmore _ _ _ _)
  have hsearch (t : Text) : ((callbackPattern tag).search t).map (·.get 1) =
      calledBack tag 0 none t := by
    rw [search_eq]
    rfl
  rw [hsearch, hsearch]
  exact hseam _ _ _ _

/-! ## `const` -/

/-- Blanks stay. -/
theorem removeAll_blanks_append {m : Text} (hm : ∀ c ∈ m, isBlank c = true) (v : Text) :
    constWord.removeAll (m ++ v) = m ++ constWord.removeAll v := by
  induction m with
  | nil => rfl
  | cons c m ih =>
    rw [List.forall_mem_cons] at hm
    rw [List.cons_append, removeAll_cons (isWordChar_of_isBlank hm.1), ih hm.2]
    rfl

/-- Nothing is removed across a seam. -/
theorem removeAll_seam {u v m : Text} (hm : IsSeam (u.Apart v) m) :
    constWord.removeAll (u ++ m ++ v) = constWord.removeAll u ++ m ++ constWord.removeAll v := by
  cases m with
  | cons c m =>
    have hhead : ∀ x ∈ (c :: m ++ v).head?, isWordChar x = false := by
      simpa using isWordChar_of_isBlank (hm.blank c List.mem_cons_self)
    rw [List.append_assoc, removeAll_append u hhead, removeAll_blanks_append hm.blank,
      List.append_assoc]
  | nil =>
    rw [List.append_nil, List.append_nil]
    rcases (hm.loose rfl).cases with hu | hv
    · cases List.eq_nil_or_concat' u with
      | inl hu => rw [hu, removeAll_nil]; rfl
      | inr h =>
        obtain ⟨s, x, rfl⟩ := h
        have hx : isWordChar x = false := hu x (by simp)
        rw [List.append_assoc, List.singleton_append, removeAll_cut s hx,
          removeAll_closed s hx]
        simp
    · exact removeAll_append u hv

/-- What is apart stays apart. -/
theorem apart_removeAll {u v : Text} (h : u.Apart v) :
    Text.Apart (constWord.removeAll u) (constWord.removeAll v) := by
  rcases h.cases with hu | hv
  · cases List.eq_nil_or_concat' u with
    | inl hu => rw [hu, removeAll_nil]; exact Text.apart_nil_left _
    | inr h =>
      obtain ⟨s, x, rfl⟩ := h
      have hx : isWordChar x = false := hu x (by simp)
      refine Text.apart_of_getLast? fun c hc ↦ ?_
      rw [removeAll_closed s hx, List.getLast?_concat] at hc
      exact Option.some_inj.1 hc ▸ hx
  · exact Text.apart_of_head? (head?_removeAll hv)

/-! ## Outer blanks and a closing brace -/

/-- The text behind a closing brace that it begins with, and blanks behind that. -/
def behindBrace : Text → Text
  | '\x7d' :: rest => Text.trimStart rest
  | t => t

/-- What a text holds behind blanks and a closing brace, up to its end. -/
def heldStart (t : Text) : Text := behindBrace t.trimStart

theorem behindBrace_cons {c : Char} (hc : c ≠ '\x7d') (t : Text) :
    behindBrace (c :: t) = c :: t := by
  rw [behindBrace]
  simpa using hc

theorem held_eq (t : Text) : held t = (heldStart t).trimEnd := by
  have hheld : held t = behindBrace t.trimStart.trimEnd := by
    change held t = behindBrace t.trim
    rw [held]
    split
    · rename_i rest htrim
      rw [htrim]
      rfl
    · rename_i hbrace
      cases htrim : t.trim with
      | nil => rfl
      | cons c r => rw [behindBrace_cons fun hc ↦ hbrace r (by rw [htrim, hc])]
  rw [hheld, heldStart]
  have hhead := Text.head?_trimStart t
  cases hstart : t.trimStart with
  | nil => rfl
  | cons c r =>
    rw [hstart] at hhead
    rw [Text.trimEnd_cons (hhead c rfl)]
    by_cases hc : c = '\x7d'
    · subst hc
      exact Text.trimStart_trimEnd r
    · rw [behindBrace_cons hc, behindBrace_cons hc, Text.trimEnd_cons (hhead c rfl)]

theorem heldStart_suffix (t : Text) : heldStart t <:+ t := by
  have hstart : t.trimStart <:+ t := List.dropWhile_suffix isBlank
  rw [heldStart]
  cases h : t.trimStart with
  | nil => exact List.nil_suffix
  | cons c r =>
    rw [h] at hstart
    by_cases hc : c = '\x7d'
    · subst hc
      exact ((List.dropWhile_suffix isBlank).trans (List.suffix_cons _ r)).trans hstart
    · rwa [behindBrace_cons hc]

/-- Where a text holds something, that is not touched by what comes behind. -/
theorem heldStart_append {u : Text} (h : heldStart u ≠ []) (t : Text) :
    heldStart (u ++ t) = heldStart u ++ t := by
  rw [heldStart] at h
  cases hstart : u.trimStart with
  | nil => exact absurd (by rw [hstart]; rfl) h
  | cons c r =>
    have hne : u.trimStart ≠ [] := by simp [hstart]
    rw [heldStart, heldStart, Text.trimStart_append_of_ne_nil hne, hstart, List.cons_append]
    by_cases hc : c = '\x7d'
    · subst hc
      rw [hstart] at h
      exact Text.trimStart_append_of_ne_nil h t
    · rw [behindBrace_cons hc, behindBrace_cons hc]
      rfl

/-- Where a text holds nothing, blanks behind it do not matter. -/
theorem heldStart_blanks {u m : Text} (h : heldStart u = []) (hm : ∀ c ∈ m, isBlank c = true)
    (v : Text) : heldStart (u ++ m ++ v) = heldStart (u ++ v) := by
  have hblanks (r : Text) (hr : r.trimStart = []) :
      Text.trimStart (r ++ m ++ v) = Text.trimStart (r ++ v) := by
    rw [List.append_assoc, Text.trimStart_append_of_eq_nil hr, Text.trimStart_append_of_eq_nil hr,
      Text.trimStart_append_of_eq_nil (List.dropWhile_eq_nil_iff.2 hm)]
  rw [heldStart] at h
  cases hstart : u.trimStart with
  | nil => rw [heldStart, heldStart, hblanks u hstart]
  | cons c r =>
    have hne : u.trimStart ≠ [] := by simp [hstart]
    rw [heldStart, heldStart, List.append_assoc, Text.trimStart_append_of_ne_nil hne,
      Text.trimStart_append_of_ne_nil hne, hstart, List.cons_append, List.cons_append]
    rw [hstart] at h
    by_cases hc : c = '\x7d'
    · subst hc
      have hsame := hblanks r h
      rw [List.append_assoc] at hsame
      exact hsame
    · rw [behindBrace_cons hc] at h
      exact absurd h (by simp)

/-! ## What is read in the end -/

/-- What is left of a declarator without `const` and without what stands around it. -/
def bare (t : Text) : Text := (constWord.removeAll (heldStart t)).trim

theorem trim_removeAll_held (t : Text) : (constWord.removeAll (held t)).trim = bare t := by
  obtain ⟨b, hsplit, hblank⟩ := Text.exists_trimEnd_append (heldStart t)
  rw [← held_eq] at hsplit
  have hremoved := @removeAll_seam (held t) [] b ⟨hblank, fun _ ↦ by simp [Text.Apart]⟩
  rw [List.append_nil, removeAll_nil, List.append_nil, ← hsplit] at hremoved
  rw [bare, hremoved, Text.trim_append_blanks hblank]

theorem parse_eq_bare (tag t : Text) : parse tag t =
    if (heldStart t).trimEnd = [] then .nothing
    else if '\x7b' ∈ t then .unparsable
    else
      match ((Declarator.callbackPattern tag).search (bare t)).map (·.get 1) with
      | some name => .named name callbackType
      | none => parsePlain (bare t) := by
  rw [parse_eq_held, trim_removeAll_held, ← held_eq]
  by_cases hnil : held t = []
  · rw [if_pos hnil, hnil]
    rfl
  rw [if_neg hnil, if_neg (by simpa using hnil)]
  by_cases hbrace : '\x7b' ∈ t
  · rw [if_pos hbrace, if_pos]
    exact Text.contains_iff.2 ((List.singleton_infix_iff _ _).2 (mem_held.2 hbrace))
  · rw [if_neg hbrace, if_neg]
    · cases (Declarator.callbackPattern tag).search (bare t) <;> rfl
    · rw [Text.contains_singleton_eq_false fun h ↦ hbrace (mem_held.1 h)]
      simp

/-- What a beginning of a declarator is left as, up to its end. -/
def bareStart (u : Text) : Text := (constWord.removeAll (heldStart u)).trimStart

/-- What the rest of a declarator is left as, from its beginning. -/
def bareEnd (v : Text) : Text := (constWord.removeAll v).trimEnd

/-- **What is left of two texts with blanks between them** is what is left of each, with the same
blanks between them, or else it does not depend on these. -/
theorem bare_cases (u v : Text) :
    (∃ s, ∀ m, IsSeam (u.Apart v) m → bare (u ++ m ++ v) = s) ∨
      (heldStart u ≠ [] ∧ bareStart u ≠ [] ∧ bareEnd v ≠ [] ∧
        ∀ m, IsSeam (u.Apart v) m → bare (u ++ m ++ v) = bareStart u ++ m ++ bareEnd v) := by
  by_cases hheld : heldStart u = []
  · exact Or.inl ⟨bare (u ++ v), fun m hm ↦ by rw [bare, heldStart_blanks hheld hm.blank, ← bare]⟩
  have hremoved {m : Text} (hm : IsSeam (u.Apart v) m) :
      bare (u ++ m ++ v) =
        Text.trim (constWord.removeAll (heldStart u) ++ m ++ constWord.removeAll v) := by
    obtain ⟨s, hs⟩ := heldStart_suffix u
    rw [bare, List.append_assoc, heldStart_append hheld, ← List.append_assoc,
      removeAll_seam (hm.imp fun happ ↦ Text.Apart.of_suffix (s := s) (hs.symm ▸ happ))]
  by_cases hstart : bareStart u = []
  · refine Or.inl ⟨(constWord.removeAll v).trim, fun m hm ↦ ?_⟩
    rw [hremoved hm, Text.trim, List.append_assoc, Text.trimStart_append_of_eq_nil hstart,
      Text.trimStart_append_of_eq_nil (List.dropWhile_eq_nil_iff.2 hm.blank), ← Text.trim]
  by_cases hend : bareEnd v = []
  · refine Or.inl ⟨(bareStart u).trimEnd, fun m hm ↦ ?_⟩
    have hblank : m.trimEnd = [] := by
      rw [Text.trimEnd_eq, List.reverse_eq_nil_iff]
      exact List.dropWhile_eq_nil_iff.2 fun c hc ↦ hm.blank c (List.mem_reverse.1 hc)
    rw [hremoved hm, Text.trim, List.append_assoc, Text.trimStart_append_of_ne_nil hstart,
      ← List.append_assoc, Text.trimEnd_append_of_eq_nil _ hend,
      Text.trimEnd_append_of_eq_nil _ hblank, ← bareStart]
  · refine Or.inr ⟨hheld, hstart, hend, fun m hm ↦ ?_⟩
    rw [hremoved hm, Text.trim, List.append_assoc, Text.trimStart_append_of_ne_nil hstart,
      ← List.append_assoc, Text.trimEnd_append_of_ne_nil _ hend, ← bareStart, ← bareEnd]

/-! ## Qualifiers -/

theorem afterQualifier?_eq_some_iff {t r : Text} : afterQualifier? t = some r ↔
    ∃ q ∈ qualifiers, ∃ c s, t = q ++ c :: s ∧ isBlank c = true ∧ r = Text.trimStart s := by
  constructor
  · intro h
    obtain ⟨q, hq, hsome⟩ := List.exists_of_findSome?_eq_some h
    cases hlead : t.afterLead? q with
    | none => simp [hlead] at hsome
    | some rest =>
      cases rest with
      | nil => simp [hlead] at hsome
      | cons c s =>
        simp only [hlead] at hsome
        split at hsome
        · rename_i hc
          exact ⟨q, hq, c, s, Text.afterLead?_eq_some_iff.1 hlead, hc,
            (Option.some_inj.1 hsome).symm⟩
        · exact absurd hsome (by simp)
  · rintro ⟨q, hq, c, s, rfl, hc, rfl⟩
    exact afterQualifier?_append (isIdentifier_of_mem_qualifiers q hq) hq hc

theorem length_lt_of_afterQualifier? {t r : Text} (h : afterQualifier? t = some r) :
    r.length < t.length := by
  obtain ⟨q, -, c, s, rfl, -, rfl⟩ := afterQualifier?_eq_some_iff.1 h
  have hle : (Text.trimStart s).length ≤ s.length := (List.dropWhile_suffix isBlank).length_le
  simp only [List.length_append, List.length_cons]
  omega

/-- No text holds more qualifiers than characters. -/
theorem dropQualifiers_of_length_le : ∀ {n k : Nat} {t : Text}, t.length ≤ n → t.length ≤ k →
    dropQualifiers n t = dropQualifiers k t := by
  have hnil : afterQualifier? [] = none := by decide
  intro n
  induction n with
  | zero =>
    intro k t hn hk
    obtain rfl : t = [] := List.length_eq_zero_iff.1 (Nat.le_zero.1 hn)
    cases k with
    | zero => rfl
    | succ k => rw [dropQualifiers, dropQualifiers, hnil]
  | succ n ih =>
    intro k t hn hk
    cases k with
    | zero =>
      obtain rfl : t = [] := List.length_eq_zero_iff.1 (Nat.le_zero.1 hk)
      rw [dropQualifiers, dropQualifiers, hnil]
    | succ k =>
      rw [dropQualifiers, dropQualifiers]
      cases h : afterQualifier? t with
      | none => rfl
      | some r =>
        have hlt := length_lt_of_afterQualifier? h
        exact ih (by omega) (by omega)

/-- The text without its leading qualifiers. -/
def unqualified (t : Text) : Text := dropQualifiers t.length t

theorem unqualified_of_some {t r : Text} (h : afterQualifier? t = some r) :
    unqualified t = unqualified r := by
  have hlt := length_lt_of_afterQualifier? h
  rw [unqualified, dropQualifiers_of_length_le (Nat.le_refl _) (Nat.le_succ _), dropQualifiers, h]
  exact dropQualifiers_of_length_le (Nat.le_of_lt hlt) (Nat.le_refl _)

theorem unqualified_of_none {t : Text} (h : afterQualifier? t = none) : unqualified t = t := by
  rw [unqualified, dropQualifiers_of_length_le (Nat.le_refl _) (Nat.le_succ _), dropQualifiers, h]

/-- No qualifier comes to the beginning of a text by what stands behind it. -/
theorem afterQualifier?_seam_eq_none {u v m : Text} (hne : u ≠ []) (hq : u ∉ qualifiers)
    (hafter : afterQualifier? u = none) (hm : IsSeam (u.Apart v) m) :
    afterQualifier? (u ++ m ++ v) = none := by
  cases h : afterQualifier? (u ++ m ++ v) with
  | none => rfl
  | some r =>
    obtain ⟨q, hmem, c, s, hsplit, hc, -⟩ := afterQualifier?_eq_some_iff.1 h
    have hident := isIdentifier_of_mem_qualifiers q hmem
    obtain ⟨e, rfl, hrest⟩ := Text.exists_behind_word hm hne (isWordChar_of_mem hident) hsplit.symm
    cases e with
    | nil => exact absurd (by simpa using hmem) hq
    | cons x e =>
      obtain ⟨rfl, -⟩ := List.cons.inj hrest
      rw [afterQualifier?_append hident hmem hc] at hafter
      exact absurd hafter (by simp)

/-- **Qualifiers at the beginning of two texts** with blanks between them are those of the first
text, or else it does not depend on the blanks what is left without them. -/
theorem unqualified_cases (v : Text) : ∀ u : Text, u ≠ [] →
    (∃ s, ∀ m, IsSeam (u.Apart v ∧ unqualified u ∉ qualifiers) m →
      unqualified (u ++ m ++ v) = s) ∨
      (unqualified u ≠ [] ∧ unqualified u <:+ u ∧
        ∀ m, IsSeam (u.Apart v ∧ unqualified u ∉ qualifiers) m →
          unqualified (u ++ m ++ v) = unqualified u ++ m ++ v) := by
  intro u
  induction hn : u.length using Nat.strong_induction_on generalizing u with
  | h n ih =>
    intro hne
    cases hafter : afterQualifier? u with
    | some r =>
      obtain ⟨q, hq, c, s, rfl, hc, rfl⟩ := afterQualifier?_eq_some_iff.1 hafter
      have hmore (m : Text) : unqualified (q ++ c :: s ++ m ++ v) =
          unqualified (Text.trimStart (s ++ (m ++ v))) :=
        unqualified_of_some (afterQualifier?_eq_some_iff.2 ⟨q, hq, c, _, by simp, hc, rfl⟩)
      rw [unqualified_of_some hafter]
      by_cases hs : Text.trimStart s = []
      · refine Or.inl ⟨unqualified v.trimStart, fun m hm ↦ ?_⟩
        rw [hmore, Text.trimStart_append_of_eq_nil hs,
          Text.trimStart_append_of_eq_nil (List.dropWhile_eq_nil_iff.2 hm.blank)]
      have hsuffix : Text.trimStart s <:+ q ++ c :: s :=
        (List.dropWhile_suffix isBlank).trans
          ((List.suffix_cons c s).trans (List.suffix_append q _))
      have hrest (m : Text) : Text.trimStart (s ++ (m ++ v)) = Text.trimStart s ++ m ++ v := by
        rw [Text.trimStart_append_of_ne_nil hs, List.append_assoc]
      have happ (h : Text.Apart (q ++ c :: s) v) : Text.Apart (Text.trimStart s) v := by
        obtain ⟨t, ht⟩ := hsuffix
        exact Text.Apart.of_suffix (s := t) (ht.symm ▸ h)
      rcases ih _ (hn ▸ length_lt_of_afterQualifier? hafter) _ rfl hs with
        ⟨t, ht⟩ | ⟨hleft, hsuffix', ht⟩
      · exact Or.inl ⟨t, fun m hm ↦ by rw [hmore, hrest, ht m (hm.imp fun h ↦ ⟨happ h.1, h.2⟩)]⟩
      · exact Or.inr ⟨hleft, hsuffix'.trans hsuffix, fun m hm ↦ by
          rw [hmore, hrest, ht m (hm.imp fun h ↦ ⟨happ h.1, h.2⟩)]⟩
    | none =>
      rw [unqualified_of_none hafter]
      by_cases hq : u ∈ qualifiers
      · refine Or.inl ⟨unqualified v.trimStart, fun m hm ↦ ?_⟩
        cases m with
        | nil => exact absurd hq (hm.loose rfl).2
        | cons c m =>
          obtain ⟨hc, hblank⟩ := List.forall_mem_cons.1 hm.blank
          rw [unqualified_of_some (afterQualifier?_eq_some_iff.2
              ⟨u, hq, c, m ++ v, by simp, hc, rfl⟩),
            Text.trimStart_append_of_eq_nil (List.dropWhile_eq_nil_iff.2 hblank)]
      · exact Or.inr ⟨hne, List.suffix_refl u, fun m hm ↦ unqualified_of_none
          (afterQualifier?_seam_eq_none hne hq hafter (hm.imp And.left))⟩

/-! ## Names -/

/-- A type and what separates it from a name. -/
def isTypeFront (p : Text) : Bool := p.getLast?.any isGap && p.dropLast.any (!isBlank ·)

/-- An array suffix. -/
def isArraySuffix : Text → Bool
  | '[' :: t => t.getLast? == some ']' && !t.dropLast.elem ']'
  | _ => false

/-- A name with what may stand behind it. -/
def isLastName (t : Text) : Bool :=
  t.head?.any isIdentStart &&
    ((t.dropWhile isWordChar).all isBlank ||
      isArraySuffix (Text.trimStart (t.dropWhile isWordChar)))

theorem exists_isTypeFront {p : Text} (hlines : '\n' ∉ p) (h : isTypeFront p = true) :
    ∃ front gap, p = front ++ gap ∧ IsTypeFront front gap := by
  rw [isTypeFront, Bool.and_eq_true, Option.any_eq_true, List.any_eq_true] at h
  obtain ⟨⟨c, hc, hgap⟩, x, hx, hblank⟩ := h
  obtain ⟨q, rfl⟩ := List.getLast?_eq_some_iff.1 hc
  rw [List.dropLast_concat] at hx
  obtain ⟨s, y, b, rfl, hy, hb⟩ := Text.exists_last_of_mem hx (by simpa using hblank)
  refine ⟨s ++ [y], b ++ [c], by simp, ⟨s, y, rfl, fun hmem ↦ hlines (by simp [hmem]), hy⟩,
    by simp, List.forall_mem_append.2 ⟨fun d hd ↦ ?_, by simpa using hgap⟩⟩
  rw [isGap, hb d hd, Bool.true_or]

theorem IsTypeFront.isTypeFront {front gap : Text} (h : IsTypeFront front gap) :
    isTypeFront (front ++ gap) = true := by
  obtain ⟨⟨u, y, rfl, -, hy⟩, hne, hgap⟩ := h
  obtain ⟨g, c, rfl⟩ := List.eq_nil_or_concat' gap |>.resolve_left hne
  rw [Declarator.isTypeFront, Bool.and_eq_true, Option.any_eq_true, List.any_eq_true,
    ← List.append_assoc, List.getLast?_concat, List.dropLast_concat]
  exact ⟨⟨c, rfl, hgap c (by simp)⟩, y, by simp, by simp [hy]⟩

theorem isLastName_of_isTail {w r : Text} {array : Bool} (hname : IsName w)
    (htail : IsTail r array) : isLastName (w ++ r) = true := by
  have hdrop : List.dropWhile isWordChar (w ++ r) = r := by
    rw [List.dropWhile_append_of_pos hname.isWordChar]
    cases r with
    | nil => rfl
    | cons c r => exact List.dropWhile_cons_of_neg (by simp [htail.head? c rfl])
  obtain ⟨x, u, rfl, hx, -⟩ := hname
  rw [isLastName, hdrop]
  obtain ⟨blanks, suffix, rfl, hblanks, ⟨rfl, -⟩ | ⟨size, rfl, hsize, -⟩⟩ := htail
  · have hall : List.all (blanks ++ []) isBlank = true := by simpa using hblanks
    rw [hall]
    simp [hx]
  · have hstart : Text.trimStart (blanks ++ '[' :: (size ++ [']'])) = '[' :: (size ++ [']']) :=
      Text.trimStart_append hblanks (by simp; decide)
    have hsuffix : isArraySuffix ('[' :: (size ++ [']'])) = true := by
      simp [isArraySuffix, hsize]
    simp [hx, hstart, hsuffix]

/-! ## Places for a name on both sides of a seam -/

theorem withoutBlanks_seam {p : Prop} {m : Text} (hm : IsSeam p m) (u v : Text) :
    Text.withoutBlanks (u ++ m ++ v) = Text.withoutBlanks u ++ Text.withoutBlanks v := by
  have hblank : Text.withoutBlanks m = [] := by
    rw [Text.withoutBlanks, List.filter_eq_nil_iff]
    intro c hc
    simp [hm.blank c hc]
  rw [Text.withoutBlanks_append, Text.withoutBlanks_append, hblank, List.append_nil]

/-- What separates a type from a name is seen at its end. -/
theorem isTypeFront_seam {u m m' d : Text} {x : Char} (hx : x ∈ u) (hblank : isBlank x = false)
    (hm' : ∀ c ∈ m', isBlank c = true) (hnone : d = [] → m' = [] → isTypeFront u = true)
    (h : isTypeFront (u ++ m ++ d) = true) : isTypeFront (u ++ m' ++ d) = true := by
  have hfront {s : Text} {c : Char} (hs : x ∈ s) (hc : isGap c = true) :
      isTypeFront (s ++ [c]) = true := by
    rw [isTypeFront, List.getLast?_concat, List.dropLast_concat, Option.any_some, hc,
      Bool.true_and, List.any_eq_true]
    exact ⟨x, hs, by simp [hblank]⟩
  rcases List.eq_nil_or_concat' d with rfl | ⟨d, c, rfl⟩
  · rw [List.append_nil]
    rcases List.eq_nil_or_concat' m' with rfl | ⟨m', c, rfl⟩
    · rw [List.append_nil]
      exact hnone rfl rfl
    · rw [← List.append_assoc]
      exact hfront (List.mem_append_left m' hx) (by simp [isGap, hm' c (by simp)])
  · rw [← List.append_assoc] at h ⊢
    rw [isTypeFront, List.getLast?_concat, Bool.and_eq_true, Option.any_some] at h
    exact hfront (by simp [hx]) h.1

section

variable {u v : Text} (hu : ∃ c ∈ u, isBlank c = false)
  (hv : ∃ s y, v = s ++ [y] ∧ isBlank y = false) (hlines : '\n' ∉ u ++ v)

/-- Blanks at this place neither part a word nor make one a name. -/
def Loose (u v : Text) : Prop := u.Apart v ∧ (isLastName v = true → isTypeFront u = true)

include hv in
/-- An array suffix may hold other blanks. -/
theorem isTail_seam {e m m' : Text} {array : Bool} {p p' : Prop} (hm : IsSeam p m)
    (hm' : IsSeam p' m') (h : IsTail (e ++ m ++ v) array) : IsTail (e ++ m' ++ v) array := by
  obtain ⟨s, y, rfl, hy⟩ := hv
  obtain ⟨blanks, suffix, hsplit, hblanks, ⟨rfl, -⟩ | ⟨size, rfl, hsize, rfl⟩⟩ := h
  · have hmem : y ∈ blanks := by
      rw [List.append_nil] at hsplit
      rw [← hsplit]
      simp
    exact absurd ((hblanks y hmem).symm.trans hy) (by simp)
  rcases hm.cases hsplit.symm (by decide) with ⟨d, rfl, hd⟩ | ⟨d, rfl, hd⟩
  · have hlast : size ++ [']'] = (d ++ m ++ s) ++ [y] := by simpa using hd
    obtain ⟨rfl, hclosing⟩ := List.append_inj' hlast rfl
    obtain rfl := List.singleton_inj.1 hclosing
    refine ⟨blanks, '[' :: (d ++ m' ++ s ++ [']']), by simp, hblanks,
      Or.inr ⟨_, rfl, fun hmem ↦ hsize ?_, rfl⟩⟩
    have hclosing : ']' ∉ m' := fun hmem ↦ absurd (hm'.blank _ hmem) (by decide)
    simp only [List.mem_append] at hmem ⊢
    grind
  · refine ⟨e ++ m' ++ d, '[' :: (size ++ [']']), by rw [hd]; simp, fun c hc ↦ ?_,
      Or.inr ⟨size, rfl, hsize, rfl⟩⟩
    simp only [List.mem_append] at hc hblanks
    rcases hc with (hc | hc) | hc
    · exact hblanks c (Or.inl (Or.inl hc))
    · exact hm'.blank c hc
    · exact hblanks c (Or.inr hc)

include hu hv hlines

/-- **A place for a name is one with other blanks, too**, with the same text in front of it but for
blanks. -/
theorem namedAt_seam {m m' p w r : Text} {array : Bool} (hm : IsSeam (Loose u v) m)
    (hm' : IsSeam (Loose u v) m') (hline : '\n' ∉ m') (h : NamedAt (u ++ m ++ v) p w r array) :
    ∃ p' r', NamedAt (u ++ m' ++ v) p' w r' array ∧
      p'.withoutBlanks = Text.withoutBlanks p := by
  obtain ⟨x, w', rfl, hx, hw'⟩ := h.name
  have hxBlank : isBlank x = false := isBlank_of_isIdentChar (isIdentChar_of_isIdentStart hx)
  have hwhole : p ++ x :: (w' ++ r) = u ++ m ++ v := by simpa using h.whole.symm
  rcases hm.cases hwhole hxBlank with ⟨d, rfl, hd⟩ | ⟨d, rfl, rfl⟩
  · -- The name begins in front of the seam, and no word goes on behind it.
    obtain ⟨e, he, rfl⟩ := Text.exists_behind_word (hm.imp fun h ↦ Text.Apart.of_suffix h.1)
      (List.cons_ne_nil x d) h.name.isWordChar (congrArg (x :: ·) hd)
    obtain ⟨-, rfl⟩ := List.cons.inj he
    exact ⟨p, e ++ m' ++ v, ⟨by simp, h.front, h.name, isTail_seam hv hm hm' h.tail⟩, rfl⟩
  · refine ⟨u ++ m' ++ d, r, ⟨by simp, ?_, h.name, h.tail⟩, ?_⟩
    · obtain ⟨c, hc, hblank⟩ := hu
      obtain ⟨front, gap, hp, hfront⟩ := h.front
      refine exists_isTypeFront ?_ (isTypeFront_seam hc hblank hm'.blank (fun hd hnil ↦ ?_)
        (hp ▸ hfront.isTypeFront))
      · simp only [List.mem_append, not_or] at hlines ⊢
        exact ⟨⟨hlines.1, hline⟩, hlines.2.1⟩
      · subst hd
        exact (hm'.loose hnil).2 (@isLastName_of_isTail (x :: w') r array h.name h.tail)
    · rw [withoutBlanks_seam hm, withoutBlanks_seam hm']

/-- **What is read of a declarator** does not depend on such blanks. -/
theorem parsePlain_seam {m m' t t' : Text} (hm : IsSeam (Loose u v) m)
    (hm' : IsSeam (Loose u v) m') (hline : '\n' ∉ m) (hline' : '\n' ∉ m')
    (ht : unqualified t = u ++ m ++ v) (ht' : unqualified t' = u ++ m' ++ v) :
    parsePlain t = parsePlain t' := by
  by_cases hnamed : ∃ p w r array, NamedAt (u ++ m ++ v) p w r array
  · obtain ⟨p, w, r, array, h⟩ := hnamed
    obtain ⟨p, w, r, array, h, hmin⟩ := h.exists_first
    obtain ⟨q', s', hq', hqp⟩ := namedAt_seam hu hv hlines hm hm' hline' h
    obtain ⟨p', w', r', array', h', hmin'⟩ := hq'.exists_first
    obtain ⟨q, s, hq, hqp'⟩ := namedAt_seam hu hv hlines hm' hm hline h'
    -- Each first place goes over into one that is not before the other first place.
    obtain ⟨e, rfl, -⟩ := hq.exists_between h (hmin _ _ _ _ hq)
    obtain ⟨e', rfl, -⟩ := hq'.exists_between h' (hmin' _ _ _ _ hq')
    rw [Text.withoutBlanks_append] at hqp hqp'
    have hnil : Text.withoutBlanks e' = [] := by
      have hsame := hqp
      rw [← hqp', List.append_assoc, List.append_right_eq_self, List.append_eq_nil_iff] at hsame
      exact hsame.2
    obtain rfl := h'.eq_nil_of_withoutBlanks hq' hnil
    rw [hnil, List.append_nil] at hqp
    rw [List.append_nil] at hq'
    obtain ⟨rfl, rfl⟩ := hq'.unique h'
    rw [parsePlain_of_namedAt ht h hmin, parsePlain_of_namedAt ht' h' hmin', hqp]
  · have hnone : ∀ p w r array, ¬NamedAt (u ++ m' ++ v) p w r array := by
      intro p w r array h
      obtain ⟨p', r', h', -⟩ := namedAt_seam hu hv hlines hm' hm hline h
      exact hnamed ⟨_, _, _, _, h'⟩
    rw [parsePlain_of_not_namedAt ht fun p w r array h ↦ hnamed ⟨_, _, _, _, h⟩,
      parsePlain_of_not_namedAt ht' hnone, withoutBlanks_seam hm, withoutBlanks_seam hm']

end

/-! ## The whole declarator -/

theorem head?_unqualified : ∀ {u : Text}, (∀ c ∈ u.head?, isBlank c = false) →
    ∀ c ∈ (unqualified u).head?, isBlank c = false := by
  intro u
  induction hn : u.length using Nat.strong_induction_on generalizing u with
  | h n ih =>
    intro hhead
    cases hafter : afterQualifier? u with
    | none => rwa [unqualified_of_none hafter]
    | some r =>
      rw [unqualified_of_some hafter]
      refine ih _ (hn ▸ length_lt_of_afterQualifier? hafter) rfl ?_
      obtain ⟨_, -, _, s, -, -, rfl⟩ := afterQualifier?_eq_some_iff.1 hafter
      exact Text.head?_trimStart s

theorem parsePlain_congr {t t' : Text} (h : unqualified t = unqualified t') :
    parsePlain t = parsePlain t' := by
  rw [unqualified, unqualified] at h
  simp only [parsePlain, h]

/-- What a beginning of a declarator is left as in the end. -/
def lead (u : Text) : Text := unqualified (bareStart u)

/-- A declarator can be broken at a place without blanks: no word goes on there, no qualifier ends
there, and a name that begins there follows its type already. -/
def Breakable (u v : Text) : Prop :=
  u.Apart v ∧ lead u ∉ qualifiers ∧
    (isLastName (bareEnd v) = true → lead u = [] ∨ isTypeFront (lead u) = true)

instance (u v : Text) : Decidable (Breakable u v) := inferInstanceAs (Decidable (_ ∧ _ ∧ (_ → _)))

theorem exists_mem_lead {u : Text} (h : lead u ≠ []) : ∃ c ∈ lead u, isBlank c = false := by
  obtain ⟨c, t, hcons⟩ := List.exists_cons_of_ne_nil h
  have hhead : ∀ c ∈ (bareStart u).head?, isBlank c = false := Text.head?_trimStart _
  refine ⟨c, by rw [hcons]; exact List.mem_cons_self, head?_unqualified hhead c ?_⟩
  rw [← lead, hcons]
  rfl

theorem bareStart_subset (u : Text) : bareStart u ⊆ u := fun _ hmem ↦
  (heldStart_suffix u).subset (mem_of_mem_removeAll ((List.dropWhile_suffix isBlank).subset hmem))

theorem bareEnd_subset (v : Text) : bareEnd v ⊆ v := fun _ hmem ↦
  mem_of_mem_removeAll ((Text.trimEnd_prefix _).subset hmem)

/-- What is left of two texts that are apart is apart. -/
theorem apart_bare {u v : Text} (h : u.Apart v) : Text.Apart (bareStart u) (bareEnd v) := by
  obtain ⟨s₁, hs₁⟩ := heldStart_suffix u
  obtain ⟨s₂, hs₂⟩ : bareStart u <:+ constWord.removeAll (heldStart u) :=
    List.dropWhile_suffix isBlank
  obtain ⟨s₃, hs₃⟩ := Text.trimEnd_prefix (constWord.removeAll v)
  have hleft := apart_removeAll (Text.Apart.of_suffix (s := s₁) (hs₁.symm ▸ h))
  have hleft' := Text.Apart.of_suffix (s := s₂) (hs₂.symm ▸ hleft)
  exact Text.Apart.of_prefix (s := s₃) (hs₃.symm ▸ hleft')

section

variable {u v m : Text}

/-- Blanks in between do not make anything be held. -/
theorem trimEnd_heldStart_seam {p : Prop} (hm : IsSeam p m) :
    (heldStart (u ++ m ++ v)).trimEnd = [] ↔ (heldStart (u ++ v)).trimEnd = [] := by
  by_cases hheld : heldStart u = []
  · rw [heldStart_blanks hheld hm.blank]
  · rw [← Text.withoutBlanks_eq_nil, ← Text.withoutBlanks_eq_nil, List.append_assoc,
      heldStart_append hheld, heldStart_append hheld, ← List.append_assoc, withoutBlanks_seam hm,
      Text.withoutBlanks_append]

/-- What is left of a declarator is read in the same way with one blank. -/
theorem parsePlain_bare_seam (hlines : '\n' ∉ u ++ m ++ v) (hstart : bareStart u ≠ [])
    (hend : bareEnd v ≠ []) (hm : IsSeam (Breakable u v) m) :
    parsePlain (bareStart u ++ m ++ bareEnd v) =
      parsePlain (bareStart u ++ [' '] ++ bareEnd v) := by
  have hleft (h : Breakable u v) : (bareStart u).Apart (bareEnd v) ∧ lead u ∉ qualifiers :=
    ⟨apart_bare h.1, h.2.1⟩
  have hm₁ := hm.imp hleft
  have hone₁ : IsSeam (_ ∧ _) [' '] := (isSeam_singleton (Breakable u v)).imp hleft
  rcases unqualified_cases (bareEnd v) (bareStart u) hstart with ⟨t, ht⟩ | ⟨hne, hsuffix, ht⟩
  · exact parsePlain_congr ((ht m hm₁).trans (ht [' '] hone₁).symm)
  · have hloose (h : Breakable u v) : Loose (lead u) (bareEnd v) := by
      obtain ⟨s, hs⟩ := hsuffix
      exact ⟨Text.Apart.of_suffix (s := s) (hs.symm ▸ apart_bare h.1),
        fun hname ↦ (h.2.2 hname).resolve_left hne⟩
    simp only [List.mem_append, not_or] at hlines
    have hlines' : '\n' ∉ lead u ++ bareEnd v := by
      rw [List.mem_append, not_or]
      exact ⟨fun hmem ↦ hlines.1.1 (bareStart_subset u (hsuffix.subset hmem)),
        fun hmem ↦ hlines.2 (bareEnd_subset v hmem)⟩
    exact parsePlain_seam (exists_mem_lead hne) (Text.exists_last_trimEnd hend) hlines'
      (hm.imp hloose) ((isSeam_singleton _).imp hloose) hlines.1.2 (by decide) (ht m hm₁)
      (ht [' '] hone₁)

/-- **Where a declarator can be broken, blanks do not matter** for what is read. -/
theorem parse_seam (htag : ∀ c ∈ tag, isWordChar c = true) (hlines : '\n' ∉ u ++ m ++ v)
    (hm : IsSeam (Breakable u v) m) : parse tag (u ++ m ++ v) = parse tag (u ++ ' ' :: v) := by
  have hblank : u ++ ' ' :: v = u ++ [' '] ++ v := by simp
  have hone : IsSeam (Breakable u v) [' '] := isSeam_singleton _
  have hnothing := (trimEnd_heldStart_seam (u := u) (v := v) hm).trans
    (trimEnd_heldStart_seam hone).symm
  have hbrace : '\x7b' ∈ u ++ m ++ v ↔ '\x7b' ∈ u ++ [' '] ++ v := by
    have hnotMem : '\x7b' ∉ m := fun hmem ↦ absurd (hm.blank _ hmem) (by decide)
    simp [hnotMem]
  rw [hblank, parse_eq_bare, parse_eq_bare]
  simp only [hnothing, hbrace]
  rcases bare_cases u v with ⟨s, hs⟩ | ⟨-, hstart, hend, hs⟩
  · rw [hs m (hm.imp And.left), hs [' '] (hone.imp And.left)]
  · have hcallback := (search_callback_seam htag (hm.imp fun h ↦ apart_bare h.1)).trans
      (search_callback_seam htag (hone.imp fun h ↦ apart_bare h.1)).symm
    rw [hs m (hm.imp And.left), hs [' '] (hone.imp And.left), hcallback,
      parsePlain_bare_seam hlines hstart hend hm]

end

end Declarator

end HeaderBindings
