import HeaderBindings.Text.Pattern

/-!
# What a match has read

`Pattern.run` settles which of the ways to match is found.  For most of what is said about a
declaration that does not matter: a name is a word whichever way the pattern around it took.  This
file keeps only what all ways have in common.

* `Cursor.Reads c t c'`: reading the text `t` leads from the place `c` to the place `c'`.
* `Pattern.Passes p c ms c'`: the pattern can lead from `c` to `c'`, setting the marks `ms` on its
  way.  It is a relation, without preferences and without a continuation.
* `Pattern.passes_of_run`: whatever a run finds begins with a way that the pattern can go, so
  `Pattern.passes_of_search` holds of a search.
* `Pattern.get_of_search`: the text of a group that lies on every way through a pattern is one that
  the pattern inside the group can read.  `Pattern.HasGroup` says where such a group lies.
-/

set_option autoImplicit false

namespace HeaderBindings

/-! ## Reading -/

namespace Cursor

/-- Reading the given text leads from one place to another. -/
structure Reads (c : Cursor) (t : Text) (c' : Cursor) : Prop where
  /-- The text comes next, and behind it what comes after the second place. -/
  rest : c.rest = t ++ c'.rest
  /-- The characters read come before the second place. -/
  offset : c'.offset = c.offset + t.length
  /-- The last one of them stands right before it. -/
  prev : c'.prev = t.getLast?.or c.prev

theorem Reads.refl (c : Cursor) : c.Reads [] c := ⟨rfl, rfl, rfl⟩

theorem Reads.one (n : Nat) (prev : Option Char) (x : Char) (rest : Text) :
    (Cursor.mk n prev (x :: rest)).Reads [x] ⟨n + 1, some x, rest⟩ := ⟨rfl, rfl, rfl⟩

theorem Reads.trans {a b c : Cursor} {s t : Text} (hs : a.Reads s b) (ht : b.Reads t c) :
    a.Reads (s ++ t) c := by
  refine ⟨?_, ?_, ?_⟩
  · rw [hs.rest, ht.rest, List.append_assoc]
  · rw [ht.offset, hs.offset, List.length_append]
    omega
  · rw [ht.prev, hs.prev, List.getLast?_append, Option.or_assoc]

/-- The text between two places is what is read between them. -/
theorem Reads.textTo {c c' : Cursor} {t : Text} (h : c.Reads t c') : c.textTo c' = t := by
  rw [Cursor.textTo, h.rest, h.offset, Nat.add_sub_cancel_left, List.take_left]

theorem reads_of_behind? {t : Text} : ∀ {c c' : Cursor}, c.behind? t = some c' → c.Reads t c' := by
  induction t with
  | nil =>
    intro c c' h
    rw [behind?, Option.some_inj] at h
    exact h ▸ Reads.refl c
  | cons a t ih =>
    intro c c' h
    obtain ⟨n, prev, rest⟩ := c
    cases rest with
    | nil => simp [behind?] at h
    | cons x rest =>
      simp only [behind?] at h
      split at h
      · rename_i hx
        exact hx ▸ (Reads.one n prev x rest).trans (ih h)
      · exact absurd h (by simp)

end Cursor

/-- The number of the group that a mark belongs to. -/
def Mark.index : Mark → Nat
  | .opening i => i
  | .closing i => i

namespace Pattern

/-! ## The ways through a pattern -/

/-- The pattern can lead from one place to another, setting the given marks. -/
def Passes : Pattern → Cursor → List (Mark × Cursor) → Cursor → Prop
  | place test, c, ms, c' => test c = true ∧ c' = c ∧ ms = []
  | text t, c, ms, c' => c.Reads t c' ∧ ms = []
  | one test, c, ms, c' => (∃ x, test x = true ∧ c.Reads [x] c') ∧ ms = []
  | many _ test, c, ms, c' => (∃ t : Text, t.all test = true ∧ c.Reads t c') ∧ ms = []
  | seq p q, c, ms, c' => ∃ ms₁ b ms₂, p.Passes c ms₁ b ∧ q.Passes b ms₂ c' ∧ ms = ms₁ ++ ms₂
  | either p q, c, ms, c' => p.Passes c ms c' ∨ q.Passes c ms c'
  | group i p, c, ms, c' =>
    ∃ inner, p.Passes c inner c' ∧ ms = (.opening i, c) :: (inner ++ [(.closing i, c')])

/-- A repetition goes on behind a run of characters that satisfy its test. -/
theorem reads_of_runMany {greedy : Bool} {test : Char → Bool} {k : Cursor → Option Match}
    {m : Match} (rest : Text) : ∀ {n : Nat} {prev : Option Char},
    runMany greedy test k n prev rest = some m →
      ∃ (t : Text) (c' : Cursor), t.all test = true ∧ (Cursor.mk n prev rest).Reads t c' ∧
        k c' = some m := by
  induction rest with
  | nil => intro n prev h; exact ⟨[], _, rfl, Cursor.Reads.refl _, h⟩
  | cons x rest ih =>
    intro n prev h
    rw [runMany] at h
    have hcases : (if test x then runMany greedy test k (n + 1) (some x) rest else none) = some m ∨
        k ⟨n, prev, x :: rest⟩ = some m := by
      cases greedy with
      | true => exact (Option.or_eq_some_iff.1 h).imp_right And.right
      | false => exact ((Option.or_eq_some_iff.1 h).imp_right And.right).symm
    rcases hcases with hlonger | hshorter
    · split at hlonger
      · rename_i hx
        obtain ⟨t, c', ht, hreads, hk⟩ := ih hlonger
        have hreads' := (Cursor.Reads.one n prev x rest).trans hreads
        exact ⟨x :: t, c', by simpa [hx] using ht, hreads', hk⟩
      · exact absurd hlonger (by simp)
    · exact ⟨[], _, rfl, Cursor.Reads.refl _, hshorter⟩

/-- **What a run finds is a way through the pattern**, and then what the continuation finds. -/
theorem passes_of_run (p : Pattern) : ∀ {k : Cursor → Option Match} {c : Cursor} {m : Match},
    p.run k c = some m → ∃ ms c' m', p.Passes c ms c' ∧ k c' = some m' ∧
      m.marks = ms ++ m'.marks ∧ m.stop = m'.stop := by
  induction p with
  | place test =>
    intro k c m h
    rw [run] at h
    split at h
    · exact ⟨[], c, m, ⟨by assumption, rfl, rfl⟩, h, rfl, rfl⟩
    · exact absurd h (by simp)
  | text t =>
    intro k c m h
    obtain ⟨c', hc, hk⟩ := Option.bind_eq_some_iff.1 h
    exact ⟨[], c', m, ⟨Cursor.reads_of_behind? hc, rfl⟩, hk, rfl, rfl⟩
  | one test =>
    intro k c m h
    obtain ⟨n, prev, rest⟩ := c
    cases rest with
    | nil => simp [run] at h
    | cons x rest =>
      simp only [run] at h
      split at h
      · exact ⟨[], _, m, ⟨⟨x, by assumption, .one n prev x rest⟩, rfl⟩, h, rfl, rfl⟩
      · exact absurd h (by simp)
  | many greedy test =>
    intro k c m h
    obtain ⟨t, c', ht, hreads, hk⟩ := reads_of_runMany c.rest h
    exact ⟨[], c', m, ⟨⟨t, ht, hreads⟩, rfl⟩, hk, rfl, rfl⟩
  | seq p q ihp ihq =>
    intro k c m h
    obtain ⟨ms₁, b, m₁, hp, hq, hm₁, hs₁⟩ := ihp h
    obtain ⟨ms₂, c', m₂, hq', hk, hm₂, hs₂⟩ := ihq hq
    exact ⟨ms₁ ++ ms₂, c', m₂, ⟨ms₁, b, ms₂, hp, hq', rfl⟩, hk,
      by rw [hm₁, hm₂, List.append_assoc], hs₁.trans hs₂⟩
  | either p q ihp ihq =>
    intro k c m h
    rcases Option.or_eq_some_iff.1 h with hp | ⟨-, hq⟩
    · obtain ⟨ms, c', m', hpass, hrest⟩ := ihp hp
      exact ⟨ms, c', m', Or.inl hpass, hrest⟩
    · obtain ⟨ms, c', m', hpass, hrest⟩ := ihq hq
      exact ⟨ms, c', m', Or.inr hpass, hrest⟩
  | group i p ih =>
    intro k c m h
    obtain ⟨m₁, hp, rfl⟩ := Option.map_eq_some_iff.1 h
    obtain ⟨inner, c', m₂, hpass, hclosed, hm, hs⟩ := ih hp
    obtain ⟨m₃, hk, rfl⟩ := Option.map_eq_some_iff.1 hclosed
    refine ⟨_, c', m₃, ⟨inner, hpass, rfl⟩, hk, ?_, hs⟩
    simp only [Match.mark, hm, List.cons_append, List.append_assoc, List.nil_append]

/-- What a search finds is a way through the pattern from some place of the text. -/
theorem passes_of_search {p : Pattern} {t : Text} {g : Match} (h : p.search t = some g) :
    ∃ c, p.Passes c g.marks g.stop := by
  rw [search_eq] at h
  obtain ⟨c, -, hc⟩ := List.exists_of_findSome?_eq_some h
  obtain ⟨ms, c', m', hpass, hk, hm, hs⟩ := passes_of_run p hc
  rw [Option.some_inj] at hk
  subst hk
  refine ⟨c, ?_⟩
  rw [hm, hs]
  simpa [Match.empty] using hpass

/-- Every way through a pattern reads some text. -/
theorem Passes.reads (p : Pattern) : ∀ {c c' : Cursor} {ms : List (Mark × Cursor)},
    p.Passes c ms c' → ∃ t, c.Reads t c' := by
  induction p with
  | place test => rintro c c' ms ⟨-, rfl, -⟩; exact ⟨[], .refl _⟩
  | text t => rintro c c' ms ⟨h, -⟩; exact ⟨t, h⟩
  | one test => rintro c c' ms ⟨⟨x, -, h⟩, -⟩; exact ⟨[x], h⟩
  | many greedy test => rintro c c' ms ⟨⟨t, -, h⟩, -⟩; exact ⟨t, h⟩
  | seq p q ihp ihq =>
    rintro c c' ms ⟨ms₁, b, ms₂, hp, hq, -⟩
    obtain ⟨s, hs⟩ := ihp hp
    obtain ⟨t, ht⟩ := ihq hq
    exact ⟨s ++ t, hs.trans ht⟩
  | either p q ihp ihq =>
    rintro c c' ms (h | h)
    · exact ihp h
    · exact ihq h
  | group i p ih => rintro c c' ms ⟨inner, h, -⟩; exact ih h

/-- At least one character that satisfies a test, and no other. -/
theorem Passes.some₁ {test : Char → Bool} {c c' : Cursor} {ms : List (Mark × Cursor)}
    (h : (some₁ test).Passes c ms c') : ∃ t : Text, t ≠ [] ∧ t.all test = true ∧ c.Reads t c' := by
  obtain ⟨ms₁, b, ms₂, ⟨⟨x, hx, hone⟩, -⟩, ⟨⟨t, ht, hmany⟩, -⟩, -⟩ := h
  exact ⟨x :: t, List.cons_ne_nil x t, by simpa [hx] using ht, hone.trans hmany⟩

/-! ## Groups -/

/-- The numbers of the groups in a pattern. -/
def groups : Pattern → List Nat
  | seq p q => p.groups ++ q.groups
  | either p q => p.groups ++ q.groups
  | group i p => i :: p.groups
  | _ => []

/-- Only the groups of a pattern set marks. -/
theorem Passes.index_mem (p : Pattern) : ∀ {c c' : Cursor} {ms : List (Mark × Cursor)},
    p.Passes c ms c' → ∀ e ∈ ms, e.1.index ∈ p.groups := by
  induction p with
  | place test => rintro c c' ms ⟨-, -, rfl⟩ e he; simp at he
  | text t => rintro c c' ms ⟨-, rfl⟩ e he; simp at he
  | one test => rintro c c' ms ⟨-, rfl⟩ e he; simp at he
  | many greedy test => rintro c c' ms ⟨-, rfl⟩ e he; simp at he
  | seq p q ihp ihq =>
    rintro c c' ms ⟨ms₁, b, ms₂, hp, hq, rfl⟩ e he
    rcases List.mem_append.1 he with he | he
    · exact List.mem_append_left _ (ihp hp e he)
    · exact List.mem_append_right _ (ihq hq e he)
  | either p q ihp ihq =>
    rintro c c' ms (h | h) e he
    · exact List.mem_append_left _ (ihp h e he)
    · exact List.mem_append_right _ (ihq h e he)
  | group i p ih =>
    rintro c c' ms ⟨inner, h, rfl⟩ e he
    rw [groups, List.mem_cons]
    simp only [List.mem_cons, List.mem_append, List.not_mem_nil, or_false] at he
    rcases he with rfl | he | rfl
    · exact Or.inl rfl
    · exact Or.inr (ih h e he)
    · exact Or.inl rfl

theorem Passes.marks_eq_nil {p : Pattern} (hp : p.groups = []) {c c' : Cursor}
    {ms : List (Mark × Cursor)} (h : p.Passes c ms c') : ms = [] := by
  refine List.eq_nil_iff_forall_not_mem.2 fun e he ↦ ?_
  have hmem := h.index_mem p e he
  rw [hp] at hmem
  exact absurd hmem (by simp)

/-- Every way through a pattern goes through group `i` around `inner`, and through no other group
of that number before. -/
inductive HasGroup (i : Nat) (inner : Pattern) : Pattern → Prop
  | here (h : i ∉ inner.groups) : HasGroup i inner (group i inner)
  | left {p q : Pattern} (h : HasGroup i inner p) : HasGroup i inner (seq p q)
  | right {p q : Pattern} (hp : i ∉ p.groups) (h : HasGroup i inner q) : HasGroup i inner (seq p q)

variable {i : Nat} {inner p : Pattern}

/-- The first marks of the group's number are those that the group sets. -/
theorem HasGroup.marks (h : HasGroup i inner p) : ∀ {c c' : Cursor} {ms : List (Mark × Cursor)},
    p.Passes c ms c' → ∃ before a within b after, inner.Passes a within b ∧
      ms = before ++ (.opening i, a) :: (within ++ (.closing i, b) :: after) ∧
      (∀ e ∈ before, e.1.index ≠ i) ∧ ∀ e ∈ within, e.1.index ≠ i := by
  induction h with
  | here hi =>
    rintro c c' ms ⟨within, hpass, rfl⟩
    exact ⟨[], c, within, c', [], hpass, rfl, by simp,
      fun e he hei ↦ hi (hei ▸ hpass.index_mem _ e he)⟩
  | left _ ih =>
    rintro c c' ms ⟨ms₁, b, ms₂, hp, -, rfl⟩
    obtain ⟨before, a, within, b', after, hpass, rfl, hbefore, hwithin⟩ := ih hp
    exact ⟨before, a, within, b', after ++ ms₂, hpass, by simp, hbefore, hwithin⟩
  | right hi _ ih =>
    rintro c c' ms ⟨ms₁, b, ms₂, hp, hq, rfl⟩
    obtain ⟨before, a, within, b', after, hpass, rfl, hbefore, hwithin⟩ := ih hq
    refine ⟨ms₁ ++ before, a, within, b', after, hpass, by simp, fun e he hei ↦ ?_, hwithin⟩
    rcases List.mem_append.1 he with he | he
    · exact hi (hei ▸ hp.index_mem _ e he)
    · exact hbefore e he hei

/-- A mark is looked for behind the marks of other groups. -/
theorem find?_append_of_index_ne {ms rest : List (Mark × Cursor)} (h : ∀ e ∈ ms, e.1.index ≠ i)
    {m : Mark} (hm : m.index = i) :
    ((ms ++ rest).find? fun e ↦ e.1 == m) = rest.find? fun e ↦ e.1 == m := by
  have hnone : (ms.find? fun e ↦ e.1 == m) = none :=
    List.find?_eq_none.2 fun e he hem ↦ h e he (by rw [beq_iff_eq.1 hem, hm])
  rw [List.find?_append, hnone, Option.none_or]

/-- The text of a group stands between the first marks of its number. -/
theorem get_of_marks {g : Match} {before within after : List (Mark × Cursor)} {a b : Cursor}
    (hms : g.marks = before ++ (.opening i, a) :: (within ++ (.closing i, b) :: after))
    (hbefore : ∀ e ∈ before, e.1.index ≠ i) (hwithin : ∀ e ∈ within, e.1.index ≠ i) :
    g.get i = a.textTo b := by
  have hopening : g.place? (.opening i) = some a := by
    rw [Match.place?, hms, find?_append_of_index_ne hbefore rfl]
    simp
  have hclosing : g.place? (.closing i) = some b := by
    rw [Match.place?, hms, find?_append_of_index_ne hbefore rfl,
      List.find?_cons_of_neg (by simp), find?_append_of_index_ne hwithin rfl]
    simp
  rw [Match.get, Match.get?, hopening, hclosing]
  rfl

/-- **The text of a group is one that the pattern inside it reads.** -/
theorem get_of_search (hg : HasGroup i inner p) {t : Text} {g : Match} (h : p.search t = some g) :
    ∃ a ms b, inner.Passes a ms b ∧ a.Reads (g.get i) b := by
  obtain ⟨c, hpass⟩ := passes_of_search h
  obtain ⟨before, a, within, b, after, hinner, hms, hbefore, hwithin⟩ := hg.marks hpass
  obtain ⟨s, hs⟩ := hinner.reads
  refine ⟨a, within, b, hinner, ?_⟩
  rw [get_of_marks hms hbefore hwithin, hs.textTo]
  exact hs

end Pattern

end HeaderBindings
