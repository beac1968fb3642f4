import HeaderBindings.Proofs.Text.Finding

/-!
# What a pattern asks of a text

To see that a line is no declaration of some kind it is enough to see one thing that every way
through a pattern needs and the line does not have.  Such things can be read off a pattern without
following any way through it.

* `Pattern.needs`: a character that is read on every way, so that it occurs in a text if the pattern
  does (`Pattern.mem_of_occursIn`).
* `Pattern.avoids`: a character that is read on no way, so that it stands in no text that the
  pattern goes through from the start to the end (`Pattern.notMem_of_occursIn`).
* `Pattern.Begins`: a pattern that every way begins with.
-/

set_option autoImplicit false

namespace HeaderBindings

open Cursor (start)

namespace Pattern

variable {p q : Pattern} {c c' : Cursor} {ms : List (Mark × Cursor)} {t : Text}

/-! ## Characters that are read -/

/-- On every way through the pattern `x` is read. -/
def needs (x : Char) : Pattern → Bool
  | text t => x ∈ t
  | seq p q => p.needs x || q.needs x
  | either p q => p.needs x && q.needs x
  | group _ p => p.needs x
  | _ => false

theorem Passes.exists_mem {x : Char} (p : Pattern) : ∀ {c c' : Cursor} {ms : List (Mark × Cursor)},
    p.needs x = true → p.Passes c ms c' → ∃ t, c.Reads t c' ∧ x ∈ t := by
  induction p with
  | place test => intro c c' ms hx; exact absurd hx (by simp [needs])
  | text t => rintro c c' ms hx ⟨h, -⟩; exact ⟨t, h, of_decide_eq_true hx⟩
  | one test => intro c c' ms hx; exact absurd hx (by simp [needs])
  | many greedy test => intro c c' ms hx; exact absurd hx (by simp [needs])
  | seq p q ihp ihq =>
    rintro c c' ms hx ⟨ms₁, b, ms₂, hp, hq, -⟩
    rcases Bool.or_eq_true_iff.1 hx with hx | hx
    · obtain ⟨s, hs, hmem⟩ := ihp hx hp
      obtain ⟨t, ht⟩ := hq.reads
      exact ⟨s ++ t, hs.trans ht, List.mem_append_left t hmem⟩
    · obtain ⟨s, hs⟩ := hp.reads
      obtain ⟨t, ht, hmem⟩ := ihq hx hq
      exact ⟨s ++ t, hs.trans ht, List.mem_append_right s hmem⟩
  | either p q ihp ihq =>
    rintro c c' ms hx (h | h)
    · exact ihp (Bool.and_eq_true_iff.1 hx).1 h
    · exact ihq (Bool.and_eq_true_iff.1 hx).2 h
  | group i p ih => rintro c c' ms hx ⟨inner, h, -⟩; exact ih hx h

/-- **What a pattern needs** stands in every text that it occurs in. -/
theorem mem_of_occursIn {x : Char} (hx : p.needs x = true) (h : p.occursIn t = true) : x ∈ t := by
  obtain ⟨s, c, hs, ms, c', hpass⟩ := occursIn_iff.1 h
  obtain ⟨u, hu, hmem⟩ := hpass.exists_mem p hx
  have hwhole : t = s ++ u ++ c'.rest := (hs.trans hu).rest
  rw [hwhole]
  exact List.mem_append_left _ (List.mem_append_right s hmem)

/-- On no way through the pattern `x` is read. -/
def avoids (x : Char) : Pattern → Bool
  | place _ => true
  | text t => x ∉ t
  | one test => !test x
  | many _ test => !test x
  | seq p q => p.avoids x && q.avoids x
  | either p q => p.avoids x && q.avoids x
  | group _ p => p.avoids x

theorem Passes.exists_notMem {x : Char} (p : Pattern) :
    ∀ {c c' : Cursor} {ms : List (Mark × Cursor)}, p.avoids x = true → p.Passes c ms c' →
      ∃ t, c.Reads t c' ∧ x ∉ t := by
  induction p with
  | place test => rintro c c' ms - ⟨-, rfl, -⟩; exact ⟨[], .refl _, List.not_mem_nil⟩
  | text t => rintro c c' ms hx ⟨h, -⟩; exact ⟨t, h, of_decide_eq_true hx⟩
  | one test =>
    rintro c c' ms hx ⟨⟨y, hy, h⟩, -⟩
    refine ⟨[y], h, fun hmem ↦ ?_⟩
    rw [← List.mem_singleton.1 hmem] at hy
    simp [avoids, hy] at hx
  | many greedy test =>
    rintro c c' ms hx ⟨⟨t, ht, h⟩, -⟩
    refine ⟨t, h, fun hmem ↦ ?_⟩
    simp [avoids, List.all_eq_true.1 ht x hmem] at hx
  | seq p q ihp ihq =>
    rintro c c' ms hx ⟨ms₁, b, ms₂, hp, hq, -⟩
    rw [avoids, Bool.and_eq_true] at hx
    obtain ⟨s, hs, hnone⟩ := ihp hx.1 hp
    obtain ⟨t, ht, hnone'⟩ := ihq hx.2 hq
    exact ⟨s ++ t, hs.trans ht, fun hmem ↦ (List.mem_append.1 hmem).elim hnone hnone'⟩
  | either p q ihp ihq =>
    intro c c' ms hx h
    rw [avoids, Bool.and_eq_true] at hx
    exact h.elim (ihp hx.1) (ihq hx.2)
  | group i p ih => rintro c c' ms hx ⟨inner, h, -⟩; exact ih hx h

/-! ## The two ends of a text -/

/-- Every way through `p` begins with a way through `q`. -/
def Begins (q p : Pattern) : Prop := ∀ c ms c', p.Passes c ms c' → ∃ ms₁ b, q.Passes c ms₁ b

theorem Begins.refl (p : Pattern) : p.Begins p := fun _ ms c' h ↦ ⟨ms, c', h⟩

theorem Begins.seq (h : q.Begins p) (r : Pattern) : q.Begins (p ++ r) := by
  rintro c ms c' ⟨ms₁, b, ms₂, hp, -, -⟩
  exact h c ms₁ b hp

theorem Begins.trans {r : Pattern} (h : q.Begins p) (h' : p.Begins r) : q.Begins r := by
  intro c ms c' hpass
  obtain ⟨ms₁, b, hfront⟩ := h' c ms c' hpass
  exact h c ms₁ b hfront

/-- **A pattern that begins with the start of the text** occurs there and nowhere else. -/
theorem passes_of_occursIn (hq : textStart.Begins q) (hp : q.Begins p) (h : p.occursIn t = true) :
    ∃ ms c', q.Passes (start t) ms c' := by
  obtain ⟨s, c, hs, ms, c', hpass⟩ := occursIn_iff.1 h
  obtain ⟨ms₁, b, hfront⟩ := hp c ms c' hpass
  obtain ⟨-, -, hstart, -, -⟩ := hq c ms₁ b hfront
  obtain rfl := hs.eq_nil_of_prev hstart
  obtain rfl := hs.eq_of_nil
  exact ⟨ms₁, b, hfront⟩

/-- Every way through the pattern ends at the end of the text. -/
def Ended (p : Pattern) : Prop := ∀ c ms c', p.Passes c ms c' → c'.rest = []

theorem ended_textEnd : textEnd.Ended := by
  rintro c ms c' ⟨h, rfl, -⟩
  exact List.isEmpty_iff.1 h

theorem Ended.seq (p : Pattern) (hq : q.Ended) : (p ++ q).Ended := by
  rintro c ms c' ⟨ms₁, b, ms₂, -, h, -⟩
  exact hq b ms₂ c' h

/-- **What a pattern avoids** stands in no text that it goes through from the start to the end. -/
theorem notMem_of_occursIn {x : Char} (hstart : textStart.Begins p) (hend : p.Ended)
    (hx : p.avoids x = true) (h : p.occursIn t = true) : x ∉ t := by
  obtain ⟨ms, c', hpass⟩ := passes_of_occursIn hstart (.refl p) h
  obtain ⟨u, hu, hnone⟩ := hpass.exists_notMem p hx
  have hwhole : t = u ++ c'.rest := hu.rest
  rw [hwhole, hend _ _ _ hpass, List.append_nil]
  exact hnone

end Pattern

end HeaderBindings
