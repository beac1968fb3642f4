import HeaderBindings.Types.TypeTable
import Mathlib.Logic.Relation

/-!
# Following type names to a descriptor

Which descriptor a type name ought to have can be said without a table that is filled bit by bit.
Some types have a descriptor that is *given*: it is configured or built in, or the type is declared
under its own name.  From a type name without a given descriptor one follows what it stands for,
until a type has one.

* `FollowsTo given aliases t e`: following from `t` leads to a type with a given descriptor, which
  makes `e` the descriptor of `t`.  A pointer to a type name is followed to that type name, and
  `e` is a pointer to what comes out there; no other pointer is followed.
* `followsTo_unique`: there is at most one such descriptor, because there is one way to go from
  each type.
* `not_followsTo_iff`: if there is none, then either the way comes to a type that is neither given
  nor a type name, or it goes round in circles.  That these are the only two ways to fail is where
  it matters that there are finitely many type names.
-/

set_option autoImplicit false

namespace HeaderBindings.Descriptors

open Relation

/-- Following what type names stand for from the first type ends at a type with a given descriptor,
and the second text is the descriptor that the first type gets by it. -/
inductive FollowsTo (given : Text → Option Text) (aliases : Table) : Text → Text → Prop
  /-- The type itself has a given descriptor. -/
  | given {t e : Text} (h : given t = some e) : FollowsTo given aliases t e
  /-- A type name has the descriptor of the type that it stands for. -/
  | original {t o e : Text} (ht : given t = none) (ho : aliases[t]? = some o)
      (h : FollowsTo given aliases o e) : FollowsTo given aliases t e
  /-- A pointer to a type name is a pointer to what the type name stands for. -/
  | pointee {a e : Text} (ht : given (a ++ ['*']) = none) (hname : a ++ ['*'] ∉ aliases)
      (ha : a ∈ aliases) (hgiven : given a = none) (h : FollowsTo given aliases a e) :
      FollowsTo given aliases (a ++ ['*']) (pointerTo e)

variable {given : Text → Option Text} {aliases : Table}

/-- The type that one without a given descriptor is followed to. -/
def next? (given : Text → Option Text) (aliases : Table) (t : Text) : Option Text :=
  if (given t).isSome then none
  else
    (aliases[t]?).or ((t.beforeTail? ['*']).filter fun a ↦ aliases.contains a && (given a).isNone)

/-- The second type is the one that the first is followed to. -/
def Leads (given : Text → Option Text) (aliases : Table) (t u : Text) : Prop :=
  next? given aliases t = some u

/-- The way from a type comes to one that has no given descriptor and cannot be followed. -/
def LeavesTable (given : Text → Option Text) (aliases : Table) (t : Text) : Prop :=
  ∃ u, ReflTransGen (Leads given aliases) t u ∧ given u = none ∧ next? given aliases u = none

/-- The way from a type comes to one that it comes to again. -/
def Circles (given : Text → Option Text) (aliases : Table) (t : Text) : Prop :=
  ∃ u, ReflTransGen (Leads given aliases) t u ∧ TransGen (Leads given aliases) u u

/-- What is followed to without being given, by the two ways to go on from a type. -/
theorem FollowsTo.cases {t e : Text} (h : FollowsTo given aliases t e) (ht : given t = none) :
    (∃ o, aliases[t]? = some o ∧ FollowsTo given aliases o e) ∨
      ∃ a e', t = a ++ ['*'] ∧ a ∈ aliases ∧ given a = none ∧ FollowsTo given aliases a e' ∧
        e = pointerTo e' := by
  cases h with
  | given h => exact absurd (h.symm.trans ht) (by simp)
  | original _ ho h => exact Or.inl ⟨_, ho, h⟩
  | pointee _ _ ha hgiven h => exact Or.inr ⟨_, _, rfl, ha, hgiven, h, rfl⟩

/-- With other given descriptors a type is followed to the same descriptor, if they are the same for
all types that are followed to one. -/
theorem FollowsTo.carry {given' : Text → Option Text}
    (hsame : ∀ {t e : Text}, FollowsTo given aliases t e → given' t = given t) {t e : Text}
    (h : FollowsTo given aliases t e) : FollowsTo given' aliases t e := by
  induction h with
  | given ht => exact .given ((hsame (.given ht)).trans ht)
  | original ht ho h ih => exact .original ((hsame (.original ht ho h)).trans ht) ho ih
  | pointee ht hname ha hgiven h ih =>
    have hpointer := (hsame (.pointee ht hname ha hgiven h)).trans ht
    exact .pointee hpointer hname ha ((hsame h).trans hgiven) ih

/-! ## One way to go -/

theorem next?_of_given {t e : Text} (h : given t = some e) : next? given aliases t = none := by
  simp [next?, h]

theorem next?_of_alias {t o : Text} (ht : given t = none) (ho : aliases[t]? = some o) :
    next? given aliases t = some o := by
  simp [next?, ht, ho]

theorem next?_of_pointer {a : Text} (ht : given (a ++ ['*']) = none)
    (hname : a ++ ['*'] ∉ aliases) (ha : a ∈ aliases) (hgiven : given a = none) :
    next? given aliases (a ++ ['*']) = some a := by
  have htail : Text.beforeTail? (a ++ ['*']) ['*'] = some a := Text.beforeTail?_eq_some_iff.2 rfl
  simp [next?, ht, hgiven, htail, Std.TreeMap.getElem?_eq_none hname, ha]

/-- A type that is followed is a type name or a pointer to one. -/
theorem next?_eq_some {t u : Text} (h : next? given aliases t = some u) :
    given t = none ∧ (aliases[t]? = some u ∨
      t ∉ aliases ∧ t = u ++ ['*'] ∧ u ∈ aliases ∧ given u = none) := by
  rw [next?] at h
  split at h
  · exact absurd h (by simp)
  · rename_i ht
    refine ⟨by simpa using ht, ?_⟩
    rcases Option.or_eq_some_iff.1 h with ho | ⟨hnone, hp⟩
    · exact Or.inl ho
    · obtain ⟨htail, hu⟩ := Option.filter_eq_some_iff.1 hp
      rw [Bool.and_eq_true, Option.isNone_iff_eq_none] at hu
      refine Or.inr ⟨fun ht ↦ ?_, Text.beforeTail?_eq_some_iff.1 htail,
        Std.TreeMap.contains_iff_mem.1 hu.1, hu.2⟩
      rw [Std.TreeMap.mem_iff_isSome_getElem?, hnone] at ht
      exact absurd ht (by simp)

/-- A descriptor at the end of a way gives one to every type on it. -/
theorem FollowsTo.of_leads {t u e : Text} (hu : FollowsTo given aliases u e)
    (h : Leads given aliases t u) : ∃ e', FollowsTo given aliases t e' := by
  obtain ⟨ht, ho | ⟨hname, rfl, ha, hgiven⟩⟩ := next?_eq_some h
  · exact ⟨e, .original ht ho hu⟩
  · exact ⟨pointerTo e, .pointee ht hname ha hgiven hu⟩

theorem FollowsTo.of_way {t u e : Text} (h : ReflTransGen (Leads given aliases) t u)
    (hu : FollowsTo given aliases u e) : ∃ e', FollowsTo given aliases t e' := by
  induction h using ReflTransGen.head_induction_on with
  | refl => exact ⟨e, hu⟩
  | head hstep _ ih =>
    obtain ⟨e', he'⟩ := ih
    exact he'.of_leads hstep

/-- **There is at most one descriptor to follow to.** -/
theorem followsTo_unique {t e : Text} (h : FollowsTo given aliases t e) :
    ∀ {e' : Text}, FollowsTo given aliases t e' → e = e' := by
  induction h with
  | given h =>
    intro e' h'
    cases h' with
    | given h' => exact Option.some_inj.1 (h.symm.trans h')
    | original ht => exact absurd (h.symm.trans ht) (by simp)
    | pointee ht => exact absurd (h.symm.trans ht) (by simp)
  | original ht ho _ ih =>
    intro e' h'
    cases h' with
    | given h' => exact absurd (h'.symm.trans ht) (by simp)
    | original _ ho' h' =>
      rw [ho, Option.some_inj] at ho'
      subst ho'
      exact ih h'
    | pointee _ hname =>
      exact absurd (Std.TreeMap.mem_iff_isSome_getElem?.2 (by rw [ho]; rfl)) hname
  | @pointee a e ht hname ha hgiven _ ih =>
    intro e' h'
    generalize hs : a ++ ['*'] = s at h'
    cases h' with
    | given h' => exact absurd (h'.symm.trans (hs ▸ ht)) (by simp)
    | original _ ho' =>
      exact absurd (Std.TreeMap.mem_iff_isSome_getElem?.2 (by rw [ho']; rfl)) (hs ▸ hname)
    | pointee _ _ _ _ h' =>
      obtain rfl := List.append_cancel_right hs
      rw [ih h']

/-! ## The two ways to fail -/

theorem LeavesTable.of_leads {t u : Text} (h : Leads given aliases t u)
    (ht : LeavesTable given aliases t) : LeavesTable given aliases u := by
  obtain ⟨v, htv, hgiven, hnext⟩ := ht
  rcases htv.cases_head with rfl | ⟨w, hw, hwv⟩
  · exact absurd (h.symm.trans hnext) (by simp)
  · rw [Leads, h, Option.some_inj] at hw
    exact ⟨v, hw ▸ hwv, hgiven, hnext⟩

theorem Circles.of_leads {t u : Text} (h : Leads given aliases t u)
    (ht : Circles given aliases t) : Circles given aliases u := by
  obtain ⟨v, htv, hvv⟩ := ht
  rcases htv.cases_head with rfl | ⟨w, hw, hwv⟩
  · obtain ⟨w, hw, hwt⟩ := TransGen.head'_iff.1 hvv
    have hwu : u = w := Option.some_inj.1 (h.symm.trans hw)
    exact ⟨t, hwu ▸ hwt, hvv⟩
  · rw [Leads, h, Option.some_inj] at hw
    exact ⟨v, hw ▸ hwv, hvv⟩

/-- A way that ends at a given descriptor neither leaves the table nor goes in circles. -/
theorem FollowsTo.not_fails {t e : Text} (h : FollowsTo given aliases t e) :
    ¬(LeavesTable given aliases t ∨ Circles given aliases t) := by
  induction h with
  | given h =>
    have hnext : next? given aliases _ = none := next?_of_given h
    rintro (⟨v, htv, hgiven, -⟩ | ⟨v, htv, hvv⟩)
    · rcases htv.cases_head with rfl | ⟨w, hw, -⟩
      · exact absurd (h.symm.trans hgiven) (by simp)
      · exact absurd (hw.symm.trans hnext) (by simp)
    · rcases htv.cases_head with rfl | ⟨w, hw, -⟩
      · obtain ⟨w, hw, -⟩ := TransGen.head'_iff.1 hvv
        exact absurd (hw.symm.trans hnext) (by simp)
      · exact absurd (hw.symm.trans hnext) (by simp)
  | original ht ho _ ih =>
    have hleads : Leads given aliases _ _ := next?_of_alias ht ho
    exact fun hfail ↦ ih (hfail.imp (·.of_leads hleads) (·.of_leads hleads))
  | pointee ht hname ha hgiven _ ih =>
    have hleads : Leads given aliases _ _ := next?_of_pointer ht hname ha hgiven
    exact fun hfail ↦ ih (hfail.imp (·.of_leads hleads) (·.of_leads hleads))

/-- The types that may be followed at all: type names and pointers to them. -/
def followable (aliases : Table) : List Text :=
  aliases.keys ++ aliases.keys.map fun a ↦ a ++ ['*']

theorem mem_followable {t u : Text} (h : Leads given aliases t u) : t ∈ followable aliases := by
  obtain ⟨-, ho | ⟨-, rfl, ha, -⟩⟩ := next?_eq_some h
  · refine List.mem_append_left _ (Std.TreeMap.mem_keys.2 ?_)
    exact Std.TreeMap.mem_iff_isSome_getElem?.2 (by rw [ho]; rfl)
  · exact List.mem_append_right _ (List.mem_map_of_mem (Std.TreeMap.mem_keys.2 ha))

/-- A way that has come through `visited` without meeting a type twice ends or goes in circles,
since it has at most `n` types left to come to. -/
theorem ends_or_circles (n : Nat) : ∀ {visited : List Text} {t : Text}, visited.Nodup →
    (∀ v ∈ visited, v ∈ followable aliases ∧ TransGen (Leads given aliases) v t) →
    (followable aliases).length < visited.length + n →
      (∃ u, ReflTransGen (Leads given aliases) t u ∧ next? given aliases u = none) ∨
        Circles given aliases t := by
  induction n with
  | zero =>
    intro visited t hnodup hvisited hlength
    have hle := hnodup.length_le_of_subset fun v hv ↦ (hvisited v hv).1
    omega
  | succ n ih =>
    intro visited t hnodup hvisited hlength
    cases hnext : next? given aliases t with
    | none => exact Or.inl ⟨t, .refl, hnext⟩
    | some u =>
      by_cases hmem : t ∈ visited
      · exact Or.inr ⟨t, .refl, (hvisited t hmem).2⟩
      · have hstep : Leads given aliases t u := hnext
        have hvisited' : ∀ v ∈ t :: visited,
            v ∈ followable aliases ∧ TransGen (Leads given aliases) v u := by
          intro v hv
          rcases List.mem_cons.1 hv with rfl | hv
          · exact ⟨mem_followable hstep, .single hstep⟩
          · exact ⟨(hvisited v hv).1, (hvisited v hv).2.tail hstep⟩
        rcases ih (List.nodup_cons.2 ⟨hmem, hnodup⟩) hvisited' (by rw [List.length_cons]; omega)
          with ⟨v, huv, hv⟩ | ⟨v, huv, hvv⟩
        · exact Or.inl ⟨v, .head hstep huv, hv⟩
        · exact Or.inr ⟨v, .head hstep huv, hvv⟩

/-- **A type gets no descriptor by following exactly if the way from it leaves the table or goes in
circles.** -/
theorem not_followsTo_iff {t : Text} : (¬∃ e, FollowsTo given aliases t e) ↔
    LeavesTable given aliases t ∨ Circles given aliases t := by
  constructor
  · intro hnot
    have hway := @ends_or_circles given aliases ((followable aliases).length + 1) [] t
      List.nodup_nil (by simp) (by simp)
    rcases hway with ⟨u, htu, hu⟩ | h
    · refine Or.inl ⟨u, htu, ?_, hu⟩
      refine Option.eq_none_iff_forall_ne_some.2 fun e he ↦ ?_
      exact hnot (FollowsTo.of_way htu (.given he))
    · exact Or.inr h
  · rintro hfail ⟨e, he⟩
    exact he.not_fails hfail

end HeaderBindings.Descriptors
