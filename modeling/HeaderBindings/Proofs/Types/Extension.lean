import HeaderBindings.Proofs.Types.Derivation
import HeaderBindings.Proofs.Types.Missing

/-!
# More configured types

Configuring a type changes what follows from it.  A type name that gets a descriptor of its own is
not followed any more, and then the pointer to it is not settled either: with `Count` standing for
`int`, an entry for `Count` takes away the descriptor of `Count*`.

That cannot happen if the new entries are for types *without* a descriptor.  No type that has one is
followed to such a type, or through it, so the whole way to a descriptor stays what it was.
`resolve?_withEntries` says so, and `covers_withEntries` that it is therefore enough to configure
what a run has reported: nothing else is missing after that.
-/

set_option autoImplicit false

namespace HeaderBindings

namespace Descriptors

/-- The configured types with a new entry for each of the given ones. -/
def withEntries (configured : Table) (types : List Text) (descriptor : Text → Text) : Table :=
  configured.insertMany (types.map fun t ↦ (t, descriptor t))

theorem getElem?_withEntries (types : List Text) (descriptor : Text → Text) (t : Text) :
    ∀ configured : Table, (withEntries configured types descriptor)[t]? =
      if t ∈ types then some (descriptor t) else configured[t]? := by
  induction types with
  | nil => intro configured; simp [withEntries]
  | cons u rest ih =>
    intro configured
    have hstep : withEntries configured (u :: rest) descriptor =
        withEntries (configured.insert u (descriptor u)) rest descriptor := by
      rw [withEntries, List.map_cons, Std.TreeMap.insertMany_cons]
      rfl
    rw [hstep, ih]
    by_cases hrest : t ∈ rest
    · rw [if_pos hrest, if_pos (List.mem_cons_of_mem _ hrest)]
    · rw [if_neg hrest, Std.TreeMap.getElem?_insert]
      by_cases hu : u = t
      · subst hu
        simp
      · simp [hu, Ne.symm hu, hrest]

variable {conventions : Conventions} {configured : Table} {d : Declarations} {types : List Text}
  {descriptor : Text → Text} {t : Text}

theorem given?_withEntries_of_mem (ht : t ∈ types) :
    given? conventions (withEntries configured types descriptor) d t = some (descriptor t) := by
  rw [given?, getElem?_withEntries, if_pos ht, Option.some_or]

theorem given?_withEntries_of_not_mem (ht : t ∉ types) :
    given? conventions (withEntries configured types descriptor) d t =
      given? conventions configured d t := by
  rw [given?, getElem?_withEntries, if_neg ht, given?]

end Descriptors

namespace TypeTable

open Descriptors

variable {conventions : Conventions} {configured : Table} {d : Declarations} {types : List Text}
  {descriptor : Text → Text} {t e : Text}

theorem resolve?_withEntries_of_mem (hplain : d.PlainAliases) (ht : t ∈ types) :
    (build conventions (withEntries configured types descriptor) d).resolve? t =
      some (descriptor t) :=
  (rules_build hplain).ofGiven (given?_withEntries_of_mem ht)

/-- **New entries for types without a descriptor** leave every other type the descriptor it has. -/
theorem resolve?_withEntries (hplain : d.PlainAliases)
    (hnew : ∀ t ∈ types, (build conventions configured d).resolve? t = none)
    (h : (build conventions configured d).resolve? t = some e) :
    (build conventions (withEntries configured types descriptor) d).resolve? t = some e := by
  refine (rules_build hplain).carry (rules_build hplain) (fun {u e'} hu ↦ ?_) h
  refine given?_withEntries_of_not_mem fun hmem ↦ ?_
  exact absurd ((hnew u hmem).symm.trans hu) (by simp)

/-- **With an entry for each type that a run reports, nothing is missing any more.** -/
theorem covers_withEntries (hplain : d.PlainAliases) {ds : List Diagnostic}
    (hds : Diagnostic.NoTypes ds)
    (htypes : types =
      Diagnostic.unresolvedTypes (ds ++ (build conventions configured d).missing d)) :
    (build conventions (withEntries configured types descriptor) d).Covers d := by
  subst htypes
  intro f hf t ht
  cases hlook : (build conventions configured d).resolve? t with
  | some e =>
    exact ⟨e, resolve?_withEntries hplain (fun u hu ↦ ((mem_unresolvedTypes hds).1 hu).1) hlook⟩
  | none =>
    have hmem := (mem_unresolvedTypes hds).2 ⟨hlook, f, hf, ht⟩
    exact ⟨descriptor t, resolve?_withEntries_of_mem hplain hmem⟩

end TypeTable

end HeaderBindings
