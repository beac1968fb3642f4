import HeaderBindings.Types.TypeTable
import HeaderBindings.Proofs.Header.Diagnostics

/-!
# Missing descriptors

The table of types is judged before anything is generated: every type that a function is written
with needs a descriptor.  What this is about are the *uses* of types, `Prototype.uses`, in the order
of the functions and with the result of a function before its parameters.

* `missing_eq`: one diagnostic is recorded for each use of a type without a descriptor, and nothing
  else.
* `missing_eq_nil_iff`: nothing is missing exactly if the table `Covers` the functions.
* `mem_unresolvedTypes`: the types that a run reports in the end are those without a descriptor
  among the ones in use, and no others.
-/

set_option autoImplicit false

namespace HeaderBindings

/-- The types that a function is written with, of its result and then of its parameters. -/
def Prototype.types (f : Prototype) : List Text := f.type :: f.params.map (·.type)

/-- The uses of types in a function: each type with what a diagnostic says of its place. -/
def Prototype.uses (f : Prototype) : List (Text × Text) :=
  (f.type, f.name) :: f.params.map fun p ↦ (p.type, p.name ++ " in " ++ f.name)

/-- The diagnostic for a use of a type without a descriptor. -/
def Prototype.unresolvedUse (f : Prototype) (use : Text × Text) : Diagnostic :=
  .unresolvedType use.1 use.2 f.location.display

theorem Prototype.map_uses (f : Prototype) : f.uses.map Prod.fst = f.types := by
  simp [uses, types]

namespace TypeTable

variable {table : TypeTable} {d : Declarations}

/-- Every type that a function is written with has a descriptor. -/
def Covers (table : TypeTable) (d : Declarations) : Prop :=
  ∀ f ∈ d.functions, ∀ t ∈ f.types, ∃ e, table.resolve? t = some e

theorem missingFor_eq (table : TypeTable) (f : Prototype) :
    table.missingFor f =
      (f.uses.filter fun use ↦ (table.resolve? use.1).isNone).map f.unresolvedUse := by
  have hparams : (f.params.filterMap fun p ↦
      table.unresolved? f p.type (p.name ++ " in " ++ f.name)) =
      (((f.params.map fun p ↦ (p.type, p.name ++ " in " ++ f.name)).filter fun use ↦
        (table.resolve? use.1).isNone).map f.unresolvedUse) := by
    induction f.params with
    | nil => rfl
    | cons p ps ih =>
      rw [List.filterMap_cons, ih, unresolved?, List.map_cons, List.filter_cons]
      by_cases hnone : (table.resolve? p.type).isNone
      · rw [if_pos hnone, if_pos hnone]
        rfl
      · rw [if_neg hnone, if_neg hnone]
  rw [missingFor, hparams, unresolved?, Prototype.uses, List.filter_cons]
  by_cases hnone : (table.resolve? f.type).isNone
  · rw [if_pos hnone, if_pos hnone]
    rfl
  · rw [if_neg hnone, if_neg hnone]
    rfl

/-- **What is missing is each use of a type without a descriptor.** -/
theorem missing_eq (table : TypeTable) (d : Declarations) :
    table.missing d = d.functions.flatMap fun f ↦
      (f.uses.filter fun use ↦ (table.resolve? use.1).isNone).map f.unresolvedUse := by
  rw [missing]
  exact congrArg (fun found ↦ d.functions.flatMap found) (funext table.missingFor_eq)

theorem mem_missing {wrong : Diagnostic} : wrong ∈ table.missing d ↔
    ∃ f ∈ d.functions, ∃ use ∈ f.uses,
      table.resolve? use.1 = none ∧ f.unresolvedUse use = wrong := by
  simp only [missing_eq, List.mem_flatMap, List.mem_map, List.mem_filter, Option.isNone_iff_eq_none,
    and_assoc]

/-- **Nothing is missing exactly if every type has a descriptor.** -/
theorem missing_eq_nil_iff : table.missing d = [] ↔ table.Covers d := by
  rw [List.eq_nil_iff_forall_not_mem]
  constructor
  · intro hmissing f hf t ht
    refine Option.ne_none_iff_exists'.1 fun hnone ↦ ?_
    rw [← f.map_uses] at ht
    obtain ⟨use, huse, rfl⟩ := List.mem_map.1 ht
    exact hmissing _ (mem_missing.2 ⟨f, hf, use, huse, hnone, rfl⟩)
  · intro hcovers wrong hwrong
    obtain ⟨f, hf, use, huse, hnone, -⟩ := mem_missing.1 hwrong
    obtain ⟨e, he⟩ := hcovers f hf use.1 (f.map_uses ▸ List.mem_map_of_mem huse)
    exact absurd (hnone.symm.trans he) (by simp)

end TypeTable

/-! ## The types that a run reports -/

namespace Diagnostic

theorem mem_foldl_seen {t : Text} (types : List Text) : ∀ seen : List Text,
    t ∈ types.foldl (fun seen t ↦ if t ∈ seen then seen else seen ++ [t]) seen ↔
      t ∈ seen ∨ t ∈ types := by
  induction types with
  | nil => simp
  | cons u rest ih =>
    intro seen
    rw [List.foldl_cons, ih]
    split
    · rename_i hu
      constructor
      · exact Or.imp_right (List.mem_cons_of_mem u)
      · rintro (h | h)
        · exact Or.inl h
        · exact (List.mem_cons.1 h).elim (fun htu ↦ Or.inl (htu ▸ hu)) Or.inr
    · rw [List.mem_append, List.mem_singleton, List.mem_cons, or_assoc]

/-- The types that diagnostics are about. -/
theorem mem_unresolvedTypes {ds : List Diagnostic} {t : Text} :
    t ∈ unresolvedTypes ds ↔ ∃ wrong ∈ ds, wrong.unresolvedType? = some t := by
  rw [unresolvedTypes, mem_foldl_seen]
  simp

theorem NoTypes.unresolvedTypes_eq_nil {ds : List Diagnostic} (h : NoTypes ds) :
    unresolvedTypes ds = [] := by
  rw [List.eq_nil_iff_forall_not_mem]
  intro t ht
  obtain ⟨wrong, hwrong, hsome⟩ := mem_unresolvedTypes.1 ht
  exact absurd ((h wrong hwrong).symm.trans hsome) (by simp)

end Diagnostic

/-- The diagnostics from reading can be told from those about missing descriptors. -/
theorem TypeTable.filter_append_missing {table : TypeTable} {d : Declarations}
    {ds : List Diagnostic} (hds : Diagnostic.NoTypes ds) :
    (ds ++ table.missing d).filter (fun wrong ↦ wrong.unresolvedType?.isNone) = ds := by
  have hread : ds.filter (fun wrong ↦ wrong.unresolvedType?.isNone) = ds :=
    List.filter_eq_self.2 fun wrong hwrong ↦ Option.isNone_iff_eq_none.2 (hds wrong hwrong)
  have hmissing : (table.missing d).filter (fun wrong ↦ wrong.unresolvedType?.isNone) = [] := by
    refine List.filter_eq_nil_iff.2 fun wrong hwrong ↦ ?_
    obtain ⟨f, -, use, -, -, rfl⟩ := mem_missing.1 hwrong
    exact Bool.false_ne_true
  rw [List.filter_append, hread, hmissing, List.append_nil]

/-- **The types that a run reports** are those in use without a descriptor. -/
theorem TypeTable.mem_unresolvedTypes {table : TypeTable} {d : Declarations} {ds : List Diagnostic}
    (hds : Diagnostic.NoTypes ds) {t : Text} :
    t ∈ Diagnostic.unresolvedTypes (ds ++ table.missing d) ↔
      table.resolve? t = none ∧ ∃ f ∈ d.functions, t ∈ f.types := by
  rw [Diagnostic.mem_unresolvedTypes]
  constructor
  · rintro ⟨wrong, hwrong, ht⟩
    rcases List.mem_append.1 hwrong with hread | hmissing
    · exact absurd ((hds wrong hread).symm.trans ht) (by simp)
    · obtain ⟨f, hf, use, huse, hnone, rfl⟩ := mem_missing.1 hmissing
      obtain rfl : use.1 = t := Option.some_inj.1 ht
      exact ⟨hnone, f, hf, f.map_uses ▸ List.mem_map_of_mem huse⟩
  · rintro ⟨hnone, f, hf, ht⟩
    rw [← f.map_uses] at ht
    obtain ⟨use, huse, rfl⟩ := List.mem_map.1 ht
    refine ⟨f.unresolvedUse use, List.mem_append_right _ ?_, rfl⟩
    exact mem_missing.2 ⟨f, hf, use, huse, hnone, rfl⟩

end HeaderBindings
