import HeaderBindings.Proofs.Run.Completeness

/-!
# What each mode reports

The table of types is the same for a listing, for the enumerations and structs alone and for the
whole module.  Whether a descriptor is missing in it is only asked on the way to the whole module,
and the other modes have ended before.

* `Generate.outcome_fromDeclarations`: what a run records after reading the headers, and when it has
  a module, for each mode.
* `reportsMissing_generate_iff`: each use of a type without a descriptor is reported, and holds the
  module back, exactly if the run is for the whole module or nothing is missing.
-/

set_option autoImplicit false

namespace HeaderBindings

/-- What a run records after reading the headers. -/
def Mode.findings (table : TypeTable) (d : Declarations) : Mode → List Diagnostic
  | generate => table.missing d
  | check => d.documentationProblems
  | debug => []
  | structs => []

/-- The table of types of a configuration, given what the headers declare. -/
abbrev Config.typeTable (config : Config) (d : Declarations) : TypeTable :=
  TypeTable.build config.conventions config.types d

/-- Among the diagnostics there is one for each use of a type without a descriptor, in order, and
there is no module if there is such a use. -/
def Outcome.ReportsMissing (outcome : Outcome) (table : TypeTable) (d : Declarations) : Prop :=
  (outcome.diagnostics.filter fun wrong ↦ wrong.unresolvedType?.isSome) =
      (d.functions.flatMap fun f ↦
        (f.uses.filter fun use ↦ (table.resolve? use.1).isNone).map f.unresolvedUse) ∧
    ((∃ f ∈ d.functions, ∃ use ∈ f.uses, table.resolve? use.1 = none) → outcome.output = none)

namespace Diagnostic

/-- Problems of the documentation are not about types. -/
theorem noTypes_documentationProblems (d : Declarations) : NoTypes d.documentationProblems := by
  have hfound {α : Type} {found : List α} {problem? : α → Option Diagnostic}
      (h : ∀ a wrong, problem? a = some wrong → wrong.unresolvedType? = none) :
      NoTypes (found.filterMap problem?) := by
    intro wrong hwrong
    obtain ⟨a, -, ha⟩ := List.mem_filterMap.1 hwrong
    exact h a wrong ha
  refine ((hfound fun e wrong h ↦ ?_).append (hfound fun f wrong h ↦ ?_)).append
    (hfound fun t wrong h ↦ ?_)
  · rw [Declarations.undocumentedEnum?] at h
    split at h
    · exact Option.some_inj.1 h ▸ rfl
    · exact absurd h (by simp)
  · rw [Declarations.misdocumentedFunction?] at h
    split at h
    · exact Option.some_inj.1 h ▸ rfl
    · split at h
      · exact Option.some_inj.1 h ▸ rfl
      · exact absurd h (by simp)
  · rw [Declarations.undocumentedStruct?] at h
    split at h
    · exact Option.some_inj.1 h ▸ rfl
    · exact absurd h (by simp)

theorem NoTypes.filter_isSome {ds : List Diagnostic} (h : NoTypes ds) :
    (ds.filter fun wrong ↦ wrong.unresolvedType?.isSome) = [] :=
  List.filter_eq_nil_iff.2 fun wrong hwrong ↦ by simp [h wrong hwrong]

end Diagnostic

open Diagnostic

namespace TypeTable

variable {table : TypeTable} {d : Declarations}

/-- Each diagnostic about what is missing is about a type. -/
theorem filter_isSome_missing (table : TypeTable) (d : Declarations) :
    ((table.missing d).filter fun wrong ↦ wrong.unresolvedType?.isSome) = table.missing d := by
  refine List.filter_eq_self.2 fun wrong hwrong ↦ ?_
  obtain ⟨f, -, use, -, -, rfl⟩ := mem_missing.1 hwrong
  rfl

/-- A use of a type without a descriptor is missing. -/
theorem exists_unresolved_iff :
    (∃ f ∈ d.functions, ∃ use ∈ f.uses, table.resolve? use.1 = none) ↔ table.missing d ≠ [] := by
  constructor
  · rintro ⟨f, hf, use, huse, hnone⟩
    exact List.ne_nil_of_mem (mem_missing.2 ⟨f, hf, use, huse, hnone, rfl⟩)
  · intro hmissing
    obtain ⟨wrong, hwrong⟩ := List.exists_mem_of_ne_nil _ hmissing
    obtain ⟨f, hf, use, huse, hnone, -⟩ := mem_missing.1 hwrong
    exact ⟨f, hf, use, huse, hnone⟩

end TypeTable

namespace Generate

variable {config : Config} {base : Text} {mode : Mode} {tree : FileTree} {outcome : Outcome}
  {d : Declarations} {ds : List Diagnostic}

/-- What a run ends with once the declarations are read, in each mode. -/
theorem outcome_fromDeclarations
    (h : tree.result (fromDeclarations config base mode d ds) = .ok outcome) :
    outcome.diagnostics = ds ++ mode.findings (config.typeTable d) d ∧
      (outcome.output.isSome ↔
        mode = .structs ∨ mode = .generate ∧ (config.typeTable d).missing d = []) := by
  cases mode with
  | check =>
    obtain rfl := result_pure.1 h
    exact ⟨rfl, by simp⟩
  | debug =>
    obtain rfl := result_pure.1 h
    exact ⟨(List.append_nil ds).symm, by simp⟩
  | structs =>
    obtain ⟨overrides, -, hmade⟩ := (result_bind (onlyReads_readOverrides _ _)).1 h
    obtain rfl := result_pure.1 hmade
    exact ⟨(List.append_nil ds).symm, by simp⟩
  | generate =>
    obtain ⟨overrides, -, hmade⟩ := (result_bind (onlyReads_readOverrides _ _)).1 h
    have hdiagnostics := diagnostics_wholeModule hmade
    exact ⟨hdiagnostics, by simpa using isSome_output_wholeModule hmade⟩

/-- **Missing descriptors are reported on the way to the whole module alone.**  After reading the
headers a listing and the enumerations and structs alone record nothing, and the latter are written
whatever is missing.  So a run reports all uses of types without a descriptor just if it is for the
whole module or there are none. -/
theorem reportsMissing_generate_iff
    (h : tree.result (generate config base mode) = .ok outcome) :
    ∃ d ds, tree.result (readDeclarations config base) = .ok (d, ds) ∧
      (∀ wrong ∈ ds, wrong.unresolvedType? = none) ∧
      outcome.diagnostics = ds ++ mode.findings (config.typeTable d) d ∧
      (outcome.output.isSome ↔
        mode = .structs ∨ mode = .generate ∧ (config.typeTable d).Covers d) ∧
      (outcome.ReportsMissing (config.typeTable d) d ↔
        mode = .generate ∨ (config.typeTable d).Covers d) := by
  rw [generate, result_bind (onlyReads_readDeclarations _ _)] at h
  obtain ⟨⟨d, ds⟩, hread, hmade⟩ := h
  obtain ⟨hdiagnostics, houtput⟩ := outcome_fromDeclarations hmade
  have hds := (plain_of_readDeclarations hread).2
  rw [TypeTable.missing_eq_nil_iff] at houtput
  refine ⟨d, ds, hread, hds, hdiagnostics, houtput, ?_⟩
  rw [Outcome.ReportsMissing, ← TypeTable.missing_eq, TypeTable.exists_unresolved_iff, Ne,
    TypeTable.missing_eq_nil_iff, hdiagnostics, List.filter_append, hds.filter_isSome,
    List.nil_append]
  have hquiet : mode ≠ .generate → NoTypes (mode.findings (config.typeTable d) d) := by
    intro hmode
    cases mode with
    | generate => exact absurd rfl hmode
    | check => exact noTypes_documentationProblems d
    | debug => exact fun wrong hwrong ↦ absurd hwrong List.not_mem_nil
    | structs => exact fun wrong hwrong ↦ absurd hwrong List.not_mem_nil
  constructor
  · rintro ⟨hreported, -⟩
    refine Classical.or_iff_not_imp_left.2 fun hmode ↦ TypeTable.missing_eq_nil_iff.1 ?_
    rw [← hreported, (hquiet hmode).filter_isSome]
  · rintro (rfl | hcovers)
    · refine ⟨TypeTable.filter_isSome_missing _ _, fun hmissing ↦ ?_⟩
      simpa [hmissing] using houtput
    · refine ⟨?_, fun hmissing ↦ absurd hcovers hmissing⟩
      by_cases hmode : mode = .generate
      · rw [hmode]
        exact TypeTable.filter_isSome_missing _ _
      · rw [(hquiet hmode).filter_isSome, TypeTable.missing_eq_nil_iff.2 hcovers]

theorem reportsMissing_generate_iff_singleHeader :
    singleHeader.result (generate singleConfig "." .generate) =
        .ok { diagnostics := [.unresolvedType "Mode" "xnOpen" "./a.h:1"] } ∧
      ∃ d ds, singleHeader.result (readDeclarations singleConfig ".") = .ok (d, ds) ∧
        Outcome.ReportsMissing { diagnostics := [.unresolvedType "Mode" "xnOpen" "./a.h:1"] }
          (singleConfig.typeTable d) d := by
  obtain ⟨d, ds, hread, -, -, -, hreports⟩ := reportsMissing_generate_iff result_singleHeader
  exact ⟨result_singleHeader, d, ds, hread, hreports.2 (Or.inl rfl)⟩

/-- A use of a type without a descriptor, of which a listing and the enumerations and structs alone
say nothing, and the latter are written all the same. -/
theorem structs_unreported :
    (∃ f ∈ singleDeclarations.functions, ∃ use ∈ f.uses,
        (singleConfig.typeTable singleDeclarations).resolve? use.1 = none) ∧
      (singleHeader.result (generate singleConfig "." .structs)).toOption =
        some { output := some "import ctypes\n" } ∧
      (singleHeader.result (generate singleConfig "." .debug)).toOption.map (·.diagnostics) =
        some [] := by
  decide +kernel

end Generate

end HeaderBindings
