import HeaderBindings.Proofs.Run.Readings
import HeaderBindings.Proofs.Module.Contents
import HeaderBindings.Proofs.Types.Extension

/-!
# Complete modules

A run for the whole module either has all of it or reports what is missing.

* **All or nothing** (`generate_all_or_nothing`).  There is a module exactly if every type of every
  function has a descriptor, and then nothing in it is made with a substitute.  If there is none,
  the diagnostics after those from reading the headers are one for each use of a type without a
  descriptor.
* **One pass is enough** (`generate_withTypes`).  Once all types that a run has reported are
  configured, whatever their descriptors are, a second run has nothing more to report.

The two runs of the second result read the same files and so the same declarations; what differs is
the table of types, and `HeaderBindings.Proofs.Types.Extension` is about that.
-/

set_option autoImplicit false

namespace HeaderBindings

/-- The configuration with a new entry for each of the given types. -/
def Config.withTypes (config : Config) (types : List Text) (descriptor : Text → Text) : Config :=
  { config with types := Descriptors.withEntries config.types types descriptor }

namespace Generate

variable {config : Config} {base : Text} {tree : FileTree} {outcome : Outcome}

/-! ## All or nothing -/

/-- The diagnostics of a run are those from reading the headers, and then what is missing. -/
theorem diagnostics_wholeModule {s : Sources} {ds : List Diagnostic}
    (h : tree.result (wholeModule config base s ds) = .ok outcome) :
    outcome.diagnostics = ds ++ s.types.missing s.declarations := by
  rcases result_wholeModule.1 h with ⟨-, rfl⟩ | ⟨hmissing, _, -, _, -, nodes, -, rfl⟩
  · rfl
  · rw [hmissing, List.append_nil]

/-- There is a module exactly if nothing is missing. -/
theorem isSome_output_wholeModule {s : Sources} {ds : List Diagnostic}
    (h : tree.result (wholeModule config base s ds) = .ok outcome) :
    outcome.output.isSome ↔ s.types.missing s.declarations = [] := by
  rcases result_wholeModule.1 h with ⟨hmissing, rfl⟩ | ⟨hmissing, _, -, _, -, nodes, -, rfl⟩
  · exact iff_of_false (by simp) hmissing
  · exact iff_of_true rfl hmissing

/-- **All or nothing.**  A run that ends well has a module exactly if the table of types covers the
functions.  The module is made without substitutes, and without a module each use of a type without
a descriptor is reported. -/
theorem generate_all_or_nothing (h : tree.result (generate config base .generate) = .ok outcome) :
    ∃ d ds overrides, tree.result (readDeclarations config base) = .ok (d, ds) ∧
      tree.result (readOverrides base config.templates.overrides) = .ok overrides ∧
      (outcome.output.isSome ↔
        (TypeTable.build config.conventions config.types d).Covers d) ∧
      (∀ t, outcome.output = some t → outcome.diagnostics = ds ∧ ∃ prologue epilogue nodes,
        tree.result (readTemplate base config.templates.prologue) = .ok prologue ∧
        tree.result (readTemplate base config.templates.epilogue) = .ok epilogue ∧
        (config.sources d overrides).module? prologue epilogue = some nodes ∧
        t = renderModule nodes ∧ (config.sources d overrides).NoSubstitutes nodes) ∧
      (outcome.output = none → outcome.diagnostics = ds ++ d.functions.flatMap fun f ↦
        (f.uses.filter fun use ↦ ((TypeTable.build config.conventions config.types d).resolve?
          use.1).isNone).map f.unresolvedUse) := by
  obtain ⟨d, ds, hread, overrides, hoverrides, hmodule⟩ := result_generate.1 h
  refine ⟨d, ds, overrides, hread, hoverrides, ?_, fun t ht ↦ ?_, fun _ ↦ ?_⟩
  · rw [isSome_output_wholeModule hmodule]
    exact TypeTable.missing_eq_nil_iff
  · rcases result_wholeModule.1 hmodule with ⟨-, rfl⟩ |
      ⟨hmissing, prologue, hprologue, epilogue, hepilogue, nodes, hnodes, rfl⟩
    · exact absurd ht (by simp)
    · refine ⟨rfl, prologue, epilogue, nodes, hprologue, hepilogue, hnodes,
        (Option.some_inj.1 ht).symm, ?_⟩
      exact Sources.noSubstitutes_module (TypeTable.missing_eq_nil_iff.1 hmissing) hnodes
  · rw [diagnostics_wholeModule hmodule, TypeTable.missing_eq]
    rfl

/-- A directory with a single header, whose only function returns a type of which nothing is
known. -/
def singleHeader : FileTree where
  current := ["lib".toList]
  entries := [(["lib".toList, "a.h".toList], .text "XN_C_API Mode xnOpen(Ctx* c);\n")]

/-- A configuration for it, with a wrapper class for the function. -/
def singleConfig : Config where
  headers := ["a.h"]
  conventions := { wrapperClasses := ["Context"] }
  types := (∅ : Table).insert "Ctx*" "Context"

theorem result_singleHeader : singleHeader.result (generate singleConfig "." .generate) =
    .ok { diagnostics := [.unresolvedType "Mode" "xnOpen" "./a.h:1"] } := by
  refine result_eq_ok ?_
  decide +kernel

theorem generate_all_or_nothing_singleHeader :
    singleHeader.result (generate singleConfig "." .generate) =
      .ok { diagnostics := [.unresolvedType "Mode" "xnOpen" "./a.h:1"] } ∧
    ∃ d ds, singleHeader.result (readDeclarations singleConfig ".") = .ok (d, ds) ∧
      ¬(TypeTable.build singleConfig.conventions singleConfig.types d).Covers d := by
  obtain ⟨d, ds, overrides, hread, -, houtput, -⟩ := generate_all_or_nothing result_singleHeader
  refine ⟨result_singleHeader, d, ds, hread, fun hcovers ↦ ?_⟩
  exact absurd (houtput.2 hcovers) (by simp)

/-! ## One pass is enough -/

/-- What is read from headers has plain type names, and nothing that is wrong with it is about a
type without a descriptor. -/
theorem plain_of_readDeclarations {d : Declarations} {ds : List Diagnostic}
    (h : tree.result (readDeclarations config base) = .ok (d, ds)) :
    d.PlainAliases ∧ Diagnostic.NoTypes ds := by
  obtain ⟨paths, -, -, headers, -, hfound⟩ := result_readDeclarations.1 h
  have hplain :=
    Declarations.plainAliases_ofHeaders config.conventions config.output.version headers
  have hds := noTypes_ofHeaders config.conventions config.output.version headers
  rw [hfound] at hplain hds
  exact ⟨hplain, hds⟩

/-- **One pass is enough.**  A second run with an entry for each type that the first one has
reported leaves every type the descriptor it had, finds nothing missing, and repeats no diagnostic
but those from reading the headers.  It has a module if the templates can be read and linking
ends. -/
theorem generate_withTypes (h : tree.result (generate config base .generate) = .ok outcome)
    (descriptor : Text → Text) :
    let config' := config.withTypes (Diagnostic.unresolvedTypes outcome.diagnostics) descriptor
    ∃ d ds overrides, tree.result (readDeclarations config base) = .ok (d, ds) ∧
      tree.result (readOverrides base config.templates.overrides) = .ok overrides ∧
      ds = outcome.diagnostics.filter (fun wrong ↦ wrong.unresolvedType?.isNone) ∧
      (∀ t e, (TypeTable.build config.conventions config.types d).resolve? t = some e →
        (TypeTable.build config.conventions config'.types d).resolve? t = some e) ∧
      (TypeTable.build config.conventions config'.types d).missing d = [] ∧
      (∀ outcome', tree.result (generate config' base .generate) = .ok outcome' →
        outcome'.diagnostics = ds ∧ Diagnostic.unresolvedTypes outcome'.diagnostics = [] ∧
          outcome'.output.isSome) ∧
      ∀ prologue epilogue,
        tree.result (readTemplate base config.templates.prologue) = .ok prologue →
        tree.result (readTemplate base config.templates.epilogue) = .ok epilogue →
        (config'.sources d overrides).LinksEnd →
          ∃ t, tree.result (generate config' base .generate) =
            .ok { output := some t, diagnostics := ds } := by
  obtain ⟨d, ds, hread, overrides, hoverrides, hmodule⟩ := result_generate.1 h
  obtain ⟨hplain, hds⟩ := plain_of_readDeclarations hread
  have hdiagnostics := diagnostics_wholeModule hmodule
  intro config'
  have hcovers : (TypeTable.build config.conventions config'.types d).Covers d :=
    TypeTable.covers_withEntries hplain hds (congrArg _ hdiagnostics)
  have hmissing := TypeTable.missing_eq_nil_iff.2 hcovers
  -- The second run reads what the first one has read: its settings for that are the same.
  have hagain {outcome' : Outcome} : tree.result (generate config' base .generate) = .ok outcome' ↔
      tree.result (wholeModule config' base (config'.sources d overrides) ds) = .ok outcome' :=
    result_generate_of_read hread hoverrides
  refine ⟨d, ds, overrides, hread, hoverrides, ?_, fun t e ht ↦ ?_, hmissing, fun outcome' h' ↦ ?_,
    fun prologue epilogue hprologue hepilogue hlinks ↦ ?_⟩
  · rw [hdiagnostics]
    exact (TypeTable.filter_append_missing hds).symm
  · refine TypeTable.resolve?_withEntries hplain (fun u hu ↦ ?_) ht
    rw [hdiagnostics] at hu
    exact ((TypeTable.mem_unresolvedTypes hds).1 hu).1
  · have hmodule' := hagain.1 h'
    have hdiagnostics' : outcome'.diagnostics = ds :=
      (diagnostics_wholeModule hmodule').trans ((congrArg _ hmissing).trans (List.append_nil ds))
    refine ⟨hdiagnostics', ?_, (isSome_output_wholeModule hmodule').2 hmissing⟩
    rw [hdiagnostics', hds.unresolvedTypes_eq_nil]
  · obtain ⟨nodes, hnodes⟩ := Sources.exists_module hlinks prologue epilogue
    refine ⟨renderModule nodes, hagain.2 (result_wholeModule.2 (Or.inr ⟨hmissing, ?_⟩))⟩
    exact ⟨prologue, hprologue, epilogue, hepilogue, nodes, hnodes, rfl⟩

/-- What the single header declares. -/
def singleDeclarations : Declarations :=
  ((singleHeader.result (readDeclarations singleConfig ".")).toOption.map Prod.fst).getD {}

theorem generate_withTypes_singleHeader :
    singleHeader.result (generate singleConfig "." .generate) =
      .ok { diagnostics := [.unresolvedType "Mode" "xnOpen" "./a.h:1"] } ∧
    ∃ t, singleHeader.result (generate
      (singleConfig.withTypes ["Mode".toList] fun _ ↦ "ctypes.c_int") "." .generate) =
        .ok { output := some t, diagnostics := [] } := by
  refine ⟨result_singleHeader, ?_⟩
  obtain ⟨d, ds, overrides, hread, hoverrides, rfl, -, -, -, hmodule⟩ :=
    generate_withTypes result_singleHeader fun _ ↦ "ctypes.c_int"
  have hd : d = singleDeclarations := by
    rw [singleDeclarations, hread]
    rfl
  have hnone : overrides = ∅ := (Except.ok.inj hoverrides).symm
  subst hd hnone
  refine hmodule none none rfl rfl ?_
  decide +kernel

end Generate

end HeaderBindings
