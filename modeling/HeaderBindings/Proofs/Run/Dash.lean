import HeaderBindings.Proofs.Run.Writing

/-!
# The dash as an output path

A dash as the output path of a configuration stands for standard output.  A run compares the path
with the dash only after it has put the path behind the directory of the configuration, and so the
dash stands for standard output if that directory is the empty path, and for a file otherwise.

* `trimSeparators_reverse`: a path that a text is read at ends in a name, so nothing of it is
  trimmed when its directory is looked for.
* `configBase_eq_nil_iff`: the directory of such a path is empty exactly if it has no slash in it.
* `run_dash`: where the module of a configuration goes whose output path is the dash.
-/

set_option autoImplicit false

namespace HeaderBindings

open Generate

variable {path base t : Text}

/-! ## The directory of a path -/

namespace Path

/-- Trimming leaves something of everything. -/
theorem trimSeparators_eq_nil_iff : trimSeparators path = [] ↔ path = [] := by
  fun_induction trimSeparators path <;> simp_all

/-- The dash behind a base, with a slash in between unless the base ends in one. -/
theorem join_dash (hne : base ≠ []) :
    join base standardOutput = base ++ "-" ∨ join base standardOutput = base ++ "/-" := by
  have hbase : (isAbsolute standardOutput || base.isEmpty) = false := by simp [hne]; decide
  rw [join, hbase]
  simp only [Bool.false_eq_true, if_false]
  split
  · exact Or.inl rfl
  · exact Or.inr rfl

/-- A dash is the whole path only from the empty base. -/
theorem join_dash_eq_iff : join base standardOutput = standardOutput ↔ base = [] := by
  constructor
  · intro h
    by_contra hne
    rcases join_dash hne with hjoin | hjoin
    · exact hne (List.append_left_eq_self.1 (hjoin.symm.trans h))
    · have hlength := congrArg List.length (hjoin.symm.trans h)
      simp [standardOutput] at hlength
  · rintro rfl
    rfl

end Path

/-! ## Paths that a text is read at -/

namespace FileTree

variable {tree : FileTree}

/-- No text is read behind a slash that ends a path, or at the dot behind a slash. -/
theorem readText_append_slash_ne {way name : Text} (hname : name = "" ∨ name = ".") :
    tree.readText (way ++ '/' :: name) ≠ .ok t := by
  intro h
  obtain ⟨⟨location, entry⟩, hfollow, hentry⟩ := bind_eq_ok_iff.1 h
  obtain ⟨-, -, hfollow⟩ := bind_eq_ok_iff.1 hfollow
  obtain ⟨place, hway, hfound⟩ := bind_eq_ok_iff.1 hfollow
  have hslash : '/' ∉ name := by rcases hname with rfl | rfl <;> decide
  rw [Text.splitOn_append_last hslash, List.foldlM_append] at hway
  obtain ⟨parent, -, hstep⟩ := bind_eq_ok_iff.1 hway
  rw [List.foldlM_cons] at hstep
  obtain ⟨_, henter, hlast⟩ := bind_eq_ok_iff.1 hstep
  obtain rfl := Except.ok.inj hlast
  -- such a name stays in a directory, and a directory has no text
  rw [enter] at henter
  split at henter
  · simp at henter
  · rename_i hdirectory
    rw [if_pos hname] at henter
    obtain rfl := Except.ok.inj henter
    rw [hdirectory] at hfound
    obtain ⟨rfl, rfl⟩ := Prod.mk.inj (Except.ok.inj hfound)
    simp at hentry
  · simp at henter

theorem readText_nil_ne : tree.readText [] ≠ .ok t := by
  intro h
  obtain ⟨_, hfollow, -⟩ := bind_eq_ok_iff.1 h
  obtain ⟨_, hfits, -⟩ := bind_eq_ok_iff.1 hfollow
  simp [checkPath, Text.byteCount] at hfits

/-- **A path that a text is read at ends in a name**, so nothing of its end is trimmed. -/
theorem trimSeparators_reverse (h : tree.readText path = .ok t) :
    Path.trimSeparators path.reverse = path.reverse := by
  have hends (way name : Text) (hname : name = "" ∨ name = ".") :
      path.reverse ≠ name.reverse ++ '/' :: way := by
    intro hreverse
    have hpath : path = way.reverse ++ '/' :: name := by
      rw [← List.reverse_reverse path, hreverse]
      simp
    exact readText_append_slash_ne hname (hpath ▸ h)
  rw [Path.trimSeparators.eq_def]
  split
  · exact ‹_ = _›.symm
  · exact absurd ‹_› (hends _ "" (Or.inl rfl))
  · exact absurd ‹_› (hends _ "." (Or.inr rfl))
  · rfl

/-- A configuration whose path has no slash in it lies in the directory of the empty path, and any
other one does not. -/
theorem configBase_eq_nil_iff (h : tree.readText path = .ok t) :
    configBase path = [] ↔ '/' ∉ path := by
  have hne : path.reverse ≠ [] := by
    rintro hnil
    exact readText_nil_ne (List.reverse_eq_nil_iff.1 hnil ▸ h)
  have hroot : path.reverse ≠ ['/'] := by
    intro hroot
    have hpath : path = [] ++ ['/'] := by simpa using congrArg List.reverse hroot
    exact readText_append_slash_ne (Or.inl rfl) (hpath ▸ h)
  have hbase : configBase path =
      (Path.trimSeparators (path.reverse.dropWhile (· != '/'))).reverse := by
    rw [configBase, Path.parent?, trimSeparators_reverse h]
    split
    · exact absurd ‹_› hne
    · exact absurd ‹_› hroot
    · rfl
  rw [hbase, List.reverse_eq_nil_iff, Path.trimSeparators_eq_nil_iff, List.dropWhile_eq_nil_iff]
  simp only [List.mem_reverse, bne_iff_ne]
  exact ⟨fun hall hmem ↦ hall _ hmem rfl, fun hno c hc heq ↦ hno (heq ▸ hc)⟩

end FileTree

/-! ## Where the dash leads -/

variable {tree : FileTree} {options : RunOptions} {config : Config} {target : Text}
  {outcome : Outcome}

/-- A configuration is read at its path. -/
theorem exists_readText_of_configFor (h : tree.result (configFor path) = .ok config) :
    ∃ t, tree.readText path = .ok t := by
  cases hread : tree.readText path with
  | ok t => exact ⟨t, rfl⟩
  | error e =>
    have herror : tree.result (configFor path) = .error (.config path (.unreadable path e)) := by
      show Except.mapError (Failure.config path)
        ((loadConfig path : ExceptT ConfigFailure (StateM FileTree) Config).run.run tree).1 = _
      rw [loadConfig, ExceptT.run_mk, StateT.run_bind, run_readText, hread]
      rfl
    rw [herror] at h
    simp at h

/-- The target of a configuration whose output path is the dash. -/
theorem target_eq_join_dash (houtput : options.output = none)
    (hconfig : tree.result (configFor path) = .ok config)
    (hdash : config.output.file = standardOutput)
    (hplan : tree.result (plan (some path) options) = .ok (target, outcome)) :
    target = Path.join (configBase path) standardOutput := by
  obtain ⟨config', hconfig', htarget⟩ := target_eq_of_plan hplan
  obtain rfl := Except.ok.inj (hconfig.symm.trans hconfig')
  refine htarget.trans ?_
  rw [outputTarget, houtput, Option.getD_none, hdash]
  rfl

/-- The dash stands for standard output exactly if it is in no directory. -/
theorem join_configBase_dash_eq_iff (hconfig : tree.result (configFor path) = .ok config) :
    Path.join (configBase path) standardOutput = standardOutput ↔ '/' ∉ path := by
  obtain ⟨source, hread⟩ := exists_readText_of_configFor hconfig
  rw [Path.join_dash_eq_iff, FileTree.configBase_eq_nil_iff hread]

/-- **Where the dash leads.**  Let the output path of a configuration be the dash, and let a run
with it plan a module and have no output path of its own.  If the path of the configuration has no
slash in it, the module is printed.  If it has one, nothing is printed: the target is the dash in
the directory of the configuration, and the module is stored there, or the run fails at that. -/
theorem run_dash (houtput : options.output = none)
    (hconfig : tree.result (configFor path) = .ok config)
    (hdash : config.output.file = standardOutput)
    (hplan : tree.result (plan (some path) options) = .ok (target, outcome))
    (hsome : outcome.output = some t) :
    ('/' ∉ path → tree.ending (run (some path) options) =
      (.ok outcome, { tree with printed := tree.printed ++ t })) ∧
    ('/' ∈ path →
      target = Path.join (configBase path) standardOutput ∧ target ≠ standardOutput ∧
      ((∃ tree', tree.ending (run (some path) options) = (.ok outcome, tree') ∧
        tree.HasStored target t tree') ∨
      ∃ e, tree.target target = .error e ∧
        tree.ending (run (some path) options) = (.error (.output target e), tree))) := by
  have htarget := target_eq_join_dash houtput hconfig hdash hplan
  have hprints : target = standardOutput ↔ '/' ∉ path :=
    htarget ▸ join_configBase_dash_eq_iff hconfig
  have hdelivery := delivery_run hplan
  refine ⟨fun hslash ↦ hdelivery.eq_printed hsome (hprints.2 hslash), fun hslash ↦ ?_⟩
  have hstores : target ≠ standardOutput := fun heq ↦ hprints.1 heq hslash
  exact ⟨htarget, hstores, hdelivery.stored_or_refused hsome hstores⟩

/-- A library in a directory, whose configuration has the dash for its output path, as seen from
some directory. -/
def dashed (current : FileLocation) : FileTree where
  current := current
  entries := [(["lib".toList, "a.toml".toList], .text "headers=['a.h']\noutput.file='-'\n"),
    (["lib".toList, "a.h".toList], .text "XN_C_API int xnOpen(int n);\n")]

theorem exists_config_dashed : ∃ config,
    Config.parse? "headers=['a.h']\noutput.file='-'\n" = some config ∧
      config.output.file = standardOutput := by
  have hfile : (Config.parse? "headers=['a.h']\noutput.file='-'\n").map (·.output.file) =
      some standardOutput := by decide +kernel
  exact Option.map_eq_some_iff.1 hfile

/-- From wherever the library has a module, a run plans one that goes to the dash. -/
theorem exists_plan_dashed (current : FileLocation) (path : Text)
    (h : (dashed current).readText path = .ok "headers=['a.h']\noutput.file='-'\n")
    (hmodule : (((dashed current).result (generateFile path)).toOption.bind (·.output)).isSome) :
    ∃ config outcome t, (dashed current).result (configFor path) = .ok config ∧
      config.output.file = standardOutput ∧ outcome.output = some t ∧
      (dashed current).result (plan (some path) {}) =
        .ok (Path.join (configBase path) standardOutput, outcome) := by
  obtain ⟨config, hparse, hdash⟩ := exists_config_dashed
  have hconfig := result_configFor h hparse
  obtain ⟨t, ht⟩ := Option.isSome_iff_exists.1 hmodule
  obtain ⟨outcome, hresult, ht⟩ := Option.bind_eq_some_iff.1 ht
  cases hplan : (dashed current).result (plan (some path) {}) with
  | error e =>
    rw [result_generateFile hplan] at hresult
    exact absurd hresult nofun
  | ok planned =>
    obtain ⟨target, outcome'⟩ := planned
    rw [result_generateFile hplan] at hresult
    obtain rfl : outcome' = outcome := Option.some_inj.1 hresult
    obtain rfl := target_eq_join_dash rfl hconfig hdash hplan
    exact ⟨config, outcome', t, hconfig, hdash, ht, rfl⟩

/-- The path of the configuration in the directory above the library. -/
def dashedPath : Text := "lib/a.toml"

theorem target_dashed : (dashed []).target (Path.join (configBase dashedPath) standardOutput) =
    .ok ["lib".toList, "-".toList] := rfl

/-- The same library and the same configuration: a run that is started in the directory of the
library prints the module, and one that is started in the directory above stores it. -/
theorem run_dash_twoDirectories :
    (∃ outcome t, outcome.output = some t ∧
      (dashed ["lib".toList]).ending (run (some "a.toml".toList) {}) =
        (.ok outcome, { dashed ["lib".toList] with printed := t })) ∧
    ∃ outcome t tree', outcome.output = some t ∧
      (dashed []).ending (run (some dashedPath) {}) = (.ok outcome, tree') ∧
      (dashed []).HasStored "lib/-" t tree' := by
  constructor
  · obtain ⟨config, outcome, t, hconfig, hdash, ht, hplan⟩ :=
      exists_plan_dashed ["lib".toList] "a.toml" rfl (by decide +kernel)
    exact ⟨outcome, t, ht, (run_dash rfl hconfig hdash hplan ht).1 (by decide)⟩
  · obtain ⟨config, outcome, t, hconfig, hdash, ht, hplan⟩ :=
      exists_plan_dashed [] dashedPath rfl (by decide +kernel)
    obtain ⟨-, -, ⟨tree', hending, hstored⟩ | ⟨e, hplace, -⟩⟩ :=
      (run_dash rfl hconfig hdash hplan ht).2 (by decide)
    · exact ⟨outcome, t, tree', ht, hending, hstored⟩
    · exact absurd (target_dashed.symm.trans hplace) (by simp)

/-- The output path is the dash and the run ends with a module, but nothing is printed, and a file
is there that was not. -/
theorem run_dash_not_printed : ∃ config outcome t tree',
    (dashed []).result (configFor dashedPath) = .ok config ∧
    config.output.file = standardOutput ∧
    (dashed []).ending (run (some dashedPath) {}) = (.ok outcome, tree') ∧
    outcome.output = some t ∧ tree'.printed = [] ∧
    (dashed []).readText "lib/-" = .error .notFound ∧ tree'.readText "lib/-" = .ok t := by
  obtain ⟨config, outcome, t, hconfig, hdash, ht, hplan⟩ :=
    exists_plan_dashed [] dashedPath rfl (by decide +kernel)
  rcases (delivery_run hplan).stored_or_refused ht (by decide) with
    ⟨tree', hending, hstored⟩ | ⟨e, hplace, -⟩
  · exact ⟨config, outcome, t, tree', hconfig, hdash, hending, ht, hstored.printed, rfl,
      hstored.read⟩
  · exact absurd (target_dashed.symm.trans hplace) (by simp)

end HeaderBindings
