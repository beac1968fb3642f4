import HeaderBindings.Run.Generate
import HeaderBindings.Files.Tree

/-!
# Runs on a file tree

On a file tree a run is a function: it takes a tree to what it ends with and to the tree that it
leaves behind.  Generating a module only reads, so the tree is left as it was, and each part of a
run finds the files that the whole run has started with.

* `FileTree.result` is what a run ends with, and `OnlyReads` says that it leaves every tree alone.
* `result_bind` takes a run apart that only reads: it ends well exactly if its first part does, and
  its second part after that, on the same tree.
* `onlyReads_generate` and, with it, `result_generate`: a run for the whole module, as the
  readings that it consists of.
-/

set_option autoImplicit false

namespace HeaderBindings

/-- What a run on a file tree ends with. -/
def FileTree.result {α : Type} (tree : FileTree) (x : ExceptT Failure (StateM FileTree) α) :
    Except Failure α := (x.run.run tree).1

/-- What the module of a configuration is generated from, given what the headers declare and the
classes written by hand. -/
def Config.sources (config : Config) (d : Declarations) (overrides : Overrides) : Sources where
  conventions := config.conventions
  declarations := d
  types := TypeTable.build config.conventions config.types d
  overrides := overrides

namespace Generate

variable {α β : Type} {x : ExceptT Failure (StateM FileTree) α} {tree : FileTree}

/-! ## Runs that only read -/

/-- A run leaves every file tree as it is. -/
def OnlyReads (x : ExceptT Failure (StateM FileTree) α) : Prop :=
  ∀ tree : FileTree, (x.run.run tree).2 = tree

theorem onlyReads_pure (a : α) : OnlyReads (pure a) := fun _ ↦ rfl

theorem onlyReads_throw (e : Failure) : OnlyReads (throw e : ExceptT Failure (StateM FileTree) α) :=
  fun _ ↦ rfl

/-- The second part of a run starts on the tree that the first part leaves behind. -/
theorem run_bind (x : ExceptT Failure (StateM FileTree) α)
    (f : α → ExceptT Failure (StateM FileTree) β) (tree : FileTree) :
    (x >>= f).run.run tree = match x.run.run tree with
      | (.ok a, tree') => (f a).run.run tree'
      | (.error e, tree') => (.error e, tree') := by
  show (ExceptT.bindCont f (x.run.run tree).1).run (x.run.run tree).2 = _
  obtain ⟨a | e, tree'⟩ := x.run.run tree <;> rfl

theorem OnlyReads.bind (hx : OnlyReads x) {f : α → ExceptT Failure (StateM FileTree) β}
    (hf : ∀ a, OnlyReads (f a)) : OnlyReads (x >>= f) := by
  intro tree
  have htree := hx tree
  rw [run_bind]
  generalize x.run.run tree = ending at htree ⊢
  obtain ⟨e | a, tree'⟩ := ending
  · exact htree
  · exact (hf a tree').trans htree

/-- A run in two parts that only reads ends well exactly if both parts do, on the same tree. -/
theorem result_bind (hx : OnlyReads x) {f : α → ExceptT Failure (StateM FileTree) β} {b : β} :
    tree.result (x >>= f) = .ok b ↔ ∃ a, tree.result x = .ok a ∧ tree.result (f a) = .ok b := by
  have htree := hx tree
  rw [FileTree.result, run_bind, FileTree.result]
  generalize x.run.run tree = ending at htree ⊢
  obtain ⟨e | a, tree'⟩ := ending
  · simp
  · obtain rfl : tree' = tree := htree
    simp [FileTree.result]

@[simp]
theorem result_pure {a b : α} : tree.result (pure a) = .ok b ↔ a = b := by
  show (Except.ok a : Except Failure α) = .ok b ↔ a = b
  simp

@[simp]
theorem result_throw {e : Failure} {b : α} :
    tree.result (throw e : ExceptT Failure (StateM FileTree) α) ≠ .ok b := by
  show (Except.error e : Except Failure α) ≠ .ok b
  simp

theorem result_eq_ok {a : α} (h : (tree.result x).toOption = some a) : tree.result x = .ok a := by
  cases hresult : tree.result x with
  | error e => simp [hresult, Except.toOption] at h
  | ok b => simpa [hresult, Except.toOption] using h

/-! ## The parts of a run -/

theorem onlyReads_orFail {failure : FileError → Failure}
    {access : StateM FileTree (Except FileError α)} (h : ∀ tree, (access.run tree).2 = tree) :
    OnlyReads (orFail failure access) := by
  intro tree
  have htree := h tree
  rw [orFail, ExceptT.run_mk, StateT.run_bind]
  generalize access.run tree = ending at htree ⊢
  obtain ⟨e | a, tree'⟩ := ending
  · exact htree
  · exact htree

theorem onlyReads_expandInput (path : Text) : OnlyReads (expandInput path) := by
  refine OnlyReads.bind (fun _ ↦ rfl) fun isDirectory ↦ ?_
  cases isDirectory with
  | false => exact onlyReads_pure _
  | true => exact (onlyReads_orFail fun _ ↦ rfl).bind fun _ ↦ onlyReads_pure _

theorem onlyReads_expandInputs (base : Text) (inputs : List Text) :
    OnlyReads (expandInputs base inputs) := by
  induction inputs with
  | nil => exact onlyReads_pure _
  | cons input inputs ih =>
    exact (onlyReads_expandInput _).bind fun _ ↦ ih.bind fun _ ↦ onlyReads_pure _

theorem onlyReads_readHeaders (paths : List Text) : OnlyReads (readHeaders paths) := by
  induction paths with
  | nil => exact onlyReads_pure _
  | cons path paths ih =>
    exact (onlyReads_orFail fun _ ↦ rfl).bind fun _ ↦ ih.bind fun _ ↦ onlyReads_pure _

theorem onlyReads_readDeclarations (config : Config) (base : Text) :
    OnlyReads (readDeclarations config base) := by
  refine (onlyReads_expandInputs _ _).bind fun paths ↦ ?_
  split
  · exact (onlyReads_throw _).bind fun _ ↦ (onlyReads_readHeaders _).bind fun _ ↦ onlyReads_pure _
  · exact (onlyReads_readHeaders _).bind fun _ ↦ onlyReads_pure _

theorem onlyReads_readOverrides (base : Text) (file : Option Text) :
    OnlyReads (readOverrides base file) := by
  cases file with
  | none => exact onlyReads_pure _
  | some file => exact (onlyReads_orFail fun _ ↦ rfl).bind fun _ ↦ onlyReads_pure _

theorem onlyReads_readTemplate (base : Text) (file : Option Text) :
    OnlyReads (readTemplate base file) := by
  cases file with
  | none => exact onlyReads_pure _
  | some file => exact (onlyReads_orFail fun _ ↦ rfl).bind fun _ ↦ onlyReads_pure _

theorem onlyReads_wholeModule (config : Config) (base : Text) (s : Sources)
    (ds : List Diagnostic) : OnlyReads (wholeModule config base s ds) := by
  rw [wholeModule]
  split
  · refine (onlyReads_readTemplate _ _).bind fun prologue ↦
      (onlyReads_readTemplate _ _).bind fun epilogue ↦ ?_
    cases s.module? prologue epilogue with
    | none => exact onlyReads_throw _
    | some nodes => exact onlyReads_pure _
  · exact onlyReads_pure _

/-- **Generating a module writes nothing.** -/
theorem onlyReads_generate (config : Config) (base : Text) (mode : Mode) :
    OnlyReads (generate config base mode) := by
  refine (onlyReads_readDeclarations _ _).bind fun (d, ds) ↦ ?_
  cases mode with
  | check => exact onlyReads_pure _
  | debug => exact onlyReads_pure _
  | structs => exact (onlyReads_readOverrides _ _).bind fun _ ↦ onlyReads_pure _
  | generate => exact (onlyReads_readOverrides _ _).bind fun _ ↦ onlyReads_wholeModule _ _ _ _

/-! ## A run for the whole module -/

variable {config : Config} {base : Text} {outcome : Outcome}

/-- Reading ends well if there are headers and all of them can be read. -/
theorem result_readDeclarations {found : Declarations × List Diagnostic} :
    tree.result (readDeclarations config base) = .ok found ↔
      ∃ paths, tree.result (expandInputs base config.headers) = .ok paths ∧ paths ≠ [] ∧
      ∃ headers, tree.result (readHeaders paths) = .ok headers ∧
        Declarations.ofHeaders config.conventions config.output.version headers = found := by
  rw [readDeclarations, result_bind (onlyReads_expandInputs _ _)]
  refine exists_congr fun paths ↦ and_congr_right fun _ ↦ ?_
  split
  · rename_i hempty
    rw [result_bind (onlyReads_throw _)]
    simp [List.isEmpty_iff.1 hempty]
  · rename_i hempty
    have hpaths : paths ≠ [] := fun h ↦ hempty (List.isEmpty_iff.2 h)
    rw [result_bind (onlyReads_readHeaders _)]
    simp only [result_pure, ne_eq, hpaths, not_false_eq_true, true_and]

/-- Once all declarations are read, a run ends well with a report on what is missing, or with the
whole module. -/
theorem result_wholeModule {s : Sources} {ds : List Diagnostic} :
    tree.result (wholeModule config base s ds) = .ok outcome ↔
      (s.types.missing s.declarations ≠ [] ∧
        outcome = { diagnostics := ds ++ s.types.missing s.declarations }) ∨
      (s.types.missing s.declarations = [] ∧
        ∃ prologue, tree.result (readTemplate base config.templates.prologue) = .ok prologue ∧
        ∃ epilogue, tree.result (readTemplate base config.templates.epilogue) = .ok epilogue ∧
        ∃ nodes, s.module? prologue epilogue = some nodes ∧
          outcome = { output := some (renderModule nodes), diagnostics := ds }) := by
  rw [wholeModule]
  by_cases hmissing : s.types.missing s.declarations = []
  · simp only [hmissing, List.isEmpty_nil, if_true, ne_eq, not_true_eq_false, false_and, false_or,
      true_and]
    rw [result_bind (onlyReads_readTemplate _ _)]
    refine exists_congr fun prologue ↦ and_congr_right fun _ ↦ ?_
    rw [result_bind (onlyReads_readTemplate _ _)]
    refine exists_congr fun epilogue ↦ and_congr_right fun _ ↦ ?_
    cases s.module? prologue epilogue with
    | none => simp
    | some nodes =>
      simp only [Option.some_inj, exists_eq_left']
      rw [result_pure, eq_comm]
  · simp only [List.isEmpty_iff, hmissing, if_false, ne_eq, not_false_eq_true, true_and, false_and,
      or_false]
    rw [result_pure, eq_comm]

/-- **A run for the whole module**, as the readings that it consists of. -/
theorem result_generate : tree.result (generate config base .generate) = .ok outcome ↔
    ∃ d ds, tree.result (readDeclarations config base) = .ok (d, ds) ∧
    ∃ overrides, tree.result (readOverrides base config.templates.overrides) = .ok overrides ∧
      tree.result (wholeModule config base (config.sources d overrides) ds) = .ok outcome := by
  rw [generate, result_bind (onlyReads_readDeclarations _ _), Prod.exists]
  refine exists_congr fun d ↦ exists_congr fun ds ↦ and_congr_right fun _ ↦ ?_
  exact result_bind (onlyReads_readOverrides _ _)

/-- What is read in a run decides what is left of it. -/
theorem result_generate_of_read {d : Declarations} {ds : List Diagnostic} {overrides : Overrides}
    (hread : tree.result (readDeclarations config base) = .ok (d, ds))
    (hoverrides : tree.result (readOverrides base config.templates.overrides) = .ok overrides) :
    tree.result (generate config base .generate) = .ok outcome ↔
      tree.result (wholeModule config base (config.sources d overrides) ds) = .ok outcome := by
  refine ⟨fun h ↦ ?_, fun h ↦ result_generate.2 ⟨d, ds, hread, overrides, hoverrides, h⟩⟩
  obtain ⟨d', ds', hread', overrides', hoverrides', hmodule⟩ := result_generate.1 h
  obtain ⟨rfl, rfl⟩ := Prod.ext_iff.1 (Except.ok.inj (hread.symm.trans hread'))
  obtain rfl := Except.ok.inj (hoverrides.symm.trans hoverrides')
  exact hmodule

end Generate

end HeaderBindings
