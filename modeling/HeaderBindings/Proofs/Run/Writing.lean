import HeaderBindings.Run.Run
import HeaderBindings.Proofs.Run.Readings
import HeaderBindings.Proofs.Files.Storing

/-!
# What a run writes

A run is a part that only reads and, once the outcome is known, at most one access that writes.  So
whatever a run fails at, it leaves the files as they were, and one that succeeds changes one file.

* `run_eq`: the part that reads is `plan`, which ends with the outcome and the path that its text
  goes to; `deliver` is what is left.
* `Delivery` says how a run can end once the outcome is known, and `run_cases` how a whole run can.
* `run_writes_output`: a run that fails or has no module changes nothing, and any other run changes
  the file at its target alone.  Without options, a run ends with what `generateFile` ends with,
  unless the module cannot be written.
-/

set_option autoImplicit false

namespace HeaderBindings

open Generate

section

variable {m : Type → Type} [Monad m] [FileAccess m]

/-! ## Reading, then writing -/

/-- The configuration of a run. -/
def configOf : Option Text → ExceptT Failure m Config
  | some path => configFor path
  | none => pure {}

/-- The directory that the paths in the configuration of a run are seen from. -/
def baseOf : Option Text → Text
  | some path => configBase path
  | none => "."

/-- The part of a run that reads: what it ends with, and where the module goes to. -/
def plan (path : Option Text) (options : RunOptions) : ExceptT Failure m (Text × Outcome) := do
  let config ← configOf path
  let config ← ExceptT.lift (withOptions options config)
  let outcome ← generate config (baseOf path) options.mode
  return (outputTarget options config (baseOf path), outcome)

/-- What is left of a run once its outcome is known. -/
def deliver (target : Text) (outcome : Outcome) : ExceptT Failure m Outcome := do
  match outcome.output with
  | some t => writeModule target t
  | none => pure ()
  return outcome

theorem run_eq [LawfulMonad m] (path : Option Text) (options : RunOptions) :
    (run path options : ExceptT Failure m Outcome) =
      plan path options >>= fun planned ↦ deliver planned.1 planned.2 := by
  cases path <;> simp only [run, plan, configOf, baseOf, bind_assoc, pure_bind] <;> rfl

/-- Without options, the outcome is that of generating the module of the configuration. -/
theorem map_plan [LawfulMonad m] (file : Text) :
    (Prod.snd <$> plan (some file) {} : ExceptT Failure m Outcome) = generateFile file := by
  simp [plan, generateFile, configOf, baseOf, withOptions]

end

variable {α β : Type} {tree : FileTree} {path : Option Text} {options : RunOptions} {target : Text}
  {outcome : Outcome}

/-! ## The part that reads -/

/-- What a run ends with, and the tree that it leaves. -/
def FileTree.ending (tree : FileTree) (x : ExceptT Failure (StateM FileTree) α) :
    Except Failure α × FileTree := x.run.run tree

/-- After a part that only reads, a run goes on with the tree that it has started with. -/
theorem ending_bind {x : ExceptT Failure (StateM FileTree) α} (hx : OnlyReads x)
    (f : α → ExceptT Failure (StateM FileTree) β) :
    tree.ending (x >>= f) = match tree.result x with
      | .ok a => tree.ending (f a)
      | .error e => (.error e, tree) := by
  have htree := hx tree
  rw [FileTree.ending, run_bind, FileTree.result]
  generalize x.run.run tree = ending at htree ⊢
  obtain ⟨e | a, tree'⟩ := ending
  · obtain rfl : tree' = tree := htree
    rfl
  · obtain rfl : tree' = tree := htree
    rfl

theorem run_readText (tree : FileTree) (file : Text) :
    (FileAccess.readText file : StateM FileTree _).run tree = (tree.readText file, tree) := rfl

theorem onlyReads_configFor (file : Text) : OnlyReads (configFor file) := by
  intro tree
  show ((loadConfig file : ExceptT ConfigFailure (StateM FileTree) Config).run.run tree).2 = tree
  rw [loadConfig, ExceptT.run_mk, StateT.run_bind, run_readText]
  cases tree.readText file with
  | error e => rfl
  | ok t =>
    dsimp only [bind]
    cases Config.parse? t <;> rfl

/-- A configuration is what the document at its path describes. -/
theorem result_configFor {file t : Text} {config : Config} (hread : tree.readText file = .ok t)
    (hparse : Config.parse? t = some config) : tree.result (configFor file) = .ok config := by
  show Except.mapError (Failure.config file)
    ((loadConfig file : ExceptT ConfigFailure (StateM FileTree) Config).run.run tree).1 = .ok config
  rw [loadConfig, ExceptT.run_mk, StateT.run_bind, run_readText, hread]
  dsimp only [bind]
  rw [hparse]
  rfl

theorem onlyReads_configOf (path : Option Text) : OnlyReads (configOf path) := by
  cases path with
  | none => exact onlyReads_pure _
  | some file => exact onlyReads_configFor file

theorem onlyReads_withOptions (options : RunOptions) (config : Config) :
    OnlyReads (ExceptT.lift (withOptions options config)) := by
  intro tree
  rw [withOptions]
  split <;> rfl

/-- Options leave the output path of a configuration as it is. -/
theorem file_withOptions {config config' : Config}
    (h : tree.result (ExceptT.lift (withOptions options config)) = .ok config') :
    config'.output.file = config.output.file := by
  rw [withOptions] at h
  split at h
  all_goals
    obtain rfl := Except.ok.inj h
    rfl

theorem onlyReads_plan (path : Option Text) (options : RunOptions) :
    OnlyReads (plan path options) :=
  (onlyReads_configOf _).bind fun _ ↦ (onlyReads_withOptions _ _).bind fun _ ↦
    (onlyReads_generate _ _ _).bind fun _ ↦ onlyReads_pure _

/-- The module goes where the configuration says, unless the options say it. -/
theorem target_eq_of_plan {planned : Text × Outcome}
    (h : tree.result (plan path options) = .ok planned) :
    ∃ config, tree.result (configOf path) = .ok config ∧
      planned.1 = outputTarget options config (baseOf path) := by
  obtain ⟨config, hconfig, h⟩ := (result_bind (onlyReads_configOf _)).1 h
  obtain ⟨config', hoptions, h⟩ := (result_bind (onlyReads_withOptions _ _)).1 h
  obtain ⟨outcome, -, h⟩ := (result_bind (onlyReads_generate _ _ _)).1 h
  obtain rfl := result_pure.1 h
  refine ⟨config, hconfig, ?_⟩
  rw [outputTarget, outputTarget, file_withOptions hoptions]

/-! ## How a run ends -/

/-- The ways in which a run can end once its outcome is known, with the tree that it leaves. -/
inductive Delivery (tree : FileTree) (target : Text) (outcome : Outcome) :
    Except Failure Outcome × FileTree → Prop
  | nothing (hnone : outcome.output = none) : Delivery tree target outcome (.ok outcome, tree)
  | printed {t : Text} (hsome : outcome.output = some t) (htarget : target = standardOutput) :
      Delivery tree target outcome (.ok outcome, { tree with printed := tree.printed ++ t })
  | stored {t : Text} {place : FileLocation} (hsome : outcome.output = some t)
      (htarget : target ≠ standardOutput) (hplace : tree.target target = .ok place) :
      Delivery tree target outcome (.ok outcome, tree.store place t)
  | refused {t : Text} {e : FileError} (hsome : outcome.output = some t)
      (htarget : target ≠ standardOutput) (hplace : tree.target target = .error e) :
      Delivery tree target outcome (.error (.output target e), tree)

theorem ending_writeModule (t : Text) (htarget : target ≠ standardOutput) :
    tree.ending (writeModule target t) = match tree.target target with
      | .ok place => (.ok (), tree.store place t)
      | .error e => (.error (.output target e), tree) := by
  have hwrite : (FileAccess.writeText target t : StateM FileTree _).run tree =
      match tree.target target with
      | .ok place => (.ok (), tree.store place t)
      | .error e => (.error e, tree) := rfl
  rw [FileTree.ending, writeModule, if_neg htarget, orFail, ExceptT.run_mk, StateT.run_bind, hwrite]
  cases tree.target target <;> rfl

theorem delivery_deliver :
    Delivery tree target outcome (tree.ending (deliver target outcome)) := by
  rw [deliver]
  cases houtput : outcome.output with
  | none => exact .nothing houtput
  | some t =>
    by_cases htarget : target = standardOutput
    · simp only [writeModule, if_pos htarget]
      exact .printed houtput htarget
    · show Delivery tree target outcome
        (tree.ending (writeModule target t >>= fun _ ↦ pure outcome))
      rw [FileTree.ending, run_bind, ← FileTree.ending, ending_writeModule t htarget]
      cases hplace : tree.target target with
      | ok place => exact .stored houtput htarget hplace
      | error e => exact .refused houtput htarget hplace

namespace Delivery

variable {ending : Except Failure Outcome × FileTree} {tree' : FileTree} {outcome' : Outcome}

/-- A module whose target is standard output is printed. -/
theorem eq_printed {t : Text} (h : Delivery tree target outcome ending)
    (hsome : outcome.output = some t) (htarget : target = standardOutput) :
    ending = (.ok outcome, { tree with printed := tree.printed ++ t }) := by
  cases h with
  | nothing hnone => simp [hnone] at hsome
  | printed ht =>
    obtain rfl := Option.some_inj.1 (hsome.symm.trans ht)
    rfl
  | stored _ hne => exact absurd htarget hne
  | refused _ hne => exact absurd htarget hne

/-- A module with any other target is stored there, or else nothing is. -/
theorem stored_or_refused {t : Text} (h : Delivery tree target outcome ending)
    (hsome : outcome.output = some t) (htarget : target ≠ standardOutput) :
    (∃ tree', ending = (.ok outcome, tree') ∧ tree.HasStored target t tree') ∨
      ∃ e, tree.target target = .error e ∧ ending = (.error (.output target e), tree) := by
  cases h with
  | nothing hnone => simp [hnone] at hsome
  | printed _ heq => exact absurd heq htarget
  | stored ht _ hplace =>
    obtain rfl := Option.some_inj.1 (hsome.symm.trans ht)
    exact Or.inl ⟨_, rfl, FileTree.hasStored_store hplace⟩
  | refused _ _ hplace => exact Or.inr ⟨_, hplace, rfl⟩

end Delivery

/-- A run that has planned something delivers it. -/
theorem delivery_run (hplan : tree.result (plan path options) = .ok (target, outcome)) :
    Delivery tree target outcome (tree.ending (run path options)) := by
  rw [run_eq, ending_bind (onlyReads_plan path options), hplan]
  exact delivery_deliver

/-- Without options, a run plans to deliver the module of its configuration. -/
theorem result_generateFile {file : Text} {planned : Except Failure (Text × Outcome)}
    (h : tree.result (plan (some file) {}) = planned) :
    tree.result (generateFile file) = planned.map Prod.snd := by
  rw [← map_plan, ← h, FileTree.result, FileTree.result, ExceptT.run_map, StateT.run_map]
  rfl

/-- A directory with a configuration, its only header, and the module from some run before. -/
def configured : FileTree where
  current := ["lib".toList]
  entries := [(["lib".toList, "a.toml".toList], .text "headers = ['a.h']\n"),
    (["lib".toList, "a.h".toList], .text "XN_C_API int xnOpen(int n);\n"),
    (["lib".toList, "bindings.py".toList], .text "old\n")]

end HeaderBindings
