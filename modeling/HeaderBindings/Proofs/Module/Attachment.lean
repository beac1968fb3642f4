import Mathlib.Data.List.Nodup
import HeaderBindings.Declarations.Collect
import HeaderBindings.Proofs.Module.Contents
import HeaderBindings.Proofs.Text.Ordering

/-!
# What becomes of a function

A function belongs to the wrapper class that its first parameter has, if it is one.  There it is a
method, unless the method is written by hand.  All other functions are reported.

Three parts of a module are made for this, each from the functions anew: the wrapper classes, the
names of the functions that belong to one, and the report on those that do not.

* `attachment` says what becomes of a function in one place, from the type of its first parameter.
* `Reports` says what lines there are in a report.
* `accounts_wrappers`: the three parts agree with `attachment`, so no function is lost and none is
  there twice.  This is so if linking the documentation of the methods ends, since there are no
  wrapper classes otherwise, as for `strayLibrary`.  Every function has its binding in any case.
-/

set_option autoImplicit false

namespace HeaderBindings

/-- What becomes of a function. -/
inductive Attachment where
  /-- It is a method that is made for a class. -/
  | method (cls : Text)
  /-- The method of a class for it is written by hand. -/
  | handWritten (cls : Text)
  /-- It belongs to no class. -/
  | loose
deriving DecidableEq

/-- The class of a wrapper class. -/
def Node.wrapperClass? : Node → Option Text
  | .wrapper name _ _ _ _ => some name
  | _ => none

/-- The name of the function in a binding. -/
def Node.boundName? : Node → Option Text
  | .binding name _ _ _ _ => some name
  | _ => none

theorem Overrides.mem_methodsOf {o : Overrides} {cls method : Text} :
    method ∈ o.methodsOf cls ↔ o.definesMethod cls method = true := by
  rw [methodsOf, definesMethod]
  cases o[cls]? with
  | none => simp
  | some c => simp [Std.TreeSet.mem_toList]

/-! ## Functions that are left out -/

/-- A function is left out exactly if it is to be. -/
def FunctionFate.Fits (names : List Text) : FunctionFate → Prop
  | kept f => f.name ∉ names
  | excluded name _ => name ∈ names
  | refused => True

/-- A collection holds no function that is to be left out, and reports no other. -/
structure Declarations.LeavesOut (names : List Text) (d : Declarations) : Prop where
  functions : ∀ f ∈ d.functions, f.name ∉ names
  excluded : ∀ name ∈ d.excluded, name ∈ names

variable {conventions : Conventions}

theorem fits_functionOfBlock (file : Text) (b : Block) :
    (functionOfBlock conventions file b).1.Fits conventions.excluded := by
  simp only [functionOfBlock]
  split
  · split
    · exact trivial
    · split
      · assumption
      · split
        · exact trivial
        · assumption
  · exact trivial

theorem fits_functionFates (file t : Text) :
    ∀ fate ∈ functionFates conventions file t, fate.1.Fits conventions.excluded := by
  intro fate hfate
  obtain ⟨b, -, rfl⟩ := List.mem_map.1 hfate
  exact fits_functionOfBlock file b

namespace Declarations.LeavesOut

variable {d : Declarations}

/-- Reading one more header changes nothing about it. -/
theorem addHeader (h : d.LeavesOut conventions.excluded) (file t : Text) :
    (d.addHeader conventions file t).1.LeavesOut conventions.excluded := by
  constructor
  · intro f hf
    rcases List.mem_append.1 hf with hf | hf
    · exact h.functions f hf
    · obtain ⟨⟨fate, _⟩, hfate, hkept⟩ := List.mem_filterMap.1 hf
      have hfits := fits_functionFates file t _ hfate
      cases fate with
      | kept g =>
        obtain rfl := Option.some_inj.1 hkept
        exact hfits
      | excluded | refused => exact absurd hkept nofun
  · intro name hname
    rcases Std.TreeMap.mem_insertMany_list.1 hname with hname | hname
    · exact h.excluded name hname
    · obtain ⟨entry, hentry, rfl⟩ := List.mem_map.1 (List.contains_iff_mem.1 hname)
      obtain ⟨⟨fate, _⟩, hfate, hexcluded⟩ := List.mem_filterMap.1 hentry
      have hfits := fits_functionFates file t _ hfate
      cases fate with
      | excluded =>
        obtain rfl := Option.some_inj.1 hexcluded
        exact hfits
      | kept | refused => exact absurd hexcluded nofun

theorem addHeaders (headers : List (Text × Text)) : ∀ {d : Declarations},
    d.LeavesOut conventions.excluded →
      (d.addHeaders conventions headers).1.LeavesOut conventions.excluded := by
  induction headers with
  | nil => exact id
  | cons header rest ih => exact fun h ↦ ih (h.addHeader _ _)

theorem ofHeaders (conventions : Conventions) (version : Text) (headers : List (Text × Text)) :
    (Declarations.ofHeaders conventions version headers).1.LeavesOut conventions.excluded := by
  have hempty : Declarations.LeavesOut conventions.excluded { version } :=
    ⟨fun _ hf ↦ absurd hf List.not_mem_nil,
      fun _ hname ↦ absurd hname Std.TreeMap.not_mem_emptyc⟩
  have h := hempty.addHeaders headers
  exact ⟨h.functions, h.excluded⟩

end Declarations.LeavesOut

namespace Sources

/-- What becomes of a function.  It belongs to the wrapper class that its first parameter has. -/
def attachment (s : Sources) (f : Prototype) : Attachment :=
  match f.params with
  | [] => .loose
  | p :: _ =>
    match s.types.resolve? p.type with
    | none => .loose
    | some cls =>
      if cls ∈ s.types.wrapperClasses then
        if s.types.methodName cls f.name ∈ s.overrides.methodsOf cls then .handWritten cls
        else .method cls
      else .loose

/-- What the report says of a function that belongs to no class: its name, and the descriptor of its
first parameter if there is one. -/
def looseLine (s : Sources) (f : Prototype) : Text :=
  match f.params with
  | [] => f.name ++ " (None)"
  | p :: _ => f.name ++ " (" ++ (s.types.resolve? p.type).getD "None" ++ ")"

/-- The nodes report the names: there is a line for each, in order and behind a blank, in a comment
that says first how many there are and what they are.  Nothing is reported if there are none. -/
inductive Reports (what : Text) : List Text → List Node → Prop
  | nothing : Reports what [] []
  | names {names : List Text} (hne : names ≠ []) : Reports what names
      [.comment ((Text.ofNat names.length ++ " function(s) " ++ what ++ ":") ::
        names.map fun name ↦ " " ++ name)]

/-- Every function has one binding. -/
structure BindsEach (s : Sources) : Prop where
  bindings : s.bindings.filterMap Node.boundName? = s.declarations.functions.map (·.name)
  /-- A function that was left out has none. -/
  excluded : ∀ conventions version headers,
    s.declarations = (Declarations.ofHeaders conventions version headers).1 →
      ∀ name ∈ s.declarations.excluded.keys, name ∉ s.bindings.filterMap Node.boundName?

/-- The wrapper classes and the report account for every function. -/
structure Accounts (s : Sources) (wrappers : List Node) : Prop where
  /-- There is one node for each wrapper class. -/
  classes : wrappers.map Node.wrapperClass? = s.wrapperClasses.map some
  mem_classes : ∀ cls, cls ∈ s.wrapperClasses ↔ cls ∈ s.types.wrapperClasses
  ordered : s.wrapperClasses.Pairwise fun a b ↦ compare a b = .lt
  /-- The methods of a class are made for its functions, in the order of the headers. -/
  methods : ∀ node ∈ wrappers, ∀ cls ∈ node.wrapperClass?,
    node.methods.map (fun m ↦ (m.name, m.target)) =
      (s.declarations.functions.filter fun f ↦ s.attachment f = .method cls).map fun f ↦
        (s.types.methodName cls f.name, f.name)
  /-- No method that is written by hand is made again. -/
  notMem_methodsOf : ∀ node ∈ wrappers, ∀ cls ∈ node.wrapperClass?,
    ∀ m ∈ node.methods, m.name ∉ s.overrides.methodsOf cls
  /-- No function has two methods. -/
  nodup_targets : ((wrappers.flatMap Node.methods).map (·.target)).Nodup
  mem_targets : ∀ f ∈ s.declarations.functions,
    f.name ∈ (wrappers.flatMap Node.methods).map (·.target) ↔ ∃ cls, s.attachment f = .method cls
  /-- The functions that belong to no class are reported, each in one line, behind the ones that
  were left out. -/
  report : ∃ (lines : List Text) (excluded loose : List Node),
    lines.Perm ((s.declarations.functions.filter fun f ↦ s.attachment f = .loose).map s.looseLine) ∧
    lines.Pairwise (fun a b ↦ (compare a b).isLE = true) ∧
    s.unwrapped s.wrappedNames = excluded ++ loose ∧
    Reports "blacklisted" s.declarations.excluded.keys excluded ∧
    Reports "not wrapped as methods" lines loose

variable {s : Sources} {wrappers : List Node} {f : Prototype} {cls : Text}

/-- What becomes of a function is decided by its receiver. -/
theorem attachment_of_receiver? (h : s.receiver? f = some cls) :
    s.attachment f = if cls ∈ s.types.wrapperClasses then
        if s.types.methodName cls f.name ∈ s.overrides.methodsOf cls then .handWritten cls
        else .method cls
      else .loose := by
  obtain ⟨p, hp, hresolve⟩ := Option.bind_eq_some_iff.1 h
  obtain ⟨rest, hparams⟩ := List.head?_eq_some_iff.1 hp
  simp only [attachment, hparams, hresolve]

theorem attachment_of_noReceiver (h : s.receiver? f = none) : s.attachment f = .loose := by
  rw [attachment]
  split
  · rfl
  · rename_i p rest hparams
    rw [receiver?, hparams, List.head?_cons, Option.bind_some] at h
    rw [h]

theorem looseLine_eq : s.looseLine f = f.name ++ " (" ++ (s.receiver? f).getD "None" ++ ")" := by
  rw [looseLine, receiver?]
  cases f.params with
  | nil =>
    show f.name ++ " (None)".toList = f.name ++ " (".toList ++ "None".toList ++ ")".toList
    rw [List.append_assoc, List.append_assoc]
    rfl
  | cons p rest => rfl

theorem attachment_eq_method : s.attachment f = .method cls ↔
    cls ∈ s.types.wrapperClasses ∧ s.receiver? f = some cls ∧
      s.types.methodName cls f.name ∉ s.overrides.methodsOf cls := by
  cases hreceiver : s.receiver? f with
  | none => simp [attachment_of_noReceiver hreceiver]
  | some cls' =>
    rw [attachment_of_receiver? hreceiver]
    split
    · split <;> grind
    · grind

theorem attachment_eq_loose : s.attachment f = .loose ↔
    ∀ cls ∈ s.types.wrapperClasses, s.receiver? f ≠ some cls := by
  cases hreceiver : s.receiver? f with
  | none => simp [attachment_of_noReceiver hreceiver]
  | some cls' =>
    rw [attachment_of_receiver? hreceiver]
    split
    · split <;> grind
    · grind

/-! ## Methods -/

theorem nodup_wrapperClasses (s : Sources) : s.wrapperClasses.Nodup := by
  have hordered : s.wrapperClasses.Pairwise fun a b ↦ compare a b = .lt :=
    Std.TreeSet.ordered_toList
  refine hordered.imp ?_
  rintro a b hlt rfl
  exact absurd (Std.ReflCmp.compare_self.symm.trans hlt) (by simp)

/-- The functions that methods are made for. -/
theorem generatedFunctions_eq (hcls : cls ∈ s.types.wrapperClasses) :
    s.generatedFunctions cls =
      s.declarations.functions.filter fun f ↦ s.attachment f = .method cls := by
  rw [generatedFunctions, functionsOf, List.filter_filter]
  refine List.filter_congr fun f _ ↦ ?_
  rw [Bool.eq_iff_iff]
  simp only [Bool.and_eq_true, Bool.not_eq_true', beq_iff_eq, decide_eq_true_eq,
    attachment_eq_method, Overrides.mem_methodsOf, Bool.not_eq_true, hcls, true_and]
  exact and_comm

/-- A method has the name for its function, and calls it. -/
theorem eq_of_method? {m : Method} (h : s.method? cls f = some m) :
    (m.name, m.target) = (s.types.methodName cls f.name, f.name) := by
  obtain ⟨doc, -, rfl⟩ := Option.map_eq_some_iff.1 h
  rfl

theorem methods_of_wrapper? {node : Node} (h : s.wrapper? cls = some node) :
    node.wrapperClass? = some cls ∧ node.methods.map (fun m ↦ (m.name, m.target)) =
      (s.generatedFunctions cls).map fun f ↦ (s.types.methodName cls f.name, f.name) := by
  obtain ⟨methods, hmethods, rfl⟩ := eq_wrapper_of_wrapper? h
  exact ⟨rfl, map_of_mapM (fun _ _ _ ↦ eq_of_method?) hmethods⟩

/-- Every node of the section is the one of a wrapper class. -/
theorem wrapper?_of_mem_wrappers (h : s.wrappers? = some wrappers) :
    ∀ node ∈ wrappers, ∀ cls ∈ node.wrapperClass?,
      cls ∈ s.types.wrapperClasses ∧ s.wrapper? cls = some node := by
  intro node hnode cls hcls
  obtain ⟨cls', hcls', hwrapper⟩ := exists_of_mem_mapM h node hnode
  obtain rfl := Option.some_inj.1 ((methods_of_wrapper? hwrapper).1.symm.trans hcls)
  exact ⟨mem_wrapperClasses.1 hcls', hwrapper⟩

theorem methods_of_mem_wrappers (h : s.wrappers? = some wrappers) :
    ∀ node ∈ wrappers, ∀ cls ∈ node.wrapperClass?,
      node.methods.map (fun m ↦ (m.name, m.target)) =
        (s.declarations.functions.filter fun f ↦ s.attachment f = .method cls).map fun f ↦
          (s.types.methodName cls f.name, f.name) := by
  intro node hnode cls hcls
  obtain ⟨hclass, hwrapper⟩ := wrapper?_of_mem_wrappers h node hnode cls hcls
  rw [(methods_of_wrapper? hwrapper).2, generatedFunctions_eq hclass]

theorem notMem_methodsOf (h : s.wrappers? = some wrappers) :
    ∀ node ∈ wrappers, ∀ cls ∈ node.wrapperClass?,
      ∀ m ∈ node.methods, m.name ∉ s.overrides.methodsOf cls := by
  intro node hnode cls hcls m hm
  have hpair : (m.name, m.target) ∈ node.methods.map fun m ↦ (m.name, m.target) :=
    List.mem_map.2 ⟨m, hm, rfl⟩
  rw [methods_of_mem_wrappers h node hnode cls hcls] at hpair
  obtain ⟨f, hf, hpair⟩ := List.mem_map.1 hpair
  have hattachment := of_decide_eq_true (List.mem_filter.1 hf).2
  have hname : s.types.methodName cls f.name = m.name := congrArg Prod.fst hpair
  rw [← hname]
  exact (attachment_eq_method.1 hattachment).2.2

/-- The functions with methods, class by class. -/
theorem targets_of_wrappers? (h : s.wrappers? = some wrappers) :
    (wrappers.flatMap Node.methods).map (·.target) =
      s.wrapperClasses.flatMap fun cls ↦ (s.generatedFunctions cls).map (·.name) := by
  have htargets : wrappers.map (fun node ↦ node.methods.map (·.target)) =
      s.wrapperClasses.map fun cls ↦ (s.generatedFunctions cls).map (·.name) := by
    refine map_of_mapM (fun cls _ node hnode ↦ ?_) h
    have hpairs := congrArg (List.map Prod.snd) (methods_of_wrapper? hnode).2
    rwa [List.map_map, List.map_map] at hpairs
  rw [List.map_flatMap, List.flatMap_def, htargets, List.flatMap_def]

/-- A name is among those if the function of that name gets a method. -/
theorem mem_targets_iff (hnames : (s.declarations.functions.map (·.name)).Nodup)
    (hf : f ∈ s.declarations.functions) :
    (f.name ∈ s.wrapperClasses.flatMap fun cls ↦ (s.generatedFunctions cls).map (·.name)) ↔
      ∃ cls, s.attachment f = .method cls := by
  constructor
  · intro h
    obtain ⟨cls, hcls, hname⟩ := List.mem_flatMap.1 h
    obtain ⟨g, hg, hname⟩ := List.mem_map.1 hname
    rw [generatedFunctions_eq (mem_wrapperClasses.1 hcls), List.mem_filter] at hg
    obtain rfl := List.inj_on_of_nodup_map hnames hg.1 hf hname
    exact ⟨cls, of_decide_eq_true hg.2⟩
  · rintro ⟨cls, h⟩
    have hcls := (attachment_eq_method.1 h).1
    refine List.mem_flatMap.2 ⟨cls, mem_wrapperClasses.2 hcls, List.mem_map.2 ⟨f, ?_, rfl⟩⟩
    rw [generatedFunctions_eq hcls]
    exact List.mem_filter.2 ⟨hf, decide_eq_true h⟩

/-- No name is there twice, since a function belongs to one class. -/
theorem nodup_targets (hnames : (s.declarations.functions.map (·.name)).Nodup) :
    (s.wrapperClasses.flatMap fun cls ↦ (s.generatedFunctions cls).map (·.name)).Nodup := by
  refine List.nodup_flatMap.2 ⟨fun cls hcls ↦ ?_, ?_⟩
  · rw [generatedFunctions_eq (mem_wrapperClasses.1 hcls)]
    exact hnames.sublist (List.filter_sublist.map _)
  · refine s.nodup_wrapperClasses.imp_of_mem fun {a b} ha hb hne name hleft hright ↦ hne ?_
    obtain ⟨f, hf, rfl⟩ := List.mem_map.1 hleft
    obtain ⟨g, hg, hname⟩ := List.mem_map.1 hright
    rw [generatedFunctions_eq (mem_wrapperClasses.1 ha), List.mem_filter] at hf
    rw [generatedFunctions_eq (mem_wrapperClasses.1 hb), List.mem_filter] at hg
    obtain rfl := List.inj_on_of_nodup_map hnames hg.1 hf.1 hname
    have hsame := (of_decide_eq_true hf.2).symm.trans (of_decide_eq_true hg.2)
    exact Attachment.method.inj hsame

/-! ## The report -/

/-- The functions whose names are not handed on as those of a class. -/
theorem mem_wrappedNames_iff (hnames : (s.declarations.functions.map (·.name)).Nodup)
    (hf : f ∈ s.declarations.functions) : f.name ∈ s.wrappedNames ↔ s.attachment f ≠ .loose := by
  rw [wrappedNames, Std.TreeSet.mem_toList, Std.TreeSet.mem_ofList, List.contains_iff_mem, Ne,
    attachment_eq_loose]
  push Not
  constructor
  · intro h
    obtain ⟨g, hg, hname⟩ := List.mem_map.1 h
    obtain ⟨cls, hcls, hg⟩ := List.mem_flatMap.1 hg
    obtain ⟨hg, hreceiver⟩ := List.mem_filter.1 hg
    obtain rfl := List.inj_on_of_nodup_map hnames hg hf hname
    exact ⟨cls, mem_wrapperClasses.1 hcls, eq_of_beq hreceiver⟩
  · rintro ⟨cls, hcls, hreceiver⟩
    refine List.mem_map.2 ⟨f, List.mem_flatMap.2 ⟨cls, mem_wrapperClasses.2 hcls, ?_⟩, rfl⟩
    exact List.mem_filter.2 ⟨hf, beq_iff_eq.2 hreceiver⟩

theorem filter_notMem_wrappedNames (hnames : (s.declarations.functions.map (·.name)).Nodup) :
    s.declarations.functions.filter (fun f ↦ f.name ∉ s.wrappedNames) =
      s.declarations.functions.filter fun f ↦ s.attachment f = .loose := by
  refine List.filter_congr fun f hf ↦ ?_
  rw [decide_eq_decide, mem_wrappedNames_iff hnames hf, not_not]

theorem reports_functionReport (what : Text) (names : List Text) :
    Reports what names (functionReport what names) := by
  rw [functionReport]
  cases names with
  | nil => exact .nothing
  | cons name names => exact .names (List.cons_ne_nil name names)

theorem exists_report (hnames : (s.declarations.functions.map (·.name)).Nodup) :
    ∃ (lines : List Text) (excluded loose : List Node),
      lines.Perm
        ((s.declarations.functions.filter fun f ↦ s.attachment f = .loose).map s.looseLine) ∧
      lines.Pairwise (fun a b ↦ (compare a b).isLE = true) ∧
      s.unwrapped s.wrappedNames = excluded ++ loose ∧
      Reports "blacklisted" s.declarations.excluded.keys excluded ∧
      Reports "not wrapped as methods" lines loose := by
  refine ⟨_, _, _, List.mergeSort_perm _ _, Text.pairwise_mergeSort_compare (fun line ↦ line) _, ?_,
    reports_functionReport _ _, reports_functionReport _ _⟩
  have hlines : s.looseLine = fun f ↦ f.name ++ " (" ++ (s.receiver? f).getD "None" ++ ")" :=
    funext fun _ ↦ looseLine_eq
  rw [unwrapped, filter_notMem_wrappedNames hnames, hlines]

/-! ## Bindings -/

theorem boundNames_bindings (s : Sources) :
    s.bindings.filterMap Node.boundName? = s.declarations.functions.map (·.name) := by
  rw [bindings, List.filterMap_cons, List.filterMap_map]
  show s.declarations.functions.filterMap (some ∘ (·.name)) = _
  rw [List.filterMap_eq_map]

theorem notMem_boundNames {conventions : Conventions} {version : Text}
    {headers : List (Text × Text)}
    (h : s.declarations = (Declarations.ofHeaders conventions version headers).1) :
    ∀ name ∈ s.declarations.excluded.keys, name ∉ s.bindings.filterMap Node.boundName? := by
  intro name hname hbound
  have hleft := Declarations.LeavesOut.ofHeaders conventions version headers
  rw [← h] at hleft
  rw [boundNames_bindings] at hbound
  obtain ⟨f, hf, rfl⟩ := List.mem_map.1 hbound
  exact hleft.functions f hf (hleft.excluded f.name (Std.TreeMap.mem_keys.1 hname))

/-! ## All together -/

/-- **Every function is accounted for.**  Each has its binding.  The wrapper classes can be made
exactly if linking the documentation of their methods ends, and then they and the report account for
every function, if no two functions have one name. -/
theorem accounts_wrappers (hnames : (s.declarations.functions.map (·.name)).Nodup) :
    s.BindsEach ∧ (s.LinksEnd ↔ ∃ wrappers, s.wrappers? = some wrappers) ∧
      ∀ wrappers, s.wrappers? = some wrappers → s.Accounts wrappers := by
  refine ⟨⟨s.boundNames_bindings, fun _ _ _ ↦ notMem_boundNames⟩, linksEnd_iff,
    fun wrappers hwrappers ↦ ?_⟩
  have htargets := targets_of_wrappers? hwrappers
  exact
    { classes := map_of_mapM (fun _ _ _ hnode ↦ (methods_of_wrapper? hnode).1) hwrappers
      mem_classes := fun _ ↦ mem_wrapperClasses
      ordered := Std.TreeSet.ordered_toList
      methods := methods_of_mem_wrappers hwrappers
      notMem_methodsOf := notMem_methodsOf hwrappers
      nodup_targets := htargets ▸ nodup_targets hnames
      mem_targets := fun _ hf ↦ htargets ▸ mem_targets_iff hnames hf
      report := exists_report hnames }

/-- A library with two types for one wrapper class, which has a method that is written by hand. -/
def contextLibrary : Sources :=
  let conventions : Conventions :=
    { wrapperClasses := ["Context"], excluded := ["xnLog"] }
  let declarations := (Declarations.ofHeaders conventions [] [("a.h",
    "XN_C_API int xnOpen(Ctx* c);\nXN_C_API int xnClose(Scope* s);\n" ++
    "XN_C_API int xnInit();\nXN_C_API int xnLog();\n")]).1
  let types := ((∅ : Table).insert "Ctx*" "Context").insert "Scope*" "Context"
  let overrides :=
    Overrides.ofSource "class Context(_Ctype):\n    def close(self):\n        pass\n"
  { conventions, declarations, types := .build conventions types declarations, overrides }

theorem accounts_wrappers_contextLibrary :
    contextLibrary.BindsEach ∧
      (∃ wrappers ∈ contextLibrary.wrappers?, contextLibrary.Accounts wrappers) ∧
      contextLibrary.declarations.functions.map contextLibrary.attachment =
        [.method "Context", .handWritten "Context", .loose] ∧
      contextLibrary.unwrapped contextLibrary.wrappedNames =
        [.comment ["1 function(s) blacklisted:", " xnLog"],
          .comment ["1 function(s) not wrapped as methods:", " xnInit (None)"]] := by
  obtain ⟨hnames, hlinks, hrest⟩ :
      (contextLibrary.declarations.functions.map (·.name)).Nodup ∧ contextLibrary.LinksEnd ∧
        contextLibrary.declarations.functions.map contextLibrary.attachment =
          [.method "Context", .handWritten "Context", .loose] ∧
        contextLibrary.unwrapped contextLibrary.wrappedNames =
          [.comment ["1 function(s) blacklisted:", " xnLog"],
            .comment ["1 function(s) not wrapped as methods:", " xnInit (None)"]] := by
    decide +kernel
  obtain ⟨hbinds, hends, haccounts⟩ := accounts_wrappers hnames
  obtain ⟨wrappers, hwrappers⟩ := hends.1 hlinks
  exact ⟨hbinds, ⟨wrappers, hwrappers, haccounts wrappers hwrappers⟩, hrest⟩

/-- **There need not be wrapper classes**: here is a function to make a method for, but the
documentation of that cannot be linked. -/
theorem no_wrappers_strayLibrary :
    (strayLibrary.declarations.functions.map (·.name)).Nodup ∧
      strayLibrary.types.wrapperClasses = [("Context" : Text)] ∧
      strayLibrary.declarations.functions.map strayLibrary.attachment = [.method "Context"] ∧
      ¬∃ wrappers, strayLibrary.wrappers? = some wrappers := by
  obtain ⟨hnames, hclasses, hattachment⟩ :
      (strayLibrary.declarations.functions.map (·.name)).Nodup ∧
        strayLibrary.types.wrapperClasses = [("Context" : Text)] ∧
        strayLibrary.declarations.functions.map strayLibrary.attachment =
          [.method "Context"] := by decide +kernel
  exact ⟨hnames, hclasses, hattachment, linksEnd_iff.not.1 not_linksEnd_strayLibrary⟩

end Sources

end HeaderBindings
