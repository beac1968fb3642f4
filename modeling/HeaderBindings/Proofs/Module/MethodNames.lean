import HeaderBindings.Proofs.Module.Attachment
import HeaderBindings.Proofs.Module.ConstantNames

/-!
# Names of methods

A function is a method of its class under a shorter name: without what all functions of the class
begin with, or else without what all functions begin with, and with a first letter in lower case.
Functions of different names can meet there, and then the class defines a method twice and the
earlier function can no longer be called through it.

* `TypeTable.Leaves` says what is left of a function's name, and `methodName_eq_iff` when two
  functions share a method.
* `eq_of_sharesMethod`: they do not if both begin with what is left out for their class and go on
  with a capital letter.
* `Sources.methods_reached` says of every wrapper class when its methods have different names, and
  which functions can be called through it.  `Sources.methods_openLibrary` is a class in which two
  functions meet.
-/

set_option autoImplicit false

namespace HeaderBindings

/-! ## What is left of a name -/

/-- The name begins with `lead` and goes on with `rest`. -/
def GoesOn (lead name rest : Text) : Prop := name = lead ++ rest ∧ rest ≠ []

theorem filter_afterLead?_eq_some_iff {lead name rest : Text} :
    (name.afterLead? lead).filter (!·.isEmpty) = some rest ↔ GoesOn lead name rest := by
  rw [Option.filter_eq_some_iff, Text.afterLead?_eq_some_iff, GoesOn]
  simp

theorem filter_afterLead?_eq_none {lead name : Text} (h : ∀ rest, ¬GoesOn lead name rest) :
    (name.afterLead? lead).filter (!·.isEmpty) = none :=
  Option.eq_none_iff_forall_ne_some.2 fun rest hrest ↦
    h rest (filter_afterLead?_eq_some_iff.1 hrest)

namespace TypeTable

variable {table : TypeTable} {cls f g rest : Text}

/-- What is left of a function's name in a class.  Nothing is left out if nothing would be left. -/
inductive Leaves (table : TypeTable) (cls function : Text) : Text → Prop
  | ofClass {lead rest : Text} (hlead : table.methodLeads[cls]? = some lead)
      (hname : GoesOn lead function rest) : Leaves table cls function rest
  | ofLibrary {rest : Text}
      (hclass : ∀ lead ∈ table.methodLeads[cls]?, ∀ rest, ¬GoesOn lead function rest)
      (hname : GoesOn table.functionLead function rest) : Leaves table cls function rest
  | whole (hclass : ∀ lead ∈ table.methodLeads[cls]?, ∀ rest, ¬GoesOn lead function rest)
      (hlibrary : ∀ rest, ¬GoesOn table.functionLead function rest) :
      Leaves table cls function function

theorem exists_leaves (table : TypeTable) (cls function : Text) :
    ∃ rest, table.Leaves cls function rest := by
  by_cases hclass : ∃ lead ∈ table.methodLeads[cls]?, ∃ rest, GoesOn lead function rest
  · obtain ⟨lead, hlead, rest, hname⟩ := hclass
    exact ⟨rest, .ofClass hlead hname⟩
  · push Not at hclass
    by_cases hlibrary : ∃ rest, GoesOn table.functionLead function rest
    · obtain ⟨rest, hname⟩ := hlibrary
      exact ⟨rest, .ofLibrary hclass hname⟩
    · push Not at hlibrary
      exact ⟨function, .whole hclass hlibrary⟩

/-- **A method is named after what is left** of its function's name. -/
theorem methodName_of_leaves (h : table.Leaves cls f rest) :
    table.methodName cls f = lowerFirst rest := by
  have hnone (hclass : ∀ lead ∈ table.methodLeads[cls]?, ∀ rest, ¬GoesOn lead f rest) :
      (table.methodLeads[cls]?.bind fun lead ↦
        (f.afterLead? lead).filter (!·.isEmpty)) = none :=
    Option.bind_eq_none_iff.2 fun lead hlead ↦ filter_afterLead?_eq_none (hclass lead hlead)
  rw [methodName]
  cases h with
  | ofClass hlead hname =>
    rw [hlead, Option.bind_some, filter_afterLead?_eq_some_iff.2 hname]
    rfl
  | ofLibrary hclass hname =>
    rw [hnone hclass, filter_afterLead?_eq_some_iff.2 hname]
    rfl
  | whole hclass hlibrary =>
    rw [hnone hclass, filter_afterLead?_eq_none hlibrary]
    rfl

/-- What is left of two functions in a class is the same up to the case of its first letter. -/
def SharesMethod (table : TypeTable) (cls f g : Text) : Prop :=
  ∃ rest rest', table.Leaves cls f rest ∧ table.Leaves cls g rest' ∧
    lowerFirst rest = lowerFirst rest'

/-- **When two functions share a method.** -/
theorem methodName_eq_iff :
    table.methodName cls f = table.methodName cls g ↔ table.SharesMethod cls f g := by
  constructor
  · intro h
    obtain ⟨rest, hf⟩ := table.exists_leaves cls f
    obtain ⟨rest', hg⟩ := table.exists_leaves cls g
    exact ⟨rest, rest', hf, hg, by rwa [← methodName_of_leaves hf, ← methodName_of_leaves hg]⟩
  · rintro ⟨rest, rest', hf, hg, hrest⟩
    rw [methodName_of_leaves hf, methodName_of_leaves hg, hrest]

/-- Capital letters are told apart in lower case. -/
theorem toUpper_toLower {c : Char} (h : c.isUpper = true) : c.toLower.toUpper = c := by
  have hrange : 65 ≤ c.toNat ∧ c.toNat ≤ 90 := of_decide_eq_true h
  have hall : ∀ n < 91, 65 ≤ n → (Char.ofNat n).toLower.toUpper = Char.ofNat n := by decide
  rw [← Char.ofNat_toNat c]
  exact hall _ (by omega) hrange.1

theorem lowerFirst_inj {c d : Char} {s t : Text} (hc : c.isUpper = true) (hd : d.isUpper = true)
    (h : lowerFirst (c :: s) = lowerFirst (d :: t)) : c :: s = d :: t := by
  have hcase {x : Char} (hx : x.isUpper = true) : lowerCase x = [x.toLower] := by
    have hrange : 65 ≤ x.toNat ∧ x.toNat ≤ 90 := of_decide_eq_true hx
    have hascii : isAscii x = true := decide_eq_true (by omega)
    rw [lowerCase, if_pos hascii]
  rw [lowerFirst, lowerFirst, hcase hc, hcase hd] at h
  obtain ⟨hfirst, hrest⟩ := List.cons.inj h
  rw [← toUpper_toLower hc, ← toUpper_toLower hd, hfirst]
  exact congrArg _ hrest

/-- **Functions that are named by convention** do not share a method: those that begin with what is
left out for their class and go on with a capital letter. -/
theorem eq_of_sharesMethod {lead s t : Text} {c d : Char}
    (hlead : table.methodLeads[cls]? = some lead) (hc : c.isUpper = true) (hd : d.isUpper = true)
    (h : table.SharesMethod cls (lead ++ c :: s) (lead ++ d :: t)) :
    lead ++ c :: s = lead ++ d :: t := by
  have hname (x : Char) (r : Text) : table.methodName cls (lead ++ x :: r) = lowerFirst (x :: r) :=
    methodName_of_leaves (.ofClass hlead ⟨rfl, List.cons_ne_nil x r⟩)
  rw [← methodName_eq_iff, hname, hname] at h
  rw [lowerFirst_inj hc hd h]

end TypeTable

/-! ## Methods of a class -/

/-- The function that a method of a class calls.  Of several methods with one name the last one is
the method of that name. -/
def Node.target? (node : Node) (method : Text) : Option Text :=
  lastDefinition? (node.methods.map fun m ↦ (m.name, m.target)) method

namespace Sources

variable {s : Sources} {wrappers : List Node} {f : Prototype} {cls : Text}

/-- A function is called by its method unless a later function of the class shares that. -/
theorem exists_target?_iff {node : Node} {before after : List Prototype}
    (hmethods : node.methods.map (fun m ↦ (m.name, m.target)) =
      (before ++ f :: after).map fun f ↦ (s.types.methodName cls f.name, f.name))
    (hnames : ((before ++ f :: after).map (·.name)).Nodup) :
    (∃ method, node.target? method = some f.name) ↔
      ∀ g ∈ after, ¬s.types.SharesMethod cls f.name g.name := by
  have hinj := List.inj_on_of_nodup_map hnames
  have hf : f ∈ before ++ f :: after := List.mem_append_right _ List.mem_cons_self
  have hnot : f ∉ after :=
    (List.nodup_cons.1 (List.nodup_append.1 (List.Nodup.of_map _ hnames)).2.1).1
  have hlast : node.target? (s.types.methodName cls f.name) =
      (lastDefinition? (after.map fun f ↦ (s.types.methodName cls f.name, f.name))
        (s.types.methodName cls f.name)).or (some f.name) := by
    rw [Node.target?, hmethods, List.map_append, List.map_cons, lastDefinition?_append_cons]
  constructor
  · rintro ⟨method, hmethod⟩ g hg hshared
    -- No other method calls the function than its own, and that is the one of a later function.
    have hown := mem_of_lastDefinition? hmethod
    rw [hmethods] at hown
    obtain ⟨f', hf', hpair⟩ := List.mem_map.1 hown
    obtain ⟨rfl, hsame⟩ := Prod.mk.inj hpair
    obtain rfl := hinj hf' hf hsame
    rw [hlast] at hmethod
    cases hlater : lastDefinition? (after.map fun f ↦ (s.types.methodName cls f.name, f.name))
        (s.types.methodName cls f'.name) with
    | none =>
      exact lastDefinition?_eq_none_iff.1 hlater _ (List.mem_map_of_mem hg)
        (TypeTable.methodName_eq_iff.2 hshared).symm
    | some target =>
      rw [hlater, Option.some_or] at hmethod
      obtain ⟨f'', hf'', hpair⟩ := List.mem_map.1 (mem_of_lastDefinition? hlater)
      have hname : f''.name = f'.name := (Prod.mk.inj hpair).2.trans (Option.some_inj.1 hmethod)
      obtain rfl := hinj (List.mem_append_right _ (List.mem_cons_of_mem _ hf'')) hf hname
      exact hnot hf''
  · intro hnone
    refine ⟨s.types.methodName cls f.name, ?_⟩
    rw [hlast, lastDefinition?_eq_none_iff.2, Option.none_or]
    intro d hd hname
    obtain ⟨g, hg, rfl⟩ := List.mem_map.1 hd
    exact hnone g hg (TypeTable.methodName_eq_iff.1 hname.symm)

theorem nodup_names_generated (hnames : (s.declarations.functions.map (·.name)).Nodup)
    (cls : Text) : ((s.generatedFunctions cls).map (·.name)).Nodup :=
  hnames.sublist ((List.filter_sublist.trans List.filter_sublist).map _)

/-- A function is counted as wrapped if a class has a method for it, or one written by hand. -/
theorem mem_wrappedNames_iff_exists (hnames : (s.declarations.functions.map (·.name)).Nodup)
    (h : s.wrappers? = some wrappers) (hf : f ∈ s.declarations.functions) :
    f.name ∈ s.wrappedNames ↔ ∃ node ∈ wrappers, ∃ cls ∈ node.wrapperClass?,
      f ∈ s.generatedFunctions cls ∨
        s.receiver? f = some cls ∧ s.types.methodName cls f.name ∈ s.overrides.methodsOf cls := by
  rw [mem_wrappedNames_iff hnames hf, Ne, attachment_eq_loose]
  push Not
  constructor
  · rintro ⟨cls, hcls, hreceiver⟩
    obtain ⟨node, hnode, hwrapper⟩ := exists_mem_of_mapM h cls (mem_wrapperClasses.2 hcls)
    refine ⟨node, hnode, cls, (methods_of_wrapper? hwrapper).1, ?_⟩
    by_cases hmethod : s.types.methodName cls f.name ∈ s.overrides.methodsOf cls
    · exact .inr ⟨hreceiver, hmethod⟩
    · rw [generatedFunctions_eq hcls, List.mem_filter]
      exact .inl ⟨hf, decide_eq_true (attachment_eq_method.2 ⟨hcls, hreceiver, hmethod⟩)⟩
  · rintro ⟨node, hnode, cls, hclass, hmade⟩
    refine ⟨cls, (wrapper?_of_mem_wrappers h node hnode cls hclass).1, ?_⟩
    rcases hmade with hmade | ⟨hreceiver, -⟩
    · exact eq_of_beq (List.mem_filter.1 (List.mem_filter.1 hmade).1).2
    · exact hreceiver

/-- Functions of a class that are named by convention have different methods. -/
theorem pairwise_not_sharesMethod (hnames : (s.declarations.functions.map (·.name)).Nodup)
    {lead : Text} (hlead : s.types.methodLeads[cls]? = some lead)
    (h : ∀ f ∈ s.generatedFunctions cls, ∃ c rest, f.name = lead ++ c :: rest ∧ c.isUpper = true) :
    (s.generatedFunctions cls).Pairwise fun f g ↦ ¬s.types.SharesMethod cls f.name g.name := by
  have hdistinct := List.pairwise_map.1 (nodup_names_generated hnames cls)
  refine hdistinct.imp_of_mem fun {f g} hf hg hne hshared ↦ hne ?_
  obtain ⟨c, rest, hname, hc⟩ := h f hf
  obtain ⟨d, rest', hname', hd⟩ := h g hg
  rw [hname, hname'] at hshared ⊢
  exact TypeTable.eq_of_sharesMethod hlead hc hd hshared

/-- **When every method of a class can be called.**  The methods of a class have different names
exactly if no two of the functions that they are made for share one, as no two do that are named by
convention.  A function can be called exactly if no later one of the class shares its method.  A
function that is counted as wrapped is one of these, or its method is written by hand. -/
theorem methods_reached (hnames : (s.declarations.functions.map (·.name)).Nodup)
    (h : s.wrappers? = some wrappers) :
    (∀ node ∈ wrappers, ∀ cls ∈ node.wrapperClass?,
      ((node.methods.map (·.name)).Nodup ↔ (s.generatedFunctions cls).Pairwise
        fun f g ↦ ¬s.types.SharesMethod cls f.name g.name) ∧
      ((∃ lead, s.types.methodLeads[cls]? = some lead ∧ ∀ f ∈ s.generatedFunctions cls,
          ∃ c rest, f.name = lead ++ c :: rest ∧ c.isUpper = true) →
        (node.methods.map (·.name)).Nodup) ∧
      ∀ before f after, s.generatedFunctions cls = before ++ f :: after →
        ((∃ method, node.target? method = some f.name) ↔
          ∀ g ∈ after, ¬s.types.SharesMethod cls f.name g.name)) ∧
    ∀ f ∈ s.declarations.functions, f.name ∈ s.wrappedNames ↔
      ∃ node ∈ wrappers, ∃ cls ∈ node.wrapperClass?, f ∈ s.generatedFunctions cls ∨
        s.receiver? f = some cls ∧ s.types.methodName cls f.name ∈ s.overrides.methodsOf cls := by
  refine ⟨fun node hnode cls hcls ↦ ?_, fun f hf ↦ mem_wrappedNames_iff_exists hnames h hf⟩
  have hmethods := (methods_of_wrapper? (wrapper?_of_mem_wrappers h node hnode cls hcls).2).2
  have hpairs : (node.methods.map (·.name)).Nodup ↔ (s.generatedFunctions cls).Pairwise
      fun f g ↦ ¬s.types.SharesMethod cls f.name g.name := by
    have hmade : node.methods.map (·.name) =
        (s.generatedFunctions cls).map fun f ↦ s.types.methodName cls f.name := by
      simpa only [List.map_map, Function.comp_def] using congrArg (List.map Prod.fst) hmethods
    rw [hmade, List.Nodup, List.pairwise_map]
    exact List.Pairwise.iff fun f g ↦ not_congr TypeTable.methodName_eq_iff
  refine ⟨hpairs, ?_, fun before f after hsplit ↦ ?_⟩
  · rintro ⟨lead, hlead, hconvention⟩
    exact hpairs.2 (pairwise_not_sharesMethod hnames hlead hconvention)
  · exact exists_target?_iff (hsplit ▸ hmethods) (hsplit ▸ nodup_names_generated hnames cls)

/-- A library in which the class and the library have a function each that opens a context. -/
def openLibrary : Sources :=
  let conventions : Conventions := { wrapperClasses := ["Context"] }
  let declarations := (Declarations.ofHeaders conventions [] [("a.h",
    "XN_C_API int xnContextOpen(XnContext* c);\nXN_C_API int xnOpen(XnContext* c);\n" ++
    "XN_C_API int xnContextClose(XnContext* c);\n")]).1
  let types := (∅ : Table).insert "XnContext*" "Context"
  { conventions, declarations, types := .build conventions types declarations, overrides := ∅ }

/-- What is read for the library and made of it. -/
theorem wrappers_openLibrary : (openLibrary.declarations.functions.map (·.name)).Nodup ∧
    openLibrary.types.methodName "Context" "xnContextOpen" =
      openLibrary.types.methodName "Context" "xnOpen" ∧
    (openLibrary.generatedFunctions "Context").map (·.name) =
      ([("xnContextOpen" : Text), ("xnOpen" : Text), ("xnContextClose" : Text)] : List Text) ∧
    (∀ name ∈ ([("xnContextOpen" : Text), ("xnOpen" : Text)] : List Text),
      name ∈ openLibrary.wrappedNames) ∧
    ∃ wrappers ∈ openLibrary.wrappers?, ∃ node ∈ wrappers,
      node.wrapperClass? = some ("Context" : Text) ∧
        node.methods.map (fun m ↦ (m.name, m.target)) =
          ([("open", "xnContextOpen"), ("open", "xnOpen"), ("close", "xnContextClose")] :
            List (Text × Text)) := by
  decide +kernel

theorem methods_reached_openLibrary : ∃ wrappers ∈ openLibrary.wrappers?, ∃ node ∈ wrappers,
    node.wrapperClass? = some ("Context" : Text) ∧
      openLibrary.types.SharesMethod "Context" "xnContextOpen" "xnOpen" ∧
      (¬∃ method, node.target? method = some ("xnContextOpen" : Text)) ∧
      ("xnContextOpen" : Text) ∈ openLibrary.wrappedNames := by
  obtain ⟨hnames, hmethod, hgenerated, -, wrappers, hwrappers, node, hnode, hclass, -⟩ :=
    wrappers_openLibrary
  obtain ⟨hclasses, hwrapped⟩ := methods_reached hnames hwrappers
  have hshared := TypeTable.methodName_eq_iff.1 hmethod
  obtain ⟨f, after, hsplit, hf, hafter⟩ := List.map_eq_cons_iff.1 hgenerated
  obtain ⟨g, later, hlater, hg, -⟩ := List.map_eq_cons_iff.1 hafter
  have hfirst : f ∈ openLibrary.generatedFunctions "Context" := hsplit ▸ List.mem_cons_self
  refine ⟨wrappers, hwrappers, node, hnode, hclass, hshared, fun hreached ↦ ?_, ?_⟩
  · rw [← hf] at hreached
    refine ((hclasses node hnode _ hclass).2.2 [] f _ hsplit).1 hreached g ?_ ?_
    · exact hlater ▸ List.mem_cons_self
    · rwa [hf, hg]
  · have hdeclared := (List.mem_filter.1 (List.mem_filter.1 hfirst).1).1
    exact hf ▸ (hwrapped f hdeclared).2 ⟨node, hnode, _, hclass, .inl hfirst⟩

/-- **Functions of different names can share a method**, and then the first of them is counted as
wrapped but called by no method of its class. -/
theorem methods_openLibrary : (openLibrary.declarations.functions.map (·.name)).Nodup ∧
    (∀ name ∈ ([("xnContextOpen" : Text), ("xnOpen" : Text)] : List Text),
      name ∈ openLibrary.wrappedNames) ∧
    ∃ wrappers ∈ openLibrary.wrappers?, ∃ node ∈ wrappers,
      node.wrapperClass? = some ("Context" : Text) ∧
        node.methods.map (fun m ↦ (m.name, m.target)) =
          ([("open", "xnContextOpen"), ("open", "xnOpen"), ("close", "xnContextClose")] :
            List (Text × Text)) ∧
        ¬(node.methods.map (·.name)).Nodup ∧
        ¬∃ method, node.target? method = some ("xnContextOpen" : Text) := by
  obtain ⟨hnames, -, -, hwrapped, wrappers, hwrappers, node, hnode, hclass, hmethods⟩ :=
    wrappers_openLibrary
  have hmade : node.methods.map (·.name) = ([("open" : Text), ("open" : Text),
      ("close" : Text)] : List Text) := by
    have hpairs := congrArg (List.map Prod.fst) hmethods
    rwa [List.map_map] at hpairs
  refine ⟨hnames, hwrapped, wrappers, hwrappers, node, hnode, hclass, hmethods, ?_, ?_⟩
  · rw [hmade]
    decide
  · rintro ⟨method, hmethod⟩
    rw [Node.target?, hmethods] at hmethod
    have hmem := mem_of_lastDefinition? hmethod
    obtain rfl : method = "open" := by simpa using hmem
    exact absurd hmethod (by decide)

end Sources

end HeaderBindings
