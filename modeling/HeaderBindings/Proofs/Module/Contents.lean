import Mathlib.Data.List.Forall2
import HeaderBindings.Declarations.Collect
import HeaderBindings.Module.Assemble
import HeaderBindings.Proofs.Types.Missing

/-!
# What a module consists of

Two parts of a module are made for the functions: a binding for each function, and the methods of
the wrapper classes.  The rest of a module has neither bindings nor methods, whatever the prologue
is like.

* `enums_cases`, `structNode?_eq_some_iff`, `callbacks_cases` and the like: what the nodes of each
  section are.
* `bindingTypes_module`: the bindings are those of the functions, in order.
* `exists_method_of_mem_module`: a method is the one of some class for one of the functions.
* `exists_module`: there is a module if linking the documentation of every method ends, which it
  does not for `strayLibrary`.

**Substitutes.**  For a type without a descriptor both parts have a substitute, `anyPointer`.
`noSubstitutes_module` says that it is not asked for if the table of types covers the functions.
-/

set_option autoImplicit false

namespace HeaderBindings

/-! ## Bindings and methods -/

/-- The descriptors in a binding: of the result, then of the parameters. -/
def Node.bindingTypes? : Node → Option (List Text)
  | .binding _ _ _ _ types => some types
  | _ => none

/-- The methods in a wrapper class. -/
def Node.methods : Node → List Method
  | .wrapper _ _ _ _ methods => methods
  | _ => []

/-- There are neither bindings nor methods among the nodes. -/
def Node.Silent (nodes : List Node) : Prop :=
  ∀ node ∈ nodes, node.bindingTypes? = none ∧ node.methods = []

namespace Node.Silent

variable {nodes nodes' : List Node}

theorem nil : Silent [] := fun _ h ↦ absurd h List.not_mem_nil

theorem cons {node : Node} (hbinding : node.bindingTypes? = none) (hmethods : node.methods = [])
    (h : Silent nodes) : Silent (node :: nodes) := by
  intro node' hnode'
  rcases List.mem_cons.1 hnode' with rfl | hnode'
  · exact ⟨hbinding, hmethods⟩
  · exact h node' hnode'

theorem append (h : Silent nodes) (h' : Silent nodes') : Silent (nodes ++ nodes') := by
  intro node hnode
  exact (List.mem_append.1 hnode).elim (h node) (h' node)

theorem filterMap_bindingTypes (h : Silent nodes) : nodes.filterMap Node.bindingTypes? = [] :=
  List.filterMap_eq_nil_iff.2 fun node hnode ↦ (h node hnode).1

end Node.Silent

/-! ## Lists of attempts -/

/-- What is found has in common with what was tried, in order, whatever each attempt keeps. -/
theorem map_of_mapM {α β γ : Type} {f : α → Option β} {g : β → γ} {g' : α → γ} {l : List α} :
    ∀ {found : List β}, (∀ a ∈ l, ∀ b, f a = some b → g b = g' a) → l.mapM f = some found →
      found.map g = l.map g' := by
  induction l with
  | nil =>
    intro found _ h
    obtain rfl := Option.some_inj.1 h
    rfl
  | cons a l ih =>
    intro found hkept h
    rw [List.mapM_cons] at h
    obtain ⟨first, hfirst, h⟩ := Option.bind_eq_some_iff.1 h
    obtain ⟨rest, hrest, h⟩ := Option.bind_eq_some_iff.1 h
    obtain rfl := Option.some_inj.1 h
    rw [List.map_cons, List.map_cons, hkept a List.mem_cons_self first hfirst,
      ih (fun a' ha' ↦ hkept a' (List.mem_cons_of_mem _ ha')) hrest]

/-- A list of attempts finds what they find, in order. -/
theorem map_some_of_mapM {α β : Type} {f : α → Option β} {l : List α} {found : List β}
    (h : l.mapM f = some found) : found.map some = l.map f :=
  map_of_mapM (fun _ _ _ hb ↦ hb.symm) h

/-- What a list of attempts finds, each of them has found in its place. -/
theorem forall₂_of_mapM {α β : Type} {f : α → Option β} {l : List α} {found : List β}
    (h : l.mapM f = some found) : List.Forall₂ (fun a b ↦ f a = some b) l found := by
  rw [← List.forall₂_map_left_iff (R := fun a b ↦ a = some b), ← map_some_of_mapM h,
    List.forall₂_map_left_iff, List.forall₂_same]
  exact fun _ _ ↦ rfl

/-- What a list of attempts has found, some attempt has. -/
theorem exists_of_mem_mapM {α β : Type} {f : α → Option β} {l : List α} {found : List β}
    (h : l.mapM f = some found) : ∀ b ∈ found, ∃ a ∈ l, f a = some b := by
  intro b hb
  have hsome : some b ∈ l.map f := map_some_of_mapM h ▸ List.mem_map_of_mem hb
  exact List.mem_map.1 hsome

/-- What an attempt finds is among what the list of attempts has found. -/
theorem exists_mem_of_mapM {α β : Type} {f : α → Option β} {l : List α} {found : List β}
    (h : l.mapM f = some found) : ∀ a ∈ l, ∃ b ∈ found, f a = some b := by
  intro a ha
  have hsome : f a ∈ found.map some := map_some_of_mapM h ▸ List.mem_map_of_mem ha
  obtain ⟨b, hb, hfound⟩ := List.mem_map.1 hsome
  exact ⟨b, hb, hfound.symm⟩

/-- Every attempt that has to be made finds something. -/
theorem exists_mapM {α β : Type} {f : α → Option β} {l : List α} (h : ∀ a ∈ l, ∃ b, f a = some b) :
    ∃ found, l.mapM f = some found := by
  induction l with
  | nil => exact ⟨[], rfl⟩
  | cons a l ih =>
    obtain ⟨b, hb⟩ := h a List.mem_cons_self
    obtain ⟨found, hfound⟩ := ih fun a' ha' ↦ h a' (List.mem_cons_of_mem _ ha')
    exact ⟨b :: found, by rw [List.mapM_cons, hb, hfound]; rfl⟩

open Node (Silent)

namespace Sources

/-! ## The nodes of each section -/

section

variable {s : Sources} {node : Node}

theorem eq_constants_of_mem (h : node ∈ s.constantGroups) :
    ∃ name lead values, node = .constants name lead values := by
  obtain ⟨group, -, hgroup⟩ := List.mem_filterMap.1 h
  simp only at hgroup
  split at hgroup
  · exact absurd hgroup (by simp)
  · exact ⟨_, _, _, (Option.some_inj.1 hgroup).symm⟩

theorem enums_cases (h : node ∈ s.enums) :
    node = .verbatim enumBase ∨ ∃ e ∈ s.declarations.enums,
      node = .enum (s.types.classOf e.name) (docOrNotAvailable e.doc)
        (e.members.map fun m ↦ (m.name, m.value)) := by
  rw [enums] at h
  split at h
  · exact absurd h List.not_mem_nil
  · refine (List.mem_cons.1 h).imp_right fun h ↦ ?_
    obtain ⟨e, he, rfl⟩ := List.mem_map.1 h
    exact ⟨e, he, rfl⟩

/-- A struct has a class of its own exactly if that is not written by hand. -/
theorem structNode?_eq_some_iff {t : Struct} : s.structNode? t = some node ↔
    s.types.classOf t.name ∉ s.overrides ∧
      node = .struct (s.types.classOf t.name) (docOrNotAvailable t.doc)
        (t.fields.map fun f ↦ (f.name, s.types.descriptor f.type)) := by
  by_cases hcls : s.types.classOf t.name ∈ s.overrides
  · have hnone : s.structNode? t = none := if_pos hcls
    simp [hnone, hcls]
  · have hsome : s.structNode? t = some _ := if_neg hcls
    rw [hsome, Option.some_inj, eq_comm]
    exact (and_iff_right hcls).symm

/-- So has a handle, unless it is a wrapper class. -/
theorem handleNode?_eq_some_iff {native : Text} : s.handleNode? native = some node ↔
    (s.types.classOf native ∉ s.overrides ∧ s.types.classOf native ∉ s.types.wrapperClasses) ∧
      node = .handle (s.types.classOf native) "Private object." := by
  by_cases hcls : s.types.classOf native ∈ s.overrides ∨
      s.types.classOf native ∈ s.types.wrapperClasses
  · have hnone : s.handleNode? native = none :=
      if_pos (by simpa [List.contains_iff_mem] using hcls)
    rw [hnone]
    exact iff_of_false (by simp) fun h ↦ hcls.elim h.1.1 h.1.2
  · have hsome : s.handleNode? native = some _ :=
      if_neg (by simpa [List.contains_iff_mem] using hcls)
    rw [hsome, Option.some_inj, eq_comm]
    exact (and_iff_right (not_or.1 hcls)).symm

theorem bindings_cases (h : node ∈ s.bindings) :
    (∃ lines, node = .comment lines) ∨ ∃ f ∈ s.declarations.functions, node = s.binding f := by
  refine (List.mem_cons.1 h).imp (fun h ↦ ⟨_, h⟩) fun h ↦ ?_
  obtain ⟨f, hf, rfl⟩ := List.mem_map.1 h
  exact ⟨f, hf, rfl⟩

theorem callbacks_cases (h : node ∈ s.callbacks) :
    (∃ f ∈ s.declarations.callbacks, node = .handle (s.types.classOf f.name) (callbackDoc f)) ∨
      ∃ types, node = .callbacks types := by
  simp only [callbacks] at h
  split at h
  · exact absurd h List.not_mem_nil
  · refine (List.mem_append.1 h).imp (fun h ↦ ?_) fun h ↦ ⟨_, List.mem_singleton.1 h⟩
    obtain ⟨f, hf, rfl⟩ := List.mem_map.1 h
    exact ⟨f, hf, rfl⟩

theorem eq_comment_of_mem_report {what : Text} {names : List Text}
    (h : node ∈ functionReport what names) : ∃ lines, node = .comment lines := by
  rw [functionReport] at h
  split at h
  · exact absurd h List.not_mem_nil
  · exact ⟨_, List.mem_singleton.1 h⟩

theorem eq_comment_of_mem_unwrapped {wrapped : List Text} (h : node ∈ s.unwrapped wrapped) :
    ∃ lines, node = .comment lines :=
  (List.mem_append.1 h).elim eq_comment_of_mem_report eq_comment_of_mem_report

theorem eq_verbatim_of_mem_epilogue {epilogue : Option Text}
    (h : node ∈ (epilogue.map Node.verbatim).toList) : ∃ t, node = .verbatim t := by
  obtain ⟨t, -, rfl⟩ := Option.map_eq_some_iff.1 (Option.mem_toList.1 h)
  exact ⟨t, rfl⟩

end

variable (s : Sources)

/-! ## The silent sections -/

theorem silent_constantGroups : Silent s.constantGroups := by
  intro node hnode
  obtain ⟨name, lead, values, rfl⟩ := eq_constants_of_mem hnode
  exact ⟨rfl, rfl⟩

theorem silent_enums : Silent s.enums := by
  intro node hnode
  rcases enums_cases hnode with rfl | ⟨e, -, rfl⟩
  · exact ⟨rfl, rfl⟩
  · exact ⟨rfl, rfl⟩

theorem silent_structs : Silent s.structs := by
  refine .append (fun node hnode ↦ ?_) fun node hnode ↦ ?_
  · obtain ⟨t, -, ht⟩ := List.mem_filterMap.1 hnode
    obtain ⟨-, rfl⟩ := structNode?_eq_some_iff.1 ht
    exact ⟨rfl, rfl⟩
  · obtain ⟨native, -, hnative⟩ := List.mem_filterMap.1 hnode
    obtain ⟨-, rfl⟩ := handleNode?_eq_some_iff.1 hnative
    exact ⟨rfl, rfl⟩

theorem silent_constantsAndEnums : Silent s.constantsAndEnums :=
  s.silent_constantGroups.append s.silent_enums

theorem silent_versionLines : Silent s.versionLines := .cons rfl rfl .nil

theorem silent_unplaced (placed : Placed) : Silent (s.unplaced placed) := by
  refine .append (.append ?_ ?_) ?_
  · split
    · exact .nil
    · exact s.silent_versionLines
  · split
    · exact .nil
    · exact s.silent_constantsAndEnums
  · split
    · exact .nil
    · exact s.silent_structs

theorem silent_copied (chunk : List Text) : Silent (copied chunk) := by
  rw [copied]
  split
  · exact .nil
  · exact .cons rfl rfl .nil

/-- A prologue brings in what is copied from it and the sections before the wrapper classes. -/
theorem silent_expandLines (lines : List Text) : ∀ (placed : Placed) (chunk : List Text),
    Silent (s.expandLines placed chunk lines) := by
  induction lines with
  | nil => exact fun placed chunk ↦ (silent_copied chunk).append (s.silent_unplaced placed)
  | cons line lines ih =>
    intro placed chunk
    rw [expandLines.eq_def]
    simp only
    split
    · exact ((silent_copied chunk).append s.silent_versionLines).append (ih _ _)
    · exact ((silent_copied chunk).append s.silent_constantsAndEnums).append (ih _ _)
    · refine (((silent_copied chunk).append ?_).append s.silent_structs).append (ih _ _)
      split
      · exact .nil
      · exact s.silent_constantsAndEnums
    · exact ih _ _

theorem silent_opening (prologue : Option Text) : Silent (s.opening prologue) := by
  cases prologue with
  | none => exact .cons rfl rfl (s.silent_unplaced {})
  | some prologue => exact s.silent_expandLines _ _ _

theorem silent_callbacks : Silent s.callbacks := by
  intro node hnode
  rcases callbacks_cases hnode with ⟨f, -, rfl⟩ | ⟨types, rfl⟩
  · exact ⟨rfl, rfl⟩
  · exact ⟨rfl, rfl⟩

theorem silent_unwrapped (wrapped : List Text) : Silent (s.unwrapped wrapped) := by
  intro node hnode
  obtain ⟨lines, rfl⟩ := eq_comment_of_mem_unwrapped hnode
  exact ⟨rfl, rfl⟩

/-! ## Wrapper classes -/

/-- The method of a class for a function, made with the given descriptors of its parameters. -/
def methodWith? (cls : Text) (f : Prototype) (used : List Text) : Option Method :=
  (s.types.linkMethods cls (f.docstring 1 8)).map fun linked ↦
    { name := s.types.methodName cls f.name
      arguments := "self" :: f.arguments 1
      doc := (if linked.isEmpty then linked else linked ++ "\n        ") ++ "Parameter types: " ++
        Text.joinWith ", " used
      target := f.name
      wrapper :=
        match used.filterMap referencedClass? with
        | [only] => some only
        | _ => none }

/-- Nothing else about the types of a function's parameters goes into its method. -/
theorem method?_eq (cls : Text) (f : Prototype) :
    s.method? cls f = s.methodWith? cls f (f.params.map fun p ↦ s.types.descriptor p.type) := by
  rw [method?, methodDoc?, methodWith?, Option.map_map, List.filterMap_map]
  rfl

variable {s}

theorem mem_wrapperClasses {cls : Text} :
    cls ∈ s.wrapperClasses ↔ cls ∈ s.types.wrapperClasses := by
  rw [wrapperClasses, Std.TreeSet.mem_toList, Std.TreeSet.mem_ofList, List.contains_iff_mem]

/-- A wrapper class has the code that is written by hand for it. -/
theorem eq_wrapper_of_wrapper? {cls : Text} {node : Node} (h : s.wrapper? cls = some node) :
    ∃ methods, (s.generatedFunctions cls).mapM (s.method? cls) = some methods ∧
      node = .wrapper cls (docOrNotAvailable (s.overrides.docFor cls).trim)
        (!s.overrides.definesMethod cls "__new__")
        (withoutBlankEnds (s.overrides.codeFor cls)) methods := by
  obtain ⟨methods, hmethods, rfl⟩ := Option.map_eq_some_iff.1 h
  exact ⟨methods, hmethods, rfl⟩

theorem exists_method_of_mem_wrappers {wrappers : List Node} (h : s.wrappers? = some wrappers) :
    ∀ node ∈ wrappers, node.bindingTypes? = none ∧ ∀ method ∈ node.methods,
      ∃ cls ∈ s.wrapperClasses, ∃ f ∈ s.generatedFunctions cls, s.method? cls f = some method := by
  intro node hnode
  obtain ⟨cls, hcls, hwrapper⟩ := exists_of_mem_mapM h node hnode
  obtain ⟨methods, hmethods, rfl⟩ := Option.map_eq_some_iff.1 hwrapper
  refine ⟨rfl, fun method hmethod ↦ ⟨cls, hcls, ?_⟩⟩
  exact exists_of_mem_mapM hmethods method hmethod

/-! ## The whole module -/

variable {prologue epilogue : Option Text} {nodes : List Node}

/-- The nodes of a module are those of its sections. -/
theorem mem_module (h : s.module? prologue epilogue = some nodes) :
    ∃ wrappers, s.wrappers? = some wrappers ∧ ∀ node, node ∈ nodes ↔
      node ∈ s.opening prologue ∨ node ∈ wrappers ∨ node ∈ s.bindings ∨ node ∈ s.callbacks ∨
        node ∈ s.unwrapped s.wrappedNames ∨ node ∈ (epilogue.map Node.verbatim).toList := by
  obtain ⟨wrappers, hwrappers, rfl⟩ := Option.map_eq_some_iff.1 h
  refine ⟨wrappers, hwrappers, fun node ↦ ?_⟩
  simp only [List.mem_append, or_assoc]

theorem silent_epilogue (epilogue : Option Text) :
    Silent (epilogue.map Node.verbatim).toList := by
  intro node hnode
  obtain ⟨t, rfl⟩ := eq_verbatim_of_mem_epilogue hnode
  exact ⟨rfl, rfl⟩

/-- **The bindings of a module** are those of the functions, in order. -/
theorem bindingTypes_module (h : s.module? prologue epilogue = some nodes) :
    nodes.filterMap Node.bindingTypes? = s.declarations.functions.map s.descriptors := by
  obtain ⟨wrappers, hwrappers, rfl⟩ := Option.map_eq_some_iff.1 h
  have hbindings : s.bindings.filterMap Node.bindingTypes? =
      s.declarations.functions.map s.descriptors := by
    rw [bindings, List.filterMap_cons, List.filterMap_map]
    show s.declarations.functions.filterMap (some ∘ s.descriptors) = _
    rw [List.filterMap_eq_map]
  have hclasses : wrappers.filterMap Node.bindingTypes? = [] :=
    List.filterMap_eq_nil_iff.2 fun node hnode ↦
      (exists_method_of_mem_wrappers hwrappers node hnode).1
  simp only [List.filterMap_append, (s.silent_opening prologue).filterMap_bindingTypes, hclasses,
    hbindings, s.silent_callbacks.filterMap_bindingTypes,
    (s.silent_unwrapped _).filterMap_bindingTypes,
    (silent_epilogue epilogue).filterMap_bindingTypes, List.nil_append, List.append_nil]

/-- **The methods of a module** are methods of wrapper classes for functions. -/
theorem exists_method_of_mem_module (h : s.module? prologue epilogue = some nodes) :
    ∀ node ∈ nodes, ∀ method ∈ node.methods, ∃ cls ∈ s.wrapperClasses,
      ∃ f ∈ s.generatedFunctions cls, s.method? cls f = some method := by
  obtain ⟨wrappers, hwrappers, hmem⟩ := mem_module h
  have hbindings : ∀ node ∈ s.bindings, node.methods = [] := by
    intro node hnode
    rcases bindings_cases hnode with ⟨lines, rfl⟩ | ⟨f, -, rfl⟩
    · rfl
    · rfl
  have hsilent {methods : List Method} (h : methods = []) :
      ∀ method ∈ methods, ∃ cls ∈ s.wrapperClasses,
        ∃ f ∈ s.generatedFunctions cls, s.method? cls f = some method :=
    fun method hmethod ↦ absurd (h ▸ hmethod) List.not_mem_nil
  intro node hnode
  rcases (hmem node).1 hnode with hnode | hnode | hnode | hnode | hnode | hnode
  · exact hsilent (s.silent_opening prologue node hnode).2
  · exact (exists_method_of_mem_wrappers hwrappers node hnode).2
  · exact hsilent (hbindings node hnode)
  · exact hsilent (s.silent_callbacks node hnode).2
  · exact hsilent (s.silent_unwrapped _ node hnode).2
  · exact hsilent (silent_epilogue epilogue node hnode).2

/-! ## When there is a module -/

/-- Linking the documentation of every method ends. -/
def LinksEnd (s : Sources) : Prop :=
  ∀ cls ∈ s.wrapperClasses, ∀ f ∈ s.generatedFunctions cls,
    (s.types.linkMethods cls (f.docstring 1 8)).isSome

instance (s : Sources) : Decidable s.LinksEnd :=
  inferInstanceAs (Decidable (∀ cls ∈ s.wrapperClasses, ∀ f ∈ s.generatedFunctions cls,
    (s.types.linkMethods cls (f.docstring 1 8)).isSome))

/-- The wrapper classes can be made exactly if linking ends. -/
theorem linksEnd_iff : s.LinksEnd ↔ ∃ wrappers, s.wrappers? = some wrappers := by
  have hmethod (cls : Text) (f : Prototype) :
      (∃ method, s.method? cls f = some method) ↔
        (s.types.linkMethods cls (f.docstring 1 8)).isSome := by
    rw [method?_eq, methodWith?, ← Option.isSome_iff_exists, Option.isSome_map]
  constructor
  · intro h
    refine exists_mapM fun cls hcls ↦ ?_
    obtain ⟨methods, hmethods⟩ := exists_mapM fun f hf ↦ (hmethod cls f).2 (h cls hcls f hf)
    rw [wrapper?, hmethods]
    exact ⟨_, rfl⟩
  · rintro ⟨wrappers, hwrappers⟩ cls hcls f hf
    obtain ⟨node, -, hnode⟩ := exists_mem_of_mapM hwrappers cls hcls
    obtain ⟨methods, hmethods, -⟩ := eq_wrapper_of_wrapper? hnode
    obtain ⟨method, -, hmade⟩ := exists_mem_of_mapM hmethods f hf
    exact (hmethod cls f).1 ⟨method, hmade⟩

/-- A module can be made exactly if linking ends. -/
theorem linksEnd_iff_module (prologue epilogue : Option Text) :
    s.LinksEnd ↔ ∃ nodes, s.module? prologue epilogue = some nodes := by
  rw [linksEnd_iff, module?]
  cases s.wrappers? with
  | none => simp
  | some wrappers => simp

/-- **There is a module if linking ends.** -/
theorem exists_module (h : s.LinksEnd) (prologue epilogue : Option Text) :
    ∃ nodes, s.module? prologue epilogue = some nodes :=
  (linksEnd_iff_module prologue epilogue).1 h

/-- A library in which linking does not end: a character that begins no name has got in front of a
type, and the documentation of a function mentions the type behind one. -/
def strayLibrary : Sources :=
  let conventions : Conventions := { wrapperClasses := ["Context"] }
  let declarations := (Declarations.ofHeaders conventions [] [("a.h",
    "/**\n * See ~XnContext.\n */\nXN_C_API int xnOpen(XnContext* c);\n")]).1
  let types := ((∅ : Table).insert "XnContext*" "Context").insert "~XnContext*" "Context"
  { conventions, declarations, types := .build conventions types declarations, overrides := ∅ }

theorem not_linksEnd_strayLibrary : ¬strayLibrary.LinksEnd := by decide +kernel

end Sources

/-! ## No substitutes -/

/-- Where types have descriptors, no substitute is asked for. -/
theorem TypeTable.map_descriptor {table : TypeTable} {types : List Text}
    (h : ∀ t ∈ types, ∃ e, table.resolve? t = some e) :
    (types.map table.descriptor).map some = types.map table.resolve? := by
  rw [List.map_map]
  refine List.map_congr_left fun t ht ↦ ?_
  obtain ⟨e, he⟩ := h t ht
  rw [Function.comp, descriptor, he, Option.getD_some]

/-- The nodes of a module in which no binding and no method is made with a substitute. -/
structure Sources.NoSubstitutes (s : Sources) (nodes : List Node) : Prop where
  /-- The bindings are made with the descriptors of all functions, in order. -/
  bindings : (nodes.filterMap Node.bindingTypes?).map (fun types ↦ types.map some) =
    s.declarations.functions.map fun f ↦ f.types.map s.types.resolve?
  /-- A method is made with the descriptors of a function's parameters. -/
  methods : ∀ node ∈ nodes, ∀ method ∈ node.methods, ∃ cls, ∃ f ∈ s.declarations.functions,
    ∃ used, used.map some = (f.params.map (·.type)).map s.types.resolve? ∧
      s.methodWith? cls f used = some method

/-- **A table that covers the functions needs no substitutes.** -/
theorem Sources.noSubstitutes_module {s : Sources} (hcovers : s.types.Covers s.declarations)
    {prologue epilogue : Option Text} {nodes : List Node}
    (h : s.module? prologue epilogue = some nodes) : s.NoSubstitutes nodes := by
  refine ⟨?_, fun node hnode method hmethod ↦ ?_⟩
  · rw [bindingTypes_module h, List.map_map]
    exact List.map_congr_left fun f hf ↦ TypeTable.map_descriptor (hcovers f hf)
  · obtain ⟨cls, -, f, hf, hmade⟩ := exists_method_of_mem_module h node hnode method hmethod
    have hfunction : f ∈ s.declarations.functions :=
      (List.mem_filter.1 (List.mem_filter.1 hf).1).1
    have hparams : ∀ t ∈ f.params.map (·.type), ∃ e, s.types.resolve? t = some e :=
      fun t ht ↦ hcovers f hfunction t (List.mem_cons_of_mem _ ht)
    refine ⟨cls, f, hfunction, _, TypeTable.map_descriptor hparams, ?_⟩
    rw [← hmade, method?_eq, List.map_map]
    rfl

end HeaderBindings
