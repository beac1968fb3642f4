import HeaderBindings.Proofs.Module.Contents
import HeaderBindings.Proofs.Module.Prologue

/-!
# The classes of structs and handles

A class may be written by hand.  Then no class is made for a struct or a handle of that name, and
the code that is written by hand goes into a wrapper class.  But only the classes that functions
become methods of are wrapper classes, whatever is written by hand.

`declares_mem_module` says where the class of each struct and handle is declared.  It is lost if it
is written by hand and is no wrapper class, as `point_lost` shows.
-/

set_option autoImplicit false

namespace HeaderBindings

/-- The node declares a class of a struct or handle, or a wrapper class with what is written by hand
for it. -/
def Node.Declares (o : Overrides) (cls : Text) : Node → Prop
  | .struct name _ _ => name = cls
  | .handle name _ => name = cls
  | .wrapper name doc _ body _ => name = cls ∧ doc = docOrNotAvailable (o.docFor cls).trim ∧
      body = Sources.withoutBlankEnds (o.codeFor cls)
  | _ => False

namespace Sources

variable {s : Sources} {prologue epilogue : Option Text} {nodes : List Node} {cls : Text}

/-- Of the sections before the wrapper classes, only the one for structs declares such classes. -/
theorem mem_structs_of_declares {node : Node} (hnode : node ∈ s.opening prologue)
    (hdeclares : node.Declares s.overrides cls) : node ∈ s.structs := by
  rcases mem_opening hnode with ⟨t, rfl⟩ | ⟨mark, hmark⟩
  · exact hdeclares.elim
  cases mark with
  | structs => exact hmark
  | version =>
    obtain rfl := List.mem_singleton.1 hmark
    exact hdeclares.elim
  | enums =>
    rcases List.mem_append.1 hmark with hmark | hmark
    · obtain ⟨name, lead, values, rfl⟩ := eq_constants_of_mem hmark
      exact hdeclares.elim
    · rcases enums_cases hmark with rfl | ⟨e, -, rfl⟩
      · exact hdeclares.elim
      · exact hdeclares.elim

/-- A class of a struct or handle is not written by hand. -/
theorem notMem_overrides_of_mem_structs {node : Node} (hnode : node ∈ s.structs)
    (hdeclares : node.Declares s.overrides cls) : cls ∉ s.overrides := by
  rcases List.mem_append.1 hnode with hnode | hnode
  · obtain ⟨t, -, ht⟩ := List.mem_filterMap.1 hnode
    obtain ⟨hcls, rfl⟩ := structNode?_eq_some_iff.1 ht
    obtain rfl : s.types.classOf t.name = cls := hdeclares
    exact hcls
  · obtain ⟨native, -, hnative⟩ := List.mem_filterMap.1 hnode
    obtain ⟨⟨hcls, -⟩, rfl⟩ := handleNode?_eq_some_iff.1 hnative
    obtain rfl : s.types.classOf native = cls := hdeclares
    exact hcls

/-- A class is declared by the section for structs, as a wrapper class or as that of a callback. -/
theorem declares_cases (h : s.module? prologue epilogue = some nodes) {node : Node}
    (hnode : node ∈ nodes) (hdeclares : node.Declares s.overrides cls) :
    cls ∉ s.overrides ∨ cls ∈ s.types.wrapperClasses ∨
      ∃ f ∈ s.declarations.callbacks, s.types.classOf f.name = cls := by
  obtain ⟨wrappers, hwrappers, hmem⟩ := mem_module h
  rcases (hmem node).1 hnode with hnode | hnode | hnode | hnode | hnode | hnode
  · exact .inl (notMem_overrides_of_mem_structs (mem_structs_of_declares hnode hdeclares) hdeclares)
  · obtain ⟨cls', hcls', hwrapper⟩ := exists_of_mem_mapM hwrappers node hnode
    obtain ⟨methods, -, rfl⟩ := eq_wrapper_of_wrapper? hwrapper
    obtain ⟨rfl, -⟩ := hdeclares
    exact .inr (.inl (mem_wrapperClasses.1 hcls'))
  · rcases bindings_cases hnode with ⟨lines, rfl⟩ | ⟨f, -, rfl⟩
    · exact hdeclares.elim
    · exact hdeclares.elim
  · rcases callbacks_cases hnode with ⟨f, hf, rfl⟩ | ⟨types, rfl⟩
    · exact .inr (.inr ⟨f, hf, hdeclares⟩)
    · exact hdeclares.elim
  · obtain ⟨lines, rfl⟩ := eq_comment_of_mem_unwrapped hnode
    exact hdeclares.elim
  · obtain ⟨t, rfl⟩ := eq_verbatim_of_mem_epilogue hnode
    exact hdeclares.elim

/-- A struct whose class is not written by hand has its class among the structs. -/
theorem struct_mem_structs {t : Struct} (ht : t ∈ s.declarations.structs)
    (hcls : s.types.classOf t.name ∉ s.overrides) :
    .struct (s.types.classOf t.name) (docOrNotAvailable t.doc)
      (t.fields.map fun f ↦ (f.name, s.types.descriptor f.type)) ∈ s.structs :=
  List.mem_append_left _ (List.mem_filterMap.2 ⟨t, ht, structNode?_eq_some_iff.2 ⟨hcls, rfl⟩⟩)

/-- So has a handle, unless its class is a wrapper class. -/
theorem handle_mem_structs {native : Text} (hnative : native ∈ s.declarations.handles)
    (hcls : s.types.classOf native ∉ s.overrides)
    (hwrapper : s.types.classOf native ∉ s.types.wrapperClasses) :
    .handle (s.types.classOf native) "Private object." ∈ s.structs :=
  List.mem_append_right _ (List.mem_filterMap.2
    ⟨native, hnative, handleNode?_eq_some_iff.2 ⟨⟨hcls, hwrapper⟩, rfl⟩⟩)

/-- A wrapper class is declared with what is written by hand for it. -/
theorem exists_wrapper_mem (h : s.module? prologue epilogue = some nodes)
    (hcls : cls ∈ s.types.wrapperClasses) : ∃ hasConstructor methods,
      .wrapper cls (docOrNotAvailable (s.overrides.docFor cls).trim) hasConstructor
        (withoutBlankEnds (s.overrides.codeFor cls)) methods ∈ nodes := by
  obtain ⟨wrappers, hwrappers, hmem⟩ := mem_module h
  obtain ⟨node, hnode, hwrapper⟩ := exists_mem_of_mapM hwrappers cls (mem_wrapperClasses.2 hcls)
  obtain ⟨methods, -, rfl⟩ := eq_wrapper_of_wrapper? hwrapper
  exact ⟨!s.overrides.definesMethod cls "__new__", methods, (hmem _).2 (.inr (.inl hnode))⟩

theorem callback_mem_module (h : s.module? prologue epilogue = some nodes) {f : Prototype}
    (hf : f ∈ s.declarations.callbacks) :
    .handle (s.types.classOf f.name) (callbackDoc f) ∈ nodes := by
  obtain ⟨wrappers, -, hmem⟩ := mem_module h
  have hcallback : .handle (s.types.classOf f.name) (callbackDoc f) ∈ s.callbacks := by
    simp only [callbacks]
    rw [if_neg (by simpa using List.ne_nil_of_mem hf)]
    exact List.mem_append_left _ (List.mem_map.2 ⟨f, hf, rfl⟩)
  exact (hmem _).2 (.inr (.inr (.inr (.inl hcallback))))

theorem mem_module_of_mem_structs (h : s.module? prologue epilogue = some nodes) {node : Node}
    (hnode : node ∈ s.structs) : node ∈ nodes := by
  obtain ⟨wrappers, -, hmem⟩ := mem_module h
  have hsection : node ∈ s.sectionOf .structs := hnode
  exact (hmem _).2 (.inl (mem_opening_of_mem_sectionOf hsection prologue))

/-- Where the classes of structs and handles are declared in a module. -/
structure DeclaresClasses (s : Sources) (nodes : List Node) : Prop where
  /-- A struct has its class, unless it is written by hand. -/
  struct : ∀ t ∈ s.declarations.structs, s.types.classOf t.name ∉ s.overrides →
    .struct (s.types.classOf t.name) (docOrNotAvailable t.doc)
      (t.fields.map fun f ↦ (f.name, s.types.descriptor f.type)) ∈ nodes
  /-- So has a handle, unless its class is a wrapper class. -/
  handle : ∀ native ∈ s.declarations.handles, s.types.classOf native ∉ s.overrides →
    s.types.classOf native ∉ s.types.wrapperClasses →
      .handle (s.types.classOf native) "Private object." ∈ nodes
  /-- A wrapper class is declared with what is written by hand for it. -/
  wrapper : ∀ cls ∈ s.types.wrapperClasses, ∃ hasConstructor methods,
    .wrapper cls (docOrNotAvailable (s.overrides.docFor cls).trim) hasConstructor
      (withoutBlankEnds (s.overrides.codeFor cls)) methods ∈ nodes
  /-- So a class is lost exactly if it is written by hand and is no wrapper class, unless a callback
  happens to have a class of that name. -/
  declares_iff : ∀ native ∈ s.declarations.structs.map (·.name) ++ s.declarations.handles,
    (∃ node ∈ nodes, node.Declares s.overrides (s.types.classOf native)) ↔
      s.types.classOf native ∉ s.overrides ∨ s.types.classOf native ∈ s.types.wrapperClasses ∨
        ∃ f ∈ s.declarations.callbacks, s.types.classOf f.name = s.types.classOf native

/-- **The classes of structs and handles in a module.**  There is a module exactly if linking the
documentation of the methods ends, and then the classes are declared in it. -/
theorem declares_mem_module (s : Sources) (prologue epilogue : Option Text) :
    (s.LinksEnd ↔ ∃ nodes, s.module? prologue epilogue = some nodes) ∧
      ∀ nodes, s.module? prologue epilogue = some nodes → s.DeclaresClasses nodes := by
  refine ⟨linksEnd_iff_module prologue epilogue, fun nodes h ↦ ?_⟩
  have hstruct : ∀ t ∈ s.declarations.structs, s.types.classOf t.name ∉ s.overrides → _ :=
    fun t ht hcls ↦ mem_module_of_mem_structs h (struct_mem_structs ht hcls)
  have hhandle : ∀ native ∈ s.declarations.handles, s.types.classOf native ∉ s.overrides →
      s.types.classOf native ∉ s.types.wrapperClasses → _ :=
    fun native hnative hcls hwrapper ↦
      mem_module_of_mem_structs h (handle_mem_structs hnative hcls hwrapper)
  refine ⟨hstruct, hhandle, fun cls ↦ exists_wrapper_mem h, fun native hnative ↦
    ⟨fun ⟨node, hnode, hdeclares⟩ ↦ declares_cases h hnode hdeclares, fun hcases ↦ ?_⟩⟩
  by_cases hwrapper : s.types.classOf native ∈ s.types.wrapperClasses
  · obtain ⟨hasConstructor, methods, hnode⟩ := exists_wrapper_mem h hwrapper
    exact ⟨_, hnode, rfl, rfl, rfl⟩
  · rcases hcases with hcls | hcls | ⟨f, hf, hcls⟩
    · rcases List.mem_append.1 hnative with hnative | hnative
      · obtain ⟨t, ht, rfl⟩ := List.mem_map.1 hnative
        exact ⟨_, hstruct t ht hcls, rfl⟩
      · exact ⟨_, hhandle native hnative hcls hwrapper, rfl⟩
    · exact absurd hcls hwrapper
    · exact ⟨_, callback_mem_module h hf, hcls⟩

/-- A library with one struct, whose class is written by hand but wraps no functions. -/
def pointLibrary (wrapperClasses : List Text) : Sources :=
  let conventions : Conventions := { wrapperClasses }
  let declarations :=
    (Declarations.ofHeaders conventions [] [("a.h", "struct XnPoint\n\x7b\nint x;\n\x7d;\n")]).1
  let overrides :=
    Overrides.ofSource "class Point(_Ctype):\n    def norm(self):\n        return 0\n"
  { conventions, declarations, types := .build conventions ∅ declarations, overrides }

theorem declares_mem_module_wrapperClass :
    ∃ nodes ∈ (pointLibrary ["Point"]).module? none none,
      ∃ node ∈ nodes, node.Declares (pointLibrary ["Point"]).overrides "Point" := by
  obtain ⟨nodes, hnodes⟩ : ∃ nodes, (pointLibrary ["Point"]).module? none none = some nodes :=
    Option.isSome_iff_exists.1 (by decide +kernel)
  have hclass : (pointLibrary ["Point"]).types.classOf "XnPoint" = "Point".toList := by
    decide +kernel
  have hnative : "XnPoint".toList ∈ (pointLibrary ["Point"]).declarations.structs.map (·.name) ++
      (pointLibrary ["Point"]).declarations.handles := by decide +kernel
  have hwrapper : "Point".toList ∈ (pointLibrary ["Point"]).types.wrapperClasses := by
    decide +kernel
  have hclasses := (declares_mem_module (pointLibrary ["Point"]) none none).2 nodes hnodes
  have hdeclares := (hclasses.declares_iff _ hnative).2
  rw [hclass] at hdeclares
  exact ⟨nodes, hnodes, hdeclares (.inr (.inl hwrapper))⟩

/-- If it is no wrapper class, then the class is declared nowhere. -/
theorem point_lost : ∃ nodes ∈ (pointLibrary []).module? none none,
    "XnPoint".toList ∈ (pointLibrary []).declarations.structs.map (·.name) ∧
      (pointLibrary []).types.classOf "XnPoint" = "Point".toList ∧
      ∀ node ∈ nodes, ¬node.Declares (pointLibrary []).overrides "Point" := by
  obtain ⟨nodes, hnodes⟩ : ∃ nodes, (pointLibrary []).module? none none = some nodes :=
    Option.isSome_iff_exists.1 (by decide +kernel)
  refine ⟨nodes, hnodes, by decide +kernel, by decide +kernel, fun node hnode hdeclares ↦ ?_⟩
  have hoverrides : ("Point" : Text) ∈ (pointLibrary []).overrides := by decide +kernel
  rcases declares_cases hnodes hnode hdeclares with h | h | ⟨f, hf, -⟩
  · exact h hoverrides
  · exact absurd h List.not_mem_nil
  · have hcallbacks : (pointLibrary []).declarations.callbacks = [] := by decide +kernel
    exact absurd (hcallbacks ▸ hf) List.not_mem_nil

end Sources

end HeaderBindings
