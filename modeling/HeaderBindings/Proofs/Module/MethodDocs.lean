import Mathlib.Data.List.Forall2
import HeaderBindings.Proofs.Docs.Results
import HeaderBindings.Proofs.Module.Arity
import HeaderBindings.Proofs.Module.Attachment
import HeaderBindings.Proofs.Types.HeaderOrder

/-!
# Documentation of methods

A method takes the object for the first parameter of its function, and its documentation is that of
the function without the first line about a parameter.  The one is the first parameter that is
declared and the other the first one that is documented, so the line that is left out is about the
object only if the comment begins with it.

* `drop_one_eq_filter_iff`: a list without its first entry is what is left when all entries of a
  kind are taken out, exactly if the first entry is the only one of that kind.
* `Sources.documentation_of_methods` says for every method which lines it keeps, and when these are
  the lines about the other parameters.  `Sources.documentation_xnUserMove` is a method that keeps
  the line about the object and loses another one.
-/

set_option autoImplicit false

namespace HeaderBindings

/-- What is left behind the first entry is all that `P` does not hold for exactly if it holds for
that one alone. -/
theorem drop_one_eq_filter_iff {α : Type} {P : α → Prop} [DecidablePred P] {l : List α} :
    l.drop 1 = l.filter (¬P ·) ↔
      l = [] ∨ ∃ first rest, l = first :: rest ∧ P first ∧ ∀ a ∈ rest, ¬P a := by
  constructor
  · intro h
    cases l with
    | nil => exact .inl rfl
    | cons first rest =>
      rw [List.drop_one, List.tail_cons] at h
      have hrest : ∀ a ∈ rest, ¬P a := by
        intro a ha
        rw [h] at ha
        exact of_decide_eq_true (List.mem_filter.1 ha).2
      have hsame : rest.filter (¬P ·) = rest :=
        List.filter_eq_self.2 fun a ha ↦ decide_eq_true (hrest a ha)
      refine .inr ⟨first, rest, rfl, Classical.byContradiction fun hfirst ↦ ?_, hrest⟩
      rw [List.filter_cons_of_pos (by simpa using hfirst), hsame] at h
      exact absurd (congrArg List.length h) (by simp)
  · rintro (rfl | ⟨first, rest, rfl, hfirst, hrest⟩)
    · rfl
    · rw [List.drop_one, List.tail_cons, List.filter_cons_of_neg (by simpa using hfirst)]
      exact (List.filter_eq_self.2 fun a ha ↦ decide_eq_true (hrest a ha)).symm

/-- All entries of a kind have something that all behind the first one have, if it has that too or
is of another kind. -/
theorem forall_mem_drop_one_iff {α : Type} {P Q : α → Prop} {l : List α}
    (hrest : ∀ a ∈ l.drop 1, Q a) : (∀ a ∈ l, ¬P a → Q a) ↔ ∀ a ∈ l.head?, P a ∨ Q a := by
  cases l with
  | nil => simp
  | cons first rest =>
    simp only [List.forall_mem_cons, List.head?_cons, Option.mem_def, Option.some.injEq,
      forall_eq', Classical.or_iff_not_imp_left]
    exact and_iff_left fun a ha _ ↦ hrest a ha

theorem isDocumented_of_mem_ofHeaders {conventions : Conventions} {version : Text}
    {headers : List (Text × Text)} {f : Prototype}
    (h : f ∈ (Declarations.ofHeaders conventions version headers).1.functions) :
    f.IsDocumented conventions.outputTypes := by
  have hread : (Declarations.ofHeaders conventions version headers).1.functions =
      headers.flatMap fun h ↦ functions conventions h.1 h.2 :=
    congrArg Declarations.functions (Declarations.addHeaders_fst headers { version })
  obtain ⟨header, -, hf⟩ := List.mem_flatMap.1 (hread ▸ h)
  exact isDocumented_of_mem_functions hf

namespace Sources

variable {s : Sources} {wrappers : List Node} {f : Prototype} {cls : Text}

/-- The method calls the function, and its documentation has the given lines about parameters
between the description and the rest.  Mentions of other functions in it are linked, and the types
of all parameters stand at its end. -/
structure IsDocumentedBy (s : Sources) (cls : Text) (f : Prototype) (lines : List Text)
    (m : Method) : Prop where
  target : m.target = f.name
  doc : ∃ doc, s.types.linkMethods cls (Text.joinWith ('\n' :: Text.spaces 8)
      (f.doc.heads ++ lines ++ f.doc.tails)) = some doc ∧
    m.doc = (if doc.isEmpty then doc else doc ++ "\n        ") ++ "Parameter types: " ++
      Text.joinWith ", " (f.params.map fun p ↦ s.types.descriptor p.type)

theorem isDocumentedBy_of_method? {m : Method} (hdoc : f.doc = f.docGroups.fields)
    (h : s.method? cls f = some m) :
    s.IsDocumentedBy cls f ((f.docGroups.parameters.drop 1).map DocSection.entry) m := by
  obtain ⟨whole, hwhole, rfl⟩ := Option.map_eq_some_iff.1 h
  obtain ⟨doc, hlinked, rfl⟩ := Option.map_eq_some_iff.1 hwhole
  have hparams : (f.docGroups.parameters.drop 1).map DocSection.entry = f.doc.params.drop 1 := by
    rw [hdoc, DocGroups.params_fields, List.map_drop]
  exact ⟨rfl, doc, by rw [hparams]; exact hlinked, rfl⟩

/-- **Which lines a method keeps.**  The documentation of a method is that of its function without
the first line about a parameter.  The lines that are left are those about other parameters than the
object exactly if the object is documented first and only once, or no parameter is. -/
theorem documentation_of_methods {conventions : Conventions} {version : Text}
    {headers : List (Text × Text)}
    (hread : s.declarations = (Declarations.ofHeaders conventions version headers).1)
    (h : s.wrappers? = some wrappers) :
    ∀ node ∈ wrappers, ∀ cls ∈ node.wrapperClass?, List.Forall₂
      (fun f m ↦ s.IsDocumentedBy cls f
          ((f.docGroups.parameters.drop 1).map DocSection.entry) m ∧
        ∃ receiver others, f.params = receiver :: others ∧
          ((∀ l ∈ f.docGroups.parameters, ¬l.param? = some receiver.name →
              l.entry ∈ (f.docGroups.parameters.drop 1).map DocSection.entry) ↔
            ∀ l ∈ f.docGroups.parameters.head?, l.param? = some receiver.name ∨
              l.entry ∈ (f.docGroups.parameters.drop 1).map DocSection.entry) ∧
          (f.docGroups.parameters.drop 1 =
              f.docGroups.parameters.filter (¬·.param? = some receiver.name) ↔
            f.docGroups.parameters = [] ∨
              ∃ first rest, f.docGroups.parameters = first :: rest ∧
                first.param? = some receiver.name ∧ ∀ l ∈ rest, ¬l.param? = some receiver.name))
      (s.generatedFunctions cls) node.methods := by
  intro node hnode cls hcls
  obtain ⟨-, hwrapper⟩ := wrapper?_of_mem_wrappers h node hnode cls hcls
  obtain ⟨methods, hmethods, rfl⟩ := eq_wrapper_of_wrapper? hwrapper
  have hmade := (List.forall₂_and_left _ _).2 ⟨fun f hf ↦ hf, forall₂_of_mapM hmethods⟩
  refine hmade.imp ?_
  rintro f m ⟨hf, hmade⟩
  obtain ⟨receiver, others, hparams⟩ := exists_receiver_of_mem_generatedFunctions hf
  have hdeclared : f ∈ s.declarations.functions :=
    (List.mem_filter.1 (List.mem_filter.1 hf).1).1
  have hdoc := (isDocumented_of_mem_ofHeaders (hread ▸ hdeclared)).doc
  refine ⟨isDocumentedBy_of_method? hdoc hmade, receiver, others, hparams, ?_,
    drop_one_eq_filter_iff⟩
  exact forall_mem_drop_one_iff fun _ hl ↦ List.mem_map_of_mem hl

/-- Two functions for users, one that documents its parameters in the order of the declaration and
one that does not. -/
def usersHeader : Text :=
  "/**\n * @param pUser [in] the user\n * @param nX [in] the x\n */\n" ++
  "XN_C_API int xnUserTurn(XnUser* pUser, int nX);\n" ++
  "/**\n * @param nX [in] the x\n * @param pUser [in] the user\n */\n" ++
  "XN_C_API int xnUserMove(XnUser* pUser, int nX);\n"

/-- A library with a wrapper class for users. -/
def usersLibrary : Sources :=
  let conventions : Conventions := { wrapperClasses := ["User"] }
  let declarations := (Declarations.ofHeaders conventions [] [("a.h", usersHeader)]).1
  let types := (∅ : Table).insert "XnUser*" "User"
  { conventions, declarations, types := .build conventions types {}, overrides := ∅ }

theorem declarations_usersLibrary : usersLibrary.declarations =
    (Declarations.ofHeaders usersLibrary.conventions [] [("a.h", usersHeader)]).1 := rfl

/-- What is read for the library and made of it. -/
theorem wrappers_usersLibrary :
    usersLibrary.declarations.functions.map (fun f ↦ (f.params.map (·.name), f.doc.params)) =
        ([(["pUser", "nX"], ["@param pUser: the user.", "@param nX: the x."]),
          (["pUser", "nX"], ["@param nX: the x.", "@param pUser: the user."])] :
          List (List Text × List Text)) ∧
      (usersLibrary.generatedFunctions "User" ≠ [] ∧
        ∀ f ∈ (usersLibrary.generatedFunctions "User").head?,
          (∀ receiver ∈ f.params.head?, receiver.name = ("pUser" : Text)) ∧
          f.docGroups.parameters.head?.bind DocSection.param? = some ("pUser" : Text) ∧
          ∀ l ∈ f.docGroups.parameters.drop 1, ¬l.param? = some ("pUser" : Text)) ∧
      ∃ wrappers ∈ usersLibrary.wrappers?, ∃ node ∈ wrappers,
        node.wrapperClass? = some ("User" : Text) ∧
          node.methods.map (fun m ↦ (m.target, m.doc)) =
            ([("xnUserTurn", "@param nX: the x.\n        Parameter types: User, ctypes.c_int"),
              ("xnUserMove",
                "@param pUser: the user.\n        Parameter types: User, ctypes.c_int")] :
              List (Text × Text)) := by
  decide +kernel

theorem documentation_of_methods_usersLibrary :
    ∃ wrappers ∈ usersLibrary.wrappers?, ∃ node ∈ wrappers, ∃ m ∈ node.methods,
      m.doc = ("@param nX: the x.\n        Parameter types: User, ctypes.c_int" : Text) ∧
        ∃ f ∈ usersLibrary.generatedFunctions "User", m.target = f.name ∧
          f.docGroups.parameters.drop 1 =
            f.docGroups.parameters.filter (¬·.param? = some ("pUser" : Text)) := by
  obtain ⟨-, ⟨hsome, hlines⟩, wrappers, hwrappers, node, hnode, hclass, hmethods⟩ :=
    wrappers_usersLibrary
  have hall := documentation_of_methods declarations_usersLibrary hwrappers node hnode _ hclass
  obtain ⟨f, later, hgenerated⟩ := List.exists_cons_of_ne_nil hsome
  rw [hgenerated] at hlines hall
  obtain ⟨hreceiver, hhead, hothers⟩ := hlines f rfl
  obtain ⟨first, hfirst, habout⟩ := Option.bind_eq_some_iff.1 hhead
  obtain ⟨rest, hsplit⟩ := List.head?_eq_some_iff.1 hfirst
  obtain ⟨m, ms, ⟨hm, receiver, others, hparams, -, hkept⟩, -, hcons⟩ :=
    List.forall₂_cons_left_iff.1 hall
  rw [hcons, List.map_cons] at hmethods
  refine ⟨wrappers, hwrappers, node, hnode, m, hcons ▸ List.mem_cons_self,
    congrArg Prod.snd (List.cons.inj hmethods).1, f, hgenerated ▸ List.mem_cons_self,
    hm.target, ?_⟩
  rw [hreceiver receiver (by rw [hparams]; rfl)] at hkept
  rw [hsplit] at hothers
  exact hkept.2 (.inr ⟨first, rest, hsplit, habout, hothers⟩)

/-- **A method need not lose the line about the object**: the second one keeps that line and loses
the one about its only parameter. -/
theorem documentation_xnUserMove :
    usersLibrary.declarations.functions.map (fun f ↦ (f.params.map (·.name), f.doc.params)) =
        ([(["pUser", "nX"], ["@param pUser: the user.", "@param nX: the x."]),
          (["pUser", "nX"], ["@param nX: the x.", "@param pUser: the user."])] :
          List (List Text × List Text)) ∧
      ∃ wrappers ∈ usersLibrary.wrappers?, ∃ node ∈ wrappers, ∃ m ∈ node.methods,
        m.target = ("xnUserMove" : Text) ∧ m.doc =
          ("@param pUser: the user.\n        Parameter types: User, ctypes.c_int" : Text) := by
  obtain ⟨hfunctions, -, wrappers, hwrappers, node, hnode, -, hmethods⟩ := wrappers_usersLibrary
  obtain ⟨turn, _, hcons, -, hmore⟩ := List.map_eq_cons_iff.1 hmethods
  obtain ⟨move, _, hmore, hmove, -⟩ := List.map_eq_cons_iff.1 hmore
  refine ⟨hfunctions, wrappers, hwrappers, node, hnode, move, ?_,
    congrArg Prod.fst hmove, congrArg Prod.snd hmove⟩
  rw [hcons, hmore]
  exact List.mem_cons_of_mem _ List.mem_cons_self

end Sources

end HeaderBindings
