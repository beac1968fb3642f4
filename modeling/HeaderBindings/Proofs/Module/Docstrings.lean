import HeaderBindings.Proofs.Module.Classes

/-!
# Where the docstrings of a module end

Documentation is written between three single quotes as it is.  Whether the quotes behind it are the
ones that close the literal depends on the documentation: three quotes inside of it close the
literal earlier, unless a backslash stands in front of one of them.

* `afterLiteral?` reads a literal to its end.  `afterLiteral?_docstring_iff` says when that is the
  end of the docstring.
* `Node.parts` is the written form of a node with its docstrings told apart from the code around
  them, and `closesOwn_iff` says when they all end where they should.
* `Sources.Documents` are the texts that docstrings are made of.  By `Sources.docstrings_module` the
  docstrings of a module end where they should exactly if none of these texts closes a literal.

`Sources.docstring_quoted` is a header with a comment that does.
-/

set_option autoImplicit false

namespace HeaderBindings

/-! ## Reading a literal -/

/-- What comes behind a string literal, given what comes behind its three opening quotes.  A
backslash takes the next character with it. -/
def afterLiteral? : Text → Option Text
  | '\\' :: _ :: t => afterLiteral? t
  | '\x27' :: '\x27' :: '\x27' :: t => some t
  | _ :: t => afterLiteral? t
  | [] => none

/-- The text does not close the literal that it stands in. -/
def StaysInside (t : Text) : Prop := afterLiteral? t = none

instance (t : Text) : Decidable (StaysInside t) := inferInstanceAs (Decidable (_ = none))

/-- What closes a docstring with the given indentation. -/
def docstringEnd (indent : Nat) : Text := "\n" ++ Text.spaces indent ++ "'''"

section

variable {t r : Text}

theorem infix_of_afterLiteral? (h : afterLiteral? t = some r) : ("'''" : Text) <:+: t := by
  fun_induction afterLiteral? t with
  | case1 c t ih => exact (ih h).trans ⟨['\\', c], [], by simp⟩
  | case2 t => exact ⟨[], t, rfl⟩
  | case3 c t _ _ ih => exact (ih h).trans (List.suffix_cons c t).isInfix
  | case4 => exact absurd h (by simp)

/-- What closes a literal closes it in front of anything. -/
theorem afterLiteral?_append (h : afterLiteral? t = some r) (u : Text) :
    afterLiteral? (t ++ u) = some (r ++ u) := by
  fun_induction afterLiteral? t with
  | case1 c t ih => exact ih h
  | case2 t =>
    obtain rfl := Option.some_inj.1 h
    rfl
  | case3 c t hback hquote ih =>
    have hlong : 3 ≤ t.length := by simpa using (infix_of_afterLiteral? h).length_le
    rw [List.cons_append, afterLiteral?, ih h]
    · intro d s hc ht
      match t, hlong with
      | e :: t, _ => exact hback e t hc rfl
    · intro s hc ht
      match t, hlong with
      | x :: y :: t, _ =>
        simp only [List.cons_append, List.cons.injEq] at ht
        exact hquote t hc (by rw [ht.1, ht.2.1])
  | case4 => exact absurd h (by simp)

theorem afterLiteral?_spaces (n : Nat) (u : Text) :
    afterLiteral? (Text.spaces n ++ ("'''" ++ u)) = some u := by
  induction n with
  | zero => rfl
  | succ n ih =>
    have hcons : Text.spaces (n + 1) = ' ' :: Text.spaces n := List.replicate_succ
    rw [hcons, List.cons_append, afterLiteral?, ih]
    · exact fun _ _ hc ↦ absurd hc (by decide)
    · exact fun _ hc ↦ absurd hc (by decide)

/-- A text that does not close its literal leaves that to the quotes behind it.  A backslash at its
end takes the line end with it, not a quote. -/
theorem afterLiteral?_docstring (h : StaysInside t) (indent : Nat) (u : Text) :
    afterLiteral? (t ++ (docstringEnd indent ++ u)) = some u := by
  have hspaces : docstringEnd indent ++ u = '\n' :: (Text.spaces indent ++ ("'''" ++ u)) := by
    simp [docstringEnd]
  rw [hspaces]
  unfold StaysInside at h
  fun_induction afterLiteral? t with
  | case1 c t ih => exact ih h
  | case2 t => exact absurd h (by simp)
  | case3 c t hback hquote ih =>
    by_cases hc : c = '\\'
    · cases t with
      | nil =>
        rw [hc]
        exact afterLiteral?_spaces indent u
      | cons d t => exact (hback d t hc rfl).elim
    · rw [List.cons_append, afterLiteral?, ih h]
      · exact fun _ _ hc' ↦ absurd hc' hc
      · intro s hc ht
        match t with
        | [] => exact absurd (List.cons.inj ht).1 (by decide)
        | [x] => exact absurd (List.cons.inj (List.cons.inj ht).2).1 (by decide)
        | x :: y :: t =>
          simp only [List.cons_append, List.cons.injEq] at ht
          exact hquote t hc (by rw [ht.1, ht.2.1])
  | case4 =>
    rw [List.nil_append, afterLiteral?, afterLiteral?_spaces]
    · exact fun _ _ hc ↦ absurd hc (by decide)
    · exact fun _ hc ↦ absurd hc (by decide)

/-- **A docstring ends with its own quotes** exactly if its text does not close the literal. -/
theorem afterLiteral?_docstring_iff (t : Text) (indent : Nat) (u : Text) :
    afterLiteral? (t ++ (docstringEnd indent ++ u)) = some u ↔ StaysInside t := by
  refine ⟨fun hend ↦ ?_, fun h ↦ afterLiteral?_docstring h indent u⟩
  cases h : afterLiteral? t with
  | none => exact h
  | some r =>
    rw [afterLiteral?_append h, Option.some_inj] at hend
    have hlength := congrArg List.length hend
    simp only [docstringEnd, List.length_append] at hlength
    exact absurd hlength (by simp; omega)

theorem staysInside_of_not_infix (h : ¬("'''" : Text) <:+: t) : StaysInside t := by
  cases hend : afterLiteral? t with
  | none => exact hend
  | some r => exact absurd (infix_of_afterLiteral? hend) h

/-- Without backslashes three quotes close the literal wherever they stand. -/
theorem staysInside_iff (h : '\\' ∉ t) : StaysInside t ↔ ¬("'''" : Text) <:+: t := by
  refine ⟨fun hinside hwithin ↦ ?_, staysInside_of_not_infix⟩
  unfold StaysInside at hinside
  fun_induction afterLiteral? t with
  | case1 c t ih => exact h List.mem_cons_self
  | case2 t => exact absurd hinside (by simp)
  | case3 c t hback hquote ih =>
    rcases List.infix_cons_iff.1 hwithin with ⟨s, hs⟩ | hwithin
    · obtain ⟨rfl, rfl⟩ := List.cons.inj hs
      exact hquote s rfl rfl
    · exact ih (fun hmem ↦ h (List.mem_cons_of_mem c hmem)) hinside hwithin
  | case4 => exact absurd hwithin.length_le (by decide)

theorem staysInside_docOrNotAvailable (doc : Text) :
    StaysInside (docOrNotAvailable doc) ↔ StaysInside doc := by
  rw [docOrNotAvailable]
  split
  · rename_i hempty
    rw [List.isEmpty_iff.1 hempty]
    decide
  · rfl

end

/-! ## Code and docstrings -/

/-- A piece of a written node. -/
inductive Piece where
  | code (t : Text)
  /-- A docstring from its opening quotes to its closing ones. -/
  | docstring (indent : Nat) (doc : Text)

namespace Piece

def text : Piece → Text
  | code t => t
  | docstring indent doc => "'''" ++ doc ++ docstringEnd indent

def doc? : Piece → Option Text
  | code _ => none
  | docstring _ doc => some doc

/-- The text of pieces one behind the other. -/
def join (parts : List Piece) : Text := parts.flatMap text

/-- A docstring on lines of its own between two pieces of code. -/
def withDocstring (front : Text) (indent : Nat) (doc behind : Text) : List Piece :=
  [.code (front ++ Text.spaces indent), .docstring indent doc, .code behind]

/-- Every docstring ends with its own quotes. -/
def CloseOwn (parts : List Piece) : Prop :=
  ∀ before indent doc after, parts = before ++ .docstring indent doc :: after →
    afterLiteral? (doc ++ (docstringEnd indent ++ join after)) = some (join after)

@[simp]
theorem join_append (ps qs : List Piece) : join (ps ++ qs) = join ps ++ join qs :=
  List.flatMap_append

@[simp]
theorem join_withDocstring (front : Text) (indent : Nat) (doc behind : Text) :
    join (withDocstring front indent doc behind) =
      front ++ docstringLines indent doc ++ behind := by
  simp [join, withDocstring, text, docstringLines, docstringEnd]

theorem join_flatMap {α : Type} (f : α → List Piece) (l : List α) :
    join (l.flatMap f) = l.flatMap fun a ↦ join (f a) := List.flatMap_assoc

theorem closeOwn_iff {parts : List Piece} :
    CloseOwn parts ↔ ∀ doc ∈ parts.filterMap doc?, StaysInside doc := by
  constructor
  · intro h doc hdoc
    obtain ⟨part, hpart, hsome⟩ := List.mem_filterMap.1 hdoc
    cases part with
    | code t => exact absurd hsome (by simp [doc?])
    | docstring indent doc' =>
      obtain rfl := Option.some_inj.1 hsome
      obtain ⟨before, after, hsplit⟩ := List.append_of_mem hpart
      exact (afterLiteral?_docstring_iff _ _ _).1 (h before indent _ after hsplit)
  · rintro h before indent doc after rfl
    refine afterLiteral?_docstring (h doc ?_) indent _
    exact List.mem_filterMap.2 ⟨.docstring indent doc, by simp, rfl⟩

end Piece

open Piece

section

variable (name doc : Text)

/-- The pieces of the class of a group of constants. -/
def constantsParts (lead : Text) (values : List (Text × Text)) : List Piece :=
  withDocstring ("class " ++ name ++ ":\n") 4 (lead ++ "* constants.")
    (values.flatMap fun (k, v) ↦ ("\n    " ++ k ++ " = " ++ v : Text))

@[simp]
theorem join_constantsParts (lead : Text) (values : List (Text × Text)) :
    join (constantsParts name lead values) = renderConstants name lead values :=
  join_withDocstring ..

/-- The pieces of the class of an enumeration. -/
def enumParts (values : List (Text × Int)) : List Piece :=
  withDocstring ("class " ++ name ++ "(_Enum):\n") 4 doc
    ("\n    _enum_names_ = \x7b\n" ++ values.flatMap nameEntry ++ "    \x7d" ++
      if values.isEmpty then ([] : Text)
      else "\n\n" ++ Text.joinWith "\n" (constantLines name values))

@[simp]
theorem join_enumParts (values : List (Text × Int)) :
    join (enumParts name doc values) = renderEnum name doc values := by
  unfold enumParts renderEnum
  rw [join_withDocstring]
  simp only [List.append_assoc]

/-- The pieces of the class of a struct. -/
def structParts (fields : List (Text × Text)) : List Piece :=
  withDocstring ("class " ++ name ++ "(ctypes.Structure):\n") 4 doc
    ("\n    _fields_ = (\n" ++
      (fields.flatMap fun (field, type) ↦
        ("        ('" ++ field ++ "', " ++ type ++ "),\n" : Text)) ++ "    )")

@[simp]
theorem join_structParts (fields : List (Text × Text)) :
    join (structParts name doc fields) = renderStruct name doc fields := by
  unfold structParts renderStruct
  rw [join_withDocstring]
  simp only [List.append_assoc]

/-- The pieces of the class of a handle. -/
def handleParts : List Piece :=
  withDocstring ("class " ++ name ++ "(ctypes.c_void_p):\n") 4 doc "\n    pass"

@[simp]
theorem join_handleParts : join (handleParts name doc) = (Node.handle name doc).render := by
  unfold handleParts Node.render
  rw [join_withDocstring]

end

/-- The pieces of a method. -/
def Method.parts (m : Method) : List Piece :=
  let arguments := Text.joinWith ", " m.arguments
  let call := m.target ++ "(" ++ arguments ++ ")"
  let result := match m.wrapper with
    | some cls => cls ++ "(" ++ call ++ ")"
    | none => call
  withDocstring ("\n\n" ++ ("    def " ++ m.name ++ "(" ++ arguments ++ "):\n")) 8 m.doc
    ("\n        return " ++ result)

@[simp]
theorem Method.join_parts (m : Method) : join m.parts = "\n\n" ++ m.render := by
  unfold parts render
  rw [join_withDocstring]
  cases m.wrapper <;> simp only [List.append_assoc]

/-- The pieces of the constructor of a wrapper class. -/
def constructorParts : List Piece :=
  withDocstring "\n\n    def __new__(cls, ptr=None):\n" 8 "(INTERNAL) ctypes wrapper constructor."
    "\n        return _Constructor(cls, ptr)"

@[simp]
theorem join_constructorParts : join constructorParts = "\n\n" ++ constructorText := by
  decide

/-- The pieces of a wrapper class. -/
def wrapperParts (name doc : Text) (hasConstructor : Bool) (body : Text) (methods : List Method) :
    List Piece :=
  withDocstring ("class " ++ name ++ "(_Ctype):\n") 4 doc [] ++
    ((if hasConstructor then constructorParts else []) ++
    .code (if body.isEmpty then ([] : Text) else "\n\n" ++ body) :: methods.flatMap Method.parts)

theorem join_wrapperParts (name doc : Text) (hasConstructor : Bool) (body : Text)
    (methods : List Method) : join (wrapperParts name doc hasConstructor body methods) =
      renderWrapper name doc hasConstructor body methods := by
  have hcons (p : Piece) (ps : List Piece) : join (p :: ps) = p.text ++ join ps := rfl
  have hconstructor : join (if hasConstructor then constructorParts else []) =
      if hasConstructor then ("\n\n" ++ constructorText : Text) else [] := by
    cases hasConstructor
    · rfl
    · exact join_constructorParts
  have hmethods : join (methods.flatMap Method.parts) =
      methods.flatMap fun m ↦ ("\n\n" ++ m.render : Text) := by
    rw [join_flatMap]
    exact congrArg (List.flatMap · methods) (funext Method.join_parts)
  unfold wrapperParts renderWrapper
  rw [join_append, join_append, join_withDocstring, hconstructor, hcons, hmethods, text]
  simp only [List.append_assoc, List.append_nil]

/-- The pieces of a binding. -/
def bindingParts (name : Text) (arguments : List Text) (doc : Text) (flags : List Nat)
    (types : List Text) : List Piece :=
  let arguments := Text.joinWith ", " arguments
  let flagTexts := flags.map fun f ↦ ("(" ++ Text.ofNat f ++ ",)" : Text)
  let flagList : Text :=
    if flags.isEmpty then ([] : Text) else Text.joinWith ", " flagTexts ++ ","
  withDocstring ("def " ++ name ++ "(" ++ arguments ++ "):\n") 4 (docOrNotAvailable doc)
    ("\n    f = _Cfunctions.get('" ++ name ++ "', None) or \\\n        _Cfunction('" ++ name ++
      "', (" ++ flagList ++ "),\n                    " ++ Text.joinWith ", " types ++
      ")\n    if not __debug__:  # python -O or -OO\n        global " ++ name ++ "\n        " ++
      name ++ " = f\n    return f(" ++ arguments ++ ")")

theorem join_bindingParts (name : Text) (arguments : List Text) (doc : Text) (flags : List Nat)
    (types : List Text) : join (bindingParts name arguments doc flags types) =
      renderBinding name arguments doc flags types := by
  unfold bindingParts renderBinding
  rw [join_withDocstring]
  simp only [List.append_assoc]

/-- The pieces of the type of a callback. -/
def CallbackType.parts (c : CallbackType) : List Piece :=
  [.code ("\n    " ++ c.name ++ " = ctypes.CFUNCTYPE(" ++ Text.joinWith ", " c.types ++ ")\n    " ++
    c.name ++ ".__doc__ = "), .docstring 4 c.doc]

@[simp]
theorem CallbackType.join_parts (c : CallbackType) : join c.parts = c.render := by
  unfold parts render
  simp only [join, List.flatMap_cons, List.flatMap_nil, text, docstringEnd, List.append_assoc]
  rfl

/-- The pieces of the types of callbacks. -/
def callbacksParts (types : List CallbackType) : List Piece :=
  .code ("class CallbackDecorators(object):\n" ++
    "    \"Class holding various method decorators for callback functions.\"") ::
  (types.flatMap CallbackType.parts ++ [.code "\n\ncb = CallbackDecorators"])

@[simp]
theorem join_callbacksParts (types : List CallbackType) :
    join (callbacksParts types) = (Node.callbacks types).render := by
  have hcons (p : Piece) (ps : List Piece) : join (p :: ps) = p.text ++ join ps := rfl
  have htypes : join (types.flatMap CallbackType.parts) = types.flatMap CallbackType.render := by
    rw [join_flatMap]
    exact congrArg (List.flatMap · types) (funext CallbackType.join_parts)
  unfold callbacksParts Node.render
  rw [hcons, join_append, htypes, text, hcons, text]
  simp only [List.append_assoc]
  rfl

namespace Node

/-- The pieces of a node. -/
def parts : Node → List Piece
  | constants name lead values => constantsParts name lead values
  | enum name doc values => enumParts name doc values
  | struct name doc fields => structParts name doc fields
  | handle name doc => handleParts name doc
  | wrapper name doc hasConstructor body methods =>
    wrapperParts name doc hasConstructor body methods
  | binding name arguments doc flags types => bindingParts name arguments doc flags types
  | callbacks types => callbacksParts types
  | node => [.code node.render]

/-- **The pieces of a node** make up its written form. -/
theorem join_parts (node : Node) : join node.parts = node.render := by
  cases node with
  | verbatim t => exact List.append_nil _
  | comment lines => exact List.append_nil _
  | constants name lead values => exact join_constantsParts name lead values
  | enum name doc values => exact join_enumParts name doc values
  | struct name doc fields => exact join_structParts name doc fields
  | handle name doc => exact join_handleParts name doc
  | wrapper name doc hasConstructor body methods =>
    exact join_wrapperParts name doc hasConstructor body methods
  | binding name arguments doc flags types =>
    exact join_bindingParts name arguments doc flags types
  | callbacks types => exact join_callbacksParts types

/-- The documentation in a node. -/
def docs : Node → List Text
  | constants _ lead _ => [lead ++ "* constants."]
  | enum _ doc _ => [doc]
  | struct _ doc _ => [doc]
  | handle _ doc => [doc]
  | wrapper _ doc _ _ methods => doc :: methods.map (·.doc)
  | binding _ _ doc _ _ => [doc]
  | callbacks types => types.map (·.doc)
  | verbatim _ => []
  | comment _ => []

/-- **The docstrings of a node** end with their own quotes exactly if its documentation does not
close a literal.  What is the same in every module does not. -/
theorem closeOwn_parts_iff (node : Node) :
    CloseOwn node.parts ↔ ∀ doc ∈ node.docs, StaysInside doc := by
  have hone (front : Text) (indent : Nat) (doc behind : Text) :
      (withDocstring front indent doc behind).filterMap doc? = [doc] := rfl
  have hsingle {doc : Text} : (∀ d ∈ [doc], StaysInside d) ↔ StaysInside doc := by simp
  rw [closeOwn_iff]
  cases node with
  | verbatim t => exact Iff.rfl
  | comment lines => exact Iff.rfl
  | constants name lead values => exact Iff.rfl
  | enum name doc values => exact Iff.rfl
  | struct name doc fields => exact Iff.rfl
  | handle name doc => exact Iff.rfl
  | wrapper name doc hasConstructor body methods =>
    have hmethods : (methods.flatMap Method.parts).filterMap doc? = methods.map (·.doc) := by
      rw [List.filterMap_flatMap, List.map_eq_flatMap]
      rfl
    have hconstructor : ∀ d ∈ (if hasConstructor then constructorParts else []).filterMap doc?,
        StaysInside d := by
      cases hasConstructor
      · simp
      · simp only [if_true, constructorParts, hone, hsingle]
        decide
    show (∀ d ∈ (wrapperParts name doc hasConstructor body methods).filterMap doc?, _) ↔ _
    unfold wrapperParts
    rw [List.filterMap_append, List.filterMap_append, List.filterMap_cons_none rfl, hmethods, hone,
      docs]
    simp only [List.mem_append, List.mem_cons, List.not_mem_nil, or_false]
    constructor
    · exact fun h d hd ↦ h d (hd.imp_right .inr)
    · rintro h d (hd | hd | hd)
      · exact h d (.inl hd)
      · exact hconstructor d hd
      · exact h d (.inr hd)
  | binding name arguments doc flags types =>
    exact hsingle.trans ((staysInside_docOrNotAvailable doc).trans hsingle.symm)
  | callbacks types =>
    have htypes : (types.flatMap CallbackType.parts).filterMap doc? = types.map (·.doc) := by
      rw [List.filterMap_flatMap, List.map_eq_flatMap]
      rfl
    show (∀ d ∈ (callbacksParts types).filterMap doc?, _) ↔ _
    unfold callbacksParts
    rw [List.filterMap_cons_none rfl, List.filterMap_append, htypes]
    simp [docs, doc?]

end Node

namespace Sources

/-! ## The documentation of a module -/

/-- The texts that the docstrings of a module are made of. -/
inductive Documents (s : Sources) : Text → Prop
  | constants {name lead : Text} {values : List (Text × Text)}
      (h : .constants name lead values ∈ s.constantGroups) : Documents s (lead ++ "* constants.")
  | enum {e : Enumeration} (h : e ∈ s.declarations.enums) : Documents s e.doc
  | struct {t : Struct} (h : t ∈ s.declarations.structs)
      (hcls : s.types.classOf t.name ∉ s.overrides) : Documents s t.doc
  | wrapper {cls : Text} (h : cls ∈ s.wrapperClasses) : Documents s (s.overrides.docFor cls).trim
  | method {cls doc : Text} {f : Prototype} (hcls : cls ∈ s.wrapperClasses)
      (hf : f ∈ s.generatedFunctions cls) (hdoc : s.methodDoc? cls f = some doc) : Documents s doc
  | function {f : Prototype} (h : f ∈ s.declarations.functions) : Documents s (f.docstring 0 4)
  | callback {f : Prototype} (h : f ∈ s.declarations.callbacks) : Documents s (f.docstring 0 4)

variable {s : Sources} {prologue epilogue : Option Text} {nodes : List Node}

/-- The documentation in the section of callbacks is that of the callbacks. -/
theorem exists_of_mem_callbacks {node : Node} (h : node ∈ s.callbacks) :
    ∀ doc ∈ node.docs, ∃ f ∈ s.declarations.callbacks, doc = callbackDoc f := by
  simp only [callbacks] at h
  split at h
  · exact absurd h List.not_mem_nil
  · intro doc hdoc
    rcases List.mem_append.1 h with h | h
    · obtain ⟨f, hf, rfl⟩ := List.mem_map.1 h
      exact ⟨f, hf, List.mem_singleton.1 hdoc⟩
    · obtain rfl := List.mem_singleton.1 h
      rw [Node.docs, List.map_map] at hdoc
      obtain ⟨f, hf, rfl⟩ := List.mem_map.1 hdoc
      exact ⟨f, hf, rfl⟩

/-- The documentation in a section before the wrapper classes. -/
theorem staysInside_sectionOf {mark : PrologueMark} {node : Node} (h : node ∈ s.sectionOf mark)
    (hdocs : ∀ doc, s.Documents doc → StaysInside doc) : ∀ doc ∈ node.docs, StaysInside doc := by
  cases mark with
  | version =>
    obtain rfl := List.mem_singleton.1 h
    exact fun doc hdoc ↦ absurd hdoc List.not_mem_nil
  | enums =>
    rcases List.mem_append.1 h with h | h
    · obtain ⟨name, lead, values, rfl⟩ := eq_constants_of_mem h
      exact fun doc hdoc ↦ List.mem_singleton.1 hdoc ▸ hdocs _ (.constants h)
    · rcases enums_cases h with rfl | ⟨e, he, rfl⟩
      · exact fun doc hdoc ↦ absurd hdoc List.not_mem_nil
      · intro doc hdoc
        rw [List.mem_singleton.1 hdoc, staysInside_docOrNotAvailable]
        exact hdocs _ (.enum he)
  | structs =>
    rcases List.mem_append.1 h with h | h
    · obtain ⟨t, ht, hnode⟩ := List.mem_filterMap.1 h
      obtain ⟨hcls, rfl⟩ := structNode?_eq_some_iff.1 hnode
      intro doc hdoc
      rw [List.mem_singleton.1 hdoc, staysInside_docOrNotAvailable]
      exact hdocs _ (.struct ht hcls)
    · obtain ⟨native, -, hnode⟩ := List.mem_filterMap.1 h
      obtain ⟨-, rfl⟩ := handleNode?_eq_some_iff.1 hnode
      intro doc hdoc
      rw [List.mem_singleton.1 hdoc]
      decide

/-- **The docstrings of a module** are the documenting texts and fixed ones. -/
theorem staysInside_of_mem (h : s.module? prologue epilogue = some nodes)
    (hdocs : ∀ doc, s.Documents doc → StaysInside doc) :
    ∀ node ∈ nodes, ∀ doc ∈ node.docs, StaysInside doc := by
  have hsilent {node : Node} (hnone : node.docs = []) : ∀ doc ∈ node.docs, StaysInside doc :=
    fun doc hdoc ↦ absurd (hnone ▸ hdoc) List.not_mem_nil
  obtain ⟨wrappers, hwrappers, hmem⟩ := mem_module h
  intro node hnode
  rcases (hmem node).1 hnode with hnode | hnode | hnode | hnode | hnode | hnode
  · rcases mem_opening hnode with ⟨t, rfl⟩ | ⟨mark, hnode⟩
    · exact hsilent rfl
    · exact staysInside_sectionOf hnode hdocs
  · obtain ⟨cls, hcls, hwrapper⟩ := exists_of_mem_mapM hwrappers node hnode
    obtain ⟨methods, hmethods, rfl⟩ := eq_wrapper_of_wrapper? hwrapper
    intro doc hdoc
    rcases List.mem_cons.1 hdoc with rfl | hdoc
    · exact (staysInside_docOrNotAvailable _).2 (hdocs _ (.wrapper hcls))
    · obtain ⟨m, hm, rfl⟩ := List.mem_map.1 hdoc
      obtain ⟨f, hf, hmade⟩ := exists_of_mem_mapM hmethods m hm
      obtain ⟨doc, hmethodDoc, rfl⟩ := Option.map_eq_some_iff.1 hmade
      exact hdocs _ (.method hcls hf hmethodDoc)
  · rcases bindings_cases hnode with ⟨lines, rfl⟩ | ⟨f, hf, rfl⟩
    · exact hsilent rfl
    · exact fun doc hdoc ↦ List.mem_singleton.1 hdoc ▸ hdocs _ (.function hf)
  · intro doc hdoc
    obtain ⟨f, hf, rfl⟩ := exists_of_mem_callbacks hnode doc hdoc
    exact (staysInside_docOrNotAvailable _).2 (hdocs _ (.callback hf))
  · obtain ⟨lines, rfl⟩ := eq_comment_of_mem_unwrapped hnode
    exact hsilent rfl
  · obtain ⟨t, rfl⟩ := eq_verbatim_of_mem_epilogue hnode
    exact hsilent rfl

/-- Every documenting text is in the module. -/
theorem exists_of_documents (h : s.module? prologue epilogue = some nodes) {doc : Text}
    (hdoc : s.Documents doc) :
    ∃ node ∈ nodes, ∃ d ∈ node.docs, d = doc ∨ d = docOrNotAvailable doc := by
  obtain ⟨wrappers, hwrappers, hmem⟩ := mem_module h
  have hsection (mark : PrologueMark) {node : Node} (hnode : node ∈ s.sectionOf mark) :
      node ∈ nodes := (hmem node).2 (.inl (mem_opening_of_mem_sectionOf hnode prologue))
  cases hdoc with
  | constants h => exact ⟨_, hsection .enums (List.mem_append_left _ h), _,
      List.mem_singleton_self _, .inl rfl⟩
  | @enum e he =>
    have hne : s.declarations.enums.isEmpty = false :=
      List.isEmpty_eq_false_iff.2 (List.ne_nil_of_mem he)
    have hnode : .enum (s.types.classOf e.name) (docOrNotAvailable e.doc)
        (e.members.map fun m ↦ (m.name, m.value)) ∈ s.enums := by
      rw [enums, hne]
      exact List.mem_cons_of_mem _ (List.mem_map_of_mem he)
    exact ⟨_, hsection .enums (List.mem_append_right _ hnode), _,
      List.mem_singleton_self _, .inr rfl⟩
  | @struct t ht hcls =>
    have hnode := List.mem_filterMap.2 ⟨t, ht, structNode?_eq_some_iff.2 ⟨hcls, rfl⟩⟩
    exact ⟨_, hsection .structs (List.mem_append_left _ hnode), _,
      List.mem_singleton_self _, .inr rfl⟩
  | @wrapper cls hcls =>
    obtain ⟨node, hnode, hwrapper⟩ := exists_mem_of_mapM hwrappers cls hcls
    obtain ⟨methods, -, rfl⟩ := eq_wrapper_of_wrapper? hwrapper
    exact ⟨_, (hmem _).2 (.inr (.inl hnode)), _, List.mem_cons_self, .inr rfl⟩
  | @method cls doc f hcls hf hdoc =>
    obtain ⟨node, hnode, hwrapper⟩ := exists_mem_of_mapM hwrappers cls hcls
    obtain ⟨methods, hmethods, rfl⟩ := eq_wrapper_of_wrapper? hwrapper
    obtain ⟨m, hm, hmade⟩ := exists_mem_of_mapM hmethods f hf
    rw [method?, hdoc] at hmade
    obtain rfl := Option.some_inj.1 hmade
    exact ⟨_, (hmem _).2 (.inr (.inl hnode)), _,
      List.mem_cons_of_mem _ (List.mem_map_of_mem hm), .inl rfl⟩
  | @function f hf =>
    exact ⟨s.binding f, (hmem _).2 (.inr (.inr (.inl
      (List.mem_cons_of_mem _ (List.mem_map_of_mem hf))))), _, List.mem_singleton_self _, .inl rfl⟩
  | @callback f hf =>
    have hne : s.declarations.callbacks.isEmpty = false :=
      List.isEmpty_eq_false_iff.2 (List.ne_nil_of_mem hf)
    refine ⟨.handle (s.types.classOf f.name) (callbackDoc f),
      (hmem _).2 (.inr (.inr (.inr (.inl ?_)))), _, List.mem_singleton_self _, .inr rfl⟩
    simp only [callbacks, hne]
    exact List.mem_append_left _ (List.mem_map_of_mem hf)

/-- **Where the docstrings of a module end.**  Each of them ends with its own quotes exactly if its
text does not close the literal: three quotes in a row must stand in it to do so, and without
backslashes they are enough.  So all of them do exactly if none of the documenting texts closes a
literal, the comments of the headers and the docstrings of classes written by hand among them. -/
theorem docstrings_module (h : s.module? prologue epilogue = some nodes) :
    (∀ node ∈ nodes, join node.parts = node.render ∧
      ∀ before indent doc after, node.parts = before ++ .docstring indent doc :: after →
        (afterLiteral? (doc ++ (docstringEnd indent ++ join after)) = some (join after) ↔
          StaysInside doc) ∧
        (¬("'''" : Text) <:+: doc → StaysInside doc) ∧
        ('\\' ∉ doc → (StaysInside doc ↔ ¬("'''" : Text) <:+: doc))) ∧
    ((∀ node ∈ nodes, CloseOwn node.parts) ↔ ∀ doc, s.Documents doc → StaysInside doc) := by
  refine ⟨fun node _ ↦ ⟨node.join_parts, fun before indent doc after _ ↦
    ⟨afterLiteral?_docstring_iff doc indent _, staysInside_of_not_infix, staysInside_iff⟩⟩, ?_⟩
  simp only [Node.closeOwn_parts_iff]
  refine ⟨fun hclose doc hdoc ↦ ?_, staysInside_of_mem h⟩
  obtain ⟨node, hnode, d, hd, rfl | rfl⟩ := exists_of_documents h hdoc
  · exact hclose node hnode d hd
  · exact (staysInside_docOrNotAvailable doc).1 (hclose node hnode _ hd)

/-- A library with quotes in the comment of an enumeration and in the docstring of a class that is
written by hand. -/
def quotedLibrary : Sources :=
  let conventions : Conventions := { wrapperClasses := ["Context"] }
  let declarations := (Declarations.ofHeaders conventions [] [("a.h",
    "/**\n * A '''quoted''' word.\n */\ntypedef enum XnE\n\x7b\n    XN_E_A = 1\n\x7d XnE;\n")]).1
  { conventions, declarations, types := .build conventions ∅ declarations
    overrides := .ofSource "class Context(_Ctype):\n    \"\"\"Holds '''quotes'''.\"\"\"\n" }

/-- What is read for the library and made of it. -/
theorem docs_quotedLibrary : ∃ nodes ∈ quotedLibrary.module? none none,
    nodes.flatMap Node.docs =
        ([("A '''quoted''' word." : Text), ("Holds '''quotes'''." : Text)] : List Text) ∧
      quotedLibrary.declarations.enums.map (·.doc) =
        ([("A '''quoted''' word." : Text)] : List Text) := by
  decide +kernel

theorem docstrings_module_quoted : ∃ nodes ∈ quotedLibrary.module? none none,
    ¬∀ node ∈ nodes, CloseOwn node.parts := by
  obtain ⟨nodes, hnodes, -, henums⟩ := docs_quotedLibrary
  refine ⟨nodes, hnodes, fun hclose ↦ ?_⟩
  obtain ⟨e, he, hdoc⟩ := List.mem_map.1 (henums ▸ List.mem_singleton_self _)
  have hinside := (docstrings_module hnodes).2.1 hclose e.doc (.enum he)
  rw [hdoc] at hinside
  exact absurd hinside (by decide)

/-- **Documentation can break out of its docstring**: here the literal ends in the middle of the
comment, and what follows is no longer part of it. -/
theorem docstring_quoted : ∃ nodes ∈ quotedLibrary.module? none none, ∃ node ∈ nodes,
    ("A '''quoted''' word." : Text) ∈ node.docs ∧ ¬CloseOwn node.parts ∧
      afterLiteral? ("A '''quoted''' word." ++ docstringEnd 4) =
        some ("quoted''' word." ++ docstringEnd 4) := by
  obtain ⟨nodes, hnodes, hdocs, -⟩ := docs_quotedLibrary
  have hmem : ("A '''quoted''' word." : Text) ∈ nodes.flatMap Node.docs :=
    hdocs ▸ List.mem_cons_self
  obtain ⟨node, hnode, hdoc⟩ := List.mem_flatMap.1 hmem
  refine ⟨nodes, hnodes, node, hnode, hdoc, fun hclose ↦ ?_, by decide⟩
  exact absurd (node.closeOwn_parts_iff.1 hclose _ hdoc) (by decide)

end Sources

end HeaderBindings
