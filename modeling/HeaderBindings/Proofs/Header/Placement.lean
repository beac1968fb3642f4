import HeaderBindings.Header.Functions
import HeaderBindings.Proofs.Header.Resuming

/-!
# What place and documentation have to do with a declaration

A declaration is read from a block: from its parts, from the documentation comment that was joined
to it and from the number of its last line.  Text in front of a declaration or behind it can change
the comment and the number but not the parts, so it matters what the two go into.

* The place goes into the declaration and into all that is wrong with it, and nowhere else.  What is
  read elsewhere is the same but `located` there (`enumOfBlock_onLine` and its siblings).
* The comment goes into the documentation and into the directions of parameters, and nowhere else.
  What is left without the two and without the place is `bare`, and it is the same for all blocks
  with the same parts (`bare_enumOfBlock` and its siblings).
-/

set_option autoImplicit false

namespace HeaderBindings

/-! ## Declarations elsewhere -/

/-- The place so many lines further down. -/
def Location.later (k : Nat) (l : Location) : Location := { l with line := l.line + k }

namespace Enumeration

/-- The enumeration in another place. -/
def located (l : Location) (e : Enumeration) : Enumeration := { e with location := l }

/-- The enumeration without its place and its documentation. -/
def bare (e : Enumeration) : Enumeration := { e with doc := [], location := {} }

end Enumeration

namespace Struct

/-- The struct in another place. -/
def located (l : Location) (s : Struct) : Struct := { s with location := l }

/-- The struct without its place and its documentation. -/
def bare (s : Struct) : Struct := { s with doc := [], location := {} }

end Struct

namespace Prototype

/-- The prototype in another place. -/
def located (l : Location) (f : Prototype) : Prototype := { f with location := l }

/-- The prototype as it is read with another comment and in another place. -/
def commented (outputTypes : List Text) (comment : Text) (l : Location) (f : Prototype) :
    Prototype :=
  withDirections { f with comment, doc := .ofComment comment, location := l } outputTypes

/-- The prototype without its place, its documentation and the directions that follow from it. -/
def bare (f : Prototype) : Prototype :=
  { f with
    params := f.params.map fun p ↦ { p with direction := .input }
    comment := [], doc := {}, location := {} }

/-- Directions are taken from the new comment alone. -/
theorem commented_withDirections (outputTypes : List Text) (comment : Text) (l : Location)
    (f : Prototype) :
    (f.withDirections outputTypes).commented outputTypes comment l =
      f.commented outputTypes comment l := by
  simp [commented, withDirections, Parameter.directionFor, Function.comp_def]

@[simp]
theorem bare_commented (outputTypes : List Text) (comment : Text) (l : Location) (f : Prototype) :
    (f.commented outputTypes comment l).bare = f.bare := by
  simp [bare, commented, withDirections, Function.comp_def]

end Prototype

/-- The fate of a function that is not refused, with something done to the function. -/
def FunctionFate.map (g : Prototype → Prototype) : FunctionFate → FunctionFate
  | kept f => kept (g f)
  | excluded name type => excluded name type
  | refused => refused

@[simp]
theorem FunctionFate.map_map (g h : Prototype → Prototype) (fate : FunctionFate) :
    (fate.map g).map h = fate.map (h ∘ g) := by
  cases fate <;> rfl

@[simp]
theorem FunctionFate.kept?_map (g : Prototype → Prototype) (fate : FunctionFate) :
    (fate.map g).kept? = fate.kept?.map g := by
  cases fate <;> rfl

@[simp]
theorem FunctionFate.excluded?_map (g : Prototype → Prototype) (fate : FunctionFate) :
    (fate.map g).excluded? = fate.excluded? := by
  cases fate <;> rfl

/-- The functions of a header that belong to the library. -/
def functions (conventions : Conventions) (file t : Text) : List Prototype :=
  (functionFates conventions file t).filterMap (·.1.kept?)

/-- The functions of a header that are to be left out, with the types of their results. -/
def excludedFunctions (conventions : Conventions) (file t : Text) : List (Text × Text) :=
  (functionFates conventions file t).filterMap (·.1.excluded?)

namespace Diagnostic

/-- The diagnostic in another place. -/
def located (location : Text) : Diagnostic → Diagnostic
  | undocumented kind name _ => undocumented kind name location
  | paramCount name documented declared _ => paramCount name documented declared location
  | unresolvedType type usage _ => unresolvedType type usage location
  | unparsable text declaration _ => unparsable text declaration location
  | unnamed type declaration _ => unnamed type declaration location

/-- The diagnostic without its place. -/
def placeless : Diagnostic → Diagnostic := located (Location.display {})

@[simp]
theorem placeless_located (location : Text) (wrong : Diagnostic) :
    (wrong.located location).placeless = wrong.placeless := by
  cases wrong <;> rfl

@[simp]
theorem map_placeless_located (location : Text) (ds : List Diagnostic) :
    (ds.map (located location)).map placeless = ds.map placeless := by
  rw [List.map_map]
  exact List.map_congr_left fun wrong _ ↦ placeless_located location wrong

end Diagnostic

/-! ## Reading elsewhere -/

section

variable (conventions : Conventions) (file file' : Text) (b : Block)

theorem readParameter_located (declaration location location' piece : Text) :
    readParameter conventions declaration location' piece =
      ((readParameter conventions declaration location piece).1,
       (readParameter conventions declaration location piece).2.map (.located location')) := by
  simp only [readParameter]
  split <;> rfl

theorem readParameters_located (declaration location location' t : Text) :
    readParameters conventions declaration location' t =
      ((readParameters conventions declaration location t).1,
       (readParameters conventions declaration location t).2.map (.located location')) := by
  have hentries : (splitTopLevel ',' t).map (readParameter conventions declaration location') =
      ((splitTopLevel ',' t).map (readParameter conventions declaration location)).map
        fun entry ↦ (entry.1, entry.2.map (.located location')) := by
    rw [List.map_map]
    exact List.map_congr_left fun piece _ ↦ readParameter_located _ _ _ _ _
  simp only [readParameters, hentries, List.filterMap_map, Function.comp_def]
  split
  · simp [List.map_filterMap, Diagnostic.located]
  · simp [List.map_filterMap]

theorem readField_located (struct location location' entry : Text) :
    readField conventions struct location' entry =
      ((readField conventions struct location entry).1,
       (readField conventions struct location entry).2.map (.located location')) := by
  simp only [readField]
  split
  · rfl
  · split
    · split <;> rfl
    · rfl
    · rfl

/-- **A function with another comment and in another place** has the same fate. -/
theorem functionOfBlock_commented (doc : Text) (n : Nat) :
    functionOfBlock conventions file' ⟨b.parts, doc, n⟩ =
      ((functionOfBlock conventions file b).1.map
          (.commented conventions.outputTypes doc ⟨file', n⟩),
       (functionOfBlock conventions file b).2.map (.located (Location.display ⟨file', n⟩))) := by
  simp only [functionOfBlock]
  split
  · rename_i name type _
    split
    · rfl
    · split
      · rfl
      · rw [readParameters_located conventions name (Location.display ⟨file, b.line⟩)]
        cases hread : readParameters conventions name (Location.display ⟨file, b.line⟩)
            ((b.parts[1]?).getD []) with
        | mk params wrong =>
          cases params with
          | none => rfl
          | some params =>
            simp only [FunctionFate.map, Prototype.commented_withDirections]
            rfl
  · rfl

theorem callbackOfBlock_commented (doc : Text) (n : Nat) :
    callbackOfBlock conventions file' ⟨b.parts, doc, n⟩ =
      ((callbackOfBlock conventions file b).1.map
          (.commented conventions.outputTypes doc ⟨file', n⟩),
       (callbackOfBlock conventions file b).2.map (.located (Location.display ⟨file', n⟩))) := by
  simp only [callbackOfBlock]
  rw [readParameters_located conventions _ (Location.display ⟨file, b.line⟩)]
  cases hread : readParameters conventions ((b.parts[1]?).getD [])
      (Location.display ⟨file, b.line⟩) ((b.parts[2]?).getD []) with
  | mk params wrong =>
    cases params with
    | none => rfl
    | some params =>
      simp only [Option.map_some, Prototype.commented_withDirections]
      rfl

theorem structOfBlock_commented (doc : Text) (n : Nat) :
    structOfBlock conventions file' ⟨b.parts, doc, n⟩ =
      ({ (structOfBlock conventions file b).1 with doc := typeDoc doc, location := ⟨file', n⟩ },
       (structOfBlock conventions file b).2.map (.located (Location.display ⟨file', n⟩))) := by
  have hentries (struct t : Text) :
      (splitTopLevel ';' t).map (readField conventions struct (Location.display ⟨file', n⟩)) =
        ((splitTopLevel ';' t).map
          (readField conventions struct (Location.display ⟨file, b.line⟩))).map fun entry ↦
            (entry.1, entry.2.map (.located (Location.display ⟨file', n⟩))) := by
    rw [List.map_map]
    exact List.map_congr_left fun entry _ ↦ readField_located _ _ _ _ _
  simp only [structOfBlock, hentries, List.filterMap_map, Function.comp_def, List.map_filterMap]

/-! ### In another place -/

theorem enumOfBlock_onLine (n : Nat) :
    enumOfBlock file' (b.onLine n) = (enumOfBlock file b).located ⟨file', n⟩ := by
  simp only [enumOfBlock, Block.onLine, Enumeration.located]

theorem structOfBlock_onLine (n : Nat) :
    structOfBlock conventions file' (b.onLine n) =
      ((structOfBlock conventions file b).1.located ⟨file', n⟩,
       (structOfBlock conventions file b).2.map (.located (Location.display ⟨file', n⟩))) := by
  rw [Block.onLine, structOfBlock_commented conventions file]
  simp only [structOfBlock, Struct.located]

theorem functionOfBlock_onLine (n : Nat) :
    functionOfBlock conventions file' (b.onLine n) =
      ((functionOfBlock conventions file b).1.map (.located ⟨file', n⟩),
       (functionOfBlock conventions file b).2.map (.located (Location.display ⟨file', n⟩))) := by
  -- A function that was read has been commented already, namely with the comment it has.
  have hsame : (functionOfBlock conventions file b).1 = (functionOfBlock conventions file b).1.map
      (.commented conventions.outputTypes b.doc ⟨file, b.line⟩) :=
    congrArg Prod.fst (functionOfBlock_commented conventions file file b b.doc b.line)
  rw [Block.onLine, functionOfBlock_commented conventions file]
  refine Prod.ext ?_ rfl
  conv =>
    rhs
    rw [hsame, FunctionFate.map_map]
  rfl

theorem callbackOfBlock_onLine (n : Nat) :
    callbackOfBlock conventions file' (b.onLine n) =
      ((callbackOfBlock conventions file b).1.map (Prototype.located ⟨file', n⟩),
       (callbackOfBlock conventions file b).2.map (.located (Location.display ⟨file', n⟩))) := by
  have hsame : (callbackOfBlock conventions file b).1 = (callbackOfBlock conventions file b).1.map
      (Prototype.commented conventions.outputTypes b.doc ⟨file, b.line⟩) :=
    congrArg Prod.fst (callbackOfBlock_commented conventions file file b b.doc b.line)
  rw [Block.onLine, callbackOfBlock_commented conventions file]
  refine Prod.ext ?_ rfl
  conv =>
    rhs
    rw [hsame, Option.map_map]
  rfl

/-! ### From the parts alone -/

/-- The same is made of the same parts, if nothing else is looked at. -/
theorem map_eq_of_parts {α : Type} {g : Block → α}
    (hg : ∀ b b' : Block, b.parts = b'.parts → g b = g b') :
    ∀ {bs bs' : List Block}, bs.map (·.parts) = bs'.map (·.parts) → bs.map g = bs'.map g
  | [], [], _ => rfl
  | b :: bs, b' :: bs', h => by
    rw [List.map_cons, List.map_cons, List.cons.injEq] at h
    rw [List.map_cons, List.map_cons, hg b b' h.1, map_eq_of_parts hg h.2]

variable {b} {b' : Block} (h : b.parts = b'.parts)

include h

theorem bare_enumOfBlock : (enumOfBlock file b).bare = (enumOfBlock file' b').bare := by
  simp only [enumOfBlock, Enumeration.bare, h]

theorem bare_structOfBlock :
    (structOfBlock conventions file b).1.bare = (structOfBlock conventions file' b').1.bare ∧
      (structOfBlock conventions file b).2.map Diagnostic.placeless =
        (structOfBlock conventions file' b').2.map Diagnostic.placeless := by
  obtain ⟨parts, doc, line⟩ := b
  obtain rfl : parts = b'.parts := h
  rw [structOfBlock_commented conventions file' file b']
  exact ⟨by simp only [Struct.bare], Diagnostic.map_placeless_located _ _⟩

theorem bare_functionOfBlock :
    (functionOfBlock conventions file b).1.map .bare =
        (functionOfBlock conventions file' b').1.map .bare ∧
      (functionOfBlock conventions file b).2.map Diagnostic.placeless =
        (functionOfBlock conventions file' b').2.map Diagnostic.placeless := by
  obtain ⟨parts, doc, line⟩ := b
  obtain rfl : parts = b'.parts := h
  rw [functionOfBlock_commented conventions file' file b', FunctionFate.map_map]
  refine ⟨congrArg (FunctionFate.map · _) ?_, Diagnostic.map_placeless_located _ _⟩
  funext f
  exact f.bare_commented _ _ _

theorem bare_callbackOfBlock :
    (callbackOfBlock conventions file b).1.map Prototype.bare =
        (callbackOfBlock conventions file' b').1.map Prototype.bare ∧
      (callbackOfBlock conventions file b).2.map Diagnostic.placeless =
        (callbackOfBlock conventions file' b').2.map Diagnostic.placeless := by
  obtain ⟨parts, doc, line⟩ := b
  obtain rfl : parts = b'.parts := h
  rw [callbackOfBlock_commented conventions file' file b', Option.map_map]
  refine ⟨congrArg (Option.map · _) ?_, Diagnostic.map_placeless_located _ _⟩
  funext f
  exact f.bare_commented _ _ _

end

/-! ## Readings without places -/

/-- The blocks of a text without their places. -/
def placelessBlocks (kind : BlockKind) (t : Text) : List Block := (blocks kind t).map (.onLine 0)

/-- The fate of a function and what is wrong with it, without places. -/
def placelessFate (found : FunctionFate × List Diagnostic) : FunctionFate × List Diagnostic :=
  (found.1.map (.located {}), found.2.map .placeless)

section

variable {conventions : Conventions} (file t : Text)

theorem placeless_enumerations : (enumerations file t).map (.located {}) =
    (placelessBlocks enumKind t).map (enumOfBlock []) := by
  simp only [enumerations, placelessBlocks, List.map_map, Function.comp_def,
    enumOfBlock_onLine file []]

theorem placeless_structs :
    ((structs conventions file t).1.map (.located {}),
      (structs conventions file t).2.map Diagnostic.placeless) =
    (((placelessBlocks structKind t).map (structOfBlock conventions [])).map (·.1),
      ((placelessBlocks structKind t).map (structOfBlock conventions [])).flatMap (·.2)) := by
  simp only [structs, placelessBlocks, List.map_map, Function.comp_def, List.flatMap_map,
    List.map_flatMap, structOfBlock_onLine conventions file [], Diagnostic.placeless]

theorem placeless_functionFates : (functionFates conventions file t).map placelessFate =
    (placelessBlocks (functionKind conventions) t).map (functionOfBlock conventions []) := by
  simp only [functionFates, placelessBlocks, List.map_map, Function.comp_def,
    functionOfBlock_onLine conventions file [], placelessFate, Diagnostic.placeless]

theorem placeless_callbacks :
    ((callbacks conventions file t).1.map (.located {}),
      (callbacks conventions file t).2.map Diagnostic.placeless) =
    (((placelessBlocks (callbackKind conventions) t).map
        (callbackOfBlock conventions [])).filterMap (·.1),
      ((placelessBlocks (callbackKind conventions) t).map
        (callbackOfBlock conventions [])).flatMap (·.2)) := by
  simp only [callbacks, placelessBlocks, List.map_map, Function.comp_def, List.flatMap_map,
    List.map_flatMap, List.filterMap_map, List.map_filterMap,
    callbackOfBlock_onLine conventions file [], Diagnostic.placeless]

theorem placeless_functions : (functions conventions file t).map (.located {}) =
    ((placelessBlocks (functionKind conventions) t).map
      (functionOfBlock conventions [])).filterMap (·.1.kept?) := by
  rw [← placeless_functionFates file]
  simp only [functions, List.filterMap_map, List.map_filterMap, Function.comp_def, placelessFate,
    FunctionFate.kept?_map]

theorem placeless_excludedFunctions : excludedFunctions conventions file t =
    ((placelessBlocks (functionKind conventions) t).map
      (functionOfBlock conventions [])).filterMap (·.1.excluded?) := by
  rw [← placeless_functionFates file]
  simp only [excludedFunctions, List.filterMap_map, Function.comp_def, placelessFate,
    FunctionFate.excluded?_map]

end

end HeaderBindings
