import HeaderBindings.Proofs.Header.Placement
import HeaderBindings.Proofs.Header.WrittenDeclarations

/-!
# Declarations of several sorts in one header

A header is read six times, once for each sort of declaration.  Do the declarations of one sort get
in the way of another?  `readings_mixedText` says that they do not: from declarations of all sorts
in any order each reading is the same as from those of its own sort alone, up to places and to
documentation.  Without documentation it is the same up to places.

Documentation has to be excepted, because a comment in front of one declaration may be joined to
another one.  `readings_mixedText_lost` shows what becomes of declarations if a keyword begins with
the export macro, or if the macro or the callback tag is no identifier.
-/

set_option autoImplicit false

namespace HeaderBindings

/-! ## Readings -/

/-- What is read from a header, sort by sort. -/
structure Readings where
  enumerations : List Enumeration := []
  structs : List Struct × List Diagnostic := ([], [])
  functions : List (FunctionFate × List Diagnostic) := []
  callbacks : List Prototype × List Diagnostic := ([], [])
  aliases : List (Text × Text) := []
  constants : List (Text × Text) := []

/-- The readings of a header. -/
def readings (conventions : Conventions) (file t : Text) : Readings where
  enumerations := enumerations file t
  structs := structs conventions file t
  functions := functionFates conventions file t
  callbacks := callbacks conventions file t
  aliases := aliases t
  constants := constants conventions t

namespace Readings

/-- What is read of one sort. -/
def only (r : Readings) : DeclarationSort → Readings
  | .enum => { enumerations := r.enumerations }
  | .struct => { structs := r.structs }
  | .function => { functions := r.functions }
  | .callback => { callbacks := r.callbacks }
  | .typeName => { aliases := r.aliases }
  | .constant => { constants := r.constants }

/-- The readings without places and documentation, and without the directions of parameters, which
follow from the documentation. -/
def bare (r : Readings) : Readings where
  enumerations := r.enumerations.map .bare
  structs := (r.structs.1.map .bare, r.structs.2.map .placeless)
  functions := r.functions.map fun found ↦ (found.1.map .bare, found.2.map .placeless)
  callbacks := (r.callbacks.1.map .bare, r.callbacks.2.map .placeless)
  aliases := r.aliases
  constants := r.constants

/-- The readings without places. -/
def placeless (r : Readings) : Readings where
  enumerations := r.enumerations.map (.located {})
  structs := (r.structs.1.map (.located {}), r.structs.2.map .placeless)
  functions := r.functions.map placelessFate
  callbacks := (r.callbacks.1.map (.located {}), r.callbacks.2.map .placeless)
  aliases := r.aliases
  constants := r.constants

end Readings

section

variable {conventions : Conventions} {t t' : Text} {sort : DeclarationSort}

/-- **The same parts of declarations** make the same readings, up to places and documentation. -/
theorem bare_only_readings (file : Text)
    (hconstants : sort = .constant → constants conventions t = constants conventions t')
    (hparts : ∀ kind ∈ sort.kind? conventions,
      (blocks kind t).map (·.parts) = (blocks kind t').map (·.parts)) :
    ((readings conventions file t).only sort).bare =
      ((readings conventions file t').only sort).bare := by
  cases sort with
  | enum =>
    have hread := map_eq_of_parts (fun _ _ h ↦ bare_enumOfBlock file file h) (hparts _ rfl)
    simpa [Readings.only, Readings.bare, readings, enumerations, Function.comp_def] using hread
  | struct =>
    have hread := map_eq_of_parts (fun _ _ h ↦ (bare_structOfBlock conventions file file h).1)
      (hparts _ rfl)
    have hwrong := congrArg List.flatten (map_eq_of_parts
      (fun _ _ h ↦ (bare_structOfBlock conventions file file h).2) (hparts _ rfl))
    simpa [Readings.only, Readings.bare, readings, structs, Function.comp_def, List.map_flatMap,
      List.flatMap_map, ← List.flatMap_def] using And.intro hread hwrong
  | function =>
    have hread := map_eq_of_parts (fun _ _ h ↦ congrArg₂ Prod.mk
      (bare_functionOfBlock conventions file file h).1
      (bare_functionOfBlock conventions file file h).2) (hparts _ rfl)
    simpa [Readings.only, Readings.bare, readings, functionFates, Function.comp_def] using hread
  | callback =>
    have hread := congrArg (List.filterMap id) (map_eq_of_parts
      (fun _ _ h ↦ (bare_callbackOfBlock conventions file file h).1) (hparts _ rfl))
    have hwrong := congrArg List.flatten (map_eq_of_parts
      (fun _ _ h ↦ (bare_callbackOfBlock conventions file file h).2) (hparts _ rfl))
    simpa [Readings.only, Readings.bare, readings, callbacks, Function.comp_def, List.map_flatMap,
      List.flatMap_map, List.filterMap_map, List.map_filterMap, ← List.flatMap_def] using
        And.intro hread hwrong
  | typeName =>
    have hread : aliases t = aliases t' := map_eq_of_parts (fun b b' h ↦ by rw [h]) (hparts _ rfl)
    simp only [Readings.only, Readings.bare, readings, hread]
  | constant => simp only [Readings.only, Readings.bare, readings, hconstants rfl]

/-- **The same blocks**, up to their places, make the same readings up to theirs. -/
theorem placeless_only_readings (file : Text)
    (hconstants : sort = .constant → constants conventions t = constants conventions t')
    (hblocks : ∀ kind ∈ sort.kind? conventions, placelessBlocks kind t = placelessBlocks kind t') :
    ((readings conventions file t).only sort).placeless =
      ((readings conventions file t').only sort).placeless := by
  cases sort with
  | enum =>
    simp only [Readings.only, Readings.placeless, readings, placeless_enumerations,
      hblocks _ rfl]
  | struct =>
    have hread := (@placeless_structs conventions file t).trans
      (hblocks structKind rfl ▸ (placeless_structs file t').symm)
    simpa [Readings.only, Readings.placeless, readings] using hread
  | function =>
    simp only [Readings.only, Readings.placeless, readings, placeless_functionFates,
      hblocks _ rfl]
  | callback =>
    have hread := (@placeless_callbacks conventions file t).trans
      (hblocks (callbackKind conventions) rfl ▸ (placeless_callbacks file t').symm)
    simpa [Readings.only, Readings.placeless, readings] using hread
  | typeName =>
    have hread : aliases t = aliases t' := by
      have hsame := congrArg (List.map fun b : Block ↦
        ((b.parts[1]?).getD [], plainType ((b.parts[0]?).getD []))) (hblocks aliasKind rfl)
      simpa [aliases, placelessBlocks, Function.comp_def, Block.onLine] using hsame
    simp only [Readings.only, Readings.placeless, readings, hread]
  | constant => simp only [Readings.only, Readings.placeless, readings, hconstants rfl]

end

/-! ## Readings of a mixture -/

section

variable {conventions : Conventions} (hc : conventions.Distinctive)
  {ds : List DocumentedDeclaration}
  (hds : ∀ d ∈ ds, ∀ w ∈ d.declaration.innerWords, Ordinary conventions w)

include hc in
theorem lines_mixedText (ds : List DocumentedDeclaration) :
    (mixedText conventions ds).lines = ds.flatMap (·.lines conventions) := by
  refine Text.lines_ofLines fun raw hraw ↦ ?_
  obtain ⟨d, -, hraw⟩ := List.mem_flatMap.1 hraw
  rcases List.mem_append.1 hraw with hraw | hraw
  · obtain ⟨line, -, rfl⟩ := List.mem_map.1 hraw
    exact line.2.1
  · exact d.declaration.isLine_of_mem_lines hc hraw

/-- Nothing is found in the documentation. -/
theorem DocumentedDeclaration.quiet_doc (kind : BlockKind) (d : DocumentedDeclaration) :
    Scanner.Quiet kind (d.doc.map (·.1)) := by
  refine Scanner.quiet_of_forall fun raw hraw ↦ ?_
  obtain ⟨line, -, rfl⟩ := List.mem_map.1 hraw
  exact Scanner.quiet_doc kind line.2.2

include hc in
/-- **A documented declaration leaves nothing open** behind it. -/
theorem DocumentedDeclaration.settles_lines {kind : BlockKind} (d : DocumentedDeclaration)
    (hkind : d.declaration.sort.kind? conventions = some kind) :
    Scanner.Settles kind (d.lines conventions) :=
  (d.quiet_doc kind).1.append (d.declaration.settles_lines hc hkind)

include hc hds

/-- **The declarations of one kind** that are found in a mixture are those of its own sort. -/
theorem map_parts_blocks_mixedText {sort : DeclarationSort} {kind : BlockKind}
    (hkind : sort.kind? conventions = some kind) :
    (blocks kind (mixedText conventions ds)).map (·.parts) =
      (blocks kind (mixedText conventions (ds.filter (·.declaration.sort = sort)))).map
        (·.parts) := by
  rw [blocks, blocks, lines_mixedText hc, lines_mixedText hc]
  refine Scanner.map_parts_run_filter (fun d hd hown ↦ ?_) (fun d hd hother ↦ ?_) 1 1
    Scanner.settled_start Scanner.settled_start
  · exact d.settles_lines hc (by rwa [of_decide_eq_true hown])
  · exact (d.quiet_doc kind).append
      (d.declaration.quiet_lines hc (hds d hd) (of_decide_eq_false hother) hkind)

omit hds in
/-- **Constants** are found in the declarations of constants only. -/
theorem constants_mixedText (ds : List DocumentedDeclaration) :
    constants conventions (mixedText conventions ds) = constants conventions
      (mixedText conventions (ds.filter (·.declaration.sort = .constant))) := by
  have hnone {raw : Text} (h : Line.classify raw ≠ .directive) :
      ((constantPattern conventions).search raw).map (fun g ↦ (g.get 1, g.get 2)) = none := by
    cases hsearch : (constantPattern conventions).search raw with
    | none => rfl
    | some g =>
      exact absurd (classify_of_constant (by rw [Pattern.occursIn, hsearch]; rfl)) h
  rw [constants, constants, lines_mixedText hc, lines_mixedText hc]
  induction ds with
  | nil => rfl
  | cons d ds ih =>
    rw [List.flatMap_cons, List.filterMap_append, ih]
    by_cases hsort : d.declaration.sort = .constant
    · rw [List.filter_cons_of_pos (by simpa using hsort), List.flatMap_cons, List.filterMap_append]
    · rw [List.filter_cons_of_neg (by simpa using hsort), List.append_left_eq_self]
      refine List.filterMap_eq_nil_iff.2 fun raw hraw ↦ hnone ?_
      rcases List.mem_append.1 hraw with hraw | hraw
      · obtain ⟨line, -, rfl⟩ := List.mem_map.1 hraw
        intro hline
        exact absurd line.2.2 (by simp [hline, Line.isDoc])
      · exact (d.declaration.classify_of_mem_lines hc hraw).2 hsort

omit hds in
/-- Where no declaration is documented, all blocks are without documentation. -/
theorem placelessBlocks_mixedText (hdoc : ∀ d ∈ ds, d.doc = []) (kind : BlockKind) :
    placelessBlocks kind (mixedText conventions ds) =
      ((blocks kind (mixedText conventions ds)).map (·.parts)).map fun parts ↦ ⟨parts, [], 0⟩ := by
  rw [placelessBlocks, List.map_map]
  refine List.map_congr_left fun b hb ↦ ?_
  have hnone : b.doc = [] := by
    rw [blocks, lines_mixedText hc] at hb
    refine Scanner.doc_of_mem_run (fun raw hraw ↦ ?_) rfl b hb
    obtain ⟨d, hd, hraw⟩ := List.mem_flatMap.1 hraw
    rw [DocumentedDeclaration.lines, hdoc d hd] at hraw
    exact (d.declaration.classify_of_mem_lines hc hraw).1
  rw [Block.onLine, hnone]
  rfl

end

/-- **Declarations of different sorts do not interfere.**  What is read of one sort is the same as
if the declarations of the other sorts were not there: none of them is read as a declaration of this
sort, and none takes one of this sort along. -/
theorem readings_mixedText {conventions : Conventions} (hc : conventions.Distinctive)
    {ds : List DocumentedDeclaration}
    (hds : ∀ d ∈ ds, ∀ w ∈ d.declaration.innerWords, Ordinary conventions w) (file : Text)
    (sort : DeclarationSort) :
    let whole := (readings conventions file (mixedText conventions ds)).only sort
    let own := (readings conventions file
      (mixedText conventions (ds.filter (·.declaration.sort = sort)))).only sort
    whole.bare = own.bare ∧ ((∀ d ∈ ds, d.doc = []) → whole.placeless = own.placeless) := by
  have hconstants : sort = .constant → constants conventions (mixedText conventions ds) =
      constants conventions (mixedText conventions (ds.filter (·.declaration.sort = sort))) := by
    rintro rfl
    exact constants_mixedText hc ds
  refine ⟨bare_only_readings file hconstants fun kind hkind ↦
    map_parts_blocks_mixedText hc hds hkind, fun hdoc ↦
    placeless_only_readings file hconstants fun kind hkind ↦ ?_⟩
  rw [placelessBlocks_mixedText hc hdoc, map_parts_blocks_mixedText hc hds hkind,
    placelessBlocks_mixedText hc fun d hd ↦ hdoc d (List.mem_of_mem_filter hd)]

/-- An enumeration with one member. -/
def kindEnum : WrittenEnum where
  typedef := false
  tag := some ⟨"Kind", by decide⟩
  opening := .lineBreak .none
  members := [(.lineBreak ⟨" ", by decide⟩, .counted ⟨"A", by decide⟩)]
  trailing := false
  closing := .lineBreak .none
  typeName := none
  refersBack := by decide

/-- Another name for an enumeration. -/
def kindAlias : WrittenAlias where
  lead := some ⟨"enum", by decide⟩
  original := ⟨⟨"Kind", by decide⟩, [], 0⟩
  name := ⟨"XnKind", by decide⟩

/-- A documented enumeration and a declaration of each other sort. -/
def motleyDeclarations : List DocumentedDeclaration :=
  [⟨[⟨"/** What there is. */", by decide⟩], .enum kindEnum⟩, ⟨[], .function addFunction⟩,
    ⟨[], .struct pointStruct⟩, ⟨[], .callback doneCallback⟩, ⟨[], .typeName kindAlias⟩,
    ⟨[], .constant ⟨⟨"XN_PROP_A", by decide⟩, "1", by decide, by decide⟩⟩]

theorem readings_mixedText_motley :
    mixedText {} motleyDeclarations =
        "/** What there is. */\nenum Kind\n\x7b\n A\n\x7d;\n" ++
        "XN_C_API XnStatus xnAdd(unsigned int sizes[2], " ++
        "void (XN_CALLBACK_TYPE* done)(const XnChar* why, int (*how)(void)), ...);\n" ++
        "typedef struct XnPoint\n\x7b\n\tlong double* aSizes[N];\n" ++
        "\tXnPoint(int x, int y);\n\tXnBool (XN_CALLBACK_TYPE* moved)(int why);\n\x7d XnPoint;\n" ++
        "typedef void* (XN_CALLBACK_TYPE* XnDone)(int* pResult);\n" ++
        "typedef enum Kind XnKind;\n#define XN_PROP_A 1\n" ∧
      aliases (mixedText {} motleyDeclarations) = [("XnKind".toList, "Kind".toList)] ∧
      (structs {} "a.h" (mixedText {} motleyDeclarations)).1.map Struct.bare =
        [{ name := "XnPoint"
           fields := [⟨"aSizes", "longdouble**", .input⟩, ⟨"moved", "CALLBACK", .input⟩] }] ∧
      (callbacks {} "a.h" (mixedText {} motleyDeclarations.tail)).1.map (Prototype.located {}) =
        [{ name := "XnDone", type := "void*", params := [⟨"pResult", "int*", .output⟩] }] := by
  have hc : Conventions.Distinctive {} := ⟨by decide, by decide, by decide⟩
  have hwords : ∀ d ∈ motleyDeclarations, ∀ w ∈ d.declaration.innerWords, Ordinary {} w := by
    decide
  have hwords' : ∀ d ∈ motleyDeclarations.tail, ∀ w ∈ d.declaration.innerWords, Ordinary {} w :=
    fun d hd ↦ hwords d (List.mem_of_mem_tail hd)
  have hdoc : ∀ d ∈ motleyDeclarations.tail, d.doc = [] := by simp [motleyDeclarations]
  have haliases := congrArg (·.aliases) (readings_mixedText hc hwords "a.h" .typeName).1
  have hstructs := congrArg (·.structs.1) (readings_mixedText hc hwords "a.h" .struct).1
  have hcallbacks := congrArg (·.callbacks.1)
    ((readings_mixedText hc hwords' "a.h" .callback).2 hdoc)
  simp only [readings, Readings.only, Readings.bare,
    Readings.placeless] at haliases hstructs hcallbacks
  rw [haliases, hstructs, hcallbacks]
  decide +kernel

/-- A function without anything special. -/
def plainFunction : WrittenPrototype where
  result := ⟨⟨"float", by decide⟩, [], 0⟩
  name := ⟨"f", by decide⟩
  params := .listed (.declared (.plain ⟨⟨"float", by decide⟩, [], 0⟩ ⟨"x", by decide⟩)) []

/-- A struct with a callback. -/
def hookStruct : WrittenStruct where
  typedef := false
  name := ⟨"Hook", by decide⟩
  entries := [(.none, .field (.callback ⟨⟨"float", by decide⟩, [], 0⟩ ⟨"g", by decide⟩
    ⟨"float", by decide⟩))]
  typeName := none

/-- No word between the braces begins with any of the macros.  But if the keyword of an enumeration
does, the enumeration is taken for a function, up to the end of the next one.  A macro or a tag that
opens a comment hides all that follows. -/
theorem readings_mixedText_lost :
    (∀ d ∈ [WrittenDeclaration.enum kindEnum, .function plainFunction, .struct hookStruct],
        ∀ w ∈ d.innerWords, Ordinary { exportMacro := "e" } w ∧ Ordinary { exportMacro := "/*" } w ∧
          Ordinary {} w) ∧
      functions { exportMacro := "e" } "a.h" (mixedText { exportMacro := "e" }
        [⟨[], .enum kindEnum⟩, ⟨[], .function plainFunction⟩]) = [] ∧
      functions { exportMacro := "e" } "a.h" (mixedText { exportMacro := "e" }
        [⟨[], .function plainFunction⟩]) =
          [{ name := "f", type := "float", params := [⟨"x", "float", .input⟩]
             location := ⟨"a.h", 1⟩ }] ∧
      enumerations "a.h" (mixedText { exportMacro := "/*" }
        [⟨[], .function plainFunction⟩, ⟨[], .enum kindEnum⟩]) = [] ∧
      enumerations "a.h" (mixedText { callbackTag := "/*" }
        [⟨[], .struct hookStruct⟩, ⟨[], .enum kindEnum⟩]) = [] ∧
      enumerations "a.h" (mixedText {} [⟨[], .enum kindEnum⟩]) =
        [{ name := "Kind", members := [.ofNative "A" 0], location := ⟨"a.h", 4⟩ }] := by
  decide +kernel

end HeaderBindings
