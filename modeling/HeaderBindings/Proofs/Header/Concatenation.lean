import Mathlib.Data.List.Forall2
import HeaderBindings.Declarations.Collect
import HeaderBindings.Proofs.Header.Placement
import HeaderBindings.Proofs.Text.Lines

/-!
# One header behind another

Two headers can be put into one file.  If the first one leaves nothing open, `AtRest`, then nothing
is read differently: each kind of declaration is read from the first text, and then from the second
one so many lines further down.

* `blocks_append` says so of blocks, and the rest of the development is about what becomes of it on
  the way to a collection of declarations.
* `IsConcatenation` gathers what it means for the readings of a header, kind by kind.  Tables have
  one entry for each name, so there the second header wins.
* `addHeaders_append` puts the two headers between others.  Apart from the places of declarations
  and diagnostics the collection is the same as from two files, the types that are declared and
  never defined included, and the diagnostics are the same in some order.
-/

set_option autoImplicit false

namespace HeaderBindings

/-! ## Blocks -/

/-- The kinds of declarations that are read from blocks. -/
def declarationKinds (conventions : Conventions) : List BlockKind :=
  [enumKind, structKind, functionKind conventions, callbackKind conventions, aliasKind]

/-- Behind the text every scanner is as it was in front of it: no comment and no declaration is
open, and no documentation waits for a declaration. -/
def AtRest (conventions : Conventions) (a : Text) : Prop :=
  ∀ kind ∈ declarationKinds conventions, Scanner.start.after kind a.lines = Scanner.start

instance (conventions : Conventions) (a : Text) : Decidable (AtRest conventions a) :=
  inferInstanceAs (Decidable
    (∀ kind ∈ declarationKinds conventions, Scanner.start.after kind a.lines = Scanner.start))

variable {conventions : Conventions} {a b : Text}

/-- **Blocks of two texts**, if the first one leaves nothing open. -/
theorem blocks_append {kind : BlockKind} (hend : a.EndsLine)
    (hrest : Scanner.start.after kind a.lines = Scanner.start) (b : Text) :
    blocks kind (a ++ b) = blocks kind a ++ (blocks kind b).map (.later a.lines.length) := by
  rw [blocks, Text.lines_append hend, Scanner.run_append, hrest, Scanner.run_later]
  rfl

/-! ## Declarations further down -/

/-- The enumeration so many lines further down. -/
def Enumeration.later (k : Nat) (e : Enumeration) : Enumeration := e.located (e.location.later k)

/-- The struct so many lines further down. -/
def Struct.later (k : Nat) (s : Struct) : Struct := s.located (s.location.later k)

/-- The prototype so many lines further down. -/
def Prototype.later (k : Nat) (f : Prototype) : Prototype := f.located (f.location.later k)

/-- The second diagnostic is the first one, so many lines further down in the file. -/
def Diagnostic.IsLater (file : Text) (k : Nat) (wrong wrong' : Diagnostic) : Prop :=
  ∃ n, wrong = wrong.located (Location.display ⟨file, n⟩) ∧
    wrong' = wrong.located (Location.display ⟨file, n + k⟩)

/-- What is wrong with a block is wrong with it further down too. -/
theorem forall₂_isLater {α : Type} {file : Text} {g : Block → α × List Diagnostic}
    (hg : ∀ (b : Block) (n : Nat),
      (g (b.onLine n)).2 = (g b).2.map (.located (Location.display ⟨file, n⟩))) (k : Nat)
    (b : Block) : List.Forall₂ (Diagnostic.IsLater file k) (g b).2 (g (b.later k)).2 := by
  have hhere : (g b).2 = (g b).2.map (.located (Location.display ⟨file, b.line⟩)) := hg b b.line
  have hlater : (g (b.later k)).2 =
      (g b).2.map (.located (Location.display ⟨file, b.line + k⟩)) := hg b (b.line + k)
  rw [hlater, List.forall₂_map_right_iff, List.forall₂_same]
  intro wrong hwrong
  refine ⟨b.line, ?_, rfl⟩
  rw [hhere] at hwrong
  obtain ⟨wrong, -, rfl⟩ := List.mem_map.1 hwrong
  cases wrong <;> rfl

theorem forall₂_flatMap_isLater {α : Type} {file : Text} {g : Block → α × List Diagnostic}
    (hg : ∀ (b : Block) (n : Nat),
      (g (b.onLine n)).2 = (g b).2.map (.located (Location.display ⟨file, n⟩))) (k : Nat)
    (bs : List Block) : List.Forall₂ (Diagnostic.IsLater file k)
      (bs.flatMap fun b ↦ (g b).2) (bs.flatMap fun b ↦ (g (b.later k)).2) := by
  induction bs with
  | nil => exact .nil
  | cons b bs ih => exact List.rel_append (forall₂_isLater hg k b) ih

@[simp]
theorem enumOfBlock_later (file : Text) (k : Nat) (b : Block) :
    enumOfBlock file (b.later k) = (enumOfBlock file b).later k :=
  enumOfBlock_onLine file file b (b.line + k)

@[simp]
theorem structOfBlock_later (file : Text) (k : Nat) (b : Block) :
    (structOfBlock conventions file (b.later k)).1 =
      (structOfBlock conventions file b).1.later k :=
  congrArg Prod.fst (structOfBlock_onLine conventions file file b (b.line + k))

@[simp]
theorem functionOfBlock_later (file : Text) (k : Nat) (b : Block) :
    (functionOfBlock conventions file (b.later k)).1 =
      (functionOfBlock conventions file b).1.map (.later k) := by
  have hhere : (functionOfBlock conventions file b).1 =
      (functionOfBlock conventions file b).1.map (.located ⟨file, b.line⟩) :=
    congrArg Prod.fst (functionOfBlock_onLine conventions file file b b.line)
  have hlater : (functionOfBlock conventions file (b.later k)).1 =
      (functionOfBlock conventions file b).1.map (.located ⟨file, b.line + k⟩) :=
    congrArg Prod.fst (functionOfBlock_onLine conventions file file b (b.line + k))
  rw [hlater, hhere, FunctionFate.map_map, FunctionFate.map_map]
  rfl

@[simp]
theorem callbackOfBlock_later (file : Text) (k : Nat) (b : Block) :
    (callbackOfBlock conventions file (b.later k)).1 =
      (callbackOfBlock conventions file b).1.map (Prototype.later k) := by
  have hhere : (callbackOfBlock conventions file b).1 =
      (callbackOfBlock conventions file b).1.map (Prototype.located ⟨file, b.line⟩) :=
    congrArg Prod.fst (callbackOfBlock_onLine conventions file file b b.line)
  have hlater : (callbackOfBlock conventions file (b.later k)).1 =
      (callbackOfBlock conventions file b).1.map (Prototype.located ⟨file, b.line + k⟩) :=
    congrArg Prod.fst (callbackOfBlock_onLine conventions file file b (b.line + k))
  rw [hlater, hhere, Option.map_map, Option.map_map]
  rfl

/-! ## Readings of two texts -/

/-- The table with the given entries.  Of several for one name the last one counts. -/
def tableOf (entries : List (Text × Text)) : Table := Std.TreeMap.insertMany {} entries

theorem getElem?_insertMany (entries : List (Text × Text)) (name : Text) : ∀ table : Table,
    (table.insertMany entries)[name]? = ((tableOf entries)[name]?).or table[name]? := by
  induction entries with
  | nil => intro table; simp [tableOf]
  | cons entry entries ih =>
    obtain ⟨name', t⟩ := entry
    intro table
    rw [tableOf, Std.TreeMap.insertMany_cons, Std.TreeMap.insertMany_cons, ih, ih, Option.or_assoc]
    congr 1
    rw [Std.TreeMap.getElem?_insert, Std.TreeMap.getElem?_insert]
    split
    · rfl
    · simp

/-- New entries win over those that are there. -/
theorem getElem?_tableOf_append (entries more : List (Text × Text)) (name : Text) :
    (tableOf (entries ++ more))[name]? =
      ((tableOf more)[name]?).or (tableOf entries)[name]? := by
  rw [tableOf, Std.TreeMap.insertMany_append, getElem?_insertMany]
  rfl

/-- What it means that one header stands in front of another: each reading of the two texts in one
is a reading of the first, and then one of the second so many lines further down. -/
structure IsConcatenation (conventions : Conventions) (a b : Text) : Prop where
  enums : ∀ file, enumerations file (a ++ b) =
    enumerations file a ++ (enumerations file b).map (.later a.lines.length)
  structs : ∀ file, ∃ wrong,
    HeaderBindings.structs conventions file (a ++ b) =
      ((HeaderBindings.structs conventions file a).1 ++
          (HeaderBindings.structs conventions file b).1.map (.later a.lines.length),
       (HeaderBindings.structs conventions file a).2 ++ wrong) ∧
    List.Forall₂ (Diagnostic.IsLater file a.lines.length)
      (HeaderBindings.structs conventions file b).2 wrong
  fates : ∀ file, ∃ later,
    functionFates conventions file (a ++ b) = functionFates conventions file a ++ later ∧
    List.Forall₂ (fun found found' ↦ found'.1 = found.1.map (.later a.lines.length) ∧
        List.Forall₂ (Diagnostic.IsLater file a.lines.length) found.2 found'.2)
      (functionFates conventions file b) later
  callbacks : ∀ file, ∃ wrong,
    HeaderBindings.callbacks conventions file (a ++ b) =
      ((HeaderBindings.callbacks conventions file a).1 ++
          (HeaderBindings.callbacks conventions file b).1.map (.later a.lines.length),
       (HeaderBindings.callbacks conventions file a).2 ++ wrong) ∧
    List.Forall₂ (Diagnostic.IsLater file a.lines.length)
      (HeaderBindings.callbacks conventions file b).2 wrong
  aliases : ∀ name : Text, (tableOf (HeaderBindings.aliases (a ++ b)))[name]? =
    ((tableOf (HeaderBindings.aliases b))[name]?).or (tableOf (HeaderBindings.aliases a))[name]?
  constants : ∀ name : Text, (tableOf (HeaderBindings.constants conventions (a ++ b)))[name]? =
    ((tableOf (HeaderBindings.constants conventions b))[name]?).or
      (tableOf (HeaderBindings.constants conventions a))[name]?
  excluded : ∀ file, ∀ name : Text,
    (tableOf (excludedFunctions conventions file (a ++ b)))[name]? =
      ((tableOf (excludedFunctions conventions file b))[name]?).or
        (tableOf (excludedFunctions conventions file a))[name]?

section

variable (hend : a.EndsLine) (hrest : AtRest conventions a) (b file : Text)

include hend

theorem constants_append :
    constants conventions (a ++ b) = constants conventions a ++ constants conventions b := by
  simp only [constants, Text.lines_append hend, List.filterMap_append]

include hrest

theorem aliases_append : aliases (a ++ b) = aliases a ++ aliases b := by
  have hblocks := blocks_append hend (hrest aliasKind (by simp [declarationKinds])) b
  simp only [aliases, hblocks, List.map_append, List.map_map, Function.comp_def, Block.later]

theorem enumerations_append : enumerations file (a ++ b) =
    enumerations file a ++ (enumerations file b).map (.later a.lines.length) := by
  have hblocks := blocks_append hend (hrest enumKind (by simp [declarationKinds])) b
  simp only [enumerations, hblocks, List.map_append, List.map_map, Function.comp_def,
    enumOfBlock_later]

theorem functionFates_append : functionFates conventions file (a ++ b) =
    functionFates conventions file a ++
      (blocks (functionKind conventions) b).map fun found ↦
        functionOfBlock conventions file (found.later a.lines.length) := by
  have hblocks :=
    blocks_append hend (hrest (functionKind conventions) (by simp [declarationKinds])) b
  simp only [functionFates, hblocks, List.map_append, List.map_map, Function.comp_def]

theorem excludedFunctions_append : excludedFunctions conventions file (a ++ b) =
    excludedFunctions conventions file a ++ excludedFunctions conventions file b := by
  rw [excludedFunctions, functionFates_append hend hrest, List.filterMap_append]
  simp only [excludedFunctions, functionFates, List.filterMap_map, Function.comp_def,
    functionOfBlock_later, FunctionFate.excluded?_map]

theorem structs_append : structs conventions file (a ++ b) =
    ((structs conventions file a).1 ++
        (structs conventions file b).1.map (.later a.lines.length),
     (structs conventions file a).2 ++ (blocks structKind b).flatMap fun found ↦
        (structOfBlock conventions file (found.later a.lines.length)).2) := by
  have hblocks := blocks_append hend (hrest structKind (by simp [declarationKinds])) b
  simp only [structs, hblocks, List.map_append, List.flatMap_append, List.map_map, Function.comp_def,
    List.flatMap_map, structOfBlock_later]

theorem callbacks_append : callbacks conventions file (a ++ b) =
    ((callbacks conventions file a).1 ++
        (callbacks conventions file b).1.map (.later a.lines.length),
     (callbacks conventions file a).2 ++ (blocks (callbackKind conventions) b).flatMap fun found ↦
        (callbackOfBlock conventions file (found.later a.lines.length)).2) := by
  have hblocks :=
    blocks_append hend (hrest (callbackKind conventions) (by simp [declarationKinds])) b
  simp only [callbacks, hblocks, List.map_append, List.filterMap_append, List.flatMap_append,
    List.map_map, List.filterMap_map, List.map_filterMap, Function.comp_def, List.flatMap_map,
    callbackOfBlock_later]

/-- **A header that leaves nothing open** stands in front of any other. -/
theorem isConcatenation : IsConcatenation conventions a b where
  enums := enumerations_append hend hrest b
  structs file := by
    refine ⟨_, structs_append hend hrest b file, ?_⟩
    rw [structs, List.flatMap_map]
    exact forall₂_flatMap_isLater (fun found n ↦
      congrArg Prod.snd (structOfBlock_onLine conventions file file found n)) _ _
  fates file := by
    refine ⟨_, functionFates_append hend hrest b file, ?_⟩
    rw [functionFates, List.forall₂_map_left_iff, List.forall₂_map_right_iff, List.forall₂_same]
    exact fun found _ ↦ ⟨functionOfBlock_later file _ found, forall₂_isLater (fun found n ↦
      congrArg Prod.snd (functionOfBlock_onLine conventions file file found n)) _ found⟩
  callbacks file := by
    refine ⟨_, callbacks_append hend hrest b file, ?_⟩
    rw [callbacks, List.flatMap_map]
    exact forall₂_flatMap_isLater (fun found n ↦
      congrArg Prod.snd (callbackOfBlock_onLine conventions file file found n)) _ _
  aliases name := by rw [aliases_append hend hrest, getElem?_tableOf_append]
  constants name := by rw [constants_append hend, getElem?_tableOf_append]
  excluded file name := by rw [excludedFunctions_append hend hrest, getElem?_tableOf_append]

end

/-! ## Collections -/

theorem placelessBlocks_append {kind : BlockKind} (hend : a.EndsLine)
    (hrest : Scanner.start.after kind a.lines = Scanner.start) (b : Text) :
    placelessBlocks kind (a ++ b) = placelessBlocks kind a ++ placelessBlocks kind b := by
  rw [placelessBlocks, blocks_append hend hrest, List.map_append, List.map_map]
  rfl

namespace Declarations

/-- The collection without the places of its declarations. -/
def placeless (d : Declarations) : Declarations :=
  { d with
    enums := d.enums.map (.located {})
    structs := d.structs.map (.located {})
    functions := d.functions.map (.located {})
    callbacks := d.callbacks.map (.located {}) }

/-- All that a header adds to a collection. -/
theorem addHeader_fst (d : Declarations) (file t : Text) :
    (d.addHeader conventions file t).1 =
      { d with
        enums := d.enums ++ enumerations file t
        structs := d.structs ++ (HeaderBindings.structs conventions file t).1
        functions := d.functions ++ HeaderBindings.functions conventions file t
        callbacks := d.callbacks ++ (HeaderBindings.callbacks conventions file t).1
        aliases := d.aliases.insertMany (HeaderBindings.aliases t)
        constants := d.constants.insertMany (HeaderBindings.constants conventions t)
        excluded := d.excluded.insertMany (excludedFunctions conventions file t) } := rfl

/-- All that is wrong with a header. -/
theorem addHeader_snd (d : Declarations) (file t : Text) :
    (d.addHeader conventions file t).2 = (functionFates conventions file t).flatMap (·.2) ++
      (HeaderBindings.structs conventions file t).2 ++
        (HeaderBindings.callbacks conventions file t).2 := rfl

/-- The collection with what is read from a text, without the places. -/
def addPlaceless (conventions : Conventions) (d : Declarations) (t : Text) : Declarations :=
  let fates :=
    (placelessBlocks (functionKind conventions) t).map (functionOfBlock conventions [])
  { d with
    enums := d.enums ++ (placelessBlocks enumKind t).map (enumOfBlock [])
    structs := d.structs ++
      ((placelessBlocks structKind t).map (structOfBlock conventions [])).map (·.1)
    functions := d.functions ++ fates.filterMap (·.1.kept?)
    callbacks := d.callbacks ++ ((placelessBlocks (callbackKind conventions) t).map
      (callbackOfBlock conventions [])).filterMap (·.1)
    aliases := d.aliases.insertMany (HeaderBindings.aliases t)
    constants := d.constants.insertMany (HeaderBindings.constants conventions t)
    excluded := d.excluded.insertMany (fates.filterMap (·.1.excluded?)) }

/-- What is wrong with a text, without the places. -/
def placelessProblems (conventions : Conventions) (t : Text) : List Diagnostic :=
  ((placelessBlocks (functionKind conventions) t).map
      (functionOfBlock conventions [])).flatMap (·.2) ++
    ((placelessBlocks structKind t).map (structOfBlock conventions [])).flatMap (·.2) ++
    ((placelessBlocks (callbackKind conventions) t).map
      (callbackOfBlock conventions [])).flatMap (·.2)

/-- Apart from places, what a header adds depends on its text alone. -/
theorem placeless_addHeader (d : Declarations) (file t : Text) :
    (d.addHeader conventions file t).1.placeless = d.placeless.addPlaceless conventions t := by
  have hstructs := congrArg Prod.fst (@placeless_structs conventions file t)
  have hcallbacks := congrArg Prod.fst (@placeless_callbacks conventions file t)
  simp only at hstructs hcallbacks
  simp only [addHeader_fst, placeless, addPlaceless, List.map_append, placeless_enumerations,
    placeless_functions, ← placeless_excludedFunctions file, hstructs, hcallbacks]

theorem placeless_problems (d : Declarations) (file t : Text) :
    (d.addHeader conventions file t).2.map .placeless = placelessProblems conventions t := by
  have hfates := congrArg (List.flatMap (·.2)) (@placeless_functionFates conventions file t)
  have hstructs := congrArg Prod.snd (@placeless_structs conventions file t)
  have hcallbacks := congrArg Prod.snd (@placeless_callbacks conventions file t)
  rw [List.flatMap_map] at hfates
  simp only at hstructs hcallbacks
  rw [addHeader_snd, placelessProblems, ← hfates, ← hstructs, ← hcallbacks, List.map_append,
    List.map_append, List.map_flatMap]
  rfl

theorem placeless_addHeaders (headers : List (Text × Text)) : ∀ d : Declarations,
    (d.addHeaders conventions headers).1.placeless =
        headers.foldl (fun d header ↦ d.addPlaceless conventions header.2) d.placeless ∧
      (d.addHeaders conventions headers).2.map .placeless =
        headers.flatMap fun header ↦ placelessProblems conventions header.2 := by
  induction headers with
  | nil => exact fun d ↦ ⟨rfl, rfl⟩
  | cons header headers ih =>
    intro d
    obtain ⟨hplaceless, hproblems⟩ := ih (d.addHeader conventions header.1 header.2).1
    constructor
    · rw [List.foldl_cons, ← placeless_addHeader, ← hplaceless]
      rfl
    · rw [List.flatMap_cons, ← placeless_problems d header.1, ← hproblems, ← List.map_append]
      rfl

theorem placeless_withHandles (d : Declarations) :
    d.withHandles.placeless = d.placeless.withHandles := by
  simp only [withHandles, placeless, undefinedTypes, List.map_map, Function.comp_def,
    Struct.located, Enumeration.located]

section

variable (hend : a.EndsLine) (hrest : AtRest conventions a) (b : Text)

include hend hrest

theorem addPlaceless_append (d : Declarations) :
    d.addPlaceless conventions (a ++ b) =
      (d.addPlaceless conventions a).addPlaceless conventions b := by
  have hblocks (kind : BlockKind) (hkind : kind ∈ declarationKinds conventions) :=
    placelessBlocks_append hend (hrest kind hkind) b
  simp only [addPlaceless, aliases_append hend hrest, constants_append hend,
    hblocks enumKind (by simp [declarationKinds]), hblocks structKind (by simp [declarationKinds]),
    hblocks (functionKind conventions) (by simp [declarationKinds]),
    hblocks (callbackKind conventions) (by simp [declarationKinds]), List.map_append,
    List.filterMap_append, List.append_assoc, Std.TreeMap.insertMany_append]

/-- The problems of two texts come in another order from one file than from two. -/
theorem placelessProblems_append :
    (placelessProblems conventions (a ++ b)).Perm
      (placelessProblems conventions a ++ placelessProblems conventions b) := by
  have hblocks (kind : BlockKind) (hkind : kind ∈ declarationKinds conventions) :=
    placelessBlocks_append hend (hrest kind hkind) b
  simp only [placelessProblems, hblocks structKind (by simp [declarationKinds]),
    hblocks (functionKind conventions) (by simp [declarationKinds]),
    hblocks (callbackKind conventions) (by simp [declarationKinds]), List.map_append,
    List.flatMap_append]
  refine List.perm_iff_count.2 fun wrong ↦ ?_
  simp only [List.count_append]
  omega

end

end Declarations

open Declarations in
/-- **Two headers in one file** are read like two headers in two files, if the first one ends where
a line ends and leaves nothing open.  Each kind of declaration is read from the first text and then
from the second one further down, and between other headers the collections are the same but for
places and for the order of what is wrong. -/
theorem readings_append (hend : a.EndsLine) (hrest : AtRest conventions a) (b : Text) :
    IsConcatenation conventions a b ∧
    ∀ (version file file₁ file₂ : Text) (before after : List (Text × Text)),
      let whole := ofHeaders conventions version (before ++ (file, a ++ b) :: after)
      let parted := ofHeaders conventions version (before ++ (file₁, a) :: (file₂, b) :: after)
      whole.1.placeless = parted.1.placeless ∧
        (whole.2.map Diagnostic.placeless).Perm (parted.2.map Diagnostic.placeless) := by
  refine ⟨isConcatenation hend hrest b, fun version file file₁ file₂ before after ↦ ⟨?_, ?_⟩⟩
  · simp only [ofHeaders, placeless_withHandles, (placeless_addHeaders _ _).1, List.foldl_append,
      List.foldl_cons, addPlaceless_append hend hrest]
  · simp only [ofHeaders, (placeless_addHeaders _ _).2, List.flatMap_append, List.flatMap_cons]
    refine List.Perm.append_left _ ?_
    rw [← List.append_assoc]
    exact (placelessProblems_append hend hrest b).append_right _

/-- A header with a type that is declared, and with a function. -/
def nodeHeader : Text :=
  "typedef struct XnNode XnNode;\ntypedef int XnBits;\nXN_C_API int f(int x);\n"

/-- A header with the definition of that type, and with a function that is refused. -/
def bitsHeader : Text :=
  "struct XnNode\n\x7b\nint x;\n\x7d;\ntypedef long XnBits;\nXN_C_API int g(int);\n"

theorem readings_append_twoHeaders :
    (structs {} "ab.h" (nodeHeader ++ bitsHeader)).1 =
        [{ name := "XnNode", fields := [⟨"x", "int", .input⟩], location := ⟨"ab.h", 7⟩ }] ∧
      (tableOf (aliases (nodeHeader ++ bitsHeader)))["XnBits".toList]? = some "long".toList ∧
      (Declarations.ofHeaders {} [] [("ab.h", nodeHeader ++ bitsHeader)]).1.placeless =
        (Declarations.ofHeaders {} [] [("a.h", nodeHeader), ("b.h", bitsHeader)]).1.placeless := by
  have hend : nodeHeader.EndsLine := by decide +kernel
  have hrest : AtRest {} nodeHeader := by decide +kernel
  obtain ⟨hreadings, hcollections⟩ := readings_append hend hrest bitsHeader
  refine ⟨?_, ?_, ?_⟩
  · have hfound : (structs {} "ab.h" nodeHeader).1 ++
        (structs {} "ab.h" bitsHeader).1.map (.later nodeHeader.lines.length) =
          [{ name := "XnNode", fields := [⟨"x", "int", .input⟩], location := ⟨"ab.h", 7⟩ }] := by
      decide +kernel
    obtain ⟨wrong, hstructs, -⟩ := hreadings.structs "ab.h"
    rw [hstructs]
    exact hfound
  · have hbits : aliases bitsHeader = [("XnBits".toList, "long".toList)] := by decide +kernel
    rw [hreadings.aliases, hbits, tableOf, Std.TreeMap.insertMany_list_singleton,
      Std.TreeMap.getElem?_insert_self, Option.some_or]
  · have hplaceless := (hcollections [] "ab.h" "a.h" "b.h" [] []).1
    simp only [List.nil_append] at hplaceless
    exact hplaceless

end HeaderBindings
