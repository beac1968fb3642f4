import Mathlib.Data.List.Forall2
import Mathlib.Data.List.TakeWhile
import HeaderBindings.Proofs.Header.Placement

/-!
# Deprecated functions

An exported function is to be left out if its declaration holds the marker of deprecated ones.  A
declaration may go over many lines, and the marker is looked for on one line at a time, by the test
that decides whether a declaration is opened.  What comes of that?

Two tests are compared: the line begins with the export macro, and it does so and is unmarked.  Both
have the same closing lines.

* `segments_of_imp`: from each segment that the weaker test finds the stricter one finds what is
  left of it from the first line on that passes it, or nothing if no line does.  Behind a closing
  line the two agree again, so no declaration has an influence on the ones behind it.
* `functionFates_exported`: what is read of a header are the exported declarations cut in that way.
  So a declaration is left out exactly if all lines of it that begin with the export macro are
  marked.  A marker on any other line has no influence, and then the function is read with the
  marker in it (`functionFates_marked`).
-/

set_option autoImplicit false

namespace HeaderBindings

/-! ## A stricter test for opening lines -/

section

variable {opens weak closes : Text → Bool}

/-- What is left of a segment from the first line on that opens one, if there is such a line. -/
def Segment.openedBy? (opens : Text → Bool) (s : Segment) : Option Segment :=
  match s.code.dropWhile (!opens ·) with
  | [] => none
  | first :: rest => some ⟨first :: rest, s.line⟩

/-- Nothing is left exactly if no line opens a segment. -/
theorem Segment.openedBy?_eq_none_iff {s : Segment} :
    s.openedBy? opens = none ↔ ∀ t ∈ s.code, opens t = false := by
  have hnil : s.code.dropWhile (!opens ·) = [] ↔ ∀ t ∈ s.code, opens t = false := by simp
  rw [openedBy?, ← hnil]
  split
  · rename_i h
    simp [h]
  · rename_i h
    simp [h]

/-- A segment whose first line opens one is left whole. -/
theorem Segment.openedBy?_cons {t : Text} {rest : List Text} {n : Nat} (h : opens t = true) :
    Segment.openedBy? opens ⟨t :: rest, n⟩ = some ⟨t :: rest, n⟩ := by
  simp [openedBy?, h]

/-- The closed segments of the lines to come, when the given lines stand between the last line that
closed one and them. -/
def segmentsBehind (opens closes : Text → Bool) (earlier : List Text) (ls : List (Text × Nat)) :
    List Segment :=
  match earlier.dropWhile (!opens ·) with
  | [] => segments opens closes ls
  | first :: rest => segmentsAfter opens closes (first :: rest) ls

/-- Lines that close nothing may be counted as earlier ones. -/
theorem segmentsBehind_cons_of_not_closes (earlier : List Text) {t : Text} (h : closes t = false)
    (n : Nat) (ls : List (Text × Nat)) :
    segmentsBehind opens closes earlier ((t, n) :: ls) =
      segmentsBehind opens closes (earlier ++ [t]) ls := by
  rw [segmentsBehind, segmentsBehind, List.dropWhile_append]
  cases hearlier : earlier.dropWhile (!opens ·) with
  | cons first rest => exact segmentsAfter_cons_of_not_closes (first :: rest) h
  | nil =>
    rw [List.isEmpty_nil, if_pos rfl]
    cases hopens : opens t with
    | false =>
      simp only [List.dropWhile_cons, hopens, Bool.not_false, if_true, List.dropWhile_nil]
      exact segments_cons_of_not_opens hopens
    | true =>
      simp only [List.dropWhile_cons, hopens, Bool.not_true, Bool.false_eq_true, if_false]
      rw [segments_cons_of_opens hopens, segmentsAfter_cons_of_not_closes _ h]
      rfl

/-- A closing line ends what is left of a segment, and behind it nothing is left over. -/
theorem segmentsBehind_cons_of_closes (earlier : List Text) {t : Text} (h : closes t = true)
    (n : Nat) (ls : List (Text × Nat)) :
    segmentsBehind opens closes earlier ((t, n) :: ls) =
      (Segment.openedBy? opens ⟨earlier ++ [t], n⟩).toList ++ segments opens closes ls := by
  rw [segmentsBehind, Segment.openedBy?, List.dropWhile_append]
  cases hearlier : earlier.dropWhile (!opens ·) with
  | cons first rest => exact segmentsAfter_cons_of_closes (first :: rest) h
  | nil =>
    rw [List.isEmpty_nil, if_pos rfl]
    cases hopens : opens t with
    | false =>
      simp only [List.dropWhile_cons, hopens, Bool.not_false, if_true, List.dropWhile_nil]
      exact segments_cons_of_not_opens hopens
    | true =>
      simp only [List.dropWhile_cons, hopens, Bool.not_true, Bool.false_eq_true, if_false]
      rw [segments_cons_of_opens hopens, segmentsAfter_cons_of_closes _ h]
      rfl

/-- Both between segments and inside of one, the stricter test finds what is left of the segments
that the weaker one finds. -/
theorem filterMap_openedBy?_segments (himp : ∀ t, opens t = true → weak t = true)
    (ls : List (Text × Nat)) :
    (segments weak closes ls).filterMap (·.openedBy? opens) = segments opens closes ls ∧
      ∀ earlier, (segmentsAfter weak closes earlier ls).filterMap (·.openedBy? opens) =
        segmentsBehind opens closes earlier ls := by
  induction ls with
  | nil =>
    refine ⟨by rw [segments_nil, segments_nil]; rfl, fun earlier ↦ ?_⟩
    rw [segmentsBehind]
    cases earlier.dropWhile (!opens ·) with
    | nil => exact segments_nil.symm
    | cons first rest => rfl
  | cons l ls ih =>
    obtain ⟨t, n⟩ := l
    have hafter (earlier : List Text) :
        (segmentsAfter weak closes earlier ((t, n) :: ls)).filterMap (·.openedBy? opens) =
          segmentsBehind opens closes earlier ((t, n) :: ls) := by
      cases hcloses : closes t with
      | false =>
        rw [segmentsAfter_cons_of_not_closes _ hcloses, ih.2,
          segmentsBehind_cons_of_not_closes _ hcloses]
      | true =>
        rw [segmentsAfter_cons_of_closes _ hcloses, segmentsBehind_cons_of_closes _ hcloses,
          List.filterMap_cons, ih.1]
        cases Segment.openedBy? opens ⟨earlier ++ [t], n⟩ <;> rfl
    refine ⟨?_, hafter⟩
    cases hweak : weak t with
    | true =>
      rw [segments_cons_of_opens hweak]
      exact hafter []
    | false =>
      have hopens : opens t = false := by
        cases hopens : opens t with
        | false => rfl
        | true => exact absurd (hweak.symm.trans (himp t hopens)) (by simp)
      rw [segments_cons_of_not_opens hweak, segments_cons_of_not_opens hopens, ih.1]

/-- **A stricter test for opening lines** finds what is left of each segment from the first line on
that passes it. -/
theorem segments_of_imp (himp : ∀ t, opens t = true → weak t = true) (ls : List (Text × Nat)) :
    segments opens closes ls = (segments weak closes ls).filterMap (·.openedBy? opens) :=
  (filterMap_openedBy?_segments himp ls).1.symm

end

/-! ## Exported declarations -/

section

variable (conventions : Conventions)

/-- The line begins with the export macro. -/
def isExported (t : Text) : Bool := t.startsWith conventions.exportMacro

/-- The line holds the marker of deprecated functions. -/
def isMarked (t : Text) : Bool := t.contains conventions.deprecatedMarker

/-- The exported declarations of a header, marked or not: each one from the first line on that
begins with the export macro, to the first line on that ends it. -/
def exportedDeclarations (t : Text) : List Segment :=
  segments (isExported conventions) (functionKind conventions).closes (codeLines t)

/-- What is read of an exported declaration, if anything is. -/
def unmarkedPart? (s : Segment) : Option Segment := s.openedBy? (functionKind conventions).opens

/-- What becomes of a function stems from the declaration: it is read from a block that has the
parts and the last line of the declaration. -/
def StemsFrom (file : Text) (s : Segment) (found : FunctionFate × List Diagnostic) : Prop :=
  ∃ b : Block, (functionKind conventions).read? s = some b.found ∧
    found = functionOfBlock conventions file b

theorem opens_functionKind (t : Text) :
    (functionKind conventions).opens t = (isExported conventions t && !isMarked conventions t) :=
  rfl

/-- The blocks of functions are what is recognised of the exported declarations. -/
theorem blocks_functionKind (t : Text) :
    (blocks (functionKind conventions) t).map Block.found =
      ((exportedDeclarations conventions t).filterMap (unmarkedPart? conventions)).filterMap
        (functionKind conventions).read? := by
  have himp : ∀ l, (functionKind conventions).opens l = true → isExported conventions l = true := by
    intro l hopens
    rw [opens_functionKind, Bool.and_eq_true] at hopens
    exact hopens.1
  rw [blocks_eq_segments, segments_of_imp himp]
  rfl

/-- What is found in blocks stems from what the blocks are read from. -/
theorem forall₂_stemsFrom (file : Text) (ss : List Segment) : ∀ {bs : List Block},
    bs.map Block.found = ss.filterMap (functionKind conventions).read? →
      List.Forall₂ (StemsFrom conventions file)
        (ss.filter fun s ↦ ((functionKind conventions).read? s).isSome)
        (bs.map (functionOfBlock conventions file)) := by
  induction ss with
  | nil =>
    intro bs h
    rw [List.map_eq_nil_iff.1 h]
    exact .nil
  | cons s ss ih =>
    intro bs h
    cases hread : (functionKind conventions).read? s with
    | none =>
      rw [List.filterMap_cons_none hread] at h
      rw [List.filter_cons_of_neg (by simp [hread])]
      exact ih h
    | some found =>
      rw [List.filterMap_cons_some hread] at h
      obtain ⟨b, bs, rfl, rfl, hrest⟩ := List.map_eq_cons_iff.1 h
      rw [List.filter_cons_of_pos (by simp [hread])]
      exact .cons ⟨b, hread, rfl⟩ (ih hrest)

/-- Nothing is read of a declaration exactly if all its lines that begin with the export macro are
marked. -/
theorem unmarkedPart?_eq_none_iff {s : Segment} : unmarkedPart? conventions s = none ↔
    ∀ l ∈ s.code, isExported conventions l = true → isMarked conventions l = true := by
  rw [unmarkedPart?, Segment.openedBy?_eq_none_iff]
  simp [opens_functionKind]

/-- A declaration whose first line is not marked is read whole, wherever else the marker stands. -/
theorem unmarkedPart?_of_first {s : Segment} {first : Text} {rest : List Text}
    (hcode : s.code = first :: rest) (hexported : isExported conventions first = true)
    (hfirst : isMarked conventions first = false) : unmarkedPart? conventions s = some s := by
  obtain ⟨code, n⟩ := s
  obtain rfl : code = first :: rest := hcode
  refine Segment.openedBy?_cons ?_
  rw [opens_functionKind, hexported, hfirst]
  rfl

end

/-- **What is read of the exported declarations of a header**, marked or not.  Every fate of a
function, with what is wrong with it, stems from the part of an exported declaration that begins
with its first unmarked line with the export macro.  There is no such part exactly if all lines with
the export macro are marked, and the part is the whole declaration if its first line is unmarked. -/
theorem functionFates_exported (conventions : Conventions) (file t : Text) :
    List.Forall₂ (StemsFrom conventions file)
        (((exportedDeclarations conventions t).filterMap (unmarkedPart? conventions)).filter
          fun s ↦ ((functionKind conventions).read? s).isSome)
        (functionFates conventions file t) ∧
      ∀ s ∈ exportedDeclarations conventions t,
        (unmarkedPart? conventions s = none ↔
          ∀ l ∈ s.code, isExported conventions l = true → isMarked conventions l = true) ∧
        ((∃ first rest, s.code = first :: rest ∧ isExported conventions first = true ∧
          isMarked conventions first = false) → unmarkedPart? conventions s = some s) :=
  ⟨forall₂_stemsFrom conventions file _ (blocks_functionKind conventions t), fun _ _ ↦
    ⟨unmarkedPart?_eq_none_iff conventions, fun ⟨_, _, hcode, hexported, hfirst⟩ ↦
      unmarkedPart?_of_first conventions hcode hexported hfirst⟩⟩

/-- A function whose marker stands on the second line of its declaration is read with the marker in
its type. -/
theorem functionFates_marked :
    exportedDeclarations {} "XN_C_API int\nDEPRECATED f(int a);\n" =
        [⟨["XN_C_API int".toList, "DEPRECATED f(int a);".toList], 2⟩] ∧
      functions {} "a.h" "XN_C_API int\nDEPRECATED f(int a);\n" =
        [{ name := "f", type := "intDEPRECATED", params := [⟨"a", "int", .input⟩],
           location := ⟨"a.h", 2⟩ }] := by
  decide +kernel

end HeaderBindings
