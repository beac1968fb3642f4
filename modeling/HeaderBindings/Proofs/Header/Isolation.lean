import HeaderBindings.Proofs.Header.Placement

/-!
# A prototype behind a header

What does the text of a header say about a prototype on the line behind it?  Nothing, one would
hope: a prototype that is read on its own should be read behind any header that does not end inside
a comment, and with the same name, type and parameters.

`functions_append_line` says what there is to that.  The prototype is read as it should be if the
header leaves no declaration open, and whatever else is wrong with the header has no influence.
But an exported line that no closing parenthesis and semicolon end, such as an exported variable,
is the beginning of a declaration that goes on over the lines that follow.  Then the prototype is
the end of it, and what is found is read from the code of both together.
-/

set_option autoImplicit false

namespace HeaderBindings

/-- The functions in blocks with the same parts are the same, up to documentation and place. -/
theorem map_bare_kept (conventions : Conventions) (file : Text) {bs bs' : List Block}
    (h : bs.map (·.parts) = bs'.map (·.parts)) :
    ((bs.map (functionOfBlock conventions file)).filterMap (·.1.kept?)).map Prototype.bare =
      ((bs'.map (functionOfBlock conventions file)).filterMap (·.1.kept?)).map Prototype.bare := by
  have hkept (bs : List Block) :
      ((bs.map (functionOfBlock conventions file)).filterMap (·.1.kept?)).map Prototype.bare =
        (bs.map fun b ↦ (functionOfBlock conventions file b).1.map .bare).filterMap (·.kept?) := by
    simp only [List.filterMap_map, List.map_filterMap, Function.comp_def, FunctionFate.kept?_map]
  rw [hkept, hkept]
  exact congrArg _ (map_eq_of_parts
    (fun _ _ hparts ↦ (bare_functionOfBlock conventions file file hparts).1) h)

namespace Scanner

variable {kind : BlockKind}

/-- A line in which a declaration is found on its own has code, and it ends a declaration. -/
theorem closes_of_run_ne_nil {raw : Text} {n : Nat} (h : start.run kind n [raw] ≠ []) :
    (lineCode false raw).1.isEmpty = false ∧ kind.closes (lineCode false raw).1 = true := by
  have hsegments : segments kind.opens kind.closes (codeLinesFrom false n [raw]) ≠ [] := by
    intro hnil
    have hfound := run_found kind [raw] start n
    rw [yetToFind_of_none rfl] at hfound
    change _ = (segments kind.opens kind.closes (codeLinesFrom false n [raw])).filterMap _ at hfound
    rw [hnil, List.filterMap_nil, List.map_eq_nil_iff] at hfound
    exact h hfound
  rw [codeLinesFrom_cons] at hsegments
  cases hempty : (lineCode false raw).1.isEmpty with
  | true =>
    rw [hempty, if_pos rfl] at hsegments
    exact absurd segments_nil hsegments
  | false =>
    refine ⟨rfl, ?_⟩
    rw [hempty, if_neg (by simp), List.singleton_append] at hsegments
    cases hopens : kind.opens (lineCode false raw).1 with
    | false =>
      rw [segments_cons_of_not_opens hopens] at hsegments
      exact absurd segments_nil hsegments
    | true =>
      rw [segments_cons_of_opens hopens] at hsegments
      cases hcloses : kind.closes (lineCode false raw).1 with
      | true => rfl
      | false =>
        rw [segmentsAfter_cons_of_not_closes _ hcloses] at hsegments
        exact absurd rfl hsegments

/-- In an open declaration a line that ends it is the last line of it. -/
theorem run_of_closes {s : Scanner} {raw : Text} {n : Nat} {earlier : List Text}
    (hpending : s.pending = some earlier) (hcomment : s.inComment = false)
    (hcode : (lineCode false raw).1.isEmpty = false)
    (hcloses : kind.closes (lineCode false raw).1 = true) :
    (s.run kind n [raw]).map Block.found =
      (kind.read? ⟨earlier.reverse ++ [(lineCode false raw).1], n⟩).toList := by
  rw [run_found, yetToFind_of_some hpending, hcomment, codeLinesFrom_cons, hcode,
    if_neg (by simp), List.singleton_append, segmentsAfter_cons_of_closes _ hcloses]
  change List.filterMap kind.read? (_ :: segments kind.opens kind.closes []) = _
  rw [segments_nil]
  cases hread : kind.read? ⟨earlier.reverse ++ [(lineCode false raw).1], n⟩ with
  | none => rw [List.filterMap_cons_none hread]; rfl
  | some found => rw [List.filterMap_cons_some hread]; rfl

end Scanner

open Scanner in
/-- **What becomes of a prototype behind a header**, if it is read on its own and the header does
not end inside a comment.  Behind a header that leaves no declaration open it is read as on its own.
Behind another header it is the last line of the declaration that is open. -/
theorem functions_append_line {conventions : Conventions} {file t p whole raw : Text}
    {f : Prototype} (hp : p.lines = [raw]) (hf : functions conventions file p = [f])
    (hwhole : whole.lines = t.lines ++ p.lines) (hcomment : commentAfter false t.lines = false) :
    let s := start.after (functionKind conventions) t.lines
    (s.pending = none → ∃ f', functions conventions file whole =
      functions conventions file t ++ [f'] ∧ f'.bare = f.bare) ∧
    ∀ earlier, s.pending = some earlier →
      (blocks (functionKind conventions) whole).map Block.found =
        (blocks (functionKind conventions) t).map Block.found ++
          ((functionKind conventions).read?
            ⟨earlier.reverse ++ [(lineCode false raw).1], t.lines.length + 1⟩).toList := by
  intro s
  have hs : s.inComment = false := (inComment_after _ t.lines start).trans hcomment
  have hblocks : blocks (functionKind conventions) whole =
      blocks (functionKind conventions) t ++
        s.run (functionKind conventions) (t.lines.length + 1) [raw] := by
    rw [blocks, hwhole, hp, run_append, Nat.add_comm 1]
    rfl
  have hrun : blocks (functionKind conventions) p =
      start.run (functionKind conventions) 1 [raw] := by rw [blocks, hp]
  constructor
  · intro hpending
    have hparts : (s.run (functionKind conventions) (t.lines.length + 1) [raw]).map (·.parts) =
        (start.run (functionKind conventions) 1 [raw]).map (·.parts) :=
      map_parts_run (functionKind conventions) hpending hs _ _ [raw]
    have hbare := map_bare_kept conventions file hparts
    rw [← hrun] at hbare
    change _ = (functions conventions file p).map _ at hbare
    rw [hf, List.map_singleton] at hbare
    obtain ⟨f', hf', hsame⟩ := List.map_eq_singleton_iff.1 hbare
    refine ⟨f', ?_, hsame⟩
    rw [functions, functionFates, hblocks, List.map_append, List.filterMap_append, hf']
    rfl
  · intro earlier hpending
    have hne : start.run (functionKind conventions) 1 [raw] ≠ [] := by
      intro hnil
      rw [functions, functionFates, hrun, hnil] at hf
      exact absurd hf (by simp)
    obtain ⟨hcode, hcloses⟩ := closes_of_run_ne_nil hne
    rw [hblocks, List.map_append, run_of_closes hpending hs hcode hcloses]

/-- A header with a refused function, and a function behind it. -/
theorem functions_append_line_refused :
    ∃ f, functions {} "a.h" "XN_C_API int g(int);\nXN_C_API int f(int x);\n" = [f] ∧
      f.bare = { name := "f", type := "int", params := [⟨"x", "int", .input⟩] } := by
  let t : Text := "XN_C_API int g(int);\n"
  let p : Text := "XN_C_API int f(int x);\n"
  have hp : p.lines = ["XN_C_API int f(int x);".toList] := by decide +kernel
  let own : Prototype :=
    { name := "f", type := "int", params := [⟨"x", "int", .input⟩], location := ⟨"a.h", 1⟩ }
  have hread : functions {} "a.h" p = [own] := by decide +kernel
  have hwhole : Text.lines "XN_C_API int g(int);\nXN_C_API int f(int x);\n" =
      t.lines ++ p.lines := by decide +kernel
  obtain ⟨f, hf, hbare⟩ :=
    (functions_append_line hp hread hwhole (by decide +kernel)).1 (by decide +kernel)
  have hnone : functions {} "a.h" t = [] := by decide +kernel
  exact ⟨f, hf.trans (by rw [hnone, List.nil_append]), hbare.trans (by decide)⟩

/-- An exported variable takes the prototype behind it along: what is found has its name and its
parameters, but the type is made of all that stands in front of the name. -/
theorem functions_append_line_swallowed :
    (functions {} "a.h" "XN_C_API int f(int x);\n").map (fun f ↦ (f.name, f.type)) =
        [("f".toList, "int".toList)] ∧
      (functions {} "a.h" "XN_C_API int xnVersion;\nXN_C_API int f(int x);\n").map
        (fun f ↦ (f.name, f.type)) = [("f".toList, "intxnVersion;XN_C_APIint".toList)] := by
  decide +kernel

end HeaderBindings
