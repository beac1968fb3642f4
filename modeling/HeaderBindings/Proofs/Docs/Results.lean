import Mathlib.Data.List.Nodup
import Mathlib.Data.List.Perm.Subperm
import HeaderBindings.Proofs.Docs.Grouping
import HeaderBindings.Proofs.Header.Fates

/-!
# Documented results

What a function returns is said twice.  Its documentation ends in a line that lists the parameters
tagged as outputs, and its parameters have directions, of which an output is what the call returns.
The line is made while the comment is read, from the tags alone and in the order of the comment,
and the directions are taken afterwards, from the tags and from the table of output types and in the
order of the declaration.

* `DocSection.param?`: the parameter that a section is about, whatever direction it gives.
* `Prototype.IsDocumented` is what reading a header leaves every function with, and
  `IsDocumented.output_iff` says which of its parameters are outputs.
* `results_documented`: the line lists the outputs exactly if the comment tags them in the order of
  the declaration and the table adds none, and no other line is about an output exactly if all lines
  about it tag it.  `results_swapped` is a function for which neither is so.
-/

set_option autoImplicit false

namespace HeaderBindings

/-! ## Sections about parameters -/

namespace DocSection

variable {s : DocSection} {name : Text}

/-- The parameter that the section is about, if its line can be taken apart. -/
def param? (s : DocSection) : Option Text :=
  match s.tag, ParamLine.parse s.line with
  | .param, .input name _ | .param, .inout name _ | .param, .output name _ => some name
  | _, _ => none

theorem field_eq_dropped_iff : s.field = .dropped ↔ ∃ name, s.output? = some name := by
  rw [← Option.isSome_iff_exists, isSome_output?, decide_eq_true_eq]

theorem param?_of_output? (h : s.output? = some name) : s.param? = some name := by
  obtain ⟨htag, text, hline⟩ := (output?_eq_some_iff s).1 h
  rw [param?, htag, hline]

/-- The entry of an output begins with its name. -/
theorem text_of_output? (h : s.output? = some name) :
    ∃ text, s.text = Text.trimEnd (name ++ ' ' :: text) := by
  have hfield : s.field = .dropped := field_eq_dropped_iff.2 ⟨name, h⟩
  obtain ⟨htag, text, hline⟩ := (output?_eq_some_iff s).1 h
  refine ⟨text, ?_⟩
  rw [DocSection.text, added, if_pos hfield, first, htag, hline]
  exact List.append_nil _

/-- The entry of any other parameter begins with its tag and its name. -/
theorem text_of_param? (hfield : s.field = .param) (h : s.param? = some name) :
    ∃ text, s.text = "@param " ++ name ++ ": " ++ text := by
  obtain ⟨text, hfirst⟩ : ∃ text, s.first = "@param " ++ name ++ ": " ++ text := by
    rw [field] at hfield
    rw [param?] at h
    rw [first]
    split at h
    · rename_i htag hline
      rw [htag, hline]
      exact ⟨_, by rw [Option.some_inj.1 h]⟩
    · rename_i htag hline
      rw [htag, hline]
      exact ⟨_, by rw [Option.some_inj.1 h]⟩
    · rename_i htag hline
      rw [htag, hline] at hfield
      exact absurd hfield (by simp)
    · exact absurd h (by simp)
  rw [DocSection.text, hfirst]
  cases hadded : s.added with
  | nil => exact ⟨text, by simp [Text.joinWith]⟩
  | cons line more =>
    exact ⟨text ++ ' ' :: Text.joinWith [' '] (line :: more), by simp [Text.joinWith]⟩

/-- The line of the section in the documentation of a function. -/
def entry (s : DocSection) : Text := endDot s.text

/-- A line about a parameter tags it as an output, or it is a line of its own. -/
theorem field_of_param? (h : s.param? = some name) :
    s.field = .param ∨ s.output? = some name := by
  have htag : s.tag = .param := by
    rw [param?] at h
    cases hs : s.tag with
    | param => rfl
    | _ => simp [hs] at h
  rcases s.tag_eq_param_iff.1 htag with hfield | hfield
  · exact .inl hfield
  · obtain ⟨name', hout⟩ := field_eq_dropped_iff.1 hfield
    obtain rfl := Option.some_inj.1 ((param?_of_output? hout).symm.trans h)
    exact .inr hout

end DocSection

/-! ## Functions that are read -/

namespace Prototype

/-- The documentation of a function as groups of lines. -/
def docGroups (f : Prototype) : DocGroups := .of (plainMarkup f.comment).lines

/-- The parameters that a call returns, in the order in which it returns them. -/
def results (f : Prototype) : List Text :=
  (f.params.filter (·.direction = .output)).map (·.name)

/-- The documentation of the function is that of its comment, and so are the directions of its
parameters, with the given types as outputs. -/
structure IsDocumented (outputTypes : List Text) (f : Prototype) : Prop where
  doc : f.doc = f.docGroups.fields
  directions : ∀ p ∈ f.params, p.direction = p.directionFor f.doc outputTypes

theorem isDocumented_withDirections {f : Prototype} (h : f.doc = .ofComment f.comment)
    (outputTypes : List Text) : (f.withDirections outputTypes).IsDocumented outputTypes where
  doc := h.trans (DocGroups.fields_of f.comment)
  directions := by
    intro p hp
    obtain ⟨q, -, rfl⟩ := List.mem_map.1 hp
    rfl

end Prototype

variable {conventions : Conventions} {file t : Text} {f : Prototype}

/-- Every function that is read is documented. -/
theorem isDocumented_of_mem_functions (h : f ∈ functions conventions file t) :
    f.IsDocumented conventions.outputTypes := by
  obtain ⟨⟨fate, wrong⟩, hfate, hkept⟩ := List.mem_filterMap.1 h
  obtain ⟨b, -, hb⟩ := List.mem_map.1 hfate
  have hway := wayOut_functionOfBlock conventions file b
  rw [hb] at hway
  cases hway with
  | kept =>
    obtain rfl := Option.some_inj.1 hkept
    refine Prototype.isDocumented_withDirections ?_ _
    rfl
  | _ => exact absurd hkept (by simp [FunctionFate.kept?])

theorem Parameter.directionFor_eq_output_iff {p : Parameter} {doc : DocFields}
    {outputTypes : List Text} : p.directionFor doc outputTypes = .output ↔
      p.name ∈ doc.outputs ∨ p.name ∉ doc.inouts ∧ p.type ∈ outputTypes := by
  rw [directionFor]
  split_ifs with hout hinout htype <;> simp [*]

/-! ## The line about results -/

namespace DocGroups

variable {g : DocGroups}

/-- The entries of the outputs are made for them, in order. -/
theorem entries_dropped (g : DocGroups) :
    List.Forall₂ (fun entry name ↦ ∃ text, entry = Text.trimEnd (name ++ ' ' :: text))
      (g.entries .dropped) g.fields.outputs := by
  rw [entries, fields]
  induction g.sections with
  | nil => exact .nil
  | cons s sections ih =>
    by_cases hfield : s.field = .dropped
    · obtain ⟨name, hout⟩ := DocSection.field_eq_dropped_iff.1 hfield
      rw [List.filter_cons_of_pos (by simpa using hfield), List.map_cons,
        List.filterMap_cons_some hout]
      exact .cons (DocSection.text_of_output? hout) ih
    · have hout : s.output? = none :=
        Option.not_isSome_iff_eq_none.1 (by simpa [DocSection.isSome_output?] using hfield)
      rw [List.filter_cons_of_neg (by simpa using hfield), List.filterMap_cons_none hout]
      exact ih

/-- If there are outputs, the line about them is the only one about what is returned. -/
theorem tails_of_outputs (h : g.fields.outputs ≠ []) :
    g.fields.tails = endDot ("@return: " ++ Text.joinWith ", " (g.entries .dropped)) ::
      (g.entries .note ++ g.entries .version ++ g.entries .bug).map endDot := by
  have hentries : g.entries .dropped ≠ [] := fun hnil ↦ h (by
    simpa [hnil] using g.entries_dropped)
  rw [fields, results, if_neg hentries, List.append_assoc, List.append_assoc, List.map_append,
    List.map_singleton, List.singleton_append, List.append_assoc]

/-- The sections about parameters that are no outputs. -/
def parameters (g : DocGroups) : List DocSection := g.sections.filter (·.field = .param)

/-- They are the documented parameters, in order. -/
theorem params_fields (g : DocGroups) : g.fields.params = g.parameters.map DocSection.entry := by
  rw [fields, entries, List.map_map]
  rfl

end DocGroups

/-! ## Outputs and results -/

/-- What a list without repetitions has in common with a part of it is that part. -/
theorem filter_mem_of_sublist {part whole : List Text} (hwhole : whole.Nodup)
    (h : part.Sublist whole) : whole.filter (· ∈ part) = part := by
  have hpart : part.filter (· ∈ part) = part :=
    List.filter_eq_self.2 fun _ hx ↦ decide_eq_true hx
  have hsub : part.Sublist (whole.filter (· ∈ part)) := by
    simpa only [hpart] using h.filter (· ∈ part)
  have hin : whole.filter (· ∈ part) ⊆ part := fun _ hx ↦
    of_decide_eq_true (List.mem_filter.1 hx).2
  have hlength : (whole.filter (· ∈ part)).length ≤ part.length :=
    (List.Nodup.subperm (hwhole.filter _) hin).length_le
  exact (hsub.eq_of_length_le hlength).symm

namespace Prototype

/-- The comment tags outputs in the order of the declaration, each of them once. -/
def TagsInOrder (f : Prototype) : Prop :=
  f.doc.outputs = (f.params.filter (·.name ∈ f.doc.outputs)).map (·.name)

theorem tagsInOrder_iff (h : (f.params.map (·.name)).Nodup) :
    f.TagsInOrder ↔ f.doc.outputs.Sublist (f.params.map (·.name)) := by
  have hfilter : (f.params.filter (·.name ∈ f.doc.outputs)).map (·.name) =
      (f.params.map (·.name)).filter (· ∈ f.doc.outputs) := by
    rw [List.filter_map]
    rfl
  rw [TagsInOrder, hfilter]
  exact ⟨fun heq ↦ heq ▸ List.filter_sublist, fun hsub ↦ (filter_mem_of_sublist h hsub).symm⟩

namespace IsDocumented

variable {outputTypes : List Text}

theorem output_iff (h : f.IsDocumented outputTypes) : ∀ p ∈ f.params, p.direction = .output ↔
    p.name ∈ f.doc.outputs ∨ p.name ∉ f.doc.inouts ∧ p.type ∈ outputTypes := fun p hp ↦ by
  rw [h.directions p hp, Parameter.directionFor_eq_output_iff]

/-- The tagged outputs are the results if they are tagged in order and no other parameter is an
output by its type. -/
theorem outputs_eq_results_iff (h : f.IsDocumented outputTypes) : f.doc.outputs = f.results ↔
    f.TagsInOrder ∧ ∀ p ∈ f.params, p.direction = .output → p.name ∈ f.doc.outputs := by
  have hresults (hall : ∀ p ∈ f.params, p.direction = .output → p.name ∈ f.doc.outputs) :
      f.results = (f.params.filter (·.name ∈ f.doc.outputs)).map (·.name) := by
    refine congrArg (List.map _) (List.filter_congr fun p hp ↦ ?_)
    rw [decide_eq_decide]
    exact ⟨hall p hp, fun hout ↦ (h.output_iff p hp).2 (.inl hout)⟩
  constructor
  · intro heq
    have hall : ∀ p ∈ f.params, p.direction = .output → p.name ∈ f.doc.outputs := by
      intro p hp hout
      rw [heq]
      exact List.mem_map_of_mem (List.mem_filter.2 ⟨hp, decide_eq_true hout⟩)
    exact ⟨heq.trans (hresults hall), hall⟩
  · rintro ⟨horder, hall⟩
    exact horder.trans (hresults hall).symm

end IsDocumented

end Prototype

/-- A line of its own is about an output unless every line about it tags it as one. -/
theorem DocGroups.untagged_iff (g : DocGroups) (ps : List Text) :
    (∀ s ∈ g.parameters, ∀ name ∈ ps, s.param? ≠ some name) ↔
      ∀ s ∈ g.sections, ∀ name ∈ ps, s.param? = some name → s.output? = some name := by
  simp only [parameters, List.mem_filter, decide_eq_true_eq, and_imp]
  refine forall₂_congr fun s _ ↦ ⟨fun hown name hname habout ↦ ?_, fun htags hfield ↦ ?_⟩
  · exact (s.field_of_param? habout).resolve_left fun hfield ↦ hown hfield name hname habout
  · intro name hname habout
    have hdropped := DocSection.field_eq_dropped_iff.2 ⟨name, htags name hname habout⟩
    exact absurd (hfield.symm.trans hdropped) (by simp)

/-- **When the documented results are the real ones.**  The documentation lists the outputs that
the comment tags, in its order, and a call returns those that are declared as outputs, in the order
of the declaration.  The two are the same exactly if the comment tags in that order and no type adds
an output.  No further line is about a result exactly if every line about one tags it. -/
theorem results_documented (h : f ∈ functions conventions file t) (houtputs : f.doc.outputs ≠ []) :
    f.doc.tails = endDot ("@return: " ++ Text.joinWith ", " (f.docGroups.entries .dropped)) ::
        (f.docGroups.entries .note ++ f.docGroups.entries .version ++
          f.docGroups.entries .bug).map endDot ∧
      List.Forall₂ (fun entry name ↦ ∃ text, entry = Text.trimEnd (name ++ ' ' :: text))
        (f.docGroups.entries .dropped) f.doc.outputs ∧
      (∀ p ∈ f.params, p.direction = .output ↔
        p.name ∈ f.doc.outputs ∨ p.name ∉ f.doc.inouts ∧ p.type ∈ conventions.outputTypes) ∧
      (f.doc.outputs = f.results ↔
        f.TagsInOrder ∧ ∀ p ∈ f.params, p.direction = .output → p.name ∈ f.doc.outputs) ∧
      ((f.params.map (·.name)).Nodup →
        (f.TagsInOrder ↔ f.doc.outputs.Sublist (f.params.map (·.name)))) ∧
      f.doc.params = f.docGroups.parameters.map DocSection.entry ∧
      (∀ s ∈ f.docGroups.parameters, ∀ name, s.param? = some name →
        ∃ text, s.entry = endDot ("@param " ++ name ++ ": " ++ text)) ∧
      ((∀ s ∈ f.docGroups.parameters, ∀ name ∈ f.results, s.param? ≠ some name) ↔
        ∀ s ∈ f.docGroups.sections, ∀ name ∈ f.results,
          s.param? = some name → s.output? = some name) := by
  have hdocumented := isDocumented_of_mem_functions h
  have hdoc := hdocumented.doc
  refine ⟨?_, ?_, hdocumented.output_iff, hdocumented.outputs_eq_results_iff,
    Prototype.tagsInOrder_iff, ?_, fun s hs name habout ↦ ?_,
    f.docGroups.untagged_iff f.results⟩
  · rw [hdoc] at houtputs ⊢
    exact DocGroups.tails_of_outputs houtputs
  · rw [hdoc]
    exact f.docGroups.entries_dropped
  · rw [hdoc]
    exact f.docGroups.params_fields
  · have hfield : s.field = .param := of_decide_eq_true (List.mem_filter.1 hs).2
    obtain ⟨text, htext⟩ := DocSection.text_of_param? hfield habout
    exact ⟨text, congrArg endDot htext⟩

/-- A function whose comment tags its outputs in order. -/
def sizesHeader : Text :=
  "/**\n * Sizes.\n * @param nMax [in] the limit\n * @param a [out] pointer to get the first\n" ++
  " * @param b [out] second\n */\nXN_C_API int f(int nMax, int* a, int* b);\n"

theorem results_documented_sizes : ∃ f ∈ functions {} "t.h" sizesHeader,
    f.doc.tails = [("@return: a first, b second." : Text)] ∧ f.TagsInOrder ∧
      f.doc.outputs = f.results ∧
      ∀ s ∈ f.docGroups.parameters, ∀ name ∈ f.results, s.param? ≠ some name := by
  obtain ⟨f, hf, htails, houtputs, hnames, hsublist, hall, htags⟩ :
      ∃ f ∈ functions {} "t.h" sizesHeader,
        f.doc.tails = [("@return: a first, b second." : Text)] ∧ f.doc.outputs ≠ [] ∧
          (f.params.map (·.name)).Nodup ∧ f.doc.outputs.Sublist (f.params.map (·.name)) ∧
          (∀ p ∈ f.params, p.direction = .output → p.name ∈ f.doc.outputs) ∧
          ∀ s ∈ f.docGroups.sections, ∀ name ∈ f.results,
            s.param? = some name → s.output? = some name := by decide +kernel
  obtain ⟨-, -, -, hresults, horder, -, -, hlines⟩ := results_documented hf houtputs
  have hinOrder := (horder hnames).2 hsublist
  exact ⟨f, hf, htails, hinOrder, hresults.2 ⟨hinOrder, hall⟩, hlines.2 htags⟩

/-- **The documented results need not be the real ones**: here they stand in another order, and one
more result has a line of its own. -/
theorem results_swapped : ∃ f ∈ functions {} "t.h" ("/**\n * Sizes.\n * @param b [out] second\n" ++
      " * @param a [out] first\n * @param n the count\n */\n" ++
      "XN_C_API int f(int* a, int* b, int* n);\n"),
    f.results = [("a" : Text), ("b" : Text), ("n" : Text)] ∧
      f.doc.outputs = [("b" : Text), ("a" : Text)] ∧
      f.doc.tails = [("@return: b second, a first." : Text)] ∧
      f.doc.params = [("@param n: the count." : Text)] ∧
      ∃ s ∈ f.docGroups.parameters, s.param? = some ("n" : Text) := by
  decide +kernel

end HeaderBindings
