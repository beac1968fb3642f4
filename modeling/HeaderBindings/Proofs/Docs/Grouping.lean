import HeaderBindings.DocComment
import Mathlib.Data.List.DropRight
import Mathlib.Data.List.ModifyLast
import Mathlib.Data.List.TakeDrop

/-!
# Documentation as groups of lines

A documentation comment is a description and sections behind it, each of which begins with a tagged
line.  `DocGroups` is such a comment, and every list of lines is one in exactly one way
(`DocGroups.of`).

The reader of a comment knows nothing of sections.  It has a place for the entries of each field and
remembers the field that the last tagged line belongs to.

* `DocReader.entries_more`: the lines behind a tagged line are added to the latest entry of that
  field and change nothing else.
* `DocReader.Holds` says what a reader has taken in after some sections, and `Holds.take` and
  `Holds.takeAll` that this stays so with one more of them and with any number.
* `DocFields.ofComment_grouped`: each field is made from the sections that belong to it.
-/

set_option autoImplicit false

namespace HeaderBindings

/-! ## Sections -/

/-- A tagged line and what stands behind it up to the next one. -/
@[ext]
structure DocSection where
  tag : DocTag
  line : Text
  more : List Text
  tagged : DocTag.of? line = some tag
  untagged : ∀ l ∈ more, DocTag.of? l = none

namespace DocSection

variable (s : DocSection)

/-- All lines of the section. -/
def lines : List Text := s.line :: s.more

/-- The field that the section is an entry of. -/
def field : DocField :=
  match s.tag with
  | .param =>
    match ParamLine.parse s.line with
    | .output .. => .dropped
    | _ => .param
  | .result => .result
  | .bug => .bug
  | .version => .version
  | .note => .note

/-- What the tagged line itself says. -/
def first : Text :=
  match s.tag with
  | .param =>
    match ParamLine.parse s.line with
    | .unreadable t => t
    | .input name text | .inout name text => "@param " ++ name ++ ": " ++ text
    | .output name text => Text.trimEnd (name ++ ' ' :: text)
  | .result => colonAfter "@return" s.line
  | .bug => colonAfter "@bug" s.line
  | .version => colonAfter "@version" s.line
  | .note => colonAfter "@warning" (colonAfter "@note" s.line)

/-- What the lines behind it add to it. -/
def added : List Text :=
  if s.field = .dropped then [] else (s.more.map Text.trim).filter fun l ↦ !l.isEmpty

/-- The entry that the section gives. -/
def text : Text := Text.joinWith [' '] (s.first :: s.added)

/-- The name of the parameter, if the section tags it as a result. -/
def output? : Option Text :=
  match s.tag, ParamLine.parse s.line with
  | .param, .output name _ => some name
  | _, _ => none

/-- The name of the parameter, if the section tags it as both. -/
def inout? : Option Text :=
  match s.tag, ParamLine.parse s.line with
  | .param, .inout name _ => some name
  | _, _ => none

/-- Parameters are entries of one of two fields. -/
theorem tag_eq_param_iff : s.tag = .param ↔ s.field = .param ∨ s.field = .dropped := by
  rw [field]
  cases s.tag with
  | param => cases ParamLine.parse s.line <;> simp
  | _ => simp

theorem output?_eq_some_iff {name : Text} : s.output? = some name ↔
    s.tag = .param ∧ ∃ text, ParamLine.parse s.line = .output name text := by
  rw [output?]
  cases s.tag with
  | param => cases ParamLine.parse s.line <;> simp
  | _ => simp

theorem inout?_eq_some_iff {name : Text} : s.inout? = some name ↔
    s.tag = .param ∧ ∃ text, ParamLine.parse s.line = .inout name text := by
  rw [inout?]
  cases s.tag with
  | param => cases ParamLine.parse s.line <;> simp
  | _ => simp

theorem isSome_output? : s.output?.isSome = decide (s.field = .dropped) := by
  rw [output?, field]
  cases s.tag with
  | param => cases ParamLine.parse s.line <;> rfl
  | _ => rfl

/-- The lines about parameters are those with their tag. -/
theorem contains_param_iff {line : Text} :
    line.contains "@param" = true ↔ DocTag.of? line = some .param := by
  rw [DocTag.of?]
  split_ifs <;> simp_all

theorem contains_param_eq_false {line : Text} (h : DocTag.of? line = none) :
    line.contains "@param" = false := by
  rw [← Bool.not_eq_true, contains_param_iff, h]
  simp

end DocSection

/-! ## Groups -/

/-- A description and the sections behind it. -/
@[ext]
structure DocGroups where
  heads : List Text
  sections : List DocSection
  untagged : ∀ l ∈ heads, DocTag.of? l = none

namespace DocGroups

/-- All lines, in the order they stand in. -/
def lines (g : DocGroups) : List Text := g.heads ++ g.sections.flatMap DocSection.lines

/-- Lines as a description and sections. -/
def of : List Text → DocGroups
  | [] => ⟨[], [], by simp⟩
  | line :: lines =>
    match h : DocTag.of? line with
    | none =>
      ⟨line :: (of lines).heads, (of lines).sections,
        List.forall_mem_cons.2 ⟨h, (of lines).untagged⟩⟩
    | some tag =>
      ⟨[], ⟨tag, line, (of lines).heads, h, (of lines).untagged⟩ :: (of lines).sections, by simp⟩

theorem of_cons_of_untagged {line : Text} (h : DocTag.of? line = none) (lines : List Text) :
    (of (line :: lines)).heads = line :: (of lines).heads ∧
      (of (line :: lines)).sections = (of lines).sections := by
  rw [of]
  split
  · exact ⟨rfl, rfl⟩
  · rename_i tag htag
    exact absurd (htag.symm.trans h) (by simp)

theorem of_cons_of_tagged {line : Text} {tag : DocTag} (h : DocTag.of? line = some tag)
    (lines : List Text) : (of (line :: lines)).heads = [] ∧ (of (line :: lines)).sections =
      ⟨tag, line, (of lines).heads, h, (of lines).untagged⟩ :: (of lines).sections := by
  rw [of]
  split
  · rename_i hnone
    exact absurd (hnone.symm.trans h) (by simp)
  · rename_i tag' htag
    obtain rfl := Option.some_inj.1 (htag.symm.trans h)
    exact ⟨rfl, rfl⟩

@[simp]
theorem lines_of (lines : List Text) : (of lines).lines = lines := by
  induction lines with
  | nil => rfl
  | cons line lines ih =>
    rw [DocGroups.lines] at ih ⊢
    cases h : DocTag.of? line with
    | none =>
      obtain ⟨hheads, hsections⟩ := of_cons_of_untagged h lines
      rw [hheads, hsections, List.cons_append, ih]
    | some tag =>
      obtain ⟨hheads, hsections⟩ := of_cons_of_tagged h lines
      rw [hheads, hsections, List.flatMap_cons, DocSection.lines, List.nil_append, List.cons_append,
        ih]

variable (g : DocGroups)

/-- What the sections give a field, in the order they stand in. -/
def entries (f : DocField) : List Text := (g.sections.filter (·.field = f)).map DocSection.text

/-- The lines about what is returned: one for all output parameters if there are any. -/
def results : List Text :=
  if g.entries .dropped = [] then g.entries .result
  else ["@return: " ++ Text.joinWith ", " (g.entries .dropped)]

/-- The lines of the description, without blanks at their ends and without blank lines at the end,
with the first line that is not blank in upper case and the last one ending like a sentence. -/
def description : List Text :=
  let kept := (g.heads.map Text.trimEnd).rdropWhile Text.isBlank
  (kept.takeWhile Text.isBlank ++ (kept.dropWhile Text.isBlank).modifyHead upperFirst).modifyLast
    endDot

/-- The fields of the comment. -/
def fields : DocFields where
  heads := g.description
  params := (g.entries .param).map endDot
  outputs := g.sections.filterMap DocSection.output?
  inouts := g.sections.filterMap DocSection.inout?
  tails := (g.results ++ g.entries .note ++ g.entries .version ++ g.entries .bug).map endDot

end DocGroups

/-! ## Reading -/

namespace DocEntries

/-- Further lines are added to the latest entry. -/
theorem foldl_continued (more : List Text) (latest : List Text) (earlier : DocEntries) :
    more.foldl continued (latest :: earlier) = (more.reverse ++ latest) :: earlier := by
  induction more generalizing latest with
  | nil => rfl
  | cons line more ih =>
    rw [List.foldl_cons, continued, ih, List.reverse_cons, List.append_assoc]
    rfl

end DocEntries

namespace DocReader

variable {r : DocReader}

/-- The entries of a field.  The output parameters have one line each. -/
def entries (r : DocReader) : DocField → DocEntries
  | .param => r.params
  | .result => r.results
  | .bug => r.bugs
  | .version => r.versions
  | .note => r.notes
  | .dropped => r.outputTexts.map fun t ↦ [t]

/-- **A tagged line** begins an entry, and is remembered by its field. -/
theorem step_tagged (r : DocReader) (s : DocSection) :
    (r.step s.line).current = some s.field ∧ (r.step s.line).heads = r.heads ∧
      (∀ f, (r.step s.line).entries f =
        if s.field = f then [s.first] :: r.entries f else r.entries f) ∧
      (r.step s.line).outputs = s.output?.toList ++ r.outputs ∧
      (r.step s.line).inouts = s.inout?.toList ++ r.inouts := by
  rw [step, s.tagged, DocSection.field, DocSection.first, DocSection.output?, DocSection.inout?]
  cases s.tag with
  | param =>
    dsimp only
    rw [param]
    cases ParamLine.parse s.line <;> exact ⟨rfl, rfl, fun f ↦ by cases f <;> rfl, rfl, rfl⟩
  | _ => exact ⟨rfl, rfl, fun f ↦ by cases f <;> rfl, rfl, rfl⟩

/-- A line without a tag is added to the latest entry of the field that is remembered. -/
theorem step_untagged {field : DocField} (hcurrent : r.current = some field) {line : Text}
    (hline : DocTag.of? line = none) :
    (r.step line).current = some field ∧ (r.step line).heads = r.heads ∧
      (∀ f, (r.step line).entries f =
        if field = f ∧ f ≠ .dropped ∧ line.trim ≠ [] then (r.entries f).continued line.trim
        else r.entries f) ∧
      (r.step line).outputs = r.outputs ∧ (r.step line).inouts = r.inouts := by
  rw [step, hline]
  dsimp only
  rw [untagged, hcurrent]
  dsimp only
  split
  · rename_i hblank
    have hnil : line.trim = [] := List.isEmpty_iff.1 hblank
    exact ⟨hcurrent, rfl, fun f ↦ by simp [hnil], rfl, rfl⟩
  · rename_i hsolid
    have hne : line.trim ≠ [] := fun hnil ↦ hsolid (List.isEmpty_iff.2 hnil)
    cases field with
    | dropped => exact ⟨hcurrent, rfl, fun f ↦ by cases f <;> simp, rfl, rfl⟩
    | _ => exact ⟨rfl, rfl, fun f ↦ by cases f <;> simp [hne, entries], rfl, rfl⟩

/-- **The lines behind a tagged line** are added to its entry and change nothing else. -/
theorem entries_more {field : DocField} {more : List Text}
    (hmore : ∀ l ∈ more, DocTag.of? l = none) (hcurrent : r.current = some field) :
    (more.foldl step r).heads = r.heads ∧
      (∀ f, (more.foldl step r).entries f = if field = f ∧ f ≠ .dropped then
        ((more.map Text.trim).filter fun l ↦ !l.isEmpty).foldl DocEntries.continued (r.entries f)
        else r.entries f) ∧
      (more.foldl step r).outputs = r.outputs ∧ (more.foldl step r).inouts = r.inouts := by
  induction more generalizing r with
  | nil => simp
  | cons line more ih =>
    rw [List.forall_mem_cons] at hmore
    obtain ⟨hfield, hheads, hentries, houtputs, hinouts⟩ := step_untagged hcurrent hmore.1
    obtain ⟨hheads', hentries', houtputs', hinouts'⟩ := ih hmore.2 hfield
    rw [List.foldl_cons]
    refine ⟨hheads'.trans hheads, fun f ↦ ?_, houtputs'.trans houtputs, hinouts'.trans hinouts⟩
    rw [hentries', hentries]
    by_cases hf : field = f ∧ f ≠ .dropped <;> by_cases hline : line.trim = [] <;>
      simp [hf, hline]

/-- What a reader has taken in after a description and some sections. -/
structure Holds (r : DocReader) (heads : List Text) (sections : List DocSection) : Prop where
  heads : r.heads = (heads.map Text.trimEnd).reverse
  entries : ∀ f, r.entries f =
    ((sections.filter (·.field = f)).map fun s ↦ (s.first :: s.added).reverse).reverse
  outputs : r.outputs = (sections.filterMap DocSection.output?).reverse
  inouts : r.inouts = (sections.filterMap DocSection.inout?).reverse

/-- **One more section** is taken in. -/
theorem Holds.take {heads : List Text} {earlier : List DocSection} (h : r.Holds heads earlier)
    (s : DocSection) : (s.lines.foldl step r).Holds heads (earlier ++ [s]) := by
  obtain ⟨hcurrent, hheads, hentries, houtputs, hinouts⟩ := step_tagged r s
  obtain ⟨hheads', hentries', houtputs', hinouts'⟩ := entries_more s.untagged hcurrent
  rw [DocSection.lines, List.foldl_cons]
  refine ⟨hheads'.trans (hheads.trans h.heads), fun f ↦ ?_, ?_, ?_⟩
  · rw [hentries', hentries, h.entries, List.filter_append, List.map_append, List.reverse_append]
    by_cases hf : s.field = f
    · subst hf
      by_cases hdropped : s.field = .dropped <;>
        simp [DocSection.added, hdropped, DocEntries.foldl_continued]
    · simp [hf]
  · rw [houtputs', houtputs, h.outputs, List.filterMap_append, List.reverse_append]
    cases hoption : s.output? <;> simp [hoption]
  · rw [hinouts', hinouts, h.inouts, List.filterMap_append, List.reverse_append]
    cases hoption : s.inout? <;> simp [hoption]

/-- And so are any number of them. -/
theorem Holds.takeAll {heads : List Text} {earlier : List DocSection} (h : r.Holds heads earlier)
    (later : List DocSection) :
    ((later.flatMap DocSection.lines).foldl step r).Holds heads (earlier ++ later) := by
  induction later generalizing r earlier with
  | nil => simpa using h
  | cons s later ih =>
    rw [List.flatMap_cons, List.foldl_append]
    simpa using ih (h.take s)

/-- In front of all sections lines are collected. -/
theorem foldl_heads {heads : List Text} (h : ∀ l ∈ heads, DocTag.of? l = none)
    (earlier : List Text) : heads.foldl step { heads := earlier } =
      { heads := (heads.map Text.trimEnd).reverse ++ earlier } := by
  induction heads generalizing earlier with
  | nil => rfl
  | cons line heads ih =>
    rw [List.forall_mem_cons] at h
    rw [List.foldl_cons, step, h.1]
    exact (ih h.2 (line.trimEnd :: earlier)).trans (by simp)

/-- A whole comment is taken in. -/
theorem holds_foldl (g : DocGroups) : (g.lines.foldl step {}).Holds g.heads g.sections := by
  have hheads := foldl_heads g.untagged []
  have hempty : (g.heads.foldl step {}).Holds g.heads [] := by
    rw [hheads]
    exact ⟨List.append_nil _, fun f ↦ by cases f <;> rfl, rfl, rfl⟩
  rw [DocGroups.lines, List.foldl_append]
  exact hempty.takeAll g.sections

/-- The entries of a field are those of its sections. -/
theorem Holds.texts {heads : List Text} {sections : List DocSection} (h : r.Holds heads sections)
    (f : DocField) : (r.entries f).texts =
      (sections.filter (·.field = f)).map DocSection.text := by
  rw [h.entries, DocEntries.texts, List.reverse_reverse, List.map_map]
  exact List.map_congr_left fun s _ ↦ congrArg (Text.joinWith [' ']) (List.reverse_reverse _)

end DocReader

/-! ## Fields -/

namespace DocGroups

variable (g : DocGroups)

/-- The description that a reader makes of its lines. -/
theorem description_eq :
    DocReader.description (g.heads.map Text.trimEnd).reverse = g.description := by
  rw [DocReader.description, description, List.rdropWhile]
  generalize ((g.heads.map Text.trimEnd).reverse.dropWhile Text.isBlank).reverse = kept
  rw [List.span_eq_takeWhile_dropWhile]
  cases kept.dropWhile Text.isBlank with
  | nil =>
    rw [List.modifyHead_nil, List.append_nil]
    rcases List.eq_nil_or_concat' (kept.takeWhile Text.isBlank) with hnil | ⟨l, last, hl⟩
    · rw [hnil]
      rfl
    · simp [hl, List.modifyLast_concat]
  | cons first rest =>
    rw [List.modifyHead_cons]
    rcases List.eq_nil_or_concat' (kept.takeWhile Text.isBlank ++ upperFirst first :: rest) with
      hnil | ⟨l, last, hl⟩
    · exact absurd hnil (by simp)
    · dsimp only
      rw [hl]
      simp [List.modifyLast_concat]

/-- A comment documents parameters on the lines that are about them. -/
theorem exists_param_iff {Q : Text → Prop} :
    (∃ s ∈ g.sections, s.tag = .param ∧ Q s.line) ↔
      ∃ line ∈ g.lines, line.contains "@param" = true ∧ Q line := by
  constructor
  · rintro ⟨s, hs, htag, hQ⟩
    have hline : s.line ∈ g.lines :=
      List.mem_append_right _ (List.mem_flatMap.2 ⟨s, hs, List.mem_cons_self⟩)
    refine ⟨s.line, hline, ?_, hQ⟩
    rw [DocSection.contains_param_iff, s.tagged, htag]
  · rintro ⟨line, hline, hparam, hQ⟩
    have htagged {lines : List Text} (h : ∀ l ∈ lines, DocTag.of? l = none) : line ∉ lines :=
      fun hmem ↦ absurd (hparam.symm.trans (DocSection.contains_param_eq_false (h line hmem)))
        (by simp)
    obtain ⟨s, hs, hmem⟩ :=
      List.mem_flatMap.1 ((List.mem_append.1 hline).resolve_left (htagged g.untagged))
    obtain rfl := (List.mem_cons.1 hmem).resolve_right (htagged s.untagged)
    rw [DocSection.contains_param_iff, s.tagged] at hparam
    exact ⟨s, hs, Option.some_inj.1 hparam, hQ⟩

/-- What is read from a comment section by section are its fields. -/
theorem fields_eq {r : DocReader} {g : DocGroups} (h : r.Holds g.heads g.sections) :
    r.fields = g.fields := by
  have htexts (f : DocField) : (r.entries f).texts = g.entries f := h.texts f
  have hdropped : r.outputTexts.reverse = g.entries .dropped := by
    rw [← htexts .dropped, DocReader.entries, DocEntries.texts, ← List.map_reverse, List.map_map]
    exact (List.map_id _).symm.trans (List.map_congr_left fun t _ ↦ (by simp [Text.joinWith]))
  have hresults : (if r.outputTexts.isEmpty then r.results.texts
      else ["@return: " ++ Text.joinWith ", " r.outputTexts.reverse]) = g.results := by
    rw [results, ← htexts .result, ← hdropped]
    by_cases hempty : r.outputTexts = []
    · rw [hempty]
      rfl
    · rw [if_neg (by simpa using hempty), if_neg (by simpa using hempty)]
  rw [DocReader.fields, fields, h.heads, g.description_eq, h.outputs, h.inouts, hresults,
    ← htexts .param, ← htexts .note, ← htexts .version, ← htexts .bug]
  simp only [DocReader.entries, List.reverse_reverse]

/-- A documentation comment has the fields of its groups. -/
theorem fields_of (raw : Text) :
    DocFields.ofComment raw = (of (plainMarkup raw).lines).fields := by
  have hholds := DocReader.holds_foldl (of (plainMarkup raw).lines)
  rw [lines_of] at hholds
  exact fields_eq hholds

end DocGroups

example : DocFields.ofComment ("adds a node\n\n@param hNode [in] its handle\n\tto be kept\n" ++
    "@param pId [out] the id\n\tand more\n@return status\n@note once") =
      { heads := ["Adds a node."]
        params := ["@param hNode: its handle to be kept."]
        outputs := ["pId"]
        tails := ["@return: pId the id.", "@note: once."] } := by decide +kernel

end HeaderBindings
