import HeaderBindings.Proofs.Module.Contents
import HeaderBindings.Proofs.Text.Lines
import HeaderBindings.Proofs.Text.Words

/-!
# How a module is laid out

A module is a sequence of sections.  Those before the wrapper classes have their places in the
prologue, if it has marks for them.

* `HasMark` says which lines of a prologue have a mark, and `sectionsAt` which sections a line
  stands for behind others.  `of?_eq_some_iff`: these are the marks that are found.
* `PrologueLayout` says what becomes of the lines of a prologue: some stand for sections, all others
  are copied, and a section without a line follows.
* `exists_prologueLayout`: all lines have one, wherever the marks stand and however many there are.
  Which line stands for what depends on the prologue only, not on the declarations.
* `module_eq_sections`: behind it come the wrapper classes, the bindings, the callbacks, the report
  and the epilogue.

The lines are taken one at a time.  Which sections are in place then can be read off the lines so
far, `Placed.behind`, and the ones that are missing are those that the lines to come, and the end of
the prologue, have to bring in (`completedBy_append`).
-/

set_option autoImplicit false

namespace HeaderBindings

/-! ## Marks -/

/-- What stands in a line with the mark, behind blanks. -/
def PrologueMark.text : PrologueMark → Text
  | .version => "build_date ="
  | .enums => "# GENERATED_ENUMS"
  | .structs => "# GENERATED_STRUCTS"

/-- The line has the mark: blanks, the text of the mark, and anything behind it. -/
def HasMark (mark : PrologueMark) (line : Text) : Prop :=
  ∃ blanks rest, Text.isBlank blanks = true ∧ line = blanks ++ mark.text ++ rest

theorem PrologueMark.isBlank_of_mem_head?_text (mark : PrologueMark) (t : Text) :
    ∀ c ∈ (mark.text ++ t).head?, isBlank c = false := by
  cases mark <;> rintro c ⟨⟩ <;> decide

theorem hasMark_iff {mark : PrologueMark} {line : Text} :
    HasMark mark line ↔ mark.text <+: line.trimStart := by
  constructor
  · rintro ⟨blanks, rest, hblanks, rfl⟩
    rw [List.append_assoc, Text.trimStart_append (List.all_eq_true.1 hblanks)
      (mark.isBlank_of_mem_head?_text rest)]
    exact List.prefix_append mark.text rest
  · rintro ⟨rest, hrest⟩
    refine ⟨line.takeWhile isBlank, rest, List.all_takeWhile, ?_⟩
    rw [List.append_assoc, hrest, Text.trimStart, List.takeWhile_append_dropWhile]

instance (mark : PrologueMark) (line : Text) : Decidable (HasMark mark line) :=
  decidable_of_iff _ hasMark_iff.symm

/-- A line has at most one mark, since none begins with the text of another. -/
theorem HasMark.unique {mark mark' : PrologueMark} {line : Text} (h : HasMark mark line)
    (h' : HasMark mark' line) : mark = mark' := by
  have htexts : ∀ m m' : PrologueMark, m.text <+: m'.text → m = m' := by
    rintro (_ | _ | _) (_ | _ | _) <;> decide
  rcases List.prefix_or_prefix_of_prefix (hasMark_iff.1 h) (hasMark_iff.1 h') with hle | hle
  · exact htexts _ _ hle
  · exact (htexts _ _ hle).symm

theorem of?_eq (line : Text) : PrologueMark.of? line =
    if HasMark .version line then some .version
    else if HasMark .enums line then some .enums
    else if HasMark .structs line then some .structs
    else none := by
  simp only [hasMark_iff, ← Text.startsWith_iff]
  rfl

/-- **The mark that is found** is the one that the line has. -/
theorem of?_eq_some_iff {mark : PrologueMark} {line : Text} :
    PrologueMark.of? line = some mark ↔ HasMark mark line := by
  rw [of?_eq]
  constructor
  · split_ifs <;> rintro ⟨⟩ <;> assumption
  · intro h
    split_ifs with hversion henums hstructs
    · rw [hversion.unique h]
    · rw [henums.unique h]
    · rw [hstructs.unique h]
    · cases mark with
      | version => exact absurd h hversion
      | enums => exact absurd h henums
      | structs => exact absurd h hstructs

/-! ## The lines that stand for sections -/

/-- The section that a mark stands for. -/
def Sources.sectionOf (s : Sources) : PrologueMark → List Node
  | .version =>
    let version := docOrNotAvailable s.declarations.version
    [.verbatim ("__version__ = \"" ++ version ++ "\"\nbuild_date = \"" ++ version ++ "\"")]
  | .enums => s.constantGroups ++ s.enums
  | .structs => s.structs

/-- There is a line with the given mark. -/
def marked (mark : PrologueMark) (lines : List Text) : Bool :=
  lines.any fun line ↦ HasMark mark line

/-- The sections that a line of a prologue stands for behind the given lines: none unless it is the
first line with its mark.  Structs bring enumerations with them, so a mark for enumerations behind
one for structs is none. -/
def sectionsAt (earlier : List Text) (line : Text) : List PrologueMark :=
  if HasMark .version line ∧ marked .version earlier = false then [.version]
  else if HasMark .enums line ∧ marked .enums earlier = false ∧ marked .structs earlier = false then
    [.enums]
  else if HasMark .structs line ∧ marked .structs earlier = false then
    if marked .enums earlier then [.structs] else [.enums, .structs]
  else []

/-- The lines of a prologue behind the given ones, each with the sections that it stands for. -/
def withSections (earlier : List Text) : List Text → List (Text × List PrologueMark)
  | [] => []
  | line :: lines => (line, sectionsAt earlier line) :: withSections (earlier ++ [line]) lines

/-! ## Layouts -/

/-- Lines of a prologue that are copied.  Only blanks at the end of their text are lost, and all of
these are. -/
structure Copy where
  lines : List Text
  /-- What is left of the text of the lines. -/
  text : Text
  /-- What is lost at its end. -/
  lost : Text
  /-- Each line is copied with a line feed. -/
  whole : (lines.flatMap fun line ↦ line ++ ['\n']) = text ++ lost
  isBlank_lost : ∀ c ∈ lost, isBlank c = true
  isBlank_last : ∀ c ∈ text.getLast?, isBlank c = false

/-- The nodes for copied lines: none if nothing is left of them. -/
def Copy.nodes (c : Copy) : List Node := if c.text.isEmpty then [] else [.verbatim c.text]

/-- A line of a prologue that stands for sections, and the lines behind it. -/
structure Turn where
  line : Text
  sections : List PrologueMark
  sections_ne_nil : sections ≠ []
  /-- The lines up to the next one that stands for sections. -/
  copy : Copy

/-- The lines, each with the sections that it stands for. -/
def Turn.lines (t : Turn) : List (Text × List PrologueMark) :=
  (t.line, t.sections) :: t.copy.lines.map fun line ↦ (line, [])

def Turn.nodes (s : Sources) (t : Turn) : List Node :=
  t.sections.flatMap s.sectionOf ++ t.copy.nodes

/-- How a prologue of the given lines is laid out. -/
structure PrologueLayout (lines : List Text) where
  /-- The lines before the first one that stands for sections. -/
  first : Copy
  turns : List Turn
  /-- The sections that no line stands for. -/
  missing : List PrologueMark
  /-- All lines are there in order, and the ones that stand for sections are not copied. -/
  withSections_lines : withSections [] lines =
    (first.lines.map fun line ↦ (line, [])) ++ turns.flatMap Turn.lines
  /-- Each section has one place. -/
  perm : (turns.flatMap Turn.sections ++ missing).Perm [.version, .enums, .structs]
  /-- Structs come behind enumerations. -/
  enums_structs : [PrologueMark.enums, .structs].Sublist (turns.flatMap Turn.sections ++ missing)
  /-- What no line stands for is in the order of the sections. -/
  missing_sublist : missing.Sublist [.version, .enums, .structs]

def PrologueLayout.nodes {lines : List Text} (l : PrologueLayout lines) (s : Sources) :
    List Node :=
  l.first.nodes ++ l.turns.flatMap (Turn.nodes s) ++ l.missing.flatMap s.sectionOf

/-! ## Copied lines -/

/-- The copy of lines. -/
def Copy.ofLines (lines : List Text) : Copy where
  lines
  text := (Text.ofLines lines).trimEnd
  lost := ((Text.ofLines lines).reverse.takeWhile isBlank).reverse
  whole := by
    rw [Text.trimEnd, Text.dropTail, ← List.reverse_append, List.takeWhile_append_dropWhile,
      List.reverse_reverse]
    rfl
  isBlank_lost c hc := List.mem_takeWhile_imp (List.mem_reverse.1 hc)
  isBlank_last := by
    rw [Text.trimEnd_eq, List.getLast?_reverse]
    exact Text.head?_trimStart _

/-- The line feed behind the last line is no loss, since it is a blank. -/
theorem trimEnd_ofLines (lines : List Text) :
    (Text.ofLines lines).trimEnd = (Text.joinWith "\n" lines).trimEnd := by
  cases lines with
  | nil => rfl
  | cons line lines =>
    rw [Text.ofLines_cons]
    exact Text.trimEnd_append_of_eq_nil _ (by decide)

theorem copied_eq (chunk : List Text) :
    Sources.copied chunk = (Copy.ofLines chunk.reverse).nodes := by
  have htext : (Copy.ofLines chunk.reverse).text = (Text.joinWith "\n" chunk.reverse).trimEnd :=
    trimEnd_ofLines chunk.reverse
  rw [Copy.nodes, htext]
  rfl

/-! ## Sections in place -/

theorem marked_append (mark : PrologueMark) (earlier : List Text) (line : Text) :
    marked mark (earlier ++ [line]) = (marked mark earlier || HasMark mark line) := by
  rw [marked, List.any_append, List.any_cons, List.any_nil, Bool.or_false]
  rfl

/-- The sections that are in place behind the given lines. -/
def Placed.behind (earlier : List Text) : Placed where
  version := marked .version earlier
  enums := marked .enums earlier || marked .structs earlier
  structs := marked .structs earlier

/-- The sections that are not in place. -/
def Placed.missing (placed : Placed) : List PrologueMark :=
  (if placed.version then [] else [.version]) ++ (if placed.enums then [] else [.enums]) ++
    if placed.structs then [] else [.structs]

theorem unplaced_eq (s : Sources) (placed : Placed) :
    s.unplaced placed = placed.missing.flatMap s.sectionOf := by
  obtain ⟨version, enums, structs⟩ := placed
  cases version <;> cases enums <;> cases structs <;>
    simp [Sources.unplaced, Placed.missing, Sources.sectionOf, Sources.versionLines,
      Sources.constantsAndEnums]

/-- A line puts the sections in place that it stands for. -/
theorem expandLines_cons (s : Sources) (earlier chunk : List Text) (line : Text)
    (lines : List Text) :
    s.expandLines (.behind earlier) chunk (line :: lines) =
      if sectionsAt earlier line = [] then
        s.expandLines (.behind (earlier ++ [line])) (line :: chunk) lines
      else
        Sources.copied chunk ++ (sectionsAt earlier line).flatMap s.sectionOf ++
          s.expandLines (.behind (earlier ++ [line])) [] lines := by
  simp only [sectionsAt, Placed.behind, marked_append, ← of?_eq_some_iff]
  generalize marked .version earlier = version
  generalize marked .enums earlier = enums
  generalize marked .structs earlier = structs
  rw [Sources.expandLines.eq_def]
  simp only
  generalize PrologueMark.of? line = mark?
  cases mark? with
  | none => simp
  | some mark =>
    cases mark <;> cases version <;> cases enums <;> cases structs <;>
      simp [Sources.sectionOf, Sources.versionLines, Sources.constantsAndEnums]

/-- The sections are the ones that are not in place, with structs behind enumerations. -/
structure Placed.CompletedBy (placed : Placed) (order : List PrologueMark) : Prop where
  perm : order.Perm placed.missing
  enums_structs : (placed.missing.filter (· ≠ .version)).Sublist order

theorem Placed.missing_sublist (placed : Placed) :
    placed.missing.Sublist [.version, .enums, .structs] := by
  obtain ⟨version, enums, structs⟩ := placed
  revert version enums structs
  decide

theorem Placed.completedBy_missing (placed : Placed) : placed.CompletedBy placed.missing :=
  ⟨.refl _, List.filter_sublist⟩

/-- What a line stands for was missing before it, and the rest is missing behind it. -/
theorem missing_behind (earlier : List Text) (line : Text) :
    (sectionsAt earlier line ++ (Placed.behind (earlier ++ [line])).missing).Perm
        (Placed.behind earlier).missing ∧
      (Placed.behind earlier).missing.filter (· ≠ .version) =
        (sectionsAt earlier line).filter (· ≠ .version) ++
          (Placed.behind (earlier ++ [line])).missing.filter (· ≠ .version) := by
  simp only [sectionsAt, Placed.behind, marked_append, ← of?_eq_some_iff]
  generalize marked .version earlier = version
  generalize marked .enums earlier = enums
  generalize marked .structs earlier = structs
  generalize PrologueMark.of? line = mark?
  revert version enums structs
  rcases mark? with _ | _ | _ | _ <;> decide

theorem completedBy_append {earlier : List Text} {line : Text} {order : List PrologueMark}
    (h : (Placed.behind (earlier ++ [line])).CompletedBy order) :
    (Placed.behind earlier).CompletedBy (sectionsAt earlier line ++ order) := by
  obtain ⟨hperm, hfilter⟩ := missing_behind earlier line
  refine ⟨(h.perm.append_left _).trans hperm, ?_⟩
  rw [hfilter]
  exact List.filter_sublist.append h.enums_structs

/-- **The lines to come are laid out like those of a prologue**, when the given ones stand before
them and the last of these, the chunk, are still to be copied. -/
theorem exists_layout (lines : List Text) : ∀ earlier chunk : List Text,
    ∃ (first : Copy) (turns : List Turn) (missing : List PrologueMark),
      (chunk.reverse.map fun line ↦ (line, [])) ++ withSections earlier lines =
        (first.lines.map fun line ↦ (line, [])) ++ turns.flatMap Turn.lines ∧
      (Placed.behind earlier).CompletedBy (turns.flatMap Turn.sections ++ missing) ∧
      missing.Sublist [.version, .enums, .structs] ∧
      ∀ s : Sources, s.expandLines (.behind earlier) chunk lines =
        first.nodes ++ turns.flatMap (Turn.nodes s) ++ missing.flatMap s.sectionOf := by
  induction lines with
  | nil =>
    intro earlier chunk
    refine ⟨.ofLines chunk.reverse, [], (Placed.behind earlier).missing, rfl,
      Placed.completedBy_missing _, Placed.missing_sublist _, fun s ↦ ?_⟩
    rw [Sources.expandLines, copied_eq, unplaced_eq, List.flatMap_nil, List.append_nil]
  | cons line lines ih =>
    intro earlier chunk
    by_cases hsections : sectionsAt earlier line = []
    · obtain ⟨first, turns, missing, hlines, horder, hmissing, hnodes⟩ :=
        ih (earlier ++ [line]) (line :: chunk)
      refine ⟨first, turns, missing, ?_, ?_, hmissing, fun s ↦ ?_⟩
      · rw [← hlines, withSections, hsections, List.reverse_cons, List.map_append,
          List.append_assoc]
        rfl
      · have horder := completedBy_append horder
        rwa [hsections, List.nil_append] at horder
      · rw [expandLines_cons, if_pos hsections, hnodes]
    · obtain ⟨first, turns, missing, hlines, horder, hmissing, hnodes⟩ := ih (earlier ++ [line]) []
      refine ⟨.ofLines chunk.reverse, ⟨line, _, hsections, first⟩ :: turns, missing, ?_, ?_,
        hmissing, fun s ↦ ?_⟩
      · rw [List.reverse_nil, List.map_nil, List.nil_append] at hlines
        rw [withSections, hlines, List.flatMap_cons]
        rfl
      · rw [List.flatMap_cons, List.append_assoc]
        exact completedBy_append horder
      · rw [expandLines_cons, if_neg hsections, hnodes, copied_eq, List.flatMap_cons, Turn.nodes]
        simp only [List.append_assoc]

/-- **All lines have a layout**, which is the same whatever the sections consist of. -/
theorem exists_prologueLayout (lines : List Text) :
    ∃ l : PrologueLayout lines, ∀ s : Sources, s.expandLines {} [] lines = l.nodes s := by
  obtain ⟨first, turns, missing, hlines, horder, hmissing, hnodes⟩ := exists_layout lines [] []
  exact ⟨⟨first, turns, missing, hlines, horder.perm, horder.enums_structs, hmissing⟩, hnodes⟩

namespace Sources

/-- What stands before the wrapper classes.  Without a prologue it is an import, and then all
sections in their order. -/
def LaidOut (s : Sources) (opening : List Node) : Option Text → Prop
  | none => opening =
      importNode :: (s.sectionOf .version ++ s.sectionOf .enums ++ s.sectionOf .structs)
  | some prologue => ∃ lines, prologue.MadeOf lines ∧
      ∃ l : PrologueLayout lines, opening = l.nodes s

theorem laidOut_opening (s : Sources) : ∀ prologue : Option Text,
    s.LaidOut (s.opening prologue) prologue
  | none => by
    show importNode :: s.unplaced {} = _
    rw [unplaced_eq]
    simp [Placed.missing]
  | some prologue => by
    obtain ⟨l, hl⟩ := exists_prologueLayout prologue.lines
    exact ⟨prologue.lines, prologue.madeOf_lines, l, hl s⟩

/-- The nodes for a text of the library's own, or for a section. -/
def partNodes (s : Sources) : Text ⊕ PrologueMark → List Node
  | .inl t => [.verbatim t]
  | .inr mark => s.sectionOf mark

/-- What stands before the wrapper classes consists of texts and of the sections, each once and with
structs behind enumerations. -/
theorem exists_parts (prologue : Option Text) : ∃ parts : List (Text ⊕ PrologueMark),
    (∀ s : Sources, s.opening prologue = parts.flatMap s.partNodes) ∧
      (parts.filterMap Sum.getRight?).Perm [.version, .enums, .structs] ∧
      [PrologueMark.enums, .structs].Sublist (parts.filterMap Sum.getRight?) := by
  cases prologue with
  | none =>
    refine ⟨[.inl "import ctypes", .inr .version, .inr .enums, .inr .structs], fun s ↦ ?_,
      .refl _, .cons _ (.refl _)⟩
    show importNode :: s.unplaced {} = _
    rw [unplaced_eq]
    rfl
  | some prologue =>
    obtain ⟨l, hl⟩ := exists_prologueLayout prologue.lines
    have hopening (s : Sources) : s.opening (some prologue) = l.nodes s := hl s
    let copy (c : Copy) : List (Text ⊕ PrologueMark) :=
      if c.text.isEmpty then [] else [.inl c.text]
    have hnodes (s : Sources) (c : Copy) : (copy c).flatMap s.partNodes = c.nodes := by
      simp only [copy, Copy.nodes]
      split <;> rfl
    have hmarks (c : Copy) : (copy c).filterMap Sum.getRight? = [] := by
      simp only [copy]
      split <;> rfl
    have hsections (s : Sources) (marks : List PrologueMark) :
        (marks.map Sum.inr).flatMap s.partNodes = marks.flatMap s.sectionOf := List.flatMap_map ..
    have hright (marks : List PrologueMark) :
        (marks.map (Sum.inr : PrologueMark → Text ⊕ PrologueMark)).filterMap Sum.getRight? =
          marks := by
      rw [List.filterMap_map]
      exact List.filterMap_some
    refine ⟨copy l.first ++ l.turns.flatMap (fun t ↦ t.sections.map .inr ++ copy t.copy) ++
      l.missing.map .inr, fun s ↦ ?_, ?_⟩
    · rw [hopening]
      simp only [PrologueLayout.nodes, List.flatMap_append, List.flatMap_assoc, hnodes, hsections]
      rfl
    · have horder := And.intro l.perm l.enums_structs
      simpa only [List.filterMap_append, List.filterMap_flatMap, hmarks, hright, List.nil_append,
        List.append_nil] using horder

/-- Before the wrapper classes there are copied lines and sections. -/
theorem mem_opening {s : Sources} {prologue : Option Text} {node : Node}
    (h : node ∈ s.opening prologue) :
    (∃ t, node = .verbatim t) ∨ ∃ mark, node ∈ s.sectionOf mark := by
  obtain ⟨parts, hparts, -⟩ := exists_parts prologue
  rw [hparts] at h
  obtain ⟨t | mark, -, h⟩ := List.mem_flatMap.1 h
  · exact .inl ⟨t, List.mem_singleton.1 h⟩
  · exact .inr ⟨mark, h⟩

/-- All sections are there, whatever the prologue is like. -/
theorem mem_opening_of_mem_sectionOf {s : Sources} {mark : PrologueMark} {node : Node}
    (h : node ∈ s.sectionOf mark) (prologue : Option Text) : node ∈ s.opening prologue := by
  obtain ⟨parts, hparts, hperm, -⟩ := exists_parts prologue
  obtain ⟨part, hpart, hmark⟩ :=
    List.mem_filterMap.1 (hperm.mem_iff.2 (by cases mark <;> decide : mark ∈ _))
  obtain rfl := Sum.getRight?_eq_some_iff.1 hmark
  rw [hparts]
  exact List.mem_flatMap.2 ⟨_, hpart, h⟩

/-- **A module consists of its sections**, each once and in their order, and of what is copied from
the prologue.  There is one exactly if linking the documentation of the methods ends, whatever the
prologue is like. -/
theorem module_eq_sections (s : Sources) (prologue epilogue : Option Text) :
    (s.LinksEnd ↔ ∃ nodes, s.module? prologue epilogue = some nodes) ∧
      ∀ nodes, s.module? prologue epilogue = some nodes →
        ∃ opening wrappers, s.LaidOut opening prologue ∧ s.wrappers? = some wrappers ∧
          nodes = opening ++ wrappers ++ s.bindings ++ s.callbacks ++ s.unwrapped s.wrappedNames ++
            (epilogue.map Node.verbatim).toList := by
  refine ⟨linksEnd_iff_module prologue epilogue, fun nodes h ↦ ?_⟩
  obtain ⟨wrappers, hwrappers, rfl⟩ := Option.map_eq_some_iff.1 h
  exact ⟨s.opening prologue, wrappers, s.laidOut_opening prologue, hwrappers, rfl⟩

/-- A library with a constant and a struct. -/
def maskLibrary : Sources :=
  let declarations : Declarations :=
    { constants := (∅ : Table).insert "XN_MASK_ALL" "0xFF"
      structs := [{ name := "XnItem", fields := [{ name := "mask", type := "int" }] }] }
  { conventions := { constantGroups := ["MASK"] }, declarations
    types := .build {} ∅ declarations, overrides := ∅ }

/-- A prologue in which structs have the first mark, and enumerations one behind it. -/
def motleyPrologue : Text :=
  "import sys\n  # GENERATED_STRUCTS here\n\nclass _Base:\nbuild_date = 'today'\n" ++
    "\t# GENERATED_ENUMS\nbuild_date = None\n\n"

theorem module_eq_sections_motley :
    withSections [] motleyPrologue.lines =
        ([("import sys", []), ("  # GENERATED_STRUCTS here", [.enums, .structs]), ("", []),
          ("class _Base:", []), ("build_date = 'today'", [.version]), ("\t# GENERATED_ENUMS", []),
          ("build_date = None", []), ("", [])] : List (Text × List PrologueMark)) ∧
      ∃ nodes ∈ maskLibrary.module? (some motleyPrologue) none,
        (∃ opening wrappers, maskLibrary.LaidOut opening (some motleyPrologue) ∧
          maskLibrary.wrappers? = some wrappers ∧
          nodes = opening ++ wrappers ++ maskLibrary.bindings ++ maskLibrary.callbacks ++
            maskLibrary.unwrapped maskLibrary.wrappedNames ++ []) ∧
        nodes = [.verbatim "import sys", .constants "Mask" "XN_MASK_" [("ALL", "0xFF")],
          .struct "Item" "N/A" [("mask", "ctypes.c_int")], .verbatim "\nclass _Base:",
          .verbatim "__version__ = \"N/A\"\nbuild_date = \"N/A\"",
          .verbatim "\t# GENERATED_ENUMS\nbuild_date = None",
          .comment ["Decorated C API functions"]] := by
  have hmodule : maskLibrary.module? (some motleyPrologue) none =
      some [.verbatim "import sys", .constants "Mask" "XN_MASK_" [("ALL", "0xFF")],
        .struct "Item" "N/A" [("mask", "ctypes.c_int")], .verbatim "\nclass _Base:",
        .verbatim "__version__ = \"N/A\"\nbuild_date = \"N/A\"",
        .verbatim "\t# GENERATED_ENUMS\nbuild_date = None",
        .comment ["Decorated C API functions"]] := by decide +kernel
  obtain ⟨-, hsections⟩ := module_eq_sections maskLibrary (some motleyPrologue) none
  exact ⟨by decide +kernel, _, hmodule, hsections _ hmodule, rfl⟩

/-- **There need not be a module**, and a carriage return that ends a line is lost also where the
line is copied and another one follows. -/
theorem no_module_strayLibrary : (¬∃ nodes, strayLibrary.module? none none = some nodes) ∧
    ∃ nodes ∈ maskLibrary.module? (some "import sys\r\nimport os\n") none,
      nodes.head? = some (.verbatim "import sys\nimport os") := by
  refine ⟨(linksEnd_iff_module none none).not.1 not_linksEnd_strayLibrary, ?_⟩
  decide +kernel

end Sources

end HeaderBindings
