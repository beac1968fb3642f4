import HeaderBindings.Proofs.Header.Concatenation
import HeaderBindings.Proofs.Header.PlainComments
import HeaderBindings.Proofs.Header.Seams
import HeaderBindings.Proofs.Header.Skipping

/-!
# Declarations in one line and in several

A declaration may be written in one line or be broken into several ones, and one would like to read
the same of it.  But where it begins and where it ends is decided line by line, while its parts are
read from the lines joined by single blanks.  So a place where it is broken can matter in two ways:
the lines may not be recognised as one declaration, and where no blank stood there is one now.

* `BrokenLine` is a line with the places where it is broken, and `BrokenLine.Breaks` says that a
  line of one header is broken in another one.
* `BrokenLine.Suits` is what it takes for the lines to be one declaration again, for which the new
  blanks make no difference.
* `Breaks.map_blocks_of_seam`: then what is made of the two headers is the same, as many lines
  further down as there are breaks.  The breaks become blanks one after the other
  (`joined_of_fineFrom`), so it is enough to look at a single one of them.
* `declarations_broken`: for structs and functions, where `StructBreaks` and `FunctionBreaks` say
  what is fine.  `declarations_broken_lost`: not all places are.
-/

set_option autoImplicit false

namespace HeaderBindings

/-! ## Broken lines -/

/-- A line that is broken into pieces: the first one, and each other one with the blanks that stood
in front of it. -/
structure BrokenLine where
  first : Text
  more : List (Text × Text)

/-- What a line goes on with behind some piece. -/
def piecesText (more : List (Text × Text)) : Text := more.flatMap fun p ↦ p.1 ++ p.2

/-- What it goes on with if each piece has a line of its own and the lines are joined again. -/
def joinedText (more : List (Text × Text)) : Text := more.flatMap fun p ↦ ' ' :: p.2

/-- Each place without blanks where a line is broken is fine, between all that comes before, with
its own breaks made blanks, and all that follows. -/
def FineFrom (fine : Text → Text → Prop) : Text → List (Text × Text) → Prop
  | _, [] => True
  | front, (gap, piece) :: more =>
    IsSeam (fine front (piece ++ piecesText more)) gap ∧ FineFrom fine (front ++ ' ' :: piece) more

instance decidableFineFrom (fine : Text → Text → Prop) [∀ u v, Decidable (fine u v)] :
    ∀ front more, Decidable (FineFrom fine front more)
  | _, [] => .isTrue trivial
  | front, (_, piece) :: more =>
    have := decidableFineFrom fine (front ++ ' ' :: piece) more
    inferInstanceAs (Decidable (_ ∧ _))

/-- **What a single new blank keeps** is kept by all of them. -/
theorem joined_of_fineFrom {fine : Text → Text → Prop} {motive : Text → Prop} {first : Text}
    (hseam : ∀ u m v, '\n' ∉ u ++ m ++ v → first <+: u → v ≠ [] → IsSeam (fine u v) m →
      motive (u ++ m ++ v) → motive (u ++ ' ' :: v)) {more : List (Text × Text)}
    (hmore : ∀ p ∈ more, p.2 ≠ []) {front : Text} (hfirst : first <+: front)
    (hlines : '\n' ∉ front ++ piecesText more) (hfine : FineFrom fine front more)
    (h : motive (front ++ piecesText more)) : motive (front ++ joinedText more) := by
  induction more generalizing front with
  | nil => exact h
  | cons p more ih =>
    obtain ⟨gap, piece⟩ := p
    obtain ⟨hm, hrest⟩ := hfine
    rw [List.forall_mem_cons] at hmore
    have hwhole : front ++ piecesText ((gap, piece) :: more) =
        front ++ gap ++ (piece ++ piecesText more) := by simp [piecesText]
    have hjoined : front ++ joinedText ((gap, piece) :: more) =
        front ++ ' ' :: piece ++ joinedText more := by simp [joinedText]
    rw [hwhole] at h hlines
    have hnext := hseam _ _ _ hlines hfirst (by simp [hmore.1]) hm h
    rw [← List.cons_append, ← List.append_assoc] at hnext
    rw [hjoined]
    refine ih hmore.2 (hfirst.trans (List.prefix_append _ _)) ?_ hrest hnext
    simp only [List.mem_append, List.mem_cons, not_or] at hlines ⊢
    exact ⟨⟨hlines.1.1, by decide, hlines.2.1⟩, hlines.2.2⟩

namespace BrokenLine

/-- The line in one. -/
def whole (l : BrokenLine) : Text := l.first ++ piecesText l.more

/-- The pieces. -/
def pieces (l : BrokenLine) : List Text := l.first :: l.more.map (·.2)

theorem joinWith_pieces (l : BrokenLine) :
    Text.joinWith [' '] l.pieces = l.first ++ joinedText l.more := by
  rw [pieces, joinWith_blank_cons, List.flatMap_map, joinedText]

/-- A line of a header, behind the given ones, is broken in another header.  Its pieces may be
indented, and nothing else is different. -/
def Breaks (l : BrokenLine) (above : List Text) (one broken : Text) : Prop :=
  ∃ raw raws below, one.lines = above ++ raw :: below ∧ broken.lines = above ++ raws ++ below ∧
    (∀ t ∈ raw :: raws, IsPlainLine t) ∧ raw.trim = l.whole ∧ raws.map Text.trim = l.pieces

/-- A declaration of the given kind may be broken as the line is, behind the given lines.  These
leave nothing open, the declaration begins with the first piece and ends with the last one and with
none in front of that, and new blanks are fine. -/
structure Suits (kind : BlockKind) (fine : Text → Text → Prop) (above : List Text)
    (l : BrokenLine) : Prop where
  settled : (Scanner.start.after kind above).Settled
  opens : kind.opens l.first = true
  closes : ∃ inner last, l.pieces = inner ++ [last] ∧
    (∀ piece ∈ inner, kind.closes piece = false) ∧ kind.closes last = true
  fine : FineFrom fine l.first l.more

end BrokenLine

/-! ## Blocks of broken lines -/

namespace Scanner

variable {kind : BlockKind} {raw : Text} {below above : List Text}

/-- A declaration on a plain line behind lines that leave nothing open is read from that line. -/
theorem exists_of_block_on_line (hs : (start.after kind above).Settled) (hplain : IsPlainLine raw)
    {b : Block} (hb : b ∈ start.run kind 1 (above ++ raw :: below))
    (hline : b.line = above.length + 1) :
    ∃ doc, start.after kind above = ⟨doc, none, false⟩ ∧ kind.opens raw.trim = true ∧
      kind.closes raw.trim = true ∧ kind.parts? raw.trim = some b.parts ∧ b.doc = docText doc := by
  obtain ⟨doc, hdoc⟩ := hs
  rw [run_append, List.mem_append, hdoc, run, step_plain hplain kind rfl, List.mem_append] at hb
  rcases hb with hb | hb | hb
  · have hfront := line_of_mem_run hb
    omega
  · rw [Option.mem_toList] at hb
    cases hopens : kind.opens raw.trim with
    | false => simp [code, hopens] at hb
    | true =>
      cases hcloses : kind.closes raw.trim with
      | false => simp [code, hopens, hcloses] at hb
      | true =>
        cases hparts : kind.parts? raw.trim with
        | none => simp [code, hopens, hcloses, close, hparts] at hb
        | some parts =>
          simp only [code, hopens, hcloses, close, List.reverse_singleton, joinWith_singleton,
            hparts, if_true, Option.some_inj] at hb
          subst hb
          exact ⟨doc, hdoc, rfl, rfl, rfl, rfl⟩
  · have hlater := line_of_mem_run hb
    omega

end Scanner

/-- From the text of a whole declaration the given thing is made. -/
def BlockKind.Gives {α : Type} (kind : BlockKind) (g : List Text → α) (r : α) (t : Text) : Prop :=
  ∃ parts, kind.parts? t = some parts ∧ g parts = r

namespace BrokenLine

variable {l : BrokenLine} {above : List Text} {one broken : Text}

theorem Breaks.ne_nil (h : l.Breaks above one broken) : [] ∉ l.pieces := by
  obtain ⟨raw, raws, below, -, -, hplain, -, hpieces⟩ := h
  rw [← hpieces]
  intro hmem
  obtain ⟨t, ht, hnil⟩ := List.mem_map.1 hmem
  exact (hplain t (List.mem_cons_of_mem raw ht)).solid hnil

theorem Breaks.notMem (h : l.Breaks above one broken) : '\n' ∉ l.whole := by
  obtain ⟨raw, raws, below, hone, -, -, hwhole, -⟩ := h
  rw [← hwhole]
  intro hmem
  have hraw : '\n' ∉ raw := Text.notMem_of_mem_lines (t := one) (by rw [hone]; simp)
  exact hraw ((List.dropWhile_suffix _).subset ((Text.trimEnd_prefix _).subset hmem))

variable {kind : BlockKind} {α : Type} {g : Block → α} {fine : Text → Text → Prop} {b : Block}
  (h : l.Breaks above one broken) (hsuits : l.Suits kind fine above) (hb : b ∈ blocks kind one)
  (hline : b.line = above.length + 1)

include h hsuits hb hline

theorem Breaks.parts? : kind.parts? l.whole = some b.parts := by
  obtain ⟨raw, raws, below, hone, -, hplain, hwhole, -⟩ := h
  rw [blocks, hone] at hb
  obtain ⟨doc, -, -, -, hparts, -⟩ :=
    Scanner.exists_of_block_on_line hsuits.settled (hplain raw List.mem_cons_self) hb hline
  exact hwhole ▸ hparts

/-- What is made of a broken line is made of the line, further down, if it is made of the pieces
joined by blanks. -/
theorem Breaks.map_blocks {parts : List Text}
    (hparts : kind.parts? (l.first ++ joinedText l.more) = some parts)
    (hread : g ⟨parts, b.doc, b.line + l.more.length⟩ = g (b.later l.more.length)) :
    (blocks kind broken).map g =
      (blocks kind one).map fun b ↦ g (b.movedBehind above.length l.more.length) := by
  obtain ⟨raw, raws, below, hone, hbroken, hplain, -, hpieces⟩ := h
  obtain ⟨inner, last, hsplit, hinner, hlast⟩ := hsuits.closes
  obtain ⟨raws, ends, rfl, rfl, hends⟩ := List.map_eq_append_iff.1 (hpieces.trans hsplit)
  obtain ⟨final, rfl, rfl⟩ := List.map_eq_singleton_iff.1 hends
  rw [List.forall_mem_cons] at hplain
  have hlength : raws.length = l.more.length := by
    have hlength := congrArg List.length hpieces
    simpa [pieces] using hlength
  have hfirst : ∀ t ∈ (raws ++ [final]).head?, kind.opens t.trim = true := by
    intro t ht
    have hhead := congrArg List.head? hpieces
    rw [List.head?_map, Option.mem_def.1 ht] at hhead
    rw [(Option.some_inj.1 hhead : t.trim = l.first)]
    exact hsuits.opens
  have hlater : b.later l.more.length =
      ⟨b.parts, b.doc, 1 + above.length + l.more.length⟩ := by
    rw [Block.later, hline, Nat.add_comm above.length]
  rw [hlater, hline, Nat.add_comm above.length] at hread
  rw [blocks, hone] at hb
  obtain ⟨doc, hafter, hopens, hcloses, hwholeParts, hdoc⟩ :=
    Scanner.exists_of_block_on_line hsuits.settled hplain.1 hb hline
  -- The line in one, so far down that what follows is where it is behind the broken line.
  have hsingle := @Scanner.run_lines kind [] raw b.parts (by simpa using hplain.1) (by simp)
    hcloses doc below none (1 + above.length + l.more.length) (by simpa using hopens)
    (by simpa using hwholeParts)
  have hseveral := @Scanner.run_lines kind raws final parts hplain.2
    (fun t ht ↦ hinner _ (List.mem_map_of_mem ht)) hlast doc below none (1 + above.length)
    (fun _ ↦ hfirst) (by rw [hpieces]; simpa [joinWith_pieces] using hparts)
  simp only [List.nil_append, List.singleton_append, List.length_nil, Nat.add_zero] at hsingle
  have hmoved := Scanner.map_movedBehind kind above (raw :: below) l.more.length
  rw [hafter, hsingle, ← hdoc] at hmoved
  rw [← hdoc, hlength] at hseveral
  change _ = (blocks kind one).map (g ∘ Block.movedBehind above.length l.more.length)
  rw [← List.map_map, blocks, blocks, hone, hmoved, hbroken, List.append_assoc, Scanner.run_append,
    hafter, hseveral, List.map_append, List.map_append, List.map_cons, List.map_cons, hread]

/-- **What is made of a broken line** is made of the line, further down, if a single new blank makes
no difference. -/
theorem Breaks.map_blocks_of_seam
    (hseam : ∀ u m v, '\n' ∉ u ++ m ++ v → l.first <+: u → v ≠ [] → IsSeam (fine u v) m →
      kind.Gives (fun parts ↦ g ⟨parts, b.doc, b.line + l.more.length⟩) (g (b.later l.more.length))
        (u ++ m ++ v) →
      kind.Gives (fun parts ↦ g ⟨parts, b.doc, b.line + l.more.length⟩) (g (b.later l.more.length))
        (u ++ ' ' :: v)) :
    (blocks kind broken).map g =
      (blocks kind one).map fun b ↦ g (b.movedBehind above.length l.more.length) := by
  have hne := h.ne_nil
  rw [pieces, List.mem_cons, not_or] at hne
  obtain ⟨parts, hparts, hread⟩ := joined_of_fineFrom hseam
    (fun p hp hnil ↦ hne.2 (hnil ▸ List.mem_map_of_mem hp)) (List.prefix_refl l.first) h.notMem
    hsuits.fine ⟨b.parts, h.parts? hsuits hb hline, rfl⟩
  exact h.map_blocks hsuits hb hline hparts hread

end BrokenLine

/-! ## Further down -/

/-- The place so many lines further down, if it is behind line `n`. -/
def Location.movedBehind (n k : Nat) (l : Location) : Location :=
  if n < l.line then l.later k else l

/-- The struct so many lines further down, if it ends behind line `n`. -/
def Struct.movedBehind (n k : Nat) (s : Struct) : Struct := s.located (s.location.movedBehind n k)

/-- The prototype so many lines further down, if it ends behind line `n`. -/
def Prototype.movedBehind (n k : Nat) (f : Prototype) : Prototype :=
  f.located (f.location.movedBehind n k)

@[simp]
theorem Struct.located_location (s : Struct) : s.located s.location = s := rfl

@[simp]
theorem Prototype.located_location (f : Prototype) : f.located f.location = f := rfl

section

variable {conventions : Conventions} {file : Text} {b : Block} {n k : Nat}

theorem structOfBlock_movedBehind :
    (structOfBlock conventions file (b.movedBehind n k)).1 =
      (structOfBlock conventions file b).1.movedBehind n k := by
  have hlocation : (structOfBlock conventions file b).1.location = ⟨file, b.line⟩ := rfl
  rw [Block.movedBehind, Struct.movedBehind, hlocation, Location.movedBehind]
  split
  · rw [structOfBlock_later, Struct.later, hlocation]
  · rw [← hlocation, Struct.located_location]

theorem location_of_kept {f : Prototype}
    (h : (functionOfBlock conventions file b).1.kept? = some f) : f.location = ⟨file, b.line⟩ := by
  have hhere : (functionOfBlock conventions file b).1 =
      (functionOfBlock conventions file b).1.map (.located ⟨file, b.line⟩) :=
    congrArg Prod.fst (functionOfBlock_onLine conventions file file b b.line)
  rw [hhere, FunctionFate.kept?_map] at h
  obtain ⟨f, -, rfl⟩ := Option.map_eq_some_iff.1 h
  rfl

theorem kept?_movedBehind :
    (functionOfBlock conventions file (b.movedBehind n k)).1.kept? =
      (functionOfBlock conventions file b).1.kept?.map (.movedBehind n k) := by
  have hmoved {f : Prototype} (h : (functionOfBlock conventions file b).1.kept? = some f) :
      f.movedBehind n k = if n < b.line then f.later k else f := by
    rw [Prototype.movedBehind, Location.movedBehind, location_of_kept h]
    split
    · rw [Prototype.later, location_of_kept h]
    · rw [← location_of_kept h, Prototype.located_location]
  have hlater := @functionOfBlock_later conventions file k b
  rw [Block.movedBehind]
  cases hkept : (functionOfBlock conventions file b).1.kept? with
  | none =>
    split
    · rw [hlater, FunctionFate.kept?_map, hkept]
      rfl
    · exact hkept
  | some f =>
    rw [Option.map_some, hmoved hkept]
    split
    · rw [hlater, FunctionFate.kept?_map, hkept]
      rfl
    · exact hkept

end

/-! ## Structs and functions in several lines -/

section

variable {conventions : Conventions} (htag : ∀ c ∈ conventions.callbackTag, isWordChar c = true)
  {file : Text}

include htag

/-- A struct with other blanks gives the same. -/
theorem gives_struct_seam {u m v doc : Text} {n : Nat} {s : Struct}
    (hu : u ≠ []) (hv : v ≠ []) (hm : IsSeam (StructBreaks conventions.callbackTag s.name u v) m)
    (h : structKind.Gives (fun parts ↦ (structOfBlock conventions file ⟨parts, doc, n⟩).1) s
      (u ++ m ++ v)) :
    structKind.Gives (fun parts ↦ (structOfBlock conventions file ⟨parts, doc, n⟩).1) s
      (u ++ ' ' :: v) := by
  obtain ⟨parts, hparts, rfl⟩ := h
  obtain ⟨head, name, inner, last, typeName, hstruct, rfl⟩ := StructText.of_parts? hparts
  obtain ⟨head', inner', last', hstruct', hsame⟩ := hstruct.seam htag hu hv hm
  exact ⟨_, hstruct'.parts?, hsame⟩

/-- A function with other blanks gives the same. -/
theorem gives_function_seam {u m v doc : Text} {n : Nat} {f : Prototype}
    (hlines : '\n' ∉ u ++ m ++ v) (hu : conventions.exportMacro <+: u) (hv : v ≠ [])
    (hm : IsSeam (FunctionBreaks conventions.exportMacro u v) m)
    (h : (functionKind conventions).Gives
      (fun parts ↦ (functionOfBlock conventions file ⟨parts, doc, n⟩).1) (.kept f) (u ++ m ++ v)) :
    (functionKind conventions).Gives
      (fun parts ↦ (functionOfBlock conventions file ⟨parts, doc, n⟩).1) (.kept f)
      (u ++ ' ' :: v) := by
  obtain ⟨parts, hparts, hf⟩ := h
  rcases FunctionText.of_parts? hlines hparts with ⟨front, args, rfl, hblank⟩ |
    ⟨lead, front, args, last, hfunction⟩
  · -- With nothing in front of the parentheses it would have been refused.
    have hnothing := (@Declarator.parse_eq_nothing_iff conventions.callbackTag _).2
      (Declarator.IsFront.of_blanks hblank)
    simp [functionOfBlock, hnothing] at hf
  · obtain rfl := Option.some_inj.1 (hfunction.parts?.symm.trans hparts)
    obtain ⟨lead', front', args', last', hfunction', hsame⟩ := hfunction.seam htag hu hv hm
    exact ⟨_, hfunction'.parts?, hsame.trans hf⟩

variable {l : BrokenLine} {above : List Text} {one broken : Text}
  (h : l.Breaks above one broken)

include h

theorem structs_broken {s : Struct} (hmem : s ∈ (structs conventions file one).1)
    (hline : s.location.line = above.length + 1)
    (hsuits : l.Suits structKind (StructBreaks conventions.callbackTag s.name) above) :
    (structs conventions file broken).1 =
      (structs conventions file one).1.map (.movedBehind above.length l.more.length) := by
  simp only [structs, List.map_map, Function.comp_def] at hmem ⊢
  obtain ⟨b, hb, rfl⟩ := List.mem_map.1 hmem
  have hmap := h.map_blocks_of_seam (g := fun b ↦ (structOfBlock conventions file b).1) hsuits hb
    hline fun u m v _ hu hv hm hgives ↦ ?_
  · simpa only [structOfBlock_movedBehind] using hmap
  · have hne : u ≠ [] := by
      rintro rfl
      exact h.ne_nil (List.prefix_nil.1 hu ▸ List.mem_cons_self)
    exact gives_struct_seam htag hne hv hm hgives

theorem functions_broken {f : Prototype} (hmem : f ∈ functions conventions file one)
    (hline : f.location.line = above.length + 1)
    (hsuits : l.Suits (functionKind conventions) (FunctionBreaks conventions.exportMacro) above) :
    functions conventions file broken =
      (functions conventions file one).map (.movedBehind above.length l.more.length) := by
  simp only [functions, functionFates, List.filterMap_map, Function.comp_def] at hmem ⊢
  obtain ⟨b, hb, hkept⟩ := List.mem_filterMap.1 hmem
  have hfate : (functionOfBlock conventions file b).1 = .kept f := by
    cases hfate : (functionOfBlock conventions file b).1 with
    | kept f' =>
      rw [hfate] at hkept
      exact congrArg _ (Option.some_inj.1 hkept)
    | excluded name type | refused =>
      rw [hfate] at hkept
      exact absurd hkept (by simp [FunctionFate.kept?])
  rw [location_of_kept hkept] at hline
  have hfirst : conventions.exportMacro <+: l.first := by
    have hopens := hsuits.opens
    simp only [functionKind, Bool.and_eq_true] at hopens
    obtain ⟨rest, hrest⟩ := Option.isSome_iff_exists.1 hopens.1
    exact ⟨rest, (Text.afterLead?_eq_some_iff.1 hrest).symm⟩
  have hmap := h.map_blocks_of_seam (g := fun b ↦ (functionOfBlock conventions file b).1) hsuits hb
    hline fun u m v hlines hu hv hm hgives ↦ ?_
  · have hfates := congrArg (List.filterMap FunctionFate.kept?) hmap
    simpa only [List.filterMap_map, Function.comp_def, kept?_movedBehind,
      List.map_filterMap] using hfates
  · simp only [functionOfBlock_later, hfate, FunctionFate.map] at hgives ⊢
    exact gives_function_seam htag hlines (hfirst.trans hu) hv hm hgives

/-- **A struct or a function in several lines** is read as it is in one line, and all that follows
is as many lines further down as there are breaks. -/
theorem declarations_broken :
    (∀ s ∈ (structs conventions file one).1, s.location.line = above.length + 1 →
      l.Suits structKind (StructBreaks conventions.callbackTag s.name) above →
      (structs conventions file broken).1 =
        (structs conventions file one).1.map (.movedBehind above.length l.more.length)) ∧
    ∀ f ∈ functions conventions file one, f.location.line = above.length + 1 →
      l.Suits (functionKind conventions) (FunctionBreaks conventions.exportMacro) above →
      functions conventions file broken =
        (functions conventions file one).map (.movedBehind above.length l.more.length) :=
  ⟨fun _ hmem hline hsuits ↦ structs_broken htag h hmem hline hsuits,
    fun _ hmem hline hsuits ↦ functions_broken htag h hmem hline hsuits⟩

end

/-- A struct and a function with breaks at places with and without blanks. -/
theorem declarations_broken_pair :
    (structs {} "a.h"
        "/** Both. */\nstruct P\n\x7b\n  int a;\n  char*\n\tb[2];\n\x7d;\nstruct Q \x7b\x7d;\n").1 =
      [⟨"P", [⟨"a", "int", .input⟩, ⟨"b", "char**", .input⟩], "Both.", ⟨"a.h", 7⟩⟩,
        ⟨"Q", [], [], ⟨"a.h", 8⟩⟩] ∧
    functions {} "b.h" "XN_C_API int\n  f(\n    char* s,\n    int n);\n" =
      [⟨"f", "int", [⟨"s", "char*", .input⟩, ⟨"n", "int", .input⟩], [], {}, ⟨"b.h", 4⟩⟩] := by
  let p : BrokenLine := ⟨"struct P", [(" ", "\x7b"), ("", "int a;"), ("", "char*"),
    (" ", "b[2];"), ("", "\x7d;")]⟩
  let f : BrokenLine := ⟨"XN_C_API int", [(" ", "f("), ("", "char* s,"), ("", "int n);")]⟩
  have hp : p.Breaks ["/** Both. */"]
      "/** Both. */\nstruct P \x7bint a;char* b[2];\x7d;\nstruct Q \x7b\x7d;\n"
      "/** Both. */\nstruct P\n\x7b\n  int a;\n  char*\n\tb[2];\n\x7d;\nstruct Q \x7b\x7d;\n" :=
    ⟨"struct P \x7bint a;char* b[2];\x7d;",
      ["struct P", "\x7b", "  int a;", "  char*", "\tb[2];", "\x7d;"], ["struct Q \x7b\x7d;"],
      by decide +kernel, by decide +kernel, by decide +kernel, by decide +kernel, by decide +kernel⟩
  have hf : f.Breaks [] "XN_C_API int f(char* s,int n);\n"
      "XN_C_API int\n  f(\n    char* s,\n    int n);\n" :=
    ⟨"XN_C_API int f(char* s,int n);", ["XN_C_API int", "  f(", "    char* s,", "    int n);"], [],
      by decide +kernel, by decide +kernel, by decide +kernel, by decide +kernel, by decide +kernel⟩
  have htag : ∀ c ∈ ({} : Conventions).callbackTag, isWordChar c = true :=
    List.all_eq_true.1 (by decide)
  have hstructs := (@declarations_broken {} htag "a.h" p _ _ _ hp).1
    ⟨"P", [⟨"a", "int", .input⟩, ⟨"b", "char**", .input⟩], "Both.", ⟨"a.h", 2⟩⟩
    (by decide +kernel) rfl
    ⟨⟨[" Both. */"], by decide +kernel⟩, by decide +kernel,
      ⟨["struct P", "\x7b", "int a;", "char*", "b[2];"], "\x7d;", by decide +kernel,
        by decide +kernel, by decide +kernel⟩, by decide +kernel⟩
  have hfunctions := (@declarations_broken {} htag "b.h" f _ _ _ hf).2
    ⟨"f", "int", [⟨"s", "char*", .input⟩, ⟨"n", "int", .input⟩], [], {}, ⟨"b.h", 1⟩⟩
    (by decide +kernel) rfl
    ⟨⟨[], by decide +kernel⟩, by decide +kernel,
      ⟨["XN_C_API int", "f(", "char* s,"], "int n);", by decide +kernel, by decide +kernel,
        by decide +kernel⟩, by decide +kernel⟩
  exact ⟨hstructs.trans (by decide +kernel), hfunctions.trans (by decide +kernel)⟩

/-- A struct whose name is on a line of its own is not found, nor is a function whose semicolon
is.  With a blank behind the colon the width of a bit field is taken for its name, and a tag with
two blanks in it is not known by one. -/
theorem declarations_broken_lost :
    ((structs {} "a.h" "struct S \x7b int x; \x7d;\n").1.map (·.name) = ["S".toList] ∧
      (structs {} "a.h" "struct\nS \x7b int x; \x7d;\n").1 = []) ∧
    ((functions {} "a.h" "XN_C_API int f(int x);\n").map (·.name) = ["f".toList] ∧
      functions {} "a.h" "XN_C_API int f(int x)\n;\n" = []) ∧
    ((structs {} "a.h" "struct S \x7b int a:N; \x7d;\n").1.map (·.fields) = [[]] ∧
      (structs {} "a.h" "struct S \x7b int a:\nN;\n\x7d;\n").1.map (·.fields) =
        [[⟨"N", "inta:", .input⟩]]) ∧
    ((functions { callbackTag := "a  b" } "a.h" "XN_C_API int f(int (a  b* g)(int));\n").map
        (fun f ↦ f.params.map (·.type)) = [["CALLBACK".toList]] ∧
      functions { callbackTag := "a  b" } "a.h" "XN_C_API int f(int (a\nb* g)(int));\n" = []) := by
  decide +kernel

end HeaderBindings
