import Mathlib.Data.List.Infix
import Mathlib.Data.List.TakeWhile
import HeaderBindings.Proofs.Header.Concatenation
import HeaderBindings.Proofs.Header.SpelledDeclarators

/-!
# What becomes of an exported function

Every block that is found for an exported function is accounted for: `functionFates_accounted` says
so of all the blocks of a header at once, whatever is in them and whatever the collection holds
already.

* **One fate.**  A block gives a function of the library, or an excluded one, or a record of a
  missing name, and never two of the three.  Which one it is depends on the name in front of the
  parentheses, on the excluded names and on the names of the parameters, and on nothing else.
* **Nothing without a name.**  A function of the library has a name, and so has every parameter of
  it.  A single parameter of type `void` is none.
* **What is dropped is recorded.**  A piece of a parameter list gives a parameter unless there is
  nothing in it (`Declarator.parse_eq_nothing_iff`) or an opening brace
  (`Declarator.parse_eq_unparsable_iff`), and each piece with a brace is recorded once.

The two steps are what one piece gives (`readParameter_eq`) and what a list of them gives
(`readParameters_eq`).  The account of a block follows by going through the ways out of
`functionOfBlock`.
-/

set_option autoImplicit false

namespace HeaderBindings

/-! ## Outer blanks -/

namespace Text

/-- Around what is left of a text without its outer blanks stand blanks. -/
theorem exists_trim (t : Text) : ∃ u v, t = u ++ t.trim ++ v ∧
    (∀ c ∈ u, HeaderBindings.isBlank c = true) ∧ ∀ c ∈ v, HeaderBindings.isBlank c = true := by
  refine ⟨t.takeWhile HeaderBindings.isBlank,
    (t.trimStart.reverse.takeWhile HeaderBindings.isBlank).reverse, ?_,
    fun c hc ↦ List.mem_takeWhile_imp hc,
    fun c hc ↦ List.mem_takeWhile_imp (List.mem_reverse.1 hc)⟩
  rw [trim, trimEnd, dropTail, List.append_assoc, ← List.reverse_append,
    List.takeWhile_append_dropWhile, List.reverse_reverse, trimStart,
    List.takeWhile_append_dropWhile]

/-- Only blanks are lost at the ends. -/
theorem mem_trim {t : Text} {c : Char} (hc : HeaderBindings.isBlank c = false) :
    c ∈ t.trim ↔ c ∈ t := by
  obtain ⟨u, v, ht, hu, hv⟩ := t.exists_trim
  have hnotMem {s : Text} (hs : ∀ x ∈ s, HeaderBindings.isBlank x = true) : c ∉ s := fun hmem ↦
    absurd ((hs c hmem).symm.trans hc) (by simp)
  conv =>
    rhs
    rw [ht]
  simp [hnotMem hu, hnotMem hv]

/-- Only blanks are lost at the beginning. -/
theorem mem_trimStart {t : Text} {c : Char} (hc : HeaderBindings.isBlank c = false) :
    c ∈ t.trimStart ↔ c ∈ t := by
  conv =>
    rhs
    rw [← t.takeWhile_append_dropWhile (p := HeaderBindings.isBlank)]
  rw [List.mem_append, or_iff_right fun hmem ↦
    absurd ((List.mem_takeWhile_imp hmem).symm.trans hc) (by simp)]
  rfl

end Text

/-! ## What is in a piece -/

namespace Declarator

/-- The parameter that a declarator stands for, if there is one. -/
def parameter? : Declarator → Option Parameter
  | named name type => some { name, type }
  | _ => none

/-- What a piece holds, behind blanks and a closing brace left over from an inline body. -/
def held (t : Text) : Text :=
  match t.trim with
  | '\x7d' :: rest => Text.trimStart rest
  | _ => t.trim

theorem exists_parsePlain (t : Text) : ∃ name type, parsePlain t = .named name type := by
  simp only [parsePlain]
  split <;> exact ⟨_, _, rfl⟩

/-- What a piece gives is read from what it holds. -/
theorem parse_eq_held (tag t : Text) : parse tag t =
    if (held t).isEmpty then .nothing
    else if (held t).contains ['\x7b'] then .unparsable
    else
      match (Declarator.callbackPattern tag).search (constWord.removeAll (held t)).trim with
      | some g => .named (g.get 1) callbackType
      | none => parsePlain (constWord.removeAll (held t)).trim := by
  unfold parse held
  generalize t.trim = s
  rfl

/-- There is nothing in it, or an opening brace, or else a declarator. -/
theorem parse_cases (tag t : Text) :
    (held t = [] ∧ parse tag t = .nothing) ∨
      (held t ≠ [] ∧ '\x7b' ∈ held t ∧ parse tag t = .unparsable) ∨
      (held t ≠ [] ∧ '\x7b' ∉ held t ∧ ∃ name type, parse tag t = .named name type) := by
  rw [parse_eq_held]
  by_cases hempty : held t = []
  · left
    exact ⟨hempty, by rw [hempty]; rfl⟩
  right
  have hne : ¬(held t).isEmpty = true := by simpa using hempty
  by_cases hbrace : '\x7b' ∈ held t
  · left
    have hcontains : (held t).contains ['\x7b'] = true :=
      Text.contains_iff.2 ((List.singleton_infix_iff _ _).2 hbrace)
    exact ⟨hempty, hbrace, by rw [if_neg hne, if_pos hcontains]⟩
  · right
    rw [if_neg hne, Text.contains_singleton_eq_false hbrace, if_neg (by simp)]
    split
    · exact ⟨hempty, hbrace, _, _, rfl⟩
    · exact ⟨hempty, hbrace, exists_parsePlain _⟩

/-- Blanks and a closing brace are no opening one. -/
theorem mem_held {t : Text} : '\x7b' ∈ held t ↔ '\x7b' ∈ t := by
  rw [← Text.mem_trim (t := t) (by decide), held]
  split
  · rename_i rest htrim
    rw [htrim, Text.mem_trimStart (by decide)]
    simp
  · rfl

/-- Nothing is held exactly by blanks, with perhaps a closing brace among them. -/
theorem held_eq_nil_iff {t : Text} : held t = [] ↔ IsFront t := by
  obtain ⟨u, v, ht, hu, hv⟩ := t.exists_trim
  constructor
  · intro hheld
    rw [held] at hheld
    split at hheld
    · rename_i rest htrim
      have hrest : ∀ c ∈ rest, isBlank c = true := List.dropWhile_eq_nil_iff.1 hheld
      rw [ht, htrim, List.append_assoc, List.cons_append]
      exact ⟨u, rest ++ v, List.forall_mem_append.2 ⟨hu, List.forall_mem_append.2 ⟨hrest, hv⟩⟩,
        Or.inr rfl⟩
    · rw [ht, hheld, List.append_nil]
      exact .of_blanks (List.forall_mem_append.2 ⟨hu, hv⟩)
  · rintro ⟨a, b, hblanks, rfl | rfl⟩
    · have htrimStart : Text.trimStart (a ++ b) = [] := List.dropWhile_eq_nil_iff.2 hblanks
      rw [held, Text.trim, htrimStart]
      rfl
    · rw [List.forall_mem_append] at hblanks
      have htrim : Text.trim (a ++ ['\x7d'] ++ b) = ['\x7d'] :=
        Text.trim_pad hblanks.1 (Text.isSolid_of_all (by decide) (by decide)) hblanks.2
      rw [List.append_assoc, List.singleton_append] at htrim
      rw [held, htrim]
      rfl

/-- **A piece cannot be read** exactly if there is an opening brace in it. -/
theorem parse_eq_unparsable_iff {tag t : Text} : parse tag t = .unparsable ↔ '\x7b' ∈ t := by
  rw [← mem_held]
  rcases parse_cases tag t with ⟨hnil, h⟩ | ⟨-, hbrace, h⟩ | ⟨-, hbrace, _, _, h⟩
  · simp [h, hnil]
  · simp [h, hbrace]
  · simp [h, hbrace]

/-- **There is no declarator** in blanks, with perhaps a closing brace among them. -/
theorem parse_eq_nothing_iff {tag t : Text} : parse tag t = .nothing ↔ IsFront t := by
  rw [← held_eq_nil_iff]
  rcases parse_cases tag t with ⟨hnil, h⟩ | ⟨hne, -, h⟩ | ⟨hne, -, _, _, h⟩
  · simp [h, hnil]
  · simp [h, hne]
  · simp [h, hne]

/-- A piece is passed over if there is no declarator in it or an opening brace. -/
theorem parameter?_eq_none_iff {tag t : Text} :
    (parse tag t).parameter? = none ↔ IsFront t ∨ '\x7b' ∈ t := by
  rw [← @parse_eq_nothing_iff tag, ← @parse_eq_unparsable_iff tag]
  cases parse tag t <;> simp [parameter?]

end Declarator

/-! ## Lists of parameters -/

section

variable (conventions : Conventions) (declaration location t : Text)

/-- The parameters that are declared between parentheses, with a single one of type `void` left
out. -/
def declaredParameters : List Parameter :=
  dropVoid ((splitTopLevel ',' t).filterMap fun piece ↦
    (Declarator.parse conventions.callbackTag piece).parameter?)

/-- One record for each piece between parentheses that cannot be read, in order. -/
def unparsablePieces : List Diagnostic :=
  ((splitTopLevel ',' t).filter fun piece ↦ '\x7b' ∈ piece).map fun piece ↦
    .unparsable piece.trim declaration location

/-- What one piece gives. -/
theorem readParameter_eq (piece : Text) :
    readParameter conventions declaration location piece =
      ((Declarator.parse conventions.callbackTag piece).parameter?,
       if '\x7b' ∈ piece then some (.unparsable piece.trim declaration location) else none) := by
  have hbrace := @Declarator.parse_eq_unparsable_iff conventions.callbackTag piece
  rw [readParameter]
  cases hparse : Declarator.parse conventions.callbackTag piece with
  | nothing | named =>
    rw [hparse] at hbrace
    rw [if_neg (by simpa using hbrace)]
    rfl
  | unparsable =>
    rw [if_pos (hbrace.1 hparse)]
    rfl

/-- What a list of pieces gives: its parameters if all of them have names, one record for each
piece that cannot be read, and one of the first name that is missing. -/
theorem readParameters_eq : readParameters conventions declaration location t =
    match (declaredParameters conventions t).find? (·.name.isEmpty) with
    | some p => (none, unparsablePieces declaration location t ++
        [.unnamed p.type declaration location])
    | none =>
      (some (declaredParameters conventions t), unparsablePieces declaration location t) := by
  have hparams : ((splitTopLevel ',' t).map
      (readParameter conventions declaration location)).filterMap (·.1) =
        (splitTopLevel ',' t).filterMap fun piece ↦
          (Declarator.parse conventions.callbackTag piece).parameter? := by
    simp only [List.filterMap_map, Function.comp_def, readParameter_eq]
  have hrefused : ((splitTopLevel ',' t).map
      (readParameter conventions declaration location)).filterMap (·.2) =
        unparsablePieces declaration location t := by
    conv =>
      rhs
      rw [unparsablePieces, ← List.filterMap_eq_map, List.filterMap_filter]
    simp only [List.filterMap_map, Function.comp_def, readParameter_eq, decide_eq_true_eq]
  simp only [readParameters, hparams, hrefused]
  rfl

theorem dropVoid_types (ps : List Parameter) : (dropVoid ps).map (·.type) ≠ ["void"] := by
  rw [dropVoid.eq_def]
  split
  · split
    · simp
    · rename_i h
      simpa using h
  · rename_i hne
    intro heq
    obtain ⟨p, rfl, -⟩ := List.map_eq_singleton_iff.1 heq
    exact hne p rfl

end

/-! ## The account of a block -/

namespace Diagnostic

/-- The diagnostic is about a missing name. -/
def isUnnamed : Diagnostic → Bool
  | unnamed .. => true
  | _ => false

end Diagnostic

namespace Block

/-- The type and the name of the function in a block. -/
def head (b : Block) : Text := (b.parts[0]?).getD []

/-- What stands between the parentheses of the function in a block. -/
def listed (b : Block) : Text := (b.parts[1]?).getD []

end Block

/-- The function in a block has the given name and type, and its parameters are read: the name is
not empty and not excluded. -/
def IsRead (conventions : Conventions) (b : Block) (name type : Text) : Prop :=
  Declarator.parse conventions.callbackTag b.head = .named name type ∧ name ≠ [] ∧
    name ∉ conventions.excluded

/-- The ways out of reading the function in a block. -/
inductive WayOut (conventions : Conventions) (file : Text) (b : Block) :
    FunctionFate × List Diagnostic → Prop
  /-- There is no name in front of the parentheses. -/
  | headless
      (h : ∀ name type, Declarator.parse conventions.callbackTag b.head = .named name type →
        name = []) :
      WayOut conventions file b (.refused,
        [.unnamed b.head "function declaration" (Location.display ⟨file, b.line⟩)])
  /-- The name is one to be left out. -/
  | excluded {name type : Text}
      (hparse : Declarator.parse conventions.callbackTag b.head = .named name type)
      (hname : name ≠ []) (hexcluded : name ∈ conventions.excluded) :
      WayOut conventions file b (.excluded name type, [])
  /-- The function is read, and a parameter of it has no name. -/
  | unnamed {name type : Text} (hread : IsRead conventions b name type) {p : Parameter}
      (hp : p ∈ declaredParameters conventions b.listed) (hname : p.name = []) :
      WayOut conventions file b (.refused,
        unparsablePieces name (Location.display ⟨file, b.line⟩) b.listed ++
          [.unnamed p.type name (Location.display ⟨file, b.line⟩)])
  /-- The function is read, and all its parameters have names. -/
  | kept {name type : Text} (hread : IsRead conventions b name type)
      (hnames : ∀ p ∈ declaredParameters conventions b.listed, p.name ≠ []) :
      WayOut conventions file b
        (.kept (Prototype.withDirections ⟨name, type, declaredParameters conventions b.listed,
            b.doc, .ofComment b.doc, ⟨file, b.line⟩⟩ conventions.outputTypes),
          unparsablePieces name (Location.display ⟨file, b.line⟩) b.listed)

/-- The fate of a function that is read is decided by its parameters. -/
theorem IsRead.functionOfBlock_eq {conventions : Conventions} {b : Block} {name type : Text}
    (h : IsRead conventions b name type) (file : Text) : functionOfBlock conventions file b =
      match readParameters conventions name (Location.display ⟨file, b.line⟩) b.listed with
      | (none, wrong) => (.refused, wrong)
      | (some params, wrong) => (.kept (Prototype.withDirections ⟨name, type, params, b.doc,
          .ofComment b.doc, ⟨file, b.line⟩⟩ conventions.outputTypes), wrong) := by
  obtain ⟨hparse, hname, hexcluded⟩ := h
  rw [Block.head] at hparse
  have hempty : name.isEmpty = false := by simpa using hname
  simp only [functionOfBlock, hparse, hempty, hexcluded, Bool.false_eq_true, if_false]
  rfl

/-- **Every block is left in one of the four ways.** -/
theorem wayOut_functionOfBlock (conventions : Conventions) (file : Text) (b : Block) :
    WayOut conventions file b (functionOfBlock conventions file b) := by
  have hheadless (h : ∀ name type, Declarator.parse conventions.callbackTag b.head =
      .named name type → name = []) (heq : functionOfBlock conventions file b = (.refused,
        [.unnamed b.head "function declaration" (Location.display ⟨file, b.line⟩)])) :
      WayOut conventions file b (functionOfBlock conventions file b) := heq ▸ .headless h
  cases hparse : Declarator.parse conventions.callbackTag b.head with
  | nothing | unparsable =>
    refine hheadless (fun name type h ↦ absurd (hparse.symm.trans h) (by simp)) ?_
    rw [Block.head] at hparse
    simp only [functionOfBlock, hparse, Block.head]
  | named name type =>
    have hhead := hparse
    rw [Block.head] at hhead
    by_cases hname : name = []
    · refine hheadless (fun name' type' h ↦ ?_) ?_
      · rw [← (Declarator.named.inj (hparse.symm.trans h)).1, hname]
      · simp only [functionOfBlock, hhead, hname, List.isEmpty_nil, if_true, Block.head]
    have hempty : name.isEmpty = false := by simpa using hname
    by_cases hexcluded : name ∈ conventions.excluded
    · have heq : functionOfBlock conventions file b = (.excluded name type, []) := by
        simp only [functionOfBlock, hhead, hempty, hexcluded, Bool.false_eq_true, if_false,
          if_true]
      exact heq ▸ .excluded hparse hname hexcluded
    have hread : IsRead conventions b name type := ⟨hparse, hname, hexcluded⟩
    rw [hread.functionOfBlock_eq, readParameters_eq]
    cases hfind : (declaredParameters conventions b.listed).find? (·.name.isEmpty) with
    | some p =>
      refine .unnamed hread (List.mem_of_find?_eq_some hfind) ?_
      simpa using List.find?_some hfind
    | none =>
      refine .kept hread fun p hp ↦ ?_
      simpa using List.find?_eq_none.1 hfind p hp

/-- The account of a block: what became of the function in it, with what is wrong with it. -/
structure IsAccount (conventions : Conventions) (file : Text) (b : Block)
    (found : FunctionFate × List Diagnostic) : Prop where
  /-- Exactly one function is found, excluded or recorded as one without a name. -/
  one : found.1.kept?.toList.length + found.1.excluded?.toList.length +
    found.2.countP Diagnostic.isUnnamed = 1
  /-- The function is kept exactly if it is read and all its parameters have names. -/
  kept_iff : (∃ f, found.1.kept? = some f) ↔ (∃ name type, IsRead conventions b name type) ∧
    ∀ p ∈ declaredParameters conventions b.listed, p.name ≠ []
  /-- It is excluded exactly if it has a name and is to be left out. -/
  excluded_iff : ∀ name type, found.1.excluded? = some (name, type) ↔
    Declarator.parse conventions.callbackTag b.head = .named name type ∧ name ≠ [] ∧
      name ∈ conventions.excluded
  /-- A function that is kept has the name, the type and the parameters that are declared. -/
  kept : ∀ f, found.1.kept? = some f → IsRead conventions b f.name f.type ∧
    f.bare = ⟨f.name, f.type, declaredParameters conventions b.listed, [], {}, {}⟩ ∧
    f.location = ⟨file, b.line⟩ ∧ f.comment = b.doc
  /-- Its parameters have names, and no parameter is made of a lone `void`. -/
  params : ∀ f, found.1.kept? = some f →
    (∀ p ∈ f.params, p.name ≠ []) ∧ f.params.map (·.type) ≠ ["void"]
  /-- Apart from missing names, each piece that cannot be read is recorded once. -/
  dropped : ∀ name type, IsRead conventions b name type →
    found.2.filter (!·.isUnnamed) =
      unparsablePieces name (Location.display ⟨file, b.line⟩) b.listed
  /-- Nothing is recorded about parameters that are not read. -/
  unread : (¬∃ name type, IsRead conventions b name type) → found.2.filter (!·.isUnnamed) = []

/-- Parameters are read as they are declared, all of them as input. -/
theorem map_input_declaredParameters (conventions : Conventions) (t : Text) :
    ((declaredParameters conventions t).map fun p ↦ { p with direction := .input }) =
      declaredParameters conventions t := by
  have hread : ∀ p ∈ (splitTopLevel ',' t).filterMap (fun piece ↦
      (Declarator.parse conventions.callbackTag piece).parameter?), p.direction = .input := by
    intro p hp
    obtain ⟨piece, -, hpiece⟩ := List.mem_filterMap.1 hp
    cases hparse : Declarator.parse conventions.callbackTag piece with
    | nothing | unparsable => exact absurd hpiece (by simp [hparse, Declarator.parameter?])
    | named name type =>
      rw [hparse] at hpiece
      obtain rfl := Option.some_inj.1 hpiece
      rfl
  have hsub : ∀ ps : List Parameter, (dropVoid ps).Sublist ps := by
    intro ps
    rw [dropVoid.eq_def]
    split
    · split
      · exact List.nil_sublist _
      · exact .refl _
    · exact .refl _
  refine List.map_congr_left (g := id) (fun p hp ↦ ?_) |>.trans (List.map_id _)
  rw [← hread p ((hsub _).subset hp)]
  rfl

/-- None of the records of unreadable pieces is about a missing name. -/
theorem isUnnamed_of_mem_unparsablePieces {declaration location t : Text} {wrong : Diagnostic}
    (h : wrong ∈ unparsablePieces declaration location t) : wrong.isUnnamed = false := by
  obtain ⟨piece, -, rfl⟩ := List.mem_map.1 h
  rfl

@[simp]
theorem filter_unparsablePieces (declaration location t : Text) :
    (unparsablePieces declaration location t).filter (!·.isUnnamed) =
      unparsablePieces declaration location t :=
  List.filter_eq_self.2 fun wrong hwrong ↦ by
    rw [isUnnamed_of_mem_unparsablePieces hwrong]
    rfl

@[simp]
theorem countP_unparsablePieces (declaration location t : Text) :
    (unparsablePieces declaration location t).countP Diagnostic.isUnnamed = 0 :=
  List.countP_eq_zero.2 fun wrong hwrong ↦ by
    rw [isUnnamed_of_mem_unparsablePieces hwrong]
    exact Bool.false_ne_true

theorem IsRead.unique {conventions : Conventions} {b : Block} {name type name' type' : Text}
    (h : IsRead conventions b name type) (h' : IsRead conventions b name' type') :
    name = name' ∧ type = type' :=
  Declarator.named.inj (h.1.symm.trans h'.1)

/-- A function that is read is not one to be left out. -/
theorem IsRead.not_excluded {conventions : Conventions} {b : Block} {name type : Text}
    (h : IsRead conventions b name type) (name' type' : Text) :
    ¬(Declarator.parse conventions.callbackTag b.head = .named name' type' ∧ name' ≠ [] ∧
      name' ∈ conventions.excluded) := by
  rintro ⟨hparse, -, hexcluded⟩
  obtain ⟨rfl, -⟩ := Declarator.named.inj (h.1.symm.trans hparse)
  exact h.2.2 hexcluded

section

variable {conventions : Conventions} {file : Text} {b : Block}

/-- The account of a block whose function is lost: it is not read, or a parameter has no name. -/
theorem IsAccount.of_lost {found : FunctionFate × List Diagnostic}
    (hlost : found.1.kept? = none)
    (hunnamed : ∀ name type, IsRead conventions b name type →
      ∃ p ∈ declaredParameters conventions b.listed, p.name = [])
    (one : found.1.excluded?.toList.length + found.2.countP Diagnostic.isUnnamed = 1)
    (excluded_iff : ∀ name type, found.1.excluded? = some (name, type) ↔
      Declarator.parse conventions.callbackTag b.head = .named name type ∧ name ≠ [] ∧
        name ∈ conventions.excluded)
    (dropped : ∀ name type, IsRead conventions b name type →
      found.2.filter (!·.isUnnamed) =
        unparsablePieces name (Location.display ⟨file, b.line⟩) b.listed)
    (unread : (¬∃ name type, IsRead conventions b name type) →
      found.2.filter (!·.isUnnamed) = []) :
    IsAccount conventions file b found where
  one := by simpa [hlost] using one
  kept_iff := by
    constructor
    · rintro ⟨f, hf⟩
      exact absurd (hlost.symm.trans hf) (by simp)
    · rintro ⟨⟨name, type, hread⟩, hnames⟩
      obtain ⟨p, hp, hname⟩ := hunnamed name type hread
      exact absurd hname (hnames p hp)
  excluded_iff := excluded_iff
  kept := fun f hf ↦ absurd (hlost.symm.trans hf) (by simp)
  params := fun f hf ↦ absurd (hlost.symm.trans hf) (by simp)
  dropped := dropped
  unread := unread

/-- The account of a block whose function is not read, if nothing is recorded about parameters. -/
theorem IsAccount.of_unread {found : FunctionFate × List Diagnostic}
    (hlost : found.1.kept? = none) (hunread : ∀ name type, ¬IsRead conventions b name type)
    (one : found.1.excluded?.toList.length + found.2.countP Diagnostic.isUnnamed = 1)
    (excluded_iff : ∀ name type, found.1.excluded? = some (name, type) ↔
      Declarator.parse conventions.callbackTag b.head = .named name type ∧ name ≠ [] ∧
        name ∈ conventions.excluded)
    (unread : found.2.filter (!·.isUnnamed) = []) : IsAccount conventions file b found :=
  .of_lost hlost (fun name type hread ↦ absurd hread (hunread name type)) one excluded_iff
    (fun name type hread ↦ absurd hread (hunread name type)) fun _ ↦ unread

/-- The account of a function that is kept. -/
theorem IsRead.isAccount {name type : Text} (hread : IsRead conventions b name type)
    (hnames : ∀ p ∈ declaredParameters conventions b.listed, p.name ≠ []) :
    IsAccount conventions file b
      (.kept (Prototype.withDirections ⟨name, type, declaredParameters conventions b.listed,
          b.doc, .ofComment b.doc, ⟨file, b.line⟩⟩ conventions.outputTypes),
        unparsablePieces name (Location.display ⟨file, b.line⟩) b.listed) where
  one := by simp [FunctionFate.kept?, FunctionFate.excluded?]
  kept_iff := ⟨fun _ ↦ ⟨⟨name, type, hread⟩, hnames⟩, fun _ ↦ ⟨_, rfl⟩⟩
  excluded_iff := fun name' type' ↦ ⟨fun h ↦ absurd h (by simp [FunctionFate.excluded?]),
    fun h ↦ absurd h (hread.not_excluded name' type')⟩
  kept := fun f hf ↦ by
    obtain rfl := Option.some_inj.1 hf
    refine ⟨hread, ?_, rfl, rfl⟩
    simp only [Prototype.bare, Prototype.withDirections, List.map_map, Function.comp_def,
      map_input_declaredParameters]
  params := fun f hf ↦ by
    obtain rfl := Option.some_inj.1 hf
    constructor
    · intro p hp
      obtain ⟨q, hq, rfl⟩ := List.mem_map.1 hp
      exact hnames q hq
    · rw [Prototype.withDirections, List.map_map]
      exact dropVoid_types _
  dropped := fun name' type' hread' ↦ by
    obtain ⟨rfl, rfl⟩ := hread.unique hread'
    exact filter_unparsablePieces _ _ _
  unread := fun h ↦ absurd ⟨name, type, hread⟩ h

/-- **Every way out is accounted for.** -/
theorem WayOut.isAccount {found : FunctionFate × List Diagnostic}
    (h : WayOut conventions file b found) : IsAccount conventions file b found := by
  cases h with
  | headless hnone =>
    refine .of_unread rfl (fun name type hread ↦ hread.2.1 (hnone name type hread.1)) rfl
      (fun name type ↦ ⟨fun h ↦ absurd h (by simp [FunctionFate.excluded?]), fun h ↦ ?_⟩) rfl
    exact absurd (hnone name type h.1) h.2.1
  | @excluded name type hparse hname hexcluded =>
    refine .of_unread rfl (fun name' type' hread ↦ hread.not_excluded name type
      ⟨hparse, hname, hexcluded⟩) rfl (fun name' type' ↦ ⟨fun h ↦ ?_, fun h ↦ ?_⟩) rfl
    · obtain ⟨rfl, rfl⟩ := Prod.mk.inj (Option.some_inj.1 h)
      exact ⟨hparse, hname, hexcluded⟩
    · obtain ⟨rfl, rfl⟩ := Declarator.named.inj (hparse.symm.trans h.1)
      rfl
  | @unnamed name type hread p hp hname =>
    refine .of_lost rfl (fun _ _ _ ↦ ⟨p, hp, hname⟩) ?_ (fun name' type' ↦
      ⟨fun h ↦ absurd h (by simp [FunctionFate.excluded?]),
        fun h ↦ absurd h (hread.not_excluded name' type')⟩) (fun name' type' hread' ↦ ?_)
      fun h ↦ absurd ⟨name, type, hread⟩ h
    · simp [FunctionFate.excluded?, Diagnostic.isUnnamed]
    · obtain ⟨rfl, rfl⟩ := hread.unique hread'
      rw [List.filter_append, filter_unparsablePieces]
      exact List.append_nil _
  | kept hread hnames => exact hread.isAccount hnames

end

/-! ## The account of a header -/

variable (conventions : Conventions) (d : Declarations) (file t : Text)

/-- Each block is accounted for by its fate. -/
theorem forall₂_isAccount : List.Forall₂ (IsAccount conventions file)
    (blocks (functionKind conventions) t) (functionFates conventions file t) := by
  rw [functionFates, List.forall₂_map_right_iff, List.forall₂_same]
  exact fun b _ ↦ (wayOut_functionOfBlock conventions file b).isAccount

/-- The functions of a header stand in the order of their lines. -/
theorem pairwise_line_functions :
    (functions conventions file t).Pairwise fun f g ↦ f.location.line < g.location.line := by
  have hplace {b : Block} {f : Prototype}
      (hf : (functionOfBlock conventions file b).1.kept? = some f) : f.location.line = b.line := by
    rw [((wayOut_functionOfBlock conventions file b).isAccount.kept f hf).2.2.1]
  have hlines : (blocks (functionKind conventions) t).Pairwise fun b b' ↦ b.line < b'.line :=
    Scanner.pairwise_line_run (functionKind conventions) t.lines Scanner.start 1
  rw [functions, functionFates, List.filterMap_map]
  refine hlines.filterMap _ fun b b' hlt f hf g hg ↦ ?_
  rw [hplace hf, hplace hg]
  exact hlt

/-- A name is in the table of excluded functions if it was there or if it is found. -/
theorem mem_excluded_addFunctions (name : Text) :
    name ∈ (d.addFunctions conventions file t).1.excluded ↔
      name ∈ d.excluded ∨ ∃ type, (name, type) ∈ excludedFunctions conventions file t := by
  change name ∈ d.excluded.insertMany (excludedFunctions conventions file t) ↔ _
  rw [Std.TreeMap.mem_insertMany_list]
  simp

/-- **What becomes of the exported functions of a header**, whatever has been collected before.
Each block is accounted for; the functions are added in the order of their lines, the excluded ones
to their table, and all that is wrong is reported block by block.  Of a list of parameters only
pieces without a declarator are passed over in silence. -/
theorem functionFates_accounted :
    List.Forall₂ (IsAccount conventions file) (blocks (functionKind conventions) t)
        (functionFates conventions file t) ∧
      (d.addFunctions conventions file t).1.functions =
        d.functions ++ functions conventions file t ∧
      (functions conventions file t).Pairwise (fun f g ↦ f.location.line < g.location.line) ∧
      (∀ name : Text, name ∈ (d.addFunctions conventions file t).1.excluded ↔
        name ∈ d.excluded ∨ ∃ type, (name, type) ∈ excludedFunctions conventions file t) ∧
      (∀ name : Text, (d.addFunctions conventions file t).1.excluded[name]? =
        ((tableOf (excludedFunctions conventions file t))[name]?).or d.excluded[name]?) ∧
      (d.addFunctions conventions file t).2 =
        (functionFates conventions file t).flatMap (·.2) ∧
      ∀ piece, (Declarator.parse conventions.callbackTag piece).parameter? = none ↔
        Declarator.IsFront piece ∨ '\x7b' ∈ piece :=
  ⟨forall₂_isAccount conventions file t, rfl, pairwise_line_functions conventions file t,
    mem_excluded_addFunctions conventions d file t,
    fun name ↦ getElem?_insertMany _ name d.excluded, rfl,
    fun _ ↦ Declarator.parameter?_eq_none_iff⟩

end HeaderBindings
