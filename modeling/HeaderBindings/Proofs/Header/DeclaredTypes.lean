import HeaderBindings.Proofs.Header.Mixture
import HeaderBindings.Proofs.Header.TypeNames

/-!
# The types that a header declares

Enumerations, structs, callbacks and type names are declarations of types.  From a header with
declarations of all sorts the names of these types are read as they stand there, in order and one
for each declaration: `names_blocks_mixedText`.

It takes no more than the lines of each declaration by itself.  They are read as one block, whose
parts show the name (`WrittenDeclaration.exists_declares`), and nothing is open behind them.

A definition with a tag may have a name behind its braces as well (`WrittenDeclaration.Wraps`).  It
declares the same type as it does without that name (`declaredType?_unwrapped`).
-/

set_option autoImplicit false

namespace HeaderBindings

variable {conventions : Conventions}

/-! ## Names of types -/

/-- The name of the type that is declared, if it is a declaration of a type. -/
def WrittenDeclaration.declaredType? : WrittenDeclaration → Option Text
  | enum e => some e.name
  | struct s => some s.name.1
  | callback f => some f.name.1
  | typeName a => some a.name.1
  | function _ | constant _ => none

/-- The name of the type in the parts of a declaration of the sort. -/
def DeclarationSort.nameIn (parts : List Text) : DeclarationSort → Text
  | enum => ([(parts[0]?).getD [], (parts[2]?).getD []].find? fun n ↦ !n.isEmpty).getD anonymousEnum
  | struct => (parts[0]?).getD []
  | _ => (parts[1]?).getD []

section

variable (file t : Text)

theorem map_name_enumerations : (enumerations file t).map (·.name) =
    (blocks enumKind t).map fun b ↦ DeclarationSort.enum.nameIn b.parts := by
  rw [enumerations, List.map_map]
  rfl

theorem map_name_structs : (structs conventions file t).1.map (·.name) =
    (blocks structKind t).map fun b ↦ DeclarationSort.struct.nameIn b.parts := by
  rw [structs, List.map_map, List.map_map]
  rfl

theorem map_fst_aliases : (aliases t).map (·.1) =
    (blocks aliasKind t).map fun b ↦ DeclarationSort.typeName.nameIn b.parts := by
  rw [aliases, List.map_map]
  rfl

/-- A callback that cannot be read is left out. -/
theorem mem_names_of_mem_callbacks {f : Prototype} (hf : f ∈ (callbacks conventions file t).1) :
    f.name ∈ (blocks (callbackKind conventions) t).map fun b ↦
      DeclarationSort.callback.nameIn b.parts := by
  obtain ⟨found, hfound, hread⟩ := List.mem_filterMap.1 hf
  obtain ⟨b, hb, rfl⟩ := List.mem_map.1 hfound
  refine List.mem_map.2 ⟨b, hb, ?_⟩
  simp only [callbackOfBlock] at hread
  split at hread
  · exact absurd hread (by simp)
  · obtain rfl := Option.some_inj.1 hread
    rfl

end

/-! ## Single declarations -/

/-- A declaration is read also if all of it stands on one line. -/
theorem Layout.Declares.onLine {kind : BlockKind} {l : Layout} {parts : List Text}
    (h : l.Declares kind parts) (hcode : IsCode l.joined) (hopens : kind.opens l.joined = true)
    (hcloses : kind.closes l.joined = true) :
    (Layout.mk l.joined []).Declares kind parts where
  isCode := by simpa [Layout.pieces] using hcode
  opens := by
    intro code hfirst
    obtain rfl : l.joined = code := Option.some_inj.1 hfirst
    exact hopens
  closes := ⟨[], l.joined, rfl, by simp, hcloses⟩
  parts := by
    have hjoined : (Layout.mk l.joined []).joined = l.joined := joinWith_singleton _ _
    rw [hjoined]
    exact h.parts

/-- A line for each piece is a layout with the same pieces. -/
theorem Layout.exists_rows_eq_spread (l : Layout) :
    ∃ l' : Layout, l.spread = l'.rows ∧ l'.pieces = l.pieces := by
  refine ⟨.lined l.first l.spread.tail, by rw [rows_lined]; rfl, ?_⟩
  rw [pieces_lined, ← l.map_spread]
  rfl

/-- What a type is spelled with. -/
def WrittenType.tokens (t : WrittenType) : List Token :=
  .word ⟨t.first.1, t.first.2.1⟩ ::
    (t.more.map (fun w ↦ .word ⟨w.1, w.2.1⟩) ++ List.replicate t.stars .star)

/-- A type in front of something else that is spelled. -/
theorem WrittenType.spells (t : WrittenType) {s : Text} {ts : List Token} (hs : Spells s ts)
    (hend : ∀ c ∈ s.head?, isWordChar c = false) : Spells (t.text ++ s) (t.tokens ++ ts) := by
  have hstars : ∀ n : Nat, Spells (List.replicate n '*' ++ s) (List.replicate n .star ++ ts) ∧
      ∀ c ∈ (List.replicate n '*' ++ s).head?, isWordChar c = false := by
    intro n
    induction n with
    | zero => exact ⟨hs, hend⟩
    | succ n ih => exact ⟨.star ih.1, by rintro c ⟨⟩; decide⟩
  have hmore : ∀ more : List TypeWord,
      Spells (more.flatMap (fun w ↦ ' ' :: w.1) ++ (List.replicate t.stars '*' ++ s))
        (more.map (fun w ↦ .word ⟨w.1, w.2.1⟩) ++ (List.replicate t.stars .star ++ ts)) ∧
      ∀ c ∈ (more.flatMap (fun w ↦ ' ' :: w.1) ++ (List.replicate t.stars '*' ++ s)).head?,
        isWordChar c = false := by
    intro more
    induction more with
    | nil => exact hstars t.stars
    | cons w more ih =>
      refine ⟨?_, by rintro c ⟨⟩; decide⟩
      rw [List.flatMap_cons, List.append_assoc, List.cons_append]
      exact .blank (by decide) (by decide) (.word ⟨w.1, w.2.1⟩ ih.2 ih.1)
  have hall := Spells.word ⟨t.first.1, t.first.2.1⟩ (hmore t.more).2 (hmore t.more).1
  simpa [text, tokens] using hall

theorem WrittenType.hasType_tokens (t : WrittenType) : Token.HasType t.tokens := by
  obtain ⟨hconst, hqualifier⟩ := not_or.1 (List.mem_cons.not.1 t.first.2.2)
  have hdeclared : Token.declared t.tokens = .word ⟨t.first.1, t.first.2.1⟩ :: Token.plain
      (t.more.map (fun w ↦ .word ⟨w.1, w.2.1⟩) ++ List.replicate t.stars .star) := by
    rw [Token.declared, tokens, Token.plain_cons_of_ne (Token.word_eq_const_iff.not.2 hconst),
      List.dropWhile_cons_of_neg (by simpa [Token.isQualifier] using hqualifier)]
  exact ⟨_, _, hdeclared⟩

/-- A type name is spelled with its lead, its type and its name. -/
theorem WrittenAlias.exists_spells (a : WrittenAlias) : ∃ spelled ts,
    a.text = aliasText spelled ∧ Spells spelled (ts ++ [.word a.name]) ∧ Token.HasType ts := by
  have hname : Spells (' ' :: a.name.1) [.word a.name] := by
    have hword := Spells.word a.name (t := []) (by simp) .nil
    rw [List.append_nil] at hword
    exact .blank (by decide) (by decide) hword
  have htype := a.original.spells hname (by rintro c ⟨⟩; decide)
  cases hlead : a.lead with
  | none =>
    refine ⟨_, _, ?_, htype, a.original.hasType_tokens⟩
    rw [text, front, hlead, aliasText, List.nil_append, List.append_assoc, List.cons_append]
  | some w =>
    have hleads : ∀ w ∈ Token.leadWords, isIdentifier w = true := by decide
    have hlead' : (Token.word ⟨w.1, hleads w.1 w.2⟩).isLead = true := decide_eq_true w.2
    refine ⟨w.1 ++ ' ' :: (a.original.text ++ ' ' :: a.name.1),
      .word ⟨w.1, hleads w.1 w.2⟩ :: a.original.tokens, ?_,
      .word ⟨w.1, hleads w.1 w.2⟩ (by rintro c ⟨⟩; decide)
        (.blank (by decide) (by decide) htype), ?_⟩
    · rw [text, front, hlead, aliasText]
      simp only [List.append_assoc, List.cons_append, List.nil_append]
    have hwithout : Token.withoutLead (.word ⟨w.1, hleads w.1 w.2⟩ :: a.original.tokens) =
        a.original.tokens := if_pos hlead'
    rw [Token.HasType, ← Token.declared_withoutLead, hwithout]
    exact a.original.hasType_tokens

namespace WrittenDeclaration

variable (hc : conventions.Distinctive)

include hc

/-- **A declaration of a type is read as one block**, whose parts show the name of the type. -/
theorem exists_declares {d : WrittenDeclaration} {name : Text} (hname : d.declaredType? = some name)
    {kind : BlockKind} (hkind : d.sort.kind? conventions = some kind) :
    ∃ (l : Layout) (parts : List Text),
      d.rows conventions = l.rows ∧ l.Declares kind parts ∧ d.sort.nameIn parts = name := by
  have hcode := d.isCode_rows hc
  obtain ⟨inner, last, hrows, hlast⟩ := d.exists_last hkind
  cases d with
  | enum e =>
    obtain rfl : enumKind = kind := Option.some_inj.1 hkind
    obtain ⟨l, hspread, hpieces⟩ := e.layout.exists_rows_eq_spread
    refine ⟨l, _, hspread, e.declares_of_pieces hpieces, ?_⟩
    have hread := congrArg (·.name) (e.enumOfBlock_eq [] 0)
    exact hread.trans (Option.some_inj.1 hname)
  | struct s =>
    obtain rfl : structKind = kind := Option.some_inj.1 hkind
    have hspread : (s.layout conventions.callbackTag).spread =
        (s.layout conventions.callbackTag).rows := by
      rw [WrittenStruct.layout, Layout.rows_lined]
      simp [Layout.lined, Layout.spread, Function.comp_def, Gap.indent]
    refine ⟨_, _, hspread, WrittenStruct.layout_declares fun _ _ _ ↦ hc.callbackTag, ?_⟩
    exact Option.some_inj.1 hname
  | callback f =>
    obtain rfl : callbackKind conventions = kind := Option.some_inj.1 hkind
    have hdeclares := f.callbackLayout_declares hc.callbackTag
    have hline := hcode (by simp [sort]) _ (List.mem_singleton_self _)
    have hopens :
        (callbackKind conventions).opens (f.callbackLayout conventions).joined = true := by
      rw [WrittenPrototype.callbackLayout, WrittenParameters.joined_layout, List.append_assoc]
      exact f.occursIn_callbackLead hc.callbackTag _
    refine ⟨_, _, rfl, hdeclares.onLine hline hopens ?_, ?_⟩
    · obtain ⟨-, hlast'⟩ := List.append_inj' ((List.nil_append _).trans hrows) rfl
      rwa [← List.singleton_inj.1 hlast'] at hlast
    · exact Option.some_inj.1 hname
  | typeName a =>
    obtain rfl : aliasKind = kind := Option.some_inj.1 hkind
    obtain ⟨spelled, ts, htext, hspells, htype⟩ := a.exists_spells
    obtain ⟨core, -, hdeclares⟩ := aliasText_declares hspells htype
    refine ⟨_, _, ?_, hdeclares, ?_⟩
    · rw [← htext]
      rfl
    · exact Option.some_inj.1 hname
  | function f => exact absurd hname (by simp [declaredType?])
  | constant c => exact absurd hname (by simp [declaredType?])

/-- The names that a scanner finds in its lines. -/
theorem names_run_lines {d : WrittenDeclaration} {name : Text} (hname : d.declaredType? = some name)
    {kind : BlockKind} (hkind : d.sort.kind? conventions = some kind) (n : Nat) :
    (Scanner.start.run kind n (d.lines conventions)).map (fun b ↦ d.sort.nameIn b.parts) =
      [name] := by
  obtain ⟨l, parts, hrows, hdeclares, rfl⟩ := exists_declares hc hname hkind
  have hlines : d.lines conventions = (l.text ++ ['\n']).lines := by
    rw [lines, hrows, Layout.lines_text hdeclares.isCode]
    exact (List.append_nil _).symm
  rw [hlines, Layout.run_text hdeclares]
  rfl

omit hc in
/-- All declarations are of types but for functions and constants. -/
theorem exists_declaredType? {d : WrittenDeclaration} (hsort : d.sort ≠ .function)
    (hkind : d.sort.kind? conventions ≠ none) : ∃ name, d.declaredType? = some name := by
  cases d with
  | enum _ | struct _ | callback _ | typeName _ => exact ⟨_, rfl⟩
  | function _ => exact absurd rfl hsort
  | constant _ => exact absurd rfl hkind

end WrittenDeclaration

/-! ## Whole headers -/

section

variable (hc : conventions.Distinctive)

include hc

/-- Documentation in front of the declaration makes no difference. -/
theorem DocumentedDeclaration.names_run_lines {d : DocumentedDeclaration}
    (hsort : d.declaration.sort ≠ .function) {kind : BlockKind}
    (hkind : d.declaration.sort.kind? conventions = some kind) :
    (Scanner.start.run kind 1 (d.lines conventions)).map
        (fun b ↦ d.declaration.sort.nameIn b.parts) = d.declaration.declaredType?.toList := by
  obtain ⟨name, hname⟩ := WrittenDeclaration.exists_declaredType? hsort
    (hkind ▸ Option.some_ne_none kind)
  obtain ⟨hsettles, hnothing⟩ := d.quiet_doc kind
  obtain ⟨doc, hafter⟩ := hsettles Scanner.start Scanner.settled_start
  have hparts := @Scanner.map_parts_run ⟨doc, none, false⟩ Scanner.start kind rfl rfl
    (1 + (d.doc.map (·.1)).length) 1 (d.declaration.lines conventions)
  have hsame := congrArg (List.map fun parts ↦ d.declaration.sort.nameIn parts) hparts
  rw [List.map_map, List.map_map] at hsame
  rw [lines, Scanner.run_append, hnothing _ _ Scanner.settled_start, List.nil_append, hafter, hname]
  exact hsame.trans (WrittenDeclaration.names_run_lines hc hname hkind 1)

/-- **The names of types are read in order**, one for each declaration of the sort. -/
theorem names_blocks_mixedText {ds : List DocumentedDeclaration}
    (hds : ∀ d ∈ ds, ∀ w ∈ d.declaration.innerWords, Ordinary conventions w)
    {sort : DeclarationSort} (hsort : sort ≠ .function) {kind : BlockKind}
    (hkind : sort.kind? conventions = some kind) :
    (blocks kind (mixedText conventions ds)).map (fun b ↦ sort.nameIn b.parts) =
      (ds.filter (·.declaration.sort = sort)).filterMap (·.declaration.declaredType?) := by
  have hown : ∀ d ∈ ds.filter (·.declaration.sort = sort), d.declaration.sort = sort :=
    fun d hd ↦ by simpa using List.of_mem_filter hd
  have hparts := map_parts_blocks_mixedText hc hds hkind
  generalize ds.filter (·.declaration.sort = sort) = own at hown hparts ⊢
  rw [blocks, blocks, lines_mixedText hc own, Scanner.map_parts_run_flatMap (fun d hd ↦ ?_) 1
    Scanner.settled_start] at hparts
  · have hnames := congrArg (List.map fun parts ↦ sort.nameIn parts) hparts
    rw [List.map_map, List.map_flatMap] at hnames
    rw [blocks, List.filterMap_eq_flatMap_toList]
    refine hnames.trans (List.flatMap_congr fun d hd ↦ ?_)
    obtain rfl := hown d hd
    rw [List.map_map]
    exact d.names_run_lines hc hsort hkind
  · exact d.settles_lines hc (by rwa [hown d hd])

end

/-! ## Names behind a body -/

/-- A definition with the tag that stands behind `typedef` and has the name behind its braces. -/
def WrittenDeclaration.Wraps (tag name : Identifier) : WrittenDeclaration → Prop
  | enum e => e.typedef = true ∧ e.tag = some tag ∧ e.typeName = some name
  | struct s => s.typedef = true ∧ s.name = tag ∧ s.typeName = some name
  | _ => False

/-- The declaration, without `typedef` and the name behind its braces if it has a tag. -/
def WrittenDeclaration.unwrapped : WrittenDeclaration → WrittenDeclaration
  | enum e =>
    if e.tag.isSome then enum { e with typedef := false, typeName := none } else enum e
  | struct s => struct { s with typedef := false, typeName := none }
  | d => d

def DocumentedDeclaration.unwrapped (d : DocumentedDeclaration) : DocumentedDeclaration :=
  { d with declaration := d.declaration.unwrapped }

namespace WrittenDeclaration

variable (d : WrittenDeclaration)

@[simp]
theorem sort_unwrapped : d.unwrapped.sort = d.sort := by
  cases d with
  | enum e =>
    rw [unwrapped]
    split <;> rfl
  | _ => rfl

@[simp]
theorem innerWords_unwrapped : d.unwrapped.innerWords = d.innerWords := by
  cases d with
  | enum e =>
    rw [unwrapped]
    split <;> rfl
  | _ => rfl

/-- The type has its name from the tag. -/
@[simp]
theorem declaredType?_unwrapped : d.unwrapped.declaredType? = d.declaredType? := by
  cases d with
  | enum e =>
    rw [unwrapped]
    split
    · rename_i htag
      obtain ⟨tag, htag⟩ := Option.isSome_iff_exists.1 htag
      simp [declaredType?, WrittenEnum.name, htag]
    · rfl
  | _ => rfl

theorem unwrapped_of_sort (henum : d.sort ≠ .enum) (hstruct : d.sort ≠ .struct) :
    d.unwrapped = d := by
  cases d with
  | enum _ => exact absurd rfl henum
  | struct _ => exact absurd rfl hstruct
  | _ => rfl

end WrittenDeclaration

section

variable (ds : List DocumentedDeclaration) (sort : DeclarationSort)

theorem filter_unwrapped : (ds.map (·.unwrapped)).filter (·.declaration.sort = sort) =
    (ds.filter (·.declaration.sort = sort)).map (·.unwrapped) := by
  rw [List.filter_map]
  simp [Function.comp_def, DocumentedDeclaration.unwrapped]

theorem filterMap_unwrapped :
    ((ds.map (·.unwrapped)).filter (·.declaration.sort = sort)).filterMap
        (·.declaration.declaredType?) =
      (ds.filter (·.declaration.sort = sort)).filterMap (·.declaration.declaredType?) := by
  rw [filter_unwrapped, List.filterMap_map]
  simp [Function.comp_def, DocumentedDeclaration.unwrapped]

theorem filter_unwrapped_of_sort {sort : DeclarationSort} (henum : sort ≠ .enum)
    (hstruct : sort ≠ .struct) : (ds.map (·.unwrapped)).filter (·.declaration.sort = sort) =
      ds.filter (·.declaration.sort = sort) := by
  rw [filter_unwrapped]
  refine (List.map_congr_left fun d hd ↦ ?_).trans (List.map_id _)
  obtain rfl : d.declaration.sort = sort := by simpa using List.of_mem_filter hd
  rw [DocumentedDeclaration.unwrapped, d.declaration.unwrapped_of_sort henum hstruct]
  rfl

end

end HeaderBindings
