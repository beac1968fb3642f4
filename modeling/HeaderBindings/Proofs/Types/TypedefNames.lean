import HeaderBindings.Proofs.Header.DeclaredTypes
import HeaderBindings.Proofs.Types.HeaderOrder

/-!
# Names behind a definition

`typedef struct tag {...} name;` defines a type and gives it a name.  The type enters the table
under its tag, but the name behind the braces does not: each type has the descriptor that it would
have without that name.

* `Descriptors.derive_congr`: the descriptors depend on nothing but the names of the declared types
  and the type names.
* `Declarations.map_name_enums_ofHeaders` and the lemmas behind it: these are the names that the
  declarations of the headers show.
* `TypeTable.resolve?_wrapped`: so a name behind braces has a descriptor only if it has one for
  another reason.  A type name, `typedef struct tag name;`, would be such a reason.
-/

set_option autoImplicit false

namespace HeaderBindings

variable {conventions : Conventions}

/-- Headers with the given declarations, each with the name of its file. -/
def headerTexts (conventions : Conventions) (headers : List (Text × List DocumentedDeclaration)) :
    List (Text × Text) :=
  headers.map fun h ↦ (h.1, mixedText conventions h.2)

/-- The headers without `typedef` and the names behind the definitions that have a tag. -/
def unwrappedHeaders (headers : List (Text × List DocumentedDeclaration)) :
    List (Text × List DocumentedDeclaration) :=
  headers.map fun h ↦ (h.1, h.2.map (·.unwrapped))

/-- The names of types that the declarations of one sort show, in order. -/
def declaredNames (sort : DeclarationSort) (headers : List (Text × List DocumentedDeclaration)) :
    List Text :=
  headers.flatMap fun h ↦
    (h.2.filter (·.declaration.sort = sort)).filterMap (·.declaration.declaredType?)

/-- No line between braces can be taken for the beginning of another declaration. -/
def OrdinaryHeaders (conventions : Conventions)
    (headers : List (Text × List DocumentedDeclaration)) : Prop :=
  ∀ h ∈ headers, ∀ d ∈ h.2, ∀ w ∈ d.declaration.innerWords, Ordinary conventions w

variable {headers : List (Text × List DocumentedDeclaration)}

theorem OrdinaryHeaders.unwrapped (h : OrdinaryHeaders conventions headers) :
    OrdinaryHeaders conventions (unwrappedHeaders headers) := by
  intro header hheader d hd w hw
  obtain ⟨header, hmem, rfl⟩ := List.mem_map.1 hheader
  obtain ⟨d, hdmem, rfl⟩ := List.mem_map.1 hd
  rw [DocumentedDeclaration.unwrapped, WrittenDeclaration.innerWords_unwrapped] at hw
  exact h header hmem d hdmem w hw

theorem declaredNames_unwrapped (sort : DeclarationSort) :
    declaredNames sort (unwrappedHeaders headers) = declaredNames sort headers := by
  simp only [declaredNames, unwrappedHeaders, List.flatMap_map, filterMap_unwrapped]

theorem mem_declaredNames {sort : DeclarationSort} {name : Text} :
    name ∈ declaredNames sort headers ↔ ∃ h ∈ headers, ∃ d ∈ h.2, d.declaration.sort = sort ∧
      d.declaration.declaredType? = some name := by
  simp only [declaredNames, List.mem_flatMap, List.mem_filterMap, List.mem_filter,
    decide_eq_true_eq, and_assoc]

/-! ## What the headers declare -/

namespace Declarations

section

variable (hc : conventions.Distinctive) (h : OrdinaryHeaders conventions headers) (version : Text)

include hc h

/-- **The names of enumerations** are those that the declarations show. -/
theorem map_name_enums_ofHeaders :
    (ofHeaders conventions version (headerTexts conventions headers)).1.enums.map (·.name) =
      declaredNames .enum headers := by
  simp only [ofHeaders, withHandles, addHeaders_fst, List.nil_append, headerTexts,
    List.flatMap_map, List.map_flatMap, map_name_enumerations, declaredNames]
  exact List.flatMap_congr fun header hheader ↦
    names_blocks_mixedText hc (h header hheader) (by simp) rfl

/-- **The names of structs** likewise. -/
theorem map_name_structs_ofHeaders :
    (ofHeaders conventions version (headerTexts conventions headers)).1.structs.map (·.name) =
      declaredNames .struct headers := by
  simp only [ofHeaders, withHandles, addHeaders_fst, List.nil_append, headerTexts,
    List.flatMap_map, List.map_flatMap, map_name_structs, declaredNames]
  exact List.flatMap_congr fun header hheader ↦
    names_blocks_mixedText hc (h header hheader) (by simp) rfl

/-- A callback that is read has a name that one of the declarations shows. -/
theorem mem_declaredNames_of_mem_callbacks {f : Prototype}
    (hf : f ∈ (ofHeaders conventions version (headerTexts conventions headers)).1.callbacks) :
    f.name ∈ declaredNames .callback headers := by
  simp only [ofHeaders, withHandles, addHeaders_fst, List.nil_append, headerTexts,
    List.flatMap_map, List.mem_flatMap] at hf
  obtain ⟨header, hheader, hf⟩ := hf
  have hnames := @names_blocks_mixedText _ hc _ (h header hheader) .callback (by simp) _ rfl
  exact List.mem_flatMap.2 ⟨header, hheader, hnames ▸ mem_names_of_mem_callbacks _ _ hf⟩

/-- So has a type name. -/
theorem mem_declaredNames_of_mem_aliases {name : Text}
    (hname : name ∈ (ofHeaders conventions version (headerTexts conventions headers)).1.aliases) :
    name ∈ declaredNames .typeName headers := by
  have hgiven : name ∈ (givenAliases (headerTexts conventions headers)).map (·.1) := by
    simp only [ofHeaders, withHandles, addHeaders_fst] at hname
    rcases Std.TreeMap.mem_insertMany_list.1 hname with hnone | hgiven
    · exact absurd hnone Std.TreeMap.not_mem_emptyc
    · exact List.contains_iff_mem.1 hgiven
  rw [givenAliases, headerTexts, List.flatMap_map, List.map_flatMap, List.mem_flatMap] at hgiven
  obtain ⟨header, hheader, hgiven⟩ := hgiven
  have hnames := @names_blocks_mixedText _ hc _ (h header hheader) .typeName (by simp) _ rfl
  rw [map_fst_aliases, hnames] at hgiven
  exact List.mem_flatMap.2 ⟨header, hheader, hgiven⟩

/-! ### Without the names behind definitions -/

/-- **Callbacks are the same** without the names behind definitions, up to places and documentation,
and so are their names. -/
theorem map_name_callbacks_unwrapped :
    (ofHeaders conventions version
        (headerTexts conventions (unwrappedHeaders headers))).1.callbacks.map (·.name) =
      (ofHeaders conventions version (headerTexts conventions headers)).1.callbacks.map
        (·.name) := by
  simp only [ofHeaders, withHandles, addHeaders_fst, List.nil_append, headerTexts,
    unwrappedHeaders, List.flatMap_map, List.map_flatMap]
  refine List.flatMap_congr fun header hheader ↦ ?_
  have hread := congrArg (·.callbacks.1)
    (readings_mixedText hc (h header hheader) header.1 .callback).1
  have hread' := congrArg (·.callbacks.1) (readings_mixedText hc
    (h.unwrapped (header.1, header.2.map (·.unwrapped)) (List.mem_map_of_mem hheader)) header.1
      .callback).1
  rw [filter_unwrapped_of_sort _ (by simp) (by simp)] at hread'
  have hnames := congrArg (List.map (·.name)) (hread'.trans hread.symm)
  simpa [Readings.only, Readings.bare, readings, Function.comp_def, Prototype.bare] using hnames

/-- **Type names are the same.** -/
theorem givenAliases_unwrapped :
    givenAliases (headerTexts conventions (unwrappedHeaders headers)) =
      givenAliases (headerTexts conventions headers) := by
  simp only [givenAliases, headerTexts, unwrappedHeaders, List.flatMap_map]
  refine List.flatMap_congr fun header hheader ↦ ?_
  have hread := congrArg (·.aliases) (readings_mixedText hc (h header hheader) header.1 .typeName).1
  have hread' := congrArg (·.aliases) (readings_mixedText hc
    (h.unwrapped (header.1, header.2.map (·.unwrapped)) (List.mem_map_of_mem hheader)) header.1
      .typeName).1
  rw [filter_unwrapped_of_sort _ (by simp) (by simp)] at hread'
  exact hread'.trans hread.symm

end

end Declarations

/-! ## The table -/

namespace Descriptors

/-- The descriptors depend on the names of the declared types and on the type names only. -/
theorem derive_congr {d d' : Declarations} (configured : Table)
    (henums : d.enums.map (·.name) = d'.enums.map (·.name))
    (hstructs : d.structs.map (·.name) = d'.structs.map (·.name))
    (hcallbacks : d.callbacks.map (·.name) = d'.callbacks.map (·.name))
    (hhandles : d.handles = d'.handles) (haliases : d.aliases = d'.aliases) :
    derive conventions configured d = derive conventions configured d' := by
  simp only [derive, henums, hstructs, hcallbacks, hhandles, haliases]

end Descriptors

namespace TypeTable

open Descriptors Declarations

section

variable (hc : conventions.Distinctive) (h : OrdinaryHeaders conventions headers)
  (configured : Table) (version : Text)

include hc h

/-- **No type has another descriptor without the names behind definitions.** -/
theorem resolve?_unwrappedHeaders (t : Text) :
    (build conventions configured (ofHeaders conventions version
      (headerTexts conventions (unwrappedHeaders headers))).1).resolve? t =
    (build conventions configured (ofHeaders conventions version
      (headerTexts conventions headers)).1).resolve? t := by
  have henums := (map_name_enums_ofHeaders hc h.unwrapped version).trans
    ((declaredNames_unwrapped .enum).trans (map_name_enums_ofHeaders hc h version).symm)
  have hstructs := (map_name_structs_ofHeaders hc h.unwrapped version).trans
    ((declaredNames_unwrapped .struct).trans (map_name_structs_ofHeaders hc h version).symm)
  have hcallbacks := map_name_callbacks_unwrapped hc h version
  have haliases : (ofHeaders conventions version
      (headerTexts conventions (unwrappedHeaders headers))).1.aliases =
        (ofHeaders conventions version (headerTexts conventions headers)).1.aliases := by
    simp only [ofHeaders, withHandles, addHeaders_fst, givenAliases_unwrapped hc h]
  have hhandles : (ofHeaders conventions version
      (headerTexts conventions (unwrappedHeaders headers))).1.handles =
        (ofHeaders conventions version (headerTexts conventions headers)).1.handles := by
    simp only [ofHeaders, withHandles, undefinedTypes] at henums hstructs haliases ⊢
    rw [henums, hstructs, haliases]
  rw [resolve?, build, build, derive_congr configured henums hstructs hcallbacks hhandles haliases]
  rfl

/-- **A name that no declaration shows** has a configured or a built-in descriptor or none. -/
theorem resolve?_of_not_declared {name : Identifier}
    (hname : ∀ header ∈ headers, ∀ d ∈ header.2, d.declaration.declaredType? ≠ some name.1) :
    (build conventions configured (ofHeaders conventions version
      (headerTexts conventions headers)).1).resolve? name.1 =
        (configured[name.1]?).or (basicTypes.lookup name.1) := by
  have hnot (sort : DeclarationSort) : name.1 ∉ declaredNames sort headers := by
    rw [mem_declaredNames]
    rintro ⟨header, hheader, d, hd, -, hshown⟩
    exact hname header hheader d hd hshown
  have hplain := plainAliases_ofHeaders conventions version (headerTexts conventions headers)
  have haliases : name.1 ∉
      (ofHeaders conventions version (headerTexts conventions headers)).1.aliases :=
    fun hmem ↦ hnot .typeName (mem_declaredNames_of_mem_aliases hc h version hmem)
  have hdeclared : name.1 ∉
      (ofHeaders conventions version (headerTexts conventions headers)).1.declaredTypes := by
    simp only [declaredTypes, List.mem_append, map_name_enums_ofHeaders hc h,
      map_name_structs_ofHeaders hc h, not_or]
    refine ⟨⟨⟨hnot .enum, hnot .struct⟩, fun hhandle ↦ haliases ?_⟩, fun hcallback ↦ ?_⟩
    · obtain ⟨entry, hentry, hfst⟩ := List.mem_map.1 hhandle
      have hmem := Std.TreeMap.mem_toList_iff_getElem?_eq_some.1 (List.mem_of_mem_filter hentry)
      exact hfst ▸ mem_of_getElem?_eq_some hmem
    · obtain ⟨f, hf, hfname⟩ := List.mem_map.1 hcallback
      exact hnot .callback (hfname ▸ mem_declaredNames_of_mem_callbacks hc h version hf)
  have hrules := @rules_build conventions configured _ hplain
  have hgiven : given? conventions configured
      (ofHeaders conventions version (headerTexts conventions headers)).1 name.1 =
        (configured[name.1]?).or (basicTypes.lookup name.1) := by
    rw [given?, if_neg hdeclared, Option.or_none]
  rw [← hgiven]
  cases hlook : given? conventions configured
      (ofHeaders conventions version (headerTexts conventions headers)).1 name.1 with
  | some e => exact hrules.ofGiven hlook
  | none =>
    refine hrules.ofNothing hlook haliases fun a ha ↦ ?_
    have hstar : '*' ∈ name.1 := ha ▸ List.mem_append_right a List.mem_cons_self
    exact absurd hstar (notMem_of_isIdentifier name.2 (by decide))

/-- **A tag** has the descriptor of its own class, unless it is configured or built in. -/
theorem resolve?_of_wraps {tag name : Identifier} (hwraps : ∃ header ∈ headers,
    ∃ d ∈ header.2, d.declaration.Wraps tag name) :
    (build conventions configured (ofHeaders conventions version
      (headerTexts conventions headers)).1).resolve? tag.1 =
        (configured[tag.1]?).or ((basicTypes.lookup tag.1).or
          (some (className conventions.typeLeads tag.1))) := by
  obtain ⟨header, hheader, d, hd, hwraps⟩ := hwraps
  have hdeclared : tag.1 ∈
      (ofHeaders conventions version (headerTexts conventions headers)).1.declaredTypes := by
    simp only [declaredTypes, List.mem_append, map_name_enums_ofHeaders hc h,
      map_name_structs_ofHeaders hc h, mem_declaredNames]
    cases hdecl : d.declaration with
    | enum e =>
      rw [hdecl] at hwraps
      refine Or.inl (Or.inl (Or.inl ⟨header, hheader, d, hd, ?_⟩))
      rw [hdecl]
      exact ⟨rfl, by simp [WrittenDeclaration.declaredType?, WrittenEnum.name, hwraps.2.1]⟩
    | struct s =>
      rw [hdecl] at hwraps
      refine Or.inl (Or.inl (Or.inr ⟨header, hheader, d, hd, ?_⟩))
      rw [hdecl]
      exact ⟨rfl, by simp [WrittenDeclaration.declaredType?, hwraps.2.1]⟩
    | _ =>
      rw [hdecl] at hwraps
      exact hwraps.elim
  have hplain := plainAliases_ofHeaders conventions version (headerTexts conventions headers)
  have hgiven : given? conventions configured
      (ofHeaders conventions version (headerTexts conventions headers)).1 tag.1 =
        (configured[tag.1]?).or ((basicTypes.lookup tag.1).or
          (some (className conventions.typeLeads tag.1))) := by
    rw [given?, if_pos hdeclared]
  rw [← hgiven]
  obtain ⟨e, he⟩ := @isSome_given?_of_mem conventions configured _ _ hdeclared
  rw [he]
  exact (@rules_build conventions configured _ hplain).ofGiven he

end

/-- **Of a definition with two names** the tag has a descriptor, and the name behind the braces makes
no difference to the descriptor of any type.  If no declaration shows that name by itself, it has
none but a configured or a built-in one, and functions that are written with it are reported. -/
theorem typedefNames (hc : conventions.Distinctive) (h : OrdinaryHeaders conventions headers)
    (configured : Table) (version : Text) :
    let read := ofHeaders conventions version (headerTexts conventions headers)
    let table := build conventions configured read.1
    (∀ t, (build conventions configured (ofHeaders conventions version
      (headerTexts conventions (unwrappedHeaders headers))).1).resolve? t = table.resolve? t) ∧
    ∀ tag name : Identifier,
      (∃ header ∈ headers, ∃ d ∈ header.2, d.declaration.Wraps tag name) →
      table.resolve? tag.1 = (configured[tag.1]?).or ((basicTypes.lookup tag.1).or
        (some (className conventions.typeLeads tag.1))) ∧
      ((∀ header ∈ headers, ∀ d ∈ header.2, d.declaration.declaredType? ≠ some name.1) →
        table.resolve? name.1 = (configured[name.1]?).or (basicTypes.lookup name.1) ∧
        ∀ f ∈ read.1.functions, name.1 ∈ f.types →
          (name.1 ∈ Diagnostic.unresolvedTypes (read.2 ++ table.missing read.1) ↔
            configured[name.1]? = none ∧ basicTypes.lookup name.1 = none)) := by
  intro read table
  refine ⟨resolve?_unwrappedHeaders hc h configured version, fun tag name hwraps ↦
    ⟨resolve?_of_wraps hc h configured version hwraps, fun hname ↦ ?_⟩⟩
  have hlook := resolve?_of_not_declared hc h configured version hname
  refine ⟨hlook, fun f hf hused ↦ ?_⟩
  rw [mem_unresolvedTypes (noTypes_ofHeaders conventions version _), hlook, Option.or_eq_none_iff]
  exact ⟨And.left, fun hnone ↦ ⟨hnone, f, hf, hused⟩⟩

/-- An enumeration with a tag and a name. -/
def sortEnum : WrittenEnum where
  typedef := true
  tag := some ⟨"XnRank", by decide⟩
  opening := .lineBreak .none
  members := [(.lineBreak .none, .counted ⟨"XN_A", by decide⟩)]
  trailing := false
  closing := .lineBreak .none
  typeName := some ⟨"XnSort", by decide⟩
  refersBack := by decide

/-- A struct likewise. -/
def spotStruct : WrittenStruct where
  typedef := true
  name := ⟨"XnPlace", by decide⟩
  entries := [(.none, .field (.plain ⟨⟨"short", by decide⟩, [], 0⟩ ⟨"row", by decide⟩))]
  typeName := some ⟨"XnSpot", by decide⟩

/-- A function that is written with the two names. -/
def sortFunction : WrittenPrototype where
  result := ⟨⟨"XnSort", by decide⟩, [], 0⟩
  name := ⟨"xnFind", by decide⟩
  params := .listed (.declared (.plain ⟨⟨"XnSpot", by decide⟩, [], 0⟩ ⟨"spot", by decide⟩)) []

/-- A header with the three of them. -/
def spotHeaders : List (Text × List DocumentedDeclaration) :=
  [("a.h", [⟨[], .struct spotStruct⟩, ⟨[], .enum sortEnum⟩, ⟨[], .function sortFunction⟩])]

theorem typedefNames_spotHeaders :
    mixedText {} (spotHeaders.flatMap (·.2)) =
      "typedef struct XnPlace\n\x7b\nshort row;\n\x7d XnSpot;\n" ++
        "typedef enum XnRank\n\x7b\nXN_A\n\x7d XnSort;\nXN_C_API XnSort xnFind(XnSpot spot);\n" ∧
    let read := ofHeaders {} [] (headerTexts {} spotHeaders)
    let table := build {} ∅ read.1
    table.resolve? "XnPlace" = some ("Place" : Text) ∧ table.resolve? "XnSpot" = none ∧
      table.resolve? "XnRank" = some ("Rank" : Text) ∧ table.resolve? "XnSort" = none := by
  have hc : Conventions.Distinctive {} := ⟨by decide, by decide, by decide⟩
  have h : OrdinaryHeaders {} spotHeaders := by
    unfold OrdinaryHeaders
    decide
  obtain ⟨-, hnames⟩ := typedefNames hc h ∅ []
  have hplace := hnames ⟨"XnPlace", by decide⟩ ⟨"XnSpot", by decide⟩
    ⟨_, List.mem_cons_self, ⟨[], .struct spotStruct⟩, by simp, rfl, rfl, rfl⟩
  have hrank := hnames ⟨"XnRank", by decide⟩ ⟨"XnSort", by decide⟩
    ⟨_, List.mem_cons_self, ⟨[], .enum sortEnum⟩, by simp, rfl, rfl, rfl⟩
  refine ⟨by decide +kernel, hplace.1.trans (by decide), (hplace.2 ?_).1.trans (by decide),
    hrank.1.trans (by decide), (hrank.2 ?_).1.trans (by decide)⟩
  all_goals decide

/-- The names behind the braces do not resolve, and functions that are written with them are
reported. -/
theorem typedefNames_lost :
    let read := ofHeaders {} [] [("a.h", "typedef struct XnPoint\n\x7b\nint x;\n\x7d XnSpot;\n" ++
      "typedef enum XnKind\n\x7b\nXN_A\n\x7d XnSort;\nXN_C_API XnSort f(XnSpot p);\n")]
    let table := build {} ∅ read.1
    table.resolve? "XnPoint" = some ("Point" : Text) ∧ table.resolve? "XnSpot" = none ∧
      table.resolve? "XnKind" = some ("Kind" : Text) ∧ table.resolve? "XnSort" = none ∧
      read.2 = [] ∧ Diagnostic.unresolvedTypes (table.missing read.1) = ["XnSort", "XnSpot"] := by
  decide +kernel

end TypeTable

end HeaderBindings
