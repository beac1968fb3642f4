import HeaderBindings.Proofs.Header.Concatenation
import HeaderBindings.Proofs.Types.Derivation
import HeaderBindings.Proofs.Types.Missing

/-!
# The order of headers

Headers are read one after the other, and the order shows: in the order of the declarations, and
wherever a later header overrules an earlier one.  The verdict on the headers does not depend on it.

* `AgreeOnAliases headers`: no two headers let one type name stand for different types.  A table of
  type names has no room for both, so otherwise the last header would win.
* `IsReordering d d'`: the same declarations, perhaps in another order, with the same handles and
  the same type names.  `isReordering_of_perm`: that is what the headers in another order declare.
* `equiv_derive`: then the descriptors are the same.  The classes of declared types come in another
  order, but each class is made from the name of its type alone, and no entry replaces another.  The
  type names are visited in the order of the table that they are in.
-/

set_option autoImplicit false

namespace HeaderBindings

variable {conventions : Conventions}

namespace Declarations

/-! ## What several headers declare -/

/-- The type names that headers give, each with the type that it stands for. -/
def givenAliases (headers : List (Text × Text)) : List (Text × Text) :=
  headers.flatMap fun h ↦ HeaderBindings.aliases h.2

/-- All that several headers add to a collection. -/
theorem addHeaders_fst (headers : List (Text × Text)) : ∀ d : Declarations,
    (d.addHeaders conventions headers).1 =
      { d with
        enums := d.enums ++ headers.flatMap fun h ↦ enumerations h.1 h.2
        structs := d.structs ++
          headers.flatMap fun h ↦ (HeaderBindings.structs conventions h.1 h.2).1
        functions := d.functions ++
          headers.flatMap fun h ↦ HeaderBindings.functions conventions h.1 h.2
        callbacks := d.callbacks ++
          headers.flatMap fun h ↦ (HeaderBindings.callbacks conventions h.1 h.2).1
        aliases := d.aliases.insertMany (givenAliases headers)
        constants := d.constants.insertMany
          (headers.flatMap fun h ↦ HeaderBindings.constants conventions h.2)
        excluded := d.excluded.insertMany
          (headers.flatMap fun h ↦ excludedFunctions conventions h.1 h.2) } := by
  induction headers with
  | nil => intro d; simp [addHeaders, givenAliases]
  | cons header rest ih =>
    intro d
    have hstep : (d.addHeaders conventions (header :: rest)).1 =
        ((d.addHeader conventions header.1 header.2).1.addHeaders conventions rest).1 := rfl
    rw [hstep, ih, addHeader_fst]
    simp only [givenAliases, List.flatMap_cons, List.append_assoc, Std.TreeMap.insertMany_append]

/-- All that is wrong with several headers. -/
theorem addHeaders_snd (headers : List (Text × Text)) : ∀ d : Declarations,
    (d.addHeaders conventions headers).2 = headers.flatMap fun h ↦
      (functionFates conventions h.1 h.2).flatMap (·.2) ++
        (HeaderBindings.structs conventions h.1 h.2).2 ++
          (HeaderBindings.callbacks conventions h.1 h.2).2 := by
  induction headers with
  | nil => exact fun _ ↦ rfl
  | cons header rest ih =>
    intro d
    rw [List.flatMap_cons, ← addHeader_snd d, ← ih]
    rfl

/-! ## Type names -/

/-- No type name is given to two different types. -/
def AgreeOnAliases (headers : List (Text × Text)) : Prop :=
  ∀ a ∈ givenAliases headers, ∀ b ∈ givenAliases headers, a.1 = b.1 → a.2 = b.2

instance (headers : List (Text × Text)) : Decidable (AgreeOnAliases headers) :=
  inferInstanceAs (Decidable (∀ a ∈ givenAliases headers, ∀ b ∈ givenAliases headers,
    a.1 = b.1 → a.2 = b.2))

theorem getElem?_tableOf_cons (entry : Text × Text) (rest : List (Text × Text)) (name : Text) :
    (tableOf (entry :: rest))[name]? =
      ((tableOf rest)[name]?).or (if entry.1 = name then some entry.2 else none) := by
  have hentry : (tableOf [entry])[name]? = if entry.1 = name then some entry.2 else none := by
    rw [tableOf, Std.TreeMap.insertMany_list_singleton, Std.TreeMap.getElem?_insert]
    simp
  rw [← hentry]
  exact getElem?_tableOf_append [entry] rest name

/-- Of entries that agree each one counts. -/
theorem getElem?_tableOf_eq_some_iff {entries : List (Text × Text)} :
    (∀ a ∈ entries, ∀ b ∈ entries, a.1 = b.1 → a.2 = b.2) → ∀ {name o : Text},
      (tableOf entries)[name]? = some o ↔ (name, o) ∈ entries := by
  induction entries with
  | nil => simp [tableOf]
  | cons entry rest ih =>
    intro h name o
    have hrest {o : Text} : (tableOf rest)[name]? = some o ↔ (name, o) ∈ rest := by
      refine ih fun a ha b hb ↦ ?_
      exact h a (List.mem_cons_of_mem _ ha) b (List.mem_cons_of_mem _ hb)
    rw [getElem?_tableOf_cons, Option.or_eq_some_iff, hrest, List.mem_cons]
    constructor
    · rintro (hlater | ⟨-, hfirst⟩)
      · exact Or.inr hlater
      · rw [Option.ite_none_right_eq_some, Option.some_inj] at hfirst
        exact Or.inl (Prod.ext hfirst.1.symm hfirst.2.symm)
    · rintro (rfl | hlater)
      · cases hlook : (tableOf rest)[name]? with
        | none => exact Or.inr ⟨rfl, if_pos rfl⟩
        | some o' =>
          have hmem := hrest.1 hlook
          obtain rfl : o = o' := h (name, o) List.mem_cons_self _ (List.mem_cons_of_mem _ hmem) rfl
          exact Or.inl hmem
      · exact Or.inl hlater

/-- The type names of headers that agree do not depend on the order of the headers. -/
theorem AgreeOnAliases.equiv_tableOf {headers headers' : List (Text × Text)}
    (h : AgreeOnAliases headers) (hperm : headers.Perm headers') :
    (tableOf (givenAliases headers)).Equiv (tableOf (givenAliases headers')) := by
  have hgiven : (givenAliases headers).Perm (givenAliases headers') := hperm.flatMap_right _
  refine .of_forall_constGet?_eq fun name ↦ Option.ext fun o ↦ ?_
  rw [getElem?_tableOf_eq_some_iff h, getElem?_tableOf_eq_some_iff, hgiven.mem_iff]
  simpa only [AgreeOnAliases, hgiven.mem_iff] using h

/-! ## Declarations in another order -/

/-- The same declarations, perhaps in another order. -/
structure IsReordering (d d' : Declarations) : Prop where
  enums : d.enums.Perm d'.enums
  structs : d.structs.Perm d'.structs
  functions : d.functions.Perm d'.functions
  callbacks : d.callbacks.Perm d'.callbacks
  handles : d.handles = d'.handles
  aliases : d.aliases.Equiv d'.aliases

/-- Which types are never defined does not depend on the order of the declarations. -/
theorem undefinedTypes_congr {d d' : Declarations} (henums : d.enums.Perm d'.enums)
    (hstructs : d.structs.Perm d'.structs) (haliases : d.aliases.Equiv d'.aliases) :
    d.undefinedTypes = d'.undefinedTypes := by
  have hdefined : ∀ name : Text, name ∈ d.structs.map (·.name) ++ d.enums.map (·.name) ↔
      name ∈ d'.structs.map (·.name) ++ d'.enums.map (·.name) := fun name ↦
    ((hstructs.map _).append (henums.map _)).mem_iff
  simp only [undefinedTypes, haliases.toList_eq, hdefined]

/-- **Headers in another order** declare the same, if they agree on the type names. -/
theorem isReordering_of_perm {headers headers' : List (Text × Text)}
    (hagree : AgreeOnAliases headers) (hperm : headers.Perm headers') (version : Text) :
    IsReordering (ofHeaders conventions version headers).1
      (ofHeaders conventions version headers').1 := by
  have henums := hperm.flatMap_right fun h ↦ enumerations h.1 h.2
  have hstructs := hperm.flatMap_right fun h ↦ (HeaderBindings.structs conventions h.1 h.2).1
  have haliases := hagree.equiv_tableOf hperm
  have hhandles : (ofHeaders conventions version headers).1.handles =
      (ofHeaders conventions version headers').1.handles := by
    refine undefinedTypes_congr ?_ ?_ ?_
    all_goals simp only [addHeaders_fst, List.nil_append]
    · exact henums
    · exact hstructs
    · exact haliases
  refine ⟨?_, ?_, ?_, ?_, hhandles, ?_⟩
  all_goals simp only [ofHeaders, withHandles, addHeaders_fst, List.nil_append]
  · exact henums
  · exact hstructs
  · exact hperm.flatMap_right _
  · exact hperm.flatMap_right _
  · exact haliases

end Declarations

/-! ## Descriptors -/

namespace Descriptors

variable {table table' : Table}

theorem equiv_settleAlias (h : table.Equiv table') (entry : Text × Text) :
    (settleAlias table entry).Equiv (settleAlias table' entry) := by
  rw [settleAlias, settleAlias, h.contains_eq, h.getElem?_eq]
  split
  · exact h
  · cases table'[entry.2]? with
    | none => exact h
    | some target => exact (h.insertIfNew _ _).insert _ _

theorem equiv_settleRound (names : List (Text × Text)) : ∀ {table table' : Table},
    table.Equiv table' → (settleRound table names).Equiv (settleRound table' names) := by
  induction names with
  | nil => exact fun h ↦ h
  | cons entry rest ih => exact fun h ↦ ih (equiv_settleAlias h entry)

theorem unsettled_congr (names : List (Text × Text)) (h : table.Equiv table') :
    unsettled names (settleRound table names) = unsettled names (settleRound table' names) := by
  simp only [unsettled, (equiv_settleRound names h).contains_eq]

/-- Rounds do the same to equal tables, since the same type names are left after each of them. -/
theorem equiv_settleAliases (names : List (Text × Text)) (h : table.Equiv table') :
    (settleAliases table names).Equiv (settleAliases table' names) := by
  fun_induction settleAliases table names generalizing table' with
  | case1 table names next left hless =>
    rename_i ih
    have hleft : left = unsettled names (settleRound table' names) := unsettled_congr names h
    have hless' : (unsettled names (settleRound table' names)).length < names.length :=
      hleft ▸ hless
    rw [settleAliases_of_lt hless', ← hleft]
    exact ih (equiv_settleRound names h)
  | case2 table names next left =>
    rename_i hless
    have hleft : left = unsettled names (settleRound table' names) := unsettled_congr names h
    have hless' : ¬(unsettled names (settleRound table' names)).length < names.length :=
      hleft ▸ hless
    rw [settleAliases_of_not_lt hless']
    exact equiv_settleRound names h

theorem mem_settleAliases {t : Text} (names : List (Text × Text)) (h : t ∈ table) :
    t ∈ settleAliases table names := by
  obtain ⟨visits, -, hround, -⟩ := settleAliases_visits table names
  rw [hround]
  exact mem_settleRound visits h

/-- The pointers to structs do not depend on the order of the structs. -/
theorem equiv_addStructPointers {structs structs' : List Text} (h : table.Equiv table')
    (hstructs : ∀ s ∈ structs, s ∈ table) (hsame : ∀ s, s ∈ structs ↔ s ∈ structs') :
    (addStructPointers table structs).Equiv (addStructPointers table' structs') := by
  refine .of_forall_constGet?_eq fun t ↦ ?_
  rw [getElem?_addStructPointers hstructs, getElem?_addStructPointers]
  · simp only [h.getElem?_eq, hsame]
  · exact fun s hs ↦ h.mem_iff.1 (hstructs s ((hsame s).2 hs))

variable {configured : Table} {d d' : Declarations}

theorem mem_declaredTypes_congr (h : d.IsReordering d') (t : Text) :
    t ∈ d.declaredTypes ↔ t ∈ d'.declaredTypes := by
  have henums := (h.enums.map (·.name)).mem_iff (a := t)
  have hstructs := (h.structs.map (·.name)).mem_iff (a := t)
  have hcallbacks := (h.callbacks.map (·.name)).mem_iff (a := t)
  simp only [Declarations.declaredTypes, List.mem_append, henums, hstructs, hcallbacks, h.handles]

/-- The classes of declared types do not depend on the order of the declarations. -/
theorem equiv_classes (h : d.IsReordering d') :
    (classes conventions configured d).Equiv (classes conventions configured d') := by
  refine .of_forall_constGet?_eq fun t ↦ ?_
  simp only [getElem?_classes, given?, mem_declaredTypes_congr h]

/-- **The descriptors do not depend on the order of the declarations.** -/
theorem equiv_derive (h : d.IsReordering d') :
    (derive conventions configured d).Equiv (derive conventions configured d') := by
  have hsettled : (settleAliases (classes conventions configured d) d.aliases.toList).Equiv
      (settleAliases (classes conventions configured d') d'.aliases.toList) := by
    rw [h.aliases.toList_eq]
    exact equiv_settleAliases _ (equiv_classes h)
  refine equiv_addStructPointers hsettled (fun s hs ↦ mem_settleAliases _ ?_) fun s ↦
    (h.structs.map (·.name)).mem_iff
  obtain ⟨e, he⟩ : ∃ e, given? conventions configured d s = some e :=
    exists_given?_of_mem_structs hs
  exact mem_of_getElem?_eq_some ((getElem?_classes _ _ _ _).trans he)

end Descriptors

/-! ## The verdict -/

namespace TypeTable

open Descriptors

/-- Two readings of headers, each a collection of declarations with what is wrong with it, come to
the same verdict: the table of types is the same, and the same is missing from it. -/
structure SameVerdict (conventions : Conventions) (configured : Table)
    (read read' : Declarations × List Diagnostic) : Prop where
  declarations : read.1.IsReordering read'.1
  problems : read.2.Perm read'.2
  descriptors : (build conventions configured read.1).descriptors.Equiv
    (build conventions configured read'.1).descriptors
  methodLeads : (build conventions configured read.1).methodLeads =
    (build conventions configured read'.1).methodLeads
  links : (build conventions configured read.1).links = (build conventions configured read'.1).links
  missing : ((build conventions configured read.1).missing read.1).Perm
    ((build conventions configured read'.1).missing read'.1)
  complete : (build conventions configured read.1).missing read.1 = [] ↔
    (build conventions configured read'.1).missing read'.1 = []
  unresolved : ∀ t : Text,
    t ∈ Diagnostic.unresolvedTypes
        (read.2 ++ (build conventions configured read.1).missing read.1) ↔
      t ∈ Diagnostic.unresolvedTypes
        (read'.2 ++ (build conventions configured read'.1).missing read'.1)

section

variable (conventions : Conventions) (configured : Table) {d d' : Declarations}

/-- The tables that are made from the descriptors go through them in the order of the types. -/
theorem build_congr (h : d.IsReordering d') :
    (build conventions configured d).methodLeads = (build conventions configured d').methodLeads ∧
      (build conventions configured d).links = (build conventions configured d').links := by
  have hentries : (derive conventions configured d).toList =
      (derive conventions configured d').toList := (equiv_derive h).toList_eq
  simp only [build, hentries, and_self]

/-- What is missing is the same, in the order of the functions. -/
theorem missing_perm (h : d.IsReordering d') :
    ((build conventions configured d).missing d).Perm
      ((build conventions configured d').missing d') := by
  have hlook (t : Text) : (build conventions configured d).resolve? t =
      (build conventions configured d').resolve? t := (equiv_derive h).getElem?_eq
  simp only [missing_eq, hlook]
  exact h.functions.flatMap_right _

end

/-- The types that are reported do not depend on the order of the diagnostics. -/
theorem mem_unresolvedTypes_congr {ds ds' : List Diagnostic} (h : ds.Perm ds') (t : Text) :
    t ∈ Diagnostic.unresolvedTypes ds ↔ t ∈ Diagnostic.unresolvedTypes ds' := by
  simp only [Diagnostic.mem_unresolvedTypes, h.mem_iff]

/-- **The order of headers does not change the verdict**, if no type name is given to two different
types. -/
theorem sameVerdict_of_perm {headers headers' : List (Text × Text)}
    (hagree : Declarations.AgreeOnAliases headers) (hperm : headers.Perm headers')
    (conventions : Conventions) (configured : Table) (version : Text) :
    SameVerdict conventions configured (Declarations.ofHeaders conventions version headers)
      (Declarations.ofHeaders conventions version headers') := by
  have hsame : (Declarations.ofHeaders conventions version headers).1.IsReordering
      (Declarations.ofHeaders conventions version headers').1 :=
    Declarations.isReordering_of_perm hagree hperm version
  have hproblems : (Declarations.ofHeaders conventions version headers).2.Perm
      (Declarations.ofHeaders conventions version headers').2 := by
    simp only [Declarations.ofHeaders, Declarations.addHeaders_snd]
    exact hperm.flatMap_right _
  have hmissing := missing_perm conventions configured hsame
  obtain ⟨hleads, hlinks⟩ := build_congr conventions configured hsame
  exact
    { declarations := hsame
      problems := hproblems
      descriptors := equiv_derive hsame
      methodLeads := hleads
      links := hlinks
      missing := hmissing
      complete := ⟨fun h ↦ (h ▸ hmissing).nil_eq.symm, fun h ↦ (h ▸ hmissing).eq_nil⟩
      unresolved := mem_unresolvedTypes_congr (hproblems.append hmissing) }

/-- A header that declares a type and gives it another name. -/
def itemHeader : Text × Text :=
  ("a.h", "typedef struct XnNode XnNode;\ntypedef XnNode XnItem;\nXN_C_API int f(XnItem* p);\n")

/-- A header that defines the type, gives it the same name, and has a function of an unknown
type. -/
def lostHeader : Text × Text :=
  ("b.h", "struct XnNode\n\x7b\nint x;\n\x7d;\ntypedef XnNode XnItem;\n" ++
    "XN_C_API XnLost g(int);\nXN_C_API XnLost h(XnNode* p);\n")

theorem sameVerdict_of_perm_lostHeader :
    Declarations.AgreeOnAliases [itemHeader, lostHeader] ∧
    SameVerdict {} ∅ (Declarations.ofHeaders {} [] [itemHeader, lostHeader])
      (Declarations.ofHeaders {} [] [lostHeader, itemHeader]) ∧
    (Declarations.ofHeaders {} [] [lostHeader, itemHeader]).1.handles = [] := by
  have hagree : Declarations.AgreeOnAliases [itemHeader, lostHeader] := by decide +kernel
  have hverdict := sameVerdict_of_perm hagree (.swap lostHeader itemHeader []) {} ∅ []
  refine ⟨hagree, hverdict, ?_⟩
  rw [← hverdict.declarations.handles]
  decide +kernel

end TypeTable

end HeaderBindings
