import HeaderBindings.Proofs.Types.Settling
import HeaderBindings.Proofs.Header.AliasNames

/-!
# The descriptors of all types

Five steps fill the table of types, and none replaces what an earlier one has entered.  Read the
other way round, that is a list of rules for a single type, of which the first that applies says
what its descriptor is.

* A type with a *given* descriptor, `given?`, has that one: the configured one, or else the built-in
  one, or else the class of a type declared under its own name.
* A type name has the descriptor that it is followed to, and none if the way leaves the table or
  goes in circles.
* A pointer to a type name that is settled by the rule before is a pointer to what that has.
* A pointer to a struct is a pointer to the class of the struct.  It comes last, so no type name is
  followed to it.
* No other type has a descriptor.

`Rules` is this list.  By `Rules.cases` whatever has a descriptor has it by one of the rules, by
`Rules.carry` a type keeps its descriptor under other given ones that it has no part in, and by
`Rules.unique` the list leaves nothing open.  `resolve?_build` says that the table keeps to it, and
that it does so whatever the order is in which the type names are visited.

**Type names must not end in a star.**  With `b` and `b*` both names of types, the visit to `b`
would settle `b*` as a pointer, unless the visit to `b*` came first.  No header has such a name.
-/

set_option autoImplicit false

namespace HeaderBindings

/-- The types that are declared under their own names: enumerations, structs, handles and
callbacks. -/
def Declarations.declaredTypes (d : Declarations) : List Text :=
  d.enums.map (·.name) ++ d.structs.map (·.name) ++ d.handles ++ d.callbacks.map (·.name)

namespace Descriptors

/-! ## The rules -/

/-- The descriptor of a type that no other type has a part in. -/
def given? (conventions : Conventions) (configured : Table) (d : Declarations) (t : Text) :
    Option Text :=
  (configured[t]?).or ((basicTypes.lookup t).or
    (if t ∈ d.declaredTypes then some (className conventions.typeLeads t) else none))

/-- The descriptors of all types, as look-ups, keep to the rules: each rule speaks of the types
that the ones before it leave open. -/
structure Rules (given : Text → Option Text) (aliases : Table) (structs : List Text)
    (look : Text → Option Text) : Prop where
  /-- A given descriptor is the descriptor. -/
  ofGiven : ∀ {t e : Text}, given t = some e → look t = some e
  /-- A type name has the descriptor that it is followed to. -/
  ofName : ∀ {t e : Text}, given t = none → t ∈ aliases →
    (look t = some e ↔ FollowsTo given aliases t e)
  /-- It has none if the way from it leaves the table or goes in circles. -/
  ofFailingName : ∀ {t : Text}, given t = none → t ∈ aliases →
    (look t = none ↔ LeavesTable given aliases t ∨ Circles given aliases t)
  /-- A pointer to a type name that has a descriptor by the rule before. -/
  ofNamePointer : ∀ {a e : Text}, given (a ++ ['*']) = none → a ++ ['*'] ∉ aliases →
    given a = none → a ∈ aliases → look a = some e → look (a ++ ['*']) = some (pointerTo e)
  /-- A pointer to a struct. -/
  ofStructPointer : ∀ {s e : Text}, given (s ++ ['*']) = none → s ++ ['*'] ∉ aliases →
    s ∈ structs → look s = some e → look (s ++ ['*']) = some (pointerTo e)
  /-- Nothing else has a descriptor. -/
  ofNothing : ∀ {t : Text}, given t = none → t ∉ aliases →
    (∀ a, t = a ++ ['*'] → (given a = none ∧ a ∈ aliases) ∨ a ∈ structs → look a = none) →
      look t = none

variable {given : Text → Option Text} {aliases : Table} {structs : List Text}

/-- What a type has, it has by one of the rules. -/
theorem Rules.cases {look : Text → Option Text} (h : Rules given aliases structs look) {t e : Text}
    (hlook : look t = some e) : given t = some e ∨ given t = none ∧
      (t ∈ aliases ∧ FollowsTo given aliases t e ∨
        t ∉ aliases ∧ ∃ a e', t = a ++ ['*'] ∧ ((given a = none ∧ a ∈ aliases) ∨ a ∈ structs) ∧
          look a = some e' ∧ e = pointerTo e') := by
  cases ht : given t with
  | some e' => exact Or.inl ((h.ofGiven ht).symm.trans hlook)
  | none =>
    refine Or.inr ⟨rfl, ?_⟩
    by_cases hname : t ∈ aliases
    · exact Or.inl ⟨hname, (h.ofName ht hname).1 hlook⟩
    refine Or.inr ⟨hname, ?_⟩
    by_cases hnothing : ∀ a, t = a ++ ['*'] → (given a = none ∧ a ∈ aliases) ∨ a ∈ structs →
        look a = none
    · exact absurd (hlook.symm.trans (h.ofNothing ht hname hnothing)) (by simp)
    · obtain ⟨a, ha⟩ := Classical.not_forall.1 hnothing
      obtain ⟨rfl, hpointer⟩ := Classical.not_imp.1 ha
      obtain ⟨hkind, hne⟩ := Classical.not_imp.1 hpointer
      obtain ⟨e', he'⟩ := Option.ne_none_iff_exists'.1 hne
      refine ⟨a, e', rfl, hkind, he', Option.some_inj.1 (hlook.symm.trans ?_)⟩
      rcases hkind with ⟨hgiven, ha⟩ | hs
      · exact h.ofNamePointer ht hname hgiven ha he'
      · exact h.ofStructPointer ht hname hs he'

/-- What is followed to is in keeping with the rules. -/
theorem Rules.of_followsTo {look : Text → Option Text} (h : Rules given aliases structs look)
    {t e : Text} (hfollows : FollowsTo given aliases t e) : look t = some e := by
  induction hfollows with
  | given ht => exact h.ofGiven ht
  | original ht ho hfollows _ =>
    exact (h.ofName ht (mem_of_getElem?_eq_some ho)).2 (.original ht ho hfollows)
  | pointee ht hname ha hgiven _ ih => exact h.ofNamePointer ht hname hgiven ha ih

/-- **Other given descriptors leave every type its descriptor**, if they are the same for all types
that have one. -/
theorem Rules.carry {given' look look' : Text → Option Text} (h : Rules given aliases structs look)
    (h' : Rules given' aliases structs look')
    (hsame : ∀ {t e : Text}, look t = some e → given' t = given t) {t e : Text}
    (hlook : look t = some e) : look' t = some e := by
  rcases h.cases hlook with ht | ⟨ht, ⟨hname, hfollows⟩ | ⟨hname, a, e', hta, hkind, he', rfl⟩⟩
  · exact h'.ofGiven ((hsame hlook).trans ht)
  · exact h'.of_followsTo (hfollows.carry fun hf ↦ hsame (h.of_followsTo hf))
  · have hless : a.length < t.length := by simp [hta]
    have ha' : look' a = some e' := h.carry h' hsame he'
    subst hta
    rcases hkind with ⟨hgiven, ha⟩ | hs
    · exact h'.ofNamePointer ((hsame hlook).trans ht) hname ((hsame he').trans hgiven) ha ha'
    · exact h'.ofStructPointer ((hsame hlook).trans ht) hname hs ha'
termination_by t.length

/-- **The rules leave nothing open.** -/
theorem Rules.unique {look look' : Text → Option Text} (h : Rules given aliases structs look)
    (h' : Rules given aliases structs look') (t : Text) : look t = look' t :=
  Option.ext fun _ ↦ ⟨h.carry h' fun _ ↦ rfl, h'.carry h fun _ ↦ rfl⟩

/-! ## The table before the first visit -/

/-- Entries taken over from a table come before what is there. -/
theorem getElem?_insertMany_toList (table configured : Table) (t : Text) :
    (table.insertMany configured.toList)[t]? = (configured[t]?).or (table[t]?) := by
  cases h : configured[t]? with
  | some e =>
    have hmem : (t, e) ∈ configured.toList := Std.TreeMap.mem_toList_iff_getElem?_eq_some.2 h
    rw [Std.TreeMap.getElem?_insertMany_list_of_mem Std.ReflCmp.compare_self
      Std.TreeMap.distinct_keys_toList hmem]
    rfl
  | none =>
    rw [Std.TreeMap.getElem?_insertMany_list_of_contains_eq_false, Option.none_or]
    rw [← Bool.not_eq_true, List.contains_iff_mem, List.mem_map]
    rintro ⟨⟨k, e⟩, hmem, rfl⟩
    rw [Std.TreeMap.mem_toList_iff_getElem?_eq_some.1 hmem] at h
    exact absurd h (by simp)

/-- The table of a list in which no type comes twice has what the list has. -/
theorem getElem?_ofList {entries : List (Text × Text)} (hdistinct : (entries.map Prod.fst).Nodup)
    (t : Text) : (Std.TreeMap.ofList entries compare)[t]? = entries.lookup t := by
  cases h : entries.lookup t with
  | some e =>
    obtain ⟨before, after, rfl, -⟩ := List.lookup_eq_some_iff.1 h
    refine Std.TreeMap.getElem?_ofList_of_mem Std.ReflCmp.compare_self ?_ (by simp)
    refine (List.pairwise_map.1 hdistinct).imp fun hne ↦ ?_
    rwa [Std.compare_eq_iff_eq]
  | none =>
    refine Std.TreeMap.getElem?_ofList_of_contains_eq_false ?_
    rw [← Bool.not_eq_true, List.contains_iff_mem, List.mem_map]
    rintro ⟨entry, hmem, rfl⟩
    simpa using List.lookup_eq_none_iff.1 h entry hmem

theorem getElem?_basic (configured : Table) (t : Text) :
    (basic configured)[t]? = (configured[t]?).or (basicTypes.lookup t) := by
  rw [basic, getElem?_insertMany_toList, getElem?_ofList (by decide)]

theorem getElem?_addClasses (leads : List Text) (types : List Text) : ∀ (table : Table) (t : Text),
    (addClasses leads table types)[t]? =
      (table[t]?).or (if t ∈ types then some (className leads t) else none) := by
  induction types with
  | nil => intro table t; simp [addClasses]
  | cons native rest ih =>
    intro table t
    have hstep : addClasses leads table (native :: rest) =
        addClasses leads (table.insertIfNew native (className leads native)) rest := rfl
    rw [hstep, ih, getElem?_insertIfNew, Option.or_assoc]
    by_cases ht : native = t
    · subst ht
      simp
    · rw [if_neg ht, Option.none_or]
      simp [Ne.symm ht]

/-- The table before the first visit. -/
def classes (conventions : Conventions) (configured : Table) (d : Declarations) : Table :=
  addClasses conventions.typeLeads (basic configured) d.declaredTypes

/-- It has exactly the given descriptors. -/
theorem getElem?_classes (conventions : Conventions) (configured : Table) (d : Declarations)
    (t : Text) : (classes conventions configured d)[t]? = given? conventions configured d t := by
  rw [classes, getElem?_addClasses, getElem?_basic, Option.or_assoc]
  rfl

/-- Every type declared under its own name has a given descriptor. -/
theorem isSome_given?_of_mem {conventions : Conventions} {configured : Table} {d : Declarations}
    {t : Text} (h : t ∈ d.declaredTypes) : ∃ e, given? conventions configured d t = some e := by
  refine Option.isSome_iff_exists.1 ?_
  simp [given?, h]

/-- So has every struct. -/
theorem exists_given?_of_mem_structs {conventions : Conventions} {configured : Table}
    {d : Declarations} {s : Text} (hs : s ∈ d.structs.map (·.name)) :
    ∃ e, given? conventions configured d s = some e := by
  refine isSome_given?_of_mem ?_
  simp [Declarations.declaredTypes, List.mem_map.1 hs]

/-! ## The table after the last visit -/

theorem getElem?_addStructPointers {structs : List Text} : ∀ {table : Table},
    (∀ s ∈ structs, s ∈ table) → ∀ t : Text, (addStructPointers table structs)[t]? =
      (table[t]?).or ((t.beforeTail? ['*']).bind fun s ↦
        if s ∈ structs then (table[s]?).map pointerTo else none) := by
  induction structs with
  | nil => intro table _ t; simp [addStructPointers]
  | cons name rest ih =>
    intro table hstructs t
    obtain ⟨e, he⟩ := exists_getElem?_of_mem (hstructs name List.mem_cons_self)
    have hstep : addStructPointers table (name :: rest) =
        addStructPointers (table.insertIfNew (name ++ ['*']) (pointerTo e)) rest := by
      rw [addStructPointers, List.foldl_cons, he]
      rfl
    have hkept : ∀ s ∈ rest,
        (table.insertIfNew (name ++ ['*']) (pointerTo e))[s]? = table[s]? := by
      intro s hs
      obtain ⟨e', he'⟩ := exists_getElem?_of_mem (hstructs s (List.mem_cons_of_mem _ hs))
      rw [getElem?_insertIfNew, he', Option.some_or]
    have hrest : ∀ s ∈ rest, s ∈ table.insertIfNew (name ++ ['*']) (pointerTo e) := by
      intro s hs
      obtain ⟨e', he'⟩ := exists_getElem?_of_mem (hstructs s (List.mem_cons_of_mem _ hs))
      exact mem_of_getElem?_eq_some ((hkept s hs).trans he')
    rw [hstep, ih hrest, getElem?_insertIfNew, Option.or_assoc]
    refine congrArg _ ?_
    by_cases ht : name ++ ['*'] = t
    · subst ht
      rw [if_pos rfl, Option.some_or, Text.beforeTail?_eq_some_iff.2 rfl]
      simp [he]
    · rw [if_neg ht, Option.none_or]
      refine Option.bind_congr fun s hs ↦ ?_
      have hne : s ≠ name := by
        rintro rfl
        exact ht (Text.beforeTail?_eq_some_iff.1 hs).symm
      by_cases hmem : s ∈ rest
      · rw [if_pos hmem, if_pos (List.mem_cons_of_mem _ hmem), hkept s hmem]
      · rw [if_neg hmem, if_neg]
        exact fun h ↦ (List.mem_cons.1 h).elim hne hmem

/-- What is followed, and neither given nor a type name, is a pointer to a type name. -/
theorem FollowsTo.exists_pointee {t e : Text} (h : FollowsTo given aliases t e)
    (ht : given t = none) (hname : t ∉ aliases) :
    ∃ a e', t = a ++ ['*'] ∧ a ∈ aliases ∧ given a = none ∧ FollowsTo given aliases a e' := by
  rcases h.cases ht with ⟨o, ho, -⟩ | ⟨a, e', hta, ha, hgiven, hfollows, -⟩
  · exact absurd (mem_of_getElem?_eq_some ho) hname
  · exact ⟨a, e', hta, ha, hgiven, hfollows⟩

section

variable {table : Table} (hstructs : ∀ s ∈ structs, ∃ e, given s = some e)
  (htable : ∀ {t e : Text}, table[t]? = some e ↔ FollowsTo given aliases t e)

include htable

/-- A type that is neither given nor a type name is not in the table yet, unless it is a pointer to
a type name. -/
theorem getElem?_eq_none_of_notMem {t : Text} (ht : given t = none) (hname : t ∉ aliases)
    (hpointee : ∀ {a e : Text}, t = a ++ ['*'] → a ∈ aliases → given a = none →
      ¬FollowsTo given aliases a e) : table[t]? = none := by
  refine Option.eq_none_iff_forall_ne_some.2 fun e he ↦ ?_
  obtain ⟨a, e', hta, ha, hgiven, hfollows⟩ := (htable.1 he).exists_pointee ht hname
  exact hpointee hta ha hgiven hfollows

include hstructs

/-- The pointers to structs come behind what is followed to. -/
theorem getElem?_withStructPointers (t : Text) : (addStructPointers table structs)[t]? =
    (table[t]?).or ((t.beforeTail? ['*']).bind fun s ↦
      if s ∈ structs then (table[s]?).map pointerTo else none) := by
  refine getElem?_addStructPointers (fun s hs ↦ ?_) t
  obtain ⟨e, he⟩ := hstructs s hs
  exact mem_of_getElem?_eq_some (htable.2 (.given he))

/-- What is followed to stays. -/
theorem getElem?_of_followsTo {t e : Text} (h : FollowsTo given aliases t e) :
    (addStructPointers table structs)[t]? = some e := by
  rw [getElem?_withStructPointers hstructs htable, htable.2 h, Option.some_or]

/-- A type name that does not end in a star is no pointer to a struct. -/
theorem getElem?_typeName (hplain : ∀ t : Text, t ++ ['*'] ∉ aliases) {t : Text}
    (ht : t ∈ aliases) : (addStructPointers table structs)[t]? = table[t]? := by
  rw [getElem?_withStructPointers hstructs htable]
  cases htail : t.beforeTail? ['*'] with
  | none => exact Option.or_none
  | some a => exact absurd (Text.beforeTail?_eq_some_iff.1 htail ▸ ht) (hplain a)

/-- A pointer to a struct points to what the struct has. -/
theorem getElem?_structPointer {s e : Text} (ht : given (s ++ ['*']) = none)
    (hpointer : s ++ ['*'] ∉ aliases) (hs : s ∈ structs)
    (he : (addStructPointers table structs)[s]? = some e) :
    (addStructPointers table structs)[s ++ ['*']]? = some (pointerTo e) := by
  obtain ⟨e', hgiven⟩ := hstructs s hs
  -- A struct is no type name that is settled, so the pointer to it is not in the table yet.
  have hnone : table[s ++ ['*']]? = none := by
    refine getElem?_eq_none_of_notMem htable ht hpointer fun hsa _ hnone _ ↦ ?_
    obtain ⟨rfl, -⟩ := List.append_inj' hsa rfl
    exact absurd (hgiven.symm.trans hnone) (by simp)
  have htail : Text.beforeTail? (s ++ ['*']) ['*'] = some s := Text.beforeTail?_eq_some_iff.2 rfl
  rw [getElem?_of_followsTo hstructs htable (.given hgiven)] at he
  rw [getElem?_withStructPointers hstructs htable, hnone, Option.none_or, htail,
    Option.bind_some, if_pos hs, htable.2 (.given hgiven), he]
  rfl

/-- Nothing else is in the table. -/
theorem getElem?_of_nothing {t : Text} (ht : given t = none) (hname : t ∉ aliases)
    (hnothing : ∀ a, t = a ++ ['*'] → (given a = none ∧ a ∈ aliases) ∨ a ∈ structs →
      (addStructPointers table structs)[a]? = none) :
    (addStructPointers table structs)[t]? = none := by
  have hkept {a e : Text} (h : FollowsTo given aliases a e) :
      (addStructPointers table structs)[a]? ≠ none := by
    rw [getElem?_of_followsTo hstructs htable h]
    exact Option.some_ne_none e
  have hnone : table[t]? = none :=
    getElem?_eq_none_of_notMem htable ht hname fun hta ha hgiven hfollows ↦
      hkept hfollows (hnothing _ hta (Or.inl ⟨hgiven, ha⟩))
  rw [getElem?_withStructPointers hstructs htable, hnone, Option.none_or]
  cases htail : t.beforeTail? ['*'] with
  | none => rfl
  | some s =>
    rw [Option.bind_some, if_neg]
    intro hs
    obtain ⟨e, he⟩ := hstructs s hs
    exact hkept (.given he) (hnothing s (Text.beforeTail?_eq_some_iff.1 htail) (Or.inr hs))

/-- A table of all that is followed to keeps to the rules once the pointers to structs are added. -/
theorem rules_addStructPointers (hplain : ∀ t : Text, t ++ ['*'] ∉ aliases) :
    Rules given aliases structs fun t ↦ (addStructPointers table structs)[t]? where
  ofGiven ht := getElem?_of_followsTo hstructs htable (.given ht)
  ofName _ ht := by
    rw [getElem?_typeName hstructs htable hplain ht]
    exact htable
  ofFailingName {t} _ ht := by
    rw [getElem?_typeName hstructs htable hplain ht, ← not_followsTo_iff,
      ← Option.not_isSome_iff_eq_none, Option.isSome_iff_exists]
    exact not_congr (exists_congr fun e ↦ htable)
  ofNamePointer ht hpointer hgiven ha he := by
    rw [getElem?_typeName hstructs htable hplain ha] at he
    exact getElem?_of_followsTo hstructs htable (.pointee ht hpointer ha hgiven (htable.1 he))
  ofStructPointer := getElem?_structPointer hstructs htable
  ofNothing := getElem?_of_nothing hstructs htable

end

end Descriptors

/-! ## The whole table -/

namespace TypeTable

open Descriptors

variable {conventions : Conventions} {configured : Table} {d : Declarations}

/-- Any visits to the type names that leave nothing to be settled make a table that keeps to the
rules. -/
theorem rules_of_visits (hplain : d.PlainAliases) {visits : List (Text × Text)}
    (hvisits : ∀ v ∈ visits, v ∈ d.aliases.toList)
    (hsettled : IsSettled d.aliases.toList
      (settleRound (classes conventions configured d) visits)) :
    Rules (given? conventions configured d) d.aliases (d.structs.map (·.name)) fun t ↦
      (addStructPointers (settleRound (classes conventions configured d) visits)
        (d.structs.map (·.name)))[t]? :=
  rules_addStructPointers (fun _ hs ↦ exists_given?_of_mem_structs hs)
    (getElem?_settleRound hplain (getElem?_classes conventions configured d) hvisits hsettled)
    hplain

/-- The table keeps to the rules. -/
theorem rules_build (hplain : d.PlainAliases) :
    Rules (given? conventions configured d) d.aliases (d.structs.map (·.name))
      (build conventions configured d).resolve? := by
  obtain ⟨visits, hvisits, hround, hsettled⟩ :=
    settleAliases_visits (classes conventions configured d) d.aliases.toList
  have hbuild : (build conventions configured d).resolve? = fun t ↦
      (addStructPointers (settleRound (classes conventions configured d) visits)
        (d.structs.map (·.name)))[t]? := by
    rw [← hround]
    rfl
  rw [hbuild]
  exact rules_of_visits hplain hvisits (hround ▸ hsettled)

/-- **The descriptor of every type is what the rules say**, for all declarations that headers can
make.  It is the same whether the rounds go through the type names in another order, or the type
names are visited in any way that leaves nothing to be settled. -/
theorem resolve?_build (conventions : Conventions) (configured : Table) :
    (∀ version headers, (Declarations.ofHeaders conventions version headers).1.PlainAliases) ∧
    ∀ d : Declarations, d.PlainAliases →
      Rules (given? conventions configured d) d.aliases (d.structs.map (·.name))
        (build conventions configured d).resolve? ∧
      (∀ names, names.Perm d.aliases.toList → ∀ t : Text,
        (addStructPointers (settleAliases (classes conventions configured d) names)
          (d.structs.map (·.name)))[t]? = (build conventions configured d).resolve? t) ∧
      ∀ visits, (∀ v ∈ visits, v ∈ d.aliases.toList) →
        IsSettled d.aliases.toList (settleRound (classes conventions configured d) visits) →
          ∀ t : Text,
            (addStructPointers (settleRound (classes conventions configured d) visits)
              (d.structs.map (·.name)))[t]? = (build conventions configured d).resolve? t := by
  refine ⟨Declarations.plainAliases_ofHeaders conventions, fun d hplain ↦
    ⟨rules_build hplain, fun names hnames t ↦ ?_, fun visits hvisits hsettled t ↦ ?_⟩⟩
  · obtain ⟨visits, hvisits, hround, hsettled⟩ :=
      settleAliases_visits (classes conventions configured d) names
    rw [hround] at hsettled ⊢
    exact (rules_of_visits hplain (fun v hv ↦ hnames.mem_iff.1 (hvisits v hv))
      fun entry hentry ↦ hsettled entry (hnames.mem_iff.2 hentry)).unique (rules_build hplain) t
  · exact (rules_of_visits hplain hvisits hsettled).unique (rules_build hplain) t

/-- A struct, a chain of type names, and two type names that stand for each other. -/
def chained : Declarations where
  structs := [{ name := "Node", fields := [] }]
  aliases := Std.TreeMap.ofList
    (List.map (fun entry : String × String ↦ (entry.1.toList, entry.2.toList))
      [("Count", "Size"), ("Size", "int"), ("Down", "Up"), ("Up", "Down")]) compare

theorem resolve?_build_chained :
    chained.PlainAliases ∧
    (build {} ∅ chained).resolve? "Count" = some ("ctypes.c_int" : Text) ∧
    (build {} ∅ chained).resolve? "Count*" = some ("ctypes.POINTER(ctypes.c_int)" : Text) ∧
    (build {} ∅ chained).resolve? "Down" = none ∧
    (build {} ∅ chained).resolve? "Node*" = some ("ctypes.POINTER(Node)" : Text) := by
  have hplain : chained.PlainAliases := by
    intro t ht
    have hname := List.contains_iff_mem.1 (Std.TreeMap.mem_ofList.1 ht)
    have hstar : ∀ name ∈ ["Count".toList, "Size".toList, "Down".toList, "Up".toList],
        '*' ∉ name := by decide
    exact hstar _ hname (by simp)
  have hrules := ((resolve?_build {} ∅).2 chained hplain).1
  have hsize : FollowsTo (given? {} ∅ chained) chained.aliases "Size" "ctypes.c_int" :=
    .original (o := "int") (by decide) (by decide) (.given (by decide))
  have hcount : FollowsTo (given? {} ∅ chained) chained.aliases "Count" "ctypes.c_int" :=
    .original (o := "Size") (by decide) (by decide) hsize
  have hlook := (hrules.ofName (by decide) (by decide)).2 hcount
  have hnode : (build {} ∅ chained).resolve? "Node" = some ("Node" : Text) :=
    hrules.ofGiven (by decide)
  have hdown : Leads (given? {} ∅ chained) chained.aliases "Down" "Up" :=
    next?_of_alias (by decide) (by decide)
  have hup : Leads (given? {} ∅ chained) chained.aliases "Up" "Down" :=
    next?_of_alias (by decide) (by decide)
  refine ⟨hplain, hlook, ?_, ?_, ?_⟩
  · exact hrules.ofNamePointer (a := "Count") (by decide) (by decide) (by decide) (by decide) hlook
  · exact (hrules.ofFailingName (by decide) (by decide)).2
      (Or.inr ⟨_, .refl, .tail (.single hdown) hup⟩)
  · exact hrules.ofStructPointer (s := "Node") (by decide) (by decide) (by decide) hnode

end TypeTable

end HeaderBindings
