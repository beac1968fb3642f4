import HeaderBindings.Proofs.Types.Following

/-!
# Settling type names

The table of types is filled by visits: a visit to a type name looks up what it stands for, and if
that has a descriptor enters the type name and the pointer to it.  What a visit reads may be what
an earlier one has entered, so a visit in between may come too early, and visits go on until none
is of use any more.

* `Settling given aliases table` is what every visit keeps true: the given descriptors are in the
  table, every other one is followed to, and a type name never comes without its pointer.
* `IsSettled aliases table` says that no visit is of use any more.
* `getElem?_settleRound` draws the conclusion: after any visits that leave nothing to be settled,
  the table has exactly the descriptors that are followed to.  In which order the type names are
  visited, and how often, has no part in it.
* `settleAliases_visits`: the rounds of `settleAliases` are such visits.
-/

set_option autoImplicit false

namespace HeaderBindings.Descriptors

/-! ## One visit -/

theorem mem_of_getElem?_eq_some {table : Table} {t e : Text} (h : table[t]? = some e) :
    t ∈ table :=
  Std.TreeMap.mem_iff_isSome_getElem?.2 (by rw [h]; rfl)

theorem exists_getElem?_of_mem {table : Table} {t : Text} (h : t ∈ table) :
    ∃ e, table[t]? = some e :=
  Option.isSome_iff_exists.1 (Std.TreeMap.mem_iff_isSome_getElem?.1 h)

/-- An entry that is made only if its key is new comes after what is there. -/
theorem getElem?_insertIfNew (table : Table) (k v t : Text) :
    (table.insertIfNew k v)[t]? = (table[t]?).or (if k = t then some v else none) := by
  simp only [Std.TreeMap.getElem?_insertIfNew, Std.compare_eq_iff_eq]
  by_cases hk : k = t
  · subst hk
    by_cases hmem : k ∈ table <;> simp [hmem]
  · simp [hk]

/-- A visit is of no use to a settled type name, or to one for a type without a descriptor. -/
theorem settleAlias_eq_self {table : Table} {entry : Text × Text}
    (h : entry.2 ∈ table → entry.1 ∈ table) : settleAlias table entry = table := by
  rw [settleAlias]
  split
  · rfl
  · rename_i hname
    have horiginal : entry.2 ∉ table := fun ho ↦ hname (Std.TreeMap.contains_iff_mem.2 (h ho))
    rw [Std.TreeMap.getElem?_eq_none horiginal]

/-- Any other visit enters the type name and the pointer to it. -/
theorem getElem?_settleAlias {table : Table} {entry : Text × Text} {target : Text}
    (hname : entry.1 ∉ table) (htarget : table[entry.2]? = some target) (t : Text) :
    (settleAlias table entry)[t]? =
      if entry.1 = t then some target
      else (table[t]?).or (if entry.1 ++ ['*'] = t then some (pointerTo target) else none) := by
  have hcontains : table.contains entry.1 = false :=
    Bool.eq_false_iff.2 fun h ↦ hname (Std.TreeMap.contains_iff_mem.1 h)
  rw [settleAlias, hcontains, htarget]
  simp only [Bool.false_eq_true, if_false, Std.TreeMap.getElem?_insert, getElem?_insertIfNew,
    Std.compare_eq_iff_eq]

/-- No visit takes anything out of the table or changes it. -/
theorem getElem?_settleAlias_of_some {table : Table} {t e : Text} (h : table[t]? = some e)
    (entry : Text × Text) : (settleAlias table entry)[t]? = some e := by
  by_cases huse : entry.2 ∈ table → entry.1 ∈ table
  · rw [settleAlias_eq_self huse, h]
  · obtain ⟨horiginal, hname⟩ := Classical.not_imp.1 huse
    obtain ⟨target, htarget⟩ := exists_getElem?_of_mem horiginal
    rw [getElem?_settleAlias hname htarget, if_neg, h, Option.some_or]
    exact fun heq ↦ hname (heq ▸ mem_of_getElem?_eq_some h)

/-! ## What visits keep true -/

/-- What is true of the table between two visits. -/
structure Settling (given : Text → Option Text) (aliases table : Table) : Prop where
  /-- Given descriptors are in the table. -/
  keeps : ∀ {t e : Text}, given t = some e → table[t]? = some e
  /-- There is nothing in the table but what is followed to. -/
  sound : ∀ {t e : Text}, table[t]? = some e → FollowsTo given aliases t e
  /-- With a type name comes the pointer to it. -/
  pointers : ∀ {a : Text}, a ∈ aliases → given a = none → a ∈ table → a ++ ['*'] ∈ table

variable {given : Text → Option Text} {aliases table : Table}

/-- It is true before the first visit. -/
theorem settling_of_given (h : ∀ t, table[t]? = given t) : Settling given aliases table where
  keeps ht := (h _).trans ht
  sound ht := .given ((h _).symm.trans ht)
  pointers _ hgiven ha := by
    obtain ⟨e, he⟩ := exists_getElem?_of_mem ha
    exact absurd ((h _).symm.trans he) (by simp [hgiven])

/-- A visit keeps it true.  Were the pointer to a type name a type name of its own, the visit to
the one would give the other a descriptor that it is not followed to. -/
theorem Settling.settleAlias (hplain : ∀ t : Text, t ++ ['*'] ∉ aliases)
    (h : Settling given aliases table) {entry : Text × Text} (hentry : entry ∈ aliases.toList) :
    Settling given aliases (settleAlias table entry) := by
  obtain ⟨a, o⟩ := entry
  have horiginal : aliases[a]? = some o := Std.TreeMap.mem_toList_iff_getElem?_eq_some.1 hentry
  have ha : a ∈ aliases := mem_of_getElem?_eq_some horiginal
  by_cases huse : o ∈ table → a ∈ table
  · rwa [settleAlias_eq_self huse]
  obtain ⟨ho, hname⟩ := Classical.not_imp.1 huse
  obtain ⟨target, htarget⟩ := exists_getElem?_of_mem ho
  have hlook := @getElem?_settleAlias table (a, o) target hname htarget
  have hgiven : given a = none := by
    refine Option.eq_none_iff_forall_ne_some.2 fun e he ↦ ?_
    exact hname (mem_of_getElem?_eq_some (h.keeps he))
  have hfollows : FollowsTo given aliases a target := .original hgiven horiginal (h.sound htarget)
  refine ⟨fun ht ↦ getElem?_settleAlias_of_some (h.keeps ht) _, fun {t e} ht ↦ ?_, ?_⟩
  · rw [hlook t] at ht
    split at ht
    · rename_i hat
      rw [← hat, ← Option.some_inj.1 ht]
      exact hfollows
    · rcases Option.or_eq_some_iff.1 ht with hold | ⟨hnone, hnew⟩
      · exact h.sound hold
      · split at hnew
        · rename_i hpointer
          rw [← hpointer, ← Option.some_inj.1 hnew]
          refine .pointee ?_ (hplain a) ha hgiven hfollows
          refine Option.eq_none_iff_forall_ne_some.2 fun e' he' ↦ ?_
          exact absurd ((h.keeps he').symm.trans (hpointer ▸ hnone)) (by simp)
        · exact absurd hnew (by simp)
  · intro b hb hbgiven hbtable
    obtain ⟨e, he⟩ := exists_getElem?_of_mem hbtable
    rw [hlook b] at he
    by_cases hab : a = b
    · subst hab
      have hne : a ≠ a ++ ['*'] := fun heq ↦ hplain a (heq ▸ ha)
      refine Std.TreeMap.mem_iff_isSome_getElem?.2 ?_
      rw [hlook, if_neg hne, if_pos rfl]
      cases table[a ++ ['*']]? <;> rfl
    · have hne : a ++ ['*'] ≠ b := fun heq ↦ hplain a (heq ▸ hb)
      rw [if_neg hab, if_neg hne, Option.or_none] at he
      obtain ⟨e', he'⟩ := exists_getElem?_of_mem
        (h.pointers hb hbgiven (mem_of_getElem?_eq_some he))
      exact mem_of_getElem?_eq_some (getElem?_settleAlias_of_some he' _)

/-- Visits keep it true. -/
theorem Settling.settleRound (hplain : ∀ t : Text, t ++ ['*'] ∉ aliases)
    {visits : List (Text × Text)} (hvisits : ∀ v ∈ visits, v ∈ aliases.toList) :
    ∀ {table : Table}, Settling given aliases table →
      Settling given aliases (settleRound table visits) := by
  induction visits with
  | nil => exact fun h ↦ h
  | cons v rest ih =>
    intro table h
    exact ih (fun v hv ↦ hvisits v (List.mem_cons_of_mem _ hv))
      (h.settleAlias hplain (hvisits v List.mem_cons_self))

/-! ## When nothing is left to settle -/

/-- Every type name for a type with a descriptor has one itself. -/
def IsSettled (aliases : List (Text × Text)) (table : Table) : Prop :=
  ∀ entry ∈ aliases, entry.2 ∈ table → entry.1 ∈ table

/-- **Once nothing is left to settle, everything that is followed to is in the table.** -/
theorem Settling.getElem?_eq_some_iff (h : Settling given aliases table)
    (hsettled : IsSettled aliases.toList table) {t e : Text} :
    table[t]? = some e ↔ FollowsTo given aliases t e := by
  refine ⟨h.sound, fun hfollows ↦ ?_⟩
  have hmem : t ∈ table := by
    induction hfollows with
    | given ht => exact mem_of_getElem?_eq_some (h.keeps ht)
    | original _ ho _ ih =>
      exact hsettled (_, _) (Std.TreeMap.mem_toList_iff_getElem?_eq_some.2 ho) ih
    | pointee _ _ ha hgiven _ ih => exact h.pointers ha hgiven ih
  obtain ⟨e', he'⟩ := exists_getElem?_of_mem hmem
  rw [he', followsTo_unique (h.sound he') hfollows]

/-- Any visits that leave nothing to be settled fill the table with what is followed to. -/
theorem getElem?_settleRound (hplain : ∀ t : Text, t ++ ['*'] ∉ aliases)
    (hgiven : ∀ t, table[t]? = given t) {visits : List (Text × Text)}
    (hvisits : ∀ v ∈ visits, v ∈ aliases.toList)
    (hsettled : IsSettled aliases.toList (settleRound table visits)) {t e : Text} :
    (settleRound table visits)[t]? = some e ↔ FollowsTo given aliases t e :=
  ((settling_of_given hgiven).settleRound hplain hvisits).getElem?_eq_some_iff hsettled

/-! ## Rounds -/

theorem mem_settleRound {t : Text} (visits : List (Text × Text)) :
    ∀ {table : Table}, t ∈ table → t ∈ settleRound table visits := by
  induction visits with
  | nil => exact fun h ↦ h
  | cons v rest ih =>
    intro table h
    obtain ⟨e, he⟩ := exists_getElem?_of_mem h
    exact ih (mem_of_getElem?_eq_some (getElem?_settleAlias_of_some he v))

/-- A round that settles none of its type names had none that it could settle. -/
theorem not_mem_of_idle_round (visits : List (Text × Text)) : ∀ {table : Table},
    (∀ v ∈ visits, v.1 ∉ settleRound table visits) →
      settleRound table visits = table ∧ ∀ v ∈ visits, v.2 ∉ table := by
  induction visits with
  | nil => exact fun _ ↦ ⟨rfl, by simp⟩
  | cons v rest ih =>
    intro table hidle
    have hsettle : ∀ {t : Text}, t ∈ settleAlias table v → t ∈ settleRound table (v :: rest) :=
      fun h ↦ mem_settleRound rest h
    have hname : v.1 ∉ settleAlias table v := fun h ↦ hidle v List.mem_cons_self (hsettle h)
    have horiginal : v.2 ∉ table := by
      intro ho
      obtain ⟨target, htarget⟩ := exists_getElem?_of_mem ho
      by_cases hv : v.1 ∈ table
      · obtain ⟨e, he⟩ := exists_getElem?_of_mem hv
        exact hname (mem_of_getElem?_eq_some (getElem?_settleAlias_of_some he v))
      · refine hname (mem_of_getElem?_eq_some (e := target) ?_)
        rw [getElem?_settleAlias hv htarget, if_pos rfl]
    have hself : settleAlias table v = table :=
      settleAlias_eq_self fun ho ↦ absurd ho horiginal
    have hround : settleRound table (v :: rest) = settleRound table rest := by
      rw [settleRound, List.foldl_cons, hself]
      rfl
    obtain ⟨hrest, hothers⟩ := @ih table fun w hw ↦
      hround ▸ hidle w (List.mem_cons_of_mem _ hw)
    refine ⟨hround.trans hrest, fun w hw ↦ ?_⟩
    rcases List.mem_cons.1 hw with rfl | hw
    · exact horiginal
    · exact hothers w hw

/-- After a round that settles some of the type names, rounds go on over the others. -/
theorem settleAliases_of_lt {table : Table} {names : List (Text × Text)}
    (h : (unsettled names (settleRound table names)).length < names.length) :
    settleAliases table names =
      settleAliases (settleRound table names) (unsettled names (settleRound table names)) := by
  rw [settleAliases]
  exact if_pos h

/-- A round that settles none of them is the last one. -/
theorem settleAliases_of_not_lt {table : Table} {names : List (Text × Text)}
    (h : ¬(unsettled names (settleRound table names)).length < names.length) :
    settleAliases table names = settleRound table names := by
  rw [settleAliases]
  exact if_neg h

/-- **The rounds of `settleAliases` are visits to the given type names** that leave nothing to be
settled. -/
theorem settleAliases_visits (table : Table) (names : List (Text × Text)) :
    ∃ visits, (∀ v ∈ visits, v ∈ names) ∧ settleAliases table names = settleRound table visits ∧
      IsSettled names (settleAliases table names) := by
  induction table, names using settleAliases.induct with
  | case1 table names next left hless ih =>
    have hresult : settleAliases table names = settleAliases next left := settleAliases_of_lt hless
    obtain ⟨visits, hvisits, hround, hsettled⟩ := ih
    refine ⟨names ++ visits, fun v hv ↦ ?_, ?_, fun entry hentry ho ↦ ?_⟩
    · rcases List.mem_append.1 hv with hv | hv
      · exact hv
      · exact (List.mem_filter.1 (hvisits v hv)).1
    · rw [hresult, hround]
      exact List.foldl_append.symm
    · rw [hresult] at ho ⊢
      by_cases hname : entry.1 ∈ next
      · rw [hround]
        exact mem_settleRound visits hname
      · refine hsettled entry (List.mem_filter.2 ⟨hentry, ?_⟩) ho
        rw [Bool.not_eq_true', ← Bool.not_eq_true]
        exact fun h ↦ hname (Std.TreeMap.contains_iff_mem.1 h)
  | case2 table names next left hless =>
    have hresult : settleAliases table names = next := settleAliases_of_not_lt hless
    -- No name was settled in the round, since as many are left as there were.
    have hleft : ∀ entry ∈ names, entry.1 ∉ next := by
      have hlength : left.length = names.length :=
        Nat.le_antisymm (List.length_filter_le _ _) (Nat.not_lt.1 hless)
      intro entry hentry hname
      have hkept := List.length_filter_eq_length_iff.1 hlength entry hentry
      rw [Std.TreeMap.contains_iff_mem.2 hname] at hkept
      exact absurd hkept (by decide)
    obtain ⟨hidle, hnone⟩ := not_mem_of_idle_round names hleft
    refine ⟨names, fun v hv ↦ hv, hresult, fun entry hentry ho ↦ ?_⟩
    rw [hresult] at ho
    exact absurd (hidle ▸ ho) (hnone entry hentry)

end HeaderBindings.Descriptors
