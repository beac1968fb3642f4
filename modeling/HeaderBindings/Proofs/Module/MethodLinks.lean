import Mathlib.Data.List.DropRight
import Mathlib.Data.List.SplitBy
import HeaderBindings.Proofs.Module.MethodNames
import HeaderBindings.Proofs.Types.HeaderOrder

/-!
# Mentions of functions in documentation

The documentation of a method mentions other functions of its class by the names of their methods.
The mentions are found one after the other: each round goes to the next place of what all functions
of the class begin with, and on to the end of the name there.

**What a round leaves.**  `remaining?` is the text behind the name.  If the name has at least one
character, that is less text than before, and linking comes to an end.  The lead of a class may come
from a configured type, though, and need not begin like a name.  Then there is no name, and from the
second round on nothing is read any more.

* `isSome_linkFrom_iff`: linking has a result exactly if there are finitely many rounds.
* `linkMethods_build` says for every table that is derived when that is so, and
  `linkMethods_strayLead` is a configuration that it is not so for.

**What becomes of a text.**  A lead that is found inside of a name is left as it is.  Whether it is
inside is told by the last character written, not by the one read; `linkFrom_eq` has the invariant
that makes them agree, and with it `Sources.linkMethods_eq_linkedText` says that linking is a
matter of whole names.
-/

set_option autoImplicit false

namespace HeaderBindings

namespace TypeTable

variable {table : TypeTable} {cls lead before after t rest : Text} {prev : Option Char}

/-! ## Rounds -/

/-- What one round of linking leaves: the text behind the name at the first place of `lead`. -/
def remaining? (lead t : Text) : Option Text :=
  (t.splitAtFirst? lead).map fun (_, after) ↦ (lead ++ after).dropWhile isNameChar

/-- What is left after `n` rounds, if there are so many. -/
def remainingAfter? (lead : Text) : Nat → Text → Option Text
  | 0, t => some t
  | n + 1, t => (remaining? lead t).bind (remainingAfter? lead n)

/-- The text does not begin like a name. -/
def IsStray (t : Text) : Prop := ∃ c ∈ t.head?, isNameChar c = false

theorem linkFrom_of_none (h : t.splitAtFirst? lead = none) :
    linkFrom table cls lead prev t = some t := by
  rw [linkFrom]
  split
  · rfl
  · rename_i hsplit
    exact absurd (h.symm.trans hsplit) (by simp)

/-- A place of `lead` right at the front that is no name is not got past. -/
theorem linkFrom_of_stuck (h : t.splitAtFirst? lead = some ([], after))
    (hname : (lead ++ after).takeWhile isNameChar = []) :
    linkFrom table cls lead prev t = none := by
  rw [linkFrom]
  split
  · rename_i hsplit
    exact absurd (hsplit.symm.trans h) (by simp)
  · rename_i hsplit
    obtain ⟨rfl, rfl⟩ := Prod.mk.inj (Option.some_inj.1 (h.symm.trans hsplit))
    exact dif_pos ⟨rfl, hname⟩

/-- What is written for a name behind the last character that stands in front of it. -/
def linkedName (table : TypeTable) (cls lead : Text) (prev : Option Char) (name : Text) : Text :=
  if lead.length < name.length ∧ !prev.any isNameChar then table.methodName cls name else name

/-- Any other round goes on behind the name. -/
theorem linkFrom_of_some (h : t.splitAtFirst? lead = some (before, after))
    (hn : ¬(before = [] ∧ (lead ++ after).takeWhile isNameChar = [])) :
    linkFrom table cls lead prev t =
      (linkFrom table cls lead
        ((linkedName table cls lead (before.getLast?.or prev)
          ((lead ++ after).takeWhile isNameChar)).getLast?.or (before.getLast?.or prev))
        ((lead ++ after).dropWhile isNameChar)).map fun tail ↦
          before ++ linkedName table cls lead (before.getLast?.or prev)
            ((lead ++ after).takeWhile isNameChar) ++ tail := by
  rw [linkFrom]
  split
  · rename_i hsplit
    exact absurd (hsplit.symm.trans h) (by simp)
  · rename_i hsplit
    obtain ⟨rfl, rfl⟩ := Prod.mk.inj (Option.some_inj.1 (h.symm.trans hsplit))
    exact dif_neg hn

theorem remaining?_eq_none_iff : remaining? lead t = none ↔ t.splitAtFirst? lead = none := by
  rw [remaining?, Option.map_eq_none_iff]

theorem remaining?_of_some (h : t.splitAtFirst? lead = some (before, after)) :
    remaining? lead t = some ((lead ++ after).dropWhile isNameChar) := by
  rw [remaining?, h]
  rfl

/-! ## When linking ends -/

/-- A round takes something away from the text, unless it is stuck. -/
theorem length_remaining?_lt (h : t.splitAtFirst? lead = some (before, after))
    (hn : ¬(before = [] ∧ (lead ++ after).takeWhile isNameChar = [])) :
    ∀ rest ∈ remaining? lead t, rest.length < t.length := by
  intro rest hrest
  rw [remaining?_of_some h] at hrest
  exact Option.some_inj.1 hrest ▸ length_afterName h hn

/-- A stuck round leaves the text as it is, and so do all later ones. -/
theorem remainingAfter?_of_stuck (h : remaining? lead t = some t) (n : Nat) :
    remainingAfter? lead n t = some t := by
  induction n with
  | zero => rfl
  | succ n ih => rw [remainingAfter?, h, Option.bind_some, ih]

/-- **Linking has a result exactly if it takes finitely many rounds.** -/
theorem isSome_linkFrom_iff (table : TypeTable) (cls lead : Text) (prev : Option Char) (t : Text) :
    (linkFrom table cls lead prev t).isSome ↔ ∃ n, remainingAfter? lead n t = none := by
  induction hlength : t.length using Nat.strong_induction_on generalizing t prev with
  | _ k ih =>
    cases h : t.splitAtFirst? lead with
    | none =>
      have hlast : remainingAfter? lead 1 t = none := by
        rw [remainingAfter?, remaining?_eq_none_iff.2 h]
        rfl
      rw [linkFrom_of_none h]
      exact iff_of_true rfl ⟨1, hlast⟩
    | some parts =>
      obtain ⟨before, after⟩ := parts
      have hround := remaining?_of_some h
      by_cases hn : before = [] ∧ (lead ++ after).takeWhile isNameChar = []
      · obtain ⟨rfl, hname⟩ := hn
        have hsame : (lead ++ after).dropWhile isNameChar = t := by
          have hwhole := List.takeWhile_append_dropWhile (p := isNameChar) (l := lead ++ after)
          rw [hname, List.nil_append] at hwhole
          rw [hwhole, Text.splitAtFirst?_eq_some h, List.nil_append]
        rw [hsame] at hround
        rw [linkFrom_of_stuck h hname]
        refine iff_of_false (by simp) fun ⟨n, hend⟩ ↦ ?_
        exact absurd ((remainingAfter?_of_stuck hround n).symm.trans hend) (by simp)
      · have hless := length_remaining?_lt h hn _ hround
        rw [linkFrom_of_some h hn, Option.isSome_map, ih _ (hlength ▸ hless) _ _ rfl]
        constructor
        · rintro ⟨n, hend⟩
          exact ⟨n + 1, by rw [remainingAfter?, hround, Option.bind_some, hend]⟩
        · rintro ⟨n, hend⟩
          cases n with
          | zero => exact absurd hend (by simp [remainingAfter?])
          | succ n => exact ⟨n, by rwa [remainingAfter?, hround, Option.bind_some] at hend⟩

theorem takeWhile_of_isStray (h : IsStray lead) (after : Text) :
    (lead ++ after).takeWhile isNameChar = [] ∧ (lead ++ after).dropWhile isNameChar =
      lead ++ after := by
  obtain ⟨c, hc, hname⟩ := h
  obtain ⟨tail, rfl⟩ := List.head?_eq_some_iff.1 hc
  simp [hname]

theorem takeWhile_ne_nil (hne : lead ≠ []) (h : ¬IsStray lead) (after : Text) :
    (lead ++ after).takeWhile isNameChar ≠ [] := by
  obtain ⟨c, tail, rfl⟩ := List.exists_cons_of_ne_nil hne
  have hc : isNameChar c = true := by
    by_contra hnot
    exact h ⟨c, rfl, by simpa using hnot⟩
  simp [hc]

/-- Each round leaves less text exactly if the lead begins like a name. -/
theorem forall_length_remaining?_lt_iff (hne : lead ≠ []) :
    (∀ t, ∀ rest ∈ remaining? lead t, rest.length < t.length) ↔ ¬IsStray lead := by
  constructor
  · intro hless hstray
    have hself : lead.splitAtFirst? lead = some ([], []) := by
      simpa using Text.splitAtFirst?_append hne []
    have hround := remaining?_of_some hself
    rw [(takeWhile_of_isStray hstray []).2, List.append_nil] at hround
    exact absurd (hless lead lead hround) (Nat.lt_irrefl _)
  · intro h t rest hrest
    cases hsplit : t.splitAtFirst? lead with
    | none => exact absurd ((remaining?_eq_none_iff.2 hsplit).symm.trans hrest) (by simp)
    | some parts =>
      exact length_remaining?_lt hsplit (fun hboth ↦ takeWhile_ne_nil hne h _ hboth.2) rest hrest

/-- Where every round leaves less text there are finitely many. -/
theorem exists_remainingAfter?_eq_none
    (hless : ∀ t, ∀ rest ∈ remaining? lead t, rest.length < t.length) (t : Text) :
    ∃ n, remainingAfter? lead n t = none := by
  induction hlength : t.length using Nat.strong_induction_on generalizing t with
  | _ k ih =>
    cases h : remaining? lead t with
    | none => exact ⟨1, by rw [remainingAfter?, h]; rfl⟩
    | some rest =>
      obtain ⟨n, hend⟩ := ih _ (hlength ▸ hless t rest h) rest rfl
      exact ⟨n + 1, by rw [remainingAfter?, h, Option.bind_some, hend]⟩

/-- A lead that begins like a name is got past in every round. -/
theorem isSome_linkFrom (hne : lead ≠ []) (h : ¬IsStray lead) (prev : Option Char) (t : Text) :
    (linkFrom table cls lead prev t).isSome :=
  (isSome_linkFrom_iff table cls lead prev t).2
    (exists_remainingAfter?_eq_none ((forall_length_remaining?_lt_iff hne).2 h) t)

/-- **A lead that does not begin like a name** is not got past: the first round stops in front of
it, and the second one does not move. -/
theorem linkFrom_of_isStray (h : IsStray lead) (hwithin : t.contains lead = true) :
    linkFrom table cls lead prev t = none := by
  obtain ⟨⟨before, after⟩, hsplit⟩ := Option.isSome_iff_exists.1 hwithin
  obtain ⟨hname, hrest⟩ := takeWhile_of_isStray h after
  by_cases hbefore : before = []
  · exact linkFrom_of_stuck (hbefore ▸ hsplit) hname
  · have hfront : (lead ++ after).splitAtFirst? lead = some ([], after) := by
      obtain ⟨c, hc, -⟩ := h
      exact Text.splitAtFirst?_append (List.ne_nil_of_mem (List.mem_of_head? hc)) after
    rw [linkFrom_of_some hsplit fun hboth ↦ hbefore hboth.1, hrest, linkFrom_of_stuck hfront hname]
    rfl

/-! ## The lead of a class -/

/-- The type that the functions of a class are named after: of the types with that class the last
one in order. -/
def eponym? (table : TypeTable) (cls : Text) : Option Text :=
  (table.descriptors.toList.filter fun entry ↦ entry.2 = cls).getLast?.map (·.1)

/-- Of several entries for one name the last one counts. -/
theorem getElem?_tableOf_eq_getLast? (entries : List (Text × Text)) (name : Text) :
    (tableOf entries)[name]? = (entries.filter fun e ↦ e.1 = name).getLast?.map (·.2) := by
  induction entries with
  | nil => simp [tableOf]
  | cons e entries ih =>
    rw [Declarations.getElem?_tableOf_cons, ih]
    by_cases hname : e.1 = name
    · rw [List.filter_cons_of_pos (by simpa using hname), List.getLast?_cons, if_pos hname]
      cases (entries.filter fun e ↦ e.1 = name).getLast? <;> rfl
    · rw [List.filter_cons_of_neg (by simpa using hname), if_neg hname, Option.or_none]

/-- The types of a wrapper class are the entries with that class. -/
theorem filter_filterMap_wrapperOf? (classes : List Text) (cls : Text)
    (entries : List (Text × Text)) :
    (entries.filterMap (wrapperOf? classes)).filter (fun e ↦ e.1 = cls) =
      if cls ∈ classes then
        (entries.filter fun e ↦ e.2 = cls).map fun e ↦ (cls, e.1.dropTail (· == '*'))
      else [] := by
  induction entries with
  | nil => simp
  | cons e entries ih =>
    by_cases he : e.2 ∈ classes
    · have hentry : wrapperOf? classes e = some (e.2, e.1.dropTail (· == '*')) := if_pos he
      rw [List.filterMap_cons_some hentry]
      by_cases hcls : e.2 = cls
      · rw [List.filter_cons_of_pos (by simpa using hcls), ih,
          List.filter_cons_of_pos (by simpa using hcls),
          if_pos (hcls ▸ he), if_pos (hcls ▸ he), List.map_cons, hcls]
      · rw [List.filter_cons_of_neg (by simpa using hcls), ih,
          List.filter_cons_of_neg (by simpa using hcls)]
    · have hentry : wrapperOf? classes e = none := if_neg he
      rw [List.filterMap_cons_none hentry, ih]
      split
      · rename_i hcls
        rw [List.filter_cons_of_neg]
        simp only [decide_eq_true_eq]
        rintro rfl
        exact he hcls
      · rfl

/-- **The functions of a class begin with the name of its last type**, without stars and in lower
case. -/
theorem methodLeads_build (conventions : Conventions) (configured : Table) (d : Declarations)
    (cls : Text) : (build conventions configured d).methodLeads[cls]? =
      if cls ∈ conventions.wrapperClasses then
        ((build conventions configured d).eponym? cls).map fun native ↦
          lowerFirst (native.dropTail (· == '*'))
      else none := by
  change (tableOf _)[cls]? = _
  rw [getElem?_tableOf_eq_getLast?, List.filter_map, List.getLast?_map, Option.map_map]
  change (((_ : List (Text × Text)).filter fun e ↦ e.1 = cls).getLast?).map _ = _
  rw [filter_filterMap_wrapperOf?]
  split
  · rw [List.getLast?_map, Option.map_map, eponym?, Option.map_map]
    rfl
  · rfl

theorem linkMethods_of_lead (hlead : table.methodLeads[cls]? = some lead) (hne : lead ≠ [])
    (t : Text) : table.linkMethods cls t = linkFrom table cls lead none t := by
  rw [linkMethods, hlead]
  exact if_neg (by simpa using hne)

/-- Without a lead there is nothing to be linked. -/
theorem linkMethods_of_noLead (h : ∀ lead ∈ table.methodLeads[cls]?, lead = []) (t : Text) :
    table.linkMethods cls t = some t := by
  rw [linkMethods]
  split
  · rename_i lead hlead
    rw [h lead hlead]
    rfl
  · rfl

theorem not_isStray_nil : ¬IsStray [] := by
  rintro ⟨c, hc, -⟩
  exact absurd hc (by simp)

/-- **Linking has a result** unless the lead of the class does not begin like a name and occurs in
the text. -/
theorem isSome_linkMethods_iff (table : TypeTable) (cls t : Text) :
    (table.linkMethods cls t).isSome ↔
      ∀ lead ∈ table.methodLeads[cls]?, IsStray lead → t.contains lead = false := by
  by_cases hno : ∀ lead ∈ table.methodLeads[cls]?, lead = []
  · rw [linkMethods_of_noLead hno]
    refine iff_of_true rfl fun lead hlead hstray ↦ ?_
    exact absurd (hno lead hlead ▸ hstray) not_isStray_nil
  push Not at hno
  obtain ⟨lead, hlead, hne⟩ := hno
  have hall : (∀ lead' ∈ table.methodLeads[cls]?, IsStray lead' → t.contains lead' = false) ↔
      (IsStray lead → t.contains lead = false) := by
    rw [Option.mem_def.1 hlead]
    simp
  rw [linkMethods_of_lead hlead hne, hall]
  constructor
  · intro hends hstray
    rw [← Bool.not_eq_true]
    intro hwithin
    rw [linkFrom_of_isStray hstray hwithin] at hends
    exact absurd hends (by simp)
  · intro h
    by_cases hstray : IsStray lead
    · have hnone : t.splitAtFirst? lead = none := by
        simpa [Text.contains] using h hstray
      rw [linkFrom_of_none hnone]
      rfl
    · exact isSome_linkFrom hne hstray none t

/-- **When linking ends**, for every table that is derived.  It ends exactly if it takes finitely
many rounds, and that is so for a text unless the lead of the class does not begin like a name and
occurs in the text; every round leaves less text exactly if the lead begins like a name.  The lead
is made from the name of a type, which may be a configured one. -/
theorem linkMethods_build (conventions : Conventions) (configured : Table) (d : Declarations)
    (cls : Text) :
    let table := build conventions configured d
    let lead? := table.methodLeads[cls]?
    (∀ t, (table.linkMethods cls t).isSome ↔
      ∀ lead ∈ lead?, lead ≠ [] → ∃ n, remainingAfter? lead n t = none) ∧
    (∀ t, (table.linkMethods cls t).isSome ↔
      ∀ lead ∈ lead?, IsStray lead → t.contains lead = false) ∧
    (∀ lead ∈ lead?, lead ≠ [] →
      ((∀ t, ∀ rest ∈ remaining? lead t, rest.length < t.length) ↔ ¬IsStray lead)) ∧
    lead? = if cls ∈ conventions.wrapperClasses then
        (table.eponym? cls).map fun native ↦ lowerFirst (native.dropTail (· == '*'))
      else none := by
  intro table lead?
  refine ⟨fun t ↦ ?_, isSome_linkMethods_iff table cls,
    fun lead _ hne ↦ forall_length_remaining?_lt_iff hne,
    methodLeads_build conventions configured d cls⟩
  by_cases hno : ∀ lead ∈ lead?, lead = []
  · rw [linkMethods_of_noLead hno]
    exact iff_of_true rfl fun lead hlead hne ↦ absurd (hno lead hlead) hne
  · push Not at hno
    obtain ⟨lead, hlead, hne⟩ := hno
    have hall : (∀ lead' ∈ lead?, lead' ≠ [] → ∃ n, remainingAfter? lead' n t = none) ↔
        ∃ n, remainingAfter? lead n t = none := by
      rw [Option.mem_def.1 hlead]
      simp [hne]
    rw [linkMethods_of_lead hlead hne, hall]
    exact isSome_linkFrom_iff table cls lead none t

/-- The lead of an ordinary class begins like a name, so linking ends for every text. -/
theorem linkMethods_plainLead (t : Text) : ((build { wrapperClasses := ["Context"] }
    ((∅ : Table).insert "XnContext*" "Context") {}).linkMethods "Context" t).isSome := by
  have hlead : (build { wrapperClasses := ["Context"] }
      ((∅ : Table).insert "XnContext*" "Context") {}).methodLeads[("Context" : Text)]? =
        some ("xnContext" : Text) := by decide +kernel
  obtain ⟨-, hends, -, -⟩ := linkMethods_build { wrapperClasses := ["Context"] }
    ((∅ : Table).insert "XnContext*" "Context") {} "Context"
  refine (hends t).2 fun lead hmem ⟨c, hc, hname⟩ ↦ ?_
  obtain rfl := Option.some_inj.1 (hlead.symm.trans hmem)
  obtain rfl := Option.some_inj.1 hc
  exact absurd hname (by decide)

/-- A configuration in which a blank has got in front of a type. -/
def strayTypes : Table := (∅ : Table).insert " XnContext*" "Context"

/-- The table that is derived for it. -/
def strayTable : TypeTable := build { wrapperClasses := ["Context"] } strayTypes {}

/-- **Linking need not end**: here the lead of the class begins with a blank, and the text mentions
the type behind one. -/
theorem linkMethods_strayLead :
    strayTable.methodLeads[("Context" : Text)]? = some (" XnContext" : Text) ∧
      strayTable.linkMethods "Context" "See XnContext." = none ∧
      ¬∃ n, remainingAfter? " XnContext" n "See XnContext." = none := by
  have hlead : strayTable.methodLeads[("Context" : Text)]? = some (" XnContext" : Text) := by
    decide +kernel
  have hstray : IsStray " XnContext" := ⟨' ', rfl, by decide⟩
  have hwithin : Text.contains "See XnContext." " XnContext" = true := by decide
  have hlink : linkFrom strayTable "Context" " XnContext" none "See XnContext." = none :=
    linkFrom_of_isStray hstray hwithin
  refine ⟨hlead, (linkMethods_of_lead hlead (by decide) _).trans hlink, fun hend ↦ ?_⟩
  have hsome := (isSome_linkFrom_iff strayTable "Context" " XnContext" none _).2 hend
  exact absurd (hsome.symm.trans (congrArg Option.isSome hlink)) (by simp)

/-! ## Linking goes by whole names -/

/-- The names of a text, each as long as it can be, and every other character on its own
(`List.splitBy_eq_iff`). -/
def nameRuns (t : Text) : List Text := t.splitBy fun a b ↦ isNameChar a && isNameChar b

/-- What a run becomes: a name that goes on behind the lead becomes the name of a method. -/
def linkedRun (table : TypeTable) (cls lead run : Text) : Text :=
  if run.startsWith lead = true ∧ run ≠ lead then table.methodName cls run else run

/-- The text with every name that goes on behind the lead made the name of a method. -/
def linkedText (table : TypeTable) (cls lead t : Text) : Text :=
  (nameRuns t).flatMap (linkedRun table cls lead)

/-- A name between two texts that do not go on with it. -/
structure StandsAlone (before name after : Text) : Prop where
  ne_nil : name ≠ []
  isName : ∀ c ∈ name, isNameChar c = true
  front : ∀ c ∈ before.getLast?, isNameChar c = false
  behind : ∀ c ∈ after.head?, isNameChar c = false

theorem linkedText_append {u v : Text}
    (h : ∀ x ∈ u.getLast?, ∀ y ∈ v.head?, (isNameChar x && isNameChar y) = false) :
    linkedText table cls lead (u ++ v) =
      linkedText table cls lead u ++ linkedText table cls lead v := by
  rw [linkedText, nameRuns, List.splitBy_append h, List.flatMap_append]
  rfl

theorem linkedText_of_isName {w : Text} (hne : w ≠ []) (hw : ∀ c ∈ w, isNameChar c = true) :
    linkedText table cls lead w = linkedRun table cls lead w := by
  have hchain : w.IsChain fun a b ↦ (isNameChar a && isNameChar b) = true :=
    (List.pairwise_of_forall_mem_list fun a ha b hb ↦ by rw [hw a ha, hw b hb]; rfl).isChain
  rw [linkedText, nameRuns, List.splitBy_of_isChain hne hchain, List.flatMap_singleton]

theorem linkedText_standsAlone {before name after : Text} (h : StandsAlone before name after) :
    linkedText table cls lead (before ++ name ++ after) =
      linkedText table cls lead before ++ linkedRun table cls lead name ++
        linkedText table cls lead after := by
  rw [linkedText_append, linkedText_append, linkedText_of_isName h.ne_nil h.isName]
  · exact fun x hx y _ ↦ by rw [h.front x hx, Bool.false_and]
  · exact fun x _ y hy ↦ by rw [h.behind y hy, Bool.and_false]

/-- A run that does not begin with the lead stays as it is. -/
theorem linkedRun_eq_self {run : Text} (h : ¬lead <+: run) :
    linkedRun table cls lead run = run := by
  exact if_neg fun hboth ↦ h (Text.startsWith_iff.1 hboth.1)

theorem linkedRun_of_goesOn {name rest : Text} (h : GoesOn lead name rest) :
    linkedRun table cls lead name = table.methodName cls name := by
  obtain ⟨rfl, hrest⟩ := h
  exact if_pos ⟨Text.startsWith_iff.2 (List.prefix_append lead rest), by simpa using hrest⟩

theorem linkedRun_of_not_goesOn {name : Text} (h : ∀ behind, ¬GoesOn lead name behind) :
    linkedRun table cls lead name = name := by
  refine if_neg fun ⟨hfront, hname⟩ ↦ ?_
  obtain ⟨behind, rfl⟩ := Text.startsWith_iff.1 hfront
  exact h behind ⟨rfl, by simpa using hname⟩

/-- A text without the lead stays as it is. -/
theorem linkedText_of_not_infix (h : ¬lead <:+: t) : linkedText table cls lead t = t := by
  have hruns : ∀ run ∈ nameRuns t, linkedRun table cls lead run = run := by
    intro run hrun
    refine linkedRun_eq_self fun hfront ↦ h (hfront.isInfix.trans ?_)
    have hwhole : (nameRuns t).flatten = t := List.flatten_splitBy _ t
    obtain ⟨earlier, later, hsplit⟩ := List.append_of_mem hrun
    rw [hsplit] at hwhole
    exact ⟨earlier.flatten, later.flatten, by simpa using hwhole⟩
  have hsame : (nameRuns t).map (linkedRun table cls lead) = nameRuns t :=
    (List.map_congr_left hruns).trans (List.map_id _)
  rw [linkedText, List.flatMap_def, hsame]
  exact List.flatten_splitBy _ t

/-- Every text ends in a name, which may be empty. -/
theorem exists_lastName (t : Text) : ∃ b w, t = b ++ w ∧ (∀ c ∈ w, isNameChar c = true) ∧
    ∀ c ∈ b.getLast?, isNameChar c = false := by
  refine ⟨t.rdropWhile isNameChar, t.rtakeWhile isNameChar,
    List.rdropWhile_append_rtakeWhile.symm, fun c ↦ List.mem_rtakeWhile_imp, ?_⟩
  intro c hc
  obtain ⟨hne, rfl⟩ := List.mem_getLast?_eq_getLast hc
  simpa using List.rdropWhile_last_not isNameChar t hne

/-- What is written for the name at the first place of the lead is what becomes of the whole run
that the place is in, and that begins with the last name of the text before. -/
theorem append_linkedName {b w : Text} (h : t.splitAtFirst? lead = some (b ++ w, after))
    (hw : ∀ c ∈ w, isNameChar c = true) (hb : ∀ c ∈ b.getLast?, isNameChar c = false)
    (hprev : b ++ w = [] → ∀ x ∈ prev, isNameChar x = false)
    (hname : ∀ c ∈ lead, isNameChar c = true) :
    w ++ linkedName table cls lead ((b ++ w).getLast?.or prev)
        ((lead ++ after).takeWhile isNameChar) =
      linkedRun table cls lead (w ++ (lead ++ after).takeWhile isNameChar) := by
  have hrun : (lead ++ after).takeWhile isNameChar = lead ++ after.takeWhile isNameChar :=
    List.takeWhile_append_of_pos hname
  rw [hrun]
  cases w using List.reverseRecOn with
  | nil =>
    have hlast : (b.getLast?.or prev).any isNameChar = false := by
      cases hlast : b.getLast? with
      | none =>
        have hempty : b = [] := List.getLast?_eq_none_iff.1 hlast
        cases prev with
        | none => rfl
        | some x => exact hprev (by simpa using hempty) x rfl
      | some c => exact hb c hlast
    have hfront : (lead ++ after.takeWhile isNameChar).startsWith lead = true :=
      Text.startsWith_iff.2 (List.prefix_append lead _)
    rw [List.append_nil, List.nil_append, List.nil_append, linkedName, linkedRun, hlast, hfront]
    simp [List.length_pos_iff]
  | append_singleton w c =>
    -- The run begins earlier, so the lead is not what it begins with.
    have hlast : ((b ++ (w ++ [c])).getLast?.or prev).any isNameChar = true := by
      rw [← List.append_assoc, List.getLast?_concat]
      exact hw c (by simp)
    have hfront : ¬lead <+: w ++ [c] ++ (lead ++ after.takeWhile isNameChar) := by
      intro hfront
      refine Text.not_prefix_of_splitAtFirst? (by simp) h (hfront.trans ?_)
      rw [List.append_assoc (w ++ [c]), List.prefix_append_right_inj, List.prefix_append_right_inj]
      exact List.takeWhile_prefix _
    rw [linkedRun_eq_self hfront, linkedName, hlast,
      if_neg fun hboth ↦ absurd hboth.2 (by decide)]

/-- No name goes on behind a name. -/
theorem isNameChar_head?_dropWhile (t : Text) :
    ∀ c ∈ (t.dropWhile isNameChar).head?, isNameChar c = false := by
  intro c hc
  have hnot := List.head?_dropWhile_not isNameChar t
  rw [Option.mem_def.1 hc] at hnot
  simpa using hnot

/-- The run of a name that the first place of the lead is in stands alone. -/
theorem standsAlone_splitAtFirst? {b w : Text} (hne : lead ≠ [])
    (hname : ∀ c ∈ lead, isNameChar c = true) (hw : ∀ c ∈ w, isNameChar c = true)
    (hb : ∀ c ∈ b.getLast?, isNameChar c = false) :
    StandsAlone b (w ++ (lead ++ after).takeWhile isNameChar)
      ((lead ++ after).dropWhile isNameChar) := by
  obtain ⟨c, tail, rfl⟩ := List.exists_cons_of_ne_nil hne
  have hc : isNameChar c = true := hname c List.mem_cons_self
  exact ⟨by simp [hc], fun y hy ↦ (List.mem_append.1 hy).elim (hw y) List.mem_takeWhile_imp, hb,
    isNameChar_head?_dropWhile _⟩

/-- What stands in front of that run is without the lead, and what becomes of it and of the run is
what is written in a round. -/
theorem linkedText_of_splitAtFirst? (hne : lead ≠ []) (hname : ∀ c ∈ lead, isNameChar c = true)
    (hstart : ∀ x ∈ prev, ∀ y ∈ rest.head?, (isNameChar x && isNameChar y) = false) {before : Text}
    (hsplit : rest.splitAtFirst? lead = some (before, after)) :
    linkedText table cls lead rest = before ++ linkedName table cls lead (before.getLast?.or prev)
        ((lead ++ after).takeWhile isNameChar) ++
      linkedText table cls lead ((lead ++ after).dropWhile isNameChar) := by
  obtain ⟨b, w, rfl, hw, hb⟩ := exists_lastName before
  have hwhole := Text.splitAtFirst?_eq_some hsplit
  have hprev : b ++ w = [] → ∀ x ∈ prev, isNameChar x = false := by
    intro hempty x hx
    obtain ⟨c, tail, rfl⟩ := List.exists_cons_of_ne_nil hne
    have hx := hstart x hx c (by rw [hwhole, hempty]; rfl)
    rwa [hname c List.mem_cons_self, Bool.and_true] at hx
  have hfree : ¬lead <:+: b := by
    rintro ⟨u, v, rfl⟩
    refine Text.not_prefix_of_splitAtFirst? (u := u) (v := lead ++ v ++ w)
      (by simp [hne]) (by simpa using hsplit) ?_
    simp
  have hrest : rest = b ++ (w ++ (lead ++ after).takeWhile isNameChar) ++
      (lead ++ after).dropWhile isNameChar := by
    rw [hwhole, List.append_assoc b (w ++ _), List.append_assoc w,
      List.takeWhile_append_dropWhile]
    simp only [List.append_assoc]
  rw [hrest, linkedText_standsAlone (standsAlone_splitAtFirst? hne hname hw hb),
    linkedText_of_not_infix hfree, ← append_linkedName hsplit hw hb hprev hname]
  simp only [List.append_assoc]

/-- **Linking goes by whole names**, if no name is under way where it starts. -/
theorem linkFrom_eq (hne : lead ≠ []) (hname : ∀ c ∈ lead, isNameChar c = true)
    (hstart : ∀ x ∈ prev, ∀ y ∈ rest.head?, (isNameChar x && isNameChar y) = false) :
    linkFrom table cls lead prev rest = some (linkedText table cls lead rest) := by
  induction hlength : rest.length using Nat.strong_induction_on generalizing rest prev with
  | _ k ih =>
    cases hsplit : rest.splitAtFirst? lead with
    | none =>
      have hwithout : ¬lead <:+: rest := fun hwithin ↦ by
        have hfound := Text.contains_iff.2 hwithin
        rw [Text.contains, hsplit] at hfound
        exact absurd hfound (by simp)
      rw [linkFrom_of_none hsplit, linkedText_of_not_infix hwithout]
    | some parts =>
      obtain ⟨before, after⟩ := parts
      have hn : ¬(before = [] ∧ (lead ++ after).takeWhile isNameChar = []) := by
        obtain ⟨c, tail, rfl⟩ := List.exists_cons_of_ne_nil hne
        simp [hname c List.mem_cons_self]
      -- Behind the run no name is under way, so linking goes on from there.
      rw [linkFrom_of_some hsplit hn, ih _ (hlength ▸ length_afterName hsplit hn)
          (fun x _ y hy ↦ by rw [isNameChar_head?_dropWhile _ y hy, Bool.and_false]) rfl,
        linkedText_of_splitAtFirst? hne hname hstart hsplit, Option.map_some]

end TypeTable

namespace Sources

open TypeTable

/-- **Linking makes the names of functions those of their methods**, and nothing else: every name
that goes on behind the lead of its class becomes the name of a method, whatever stands around it.
So a mention of a function becomes the name of its method in the module, and a name that is the lead
or has it further inside stays as it is. -/
theorem linkMethods_eq_linkedText {s : Sources} {cls lead : Text}
    (hlead : s.types.methodLeads[cls]? = some lead) (hne : lead ≠ [])
    (hname : ∀ c ∈ lead, isNameChar c = true) :
    (∀ t, s.types.linkMethods cls t = some (linkedText s.types cls lead t)) ∧
    (∀ wrappers ∈ s.wrappers?, ∀ node ∈ wrappers, node.wrapperClass? = some cls →
      ∀ m ∈ node.methods, ∀ behind, GoesOn lead m.target behind →
        ∀ before after, StandsAlone before m.target after →
          s.types.linkMethods cls (before ++ m.target ++ after) =
            some (linkedText s.types cls lead before ++ m.name ++
              linkedText s.types cls lead after)) ∧
    ∀ before name after, StandsAlone before name after → (∀ behind, ¬GoesOn lead name behind) →
      s.types.linkMethods cls (before ++ name ++ after) =
        some (linkedText s.types cls lead before ++ name ++ linkedText s.types cls lead after) := by
  have hlink : ∀ t, s.types.linkMethods cls t = some (linkedText s.types cls lead t) := by
    intro t
    rw [linkMethods_of_lead hlead hne]
    exact linkFrom_eq hne hname (by simp)
  refine ⟨hlink, ?_, ?_⟩
  · intro wrappers hwrappers node hnode hcls m hm behind hbehind before after halone
    have hpair : (m.name, m.target) ∈ node.methods.map fun m ↦ (m.name, m.target) :=
      List.mem_map.2 ⟨m, hm, rfl⟩
    rw [methods_of_mem_wrappers hwrappers node hnode cls hcls] at hpair
    obtain ⟨f, -, hpair⟩ := List.mem_map.1 hpair
    obtain ⟨hmethod, htarget⟩ := Prod.mk.inj hpair
    rw [hlink, linkedText_standsAlone halone, linkedRun_of_goesOn hbehind, ← htarget, hmethod]
  · intro before name after halone hbehind
    rw [hlink, linkedText_standsAlone halone, linkedRun_of_not_goesOn hbehind]

/-- Linking for the library, with a mention of a function of the class, one of a function without
the lead, and a name that has the lead inside. -/
theorem linkMethods_openLibrary : (openLibrary.types.methodLeads[("Context" : Text)]? =
      some ("xnContext" : Text) ∧ ("xnContext" : Text) ≠ [] ∧
      ∀ c ∈ ("xnContext" : Text), isNameChar c = true) ∧
    openLibrary.types.linkMethods "Context" "See xnContextOpen, xnOpen and myxnContextClose." =
      some ("See open, xnOpen and myxnContextClose." : Text) := by
  obtain ⟨hlead, hlinked⟩ : openLibrary.types.methodLeads[("Context" : Text)]? =
      some ("xnContext" : Text) ∧ linkedText openLibrary.types "Context" "xnContext"
        "See xnContextOpen, xnOpen and myxnContextClose." =
          "See open, xnOpen and myxnContextClose." := by decide +kernel
  have hname : ∀ c ∈ ("xnContext" : Text), isNameChar c = true := List.all_eq_true.1 (by decide)
  refine ⟨⟨hlead, by decide, hname⟩, ?_⟩
  rw [(linkMethods_eq_linkedText hlead (by decide) hname).1, hlinked]

end Sources

end HeaderBindings
