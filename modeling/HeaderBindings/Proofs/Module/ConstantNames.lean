import Mathlib.Data.List.Basic
import HeaderBindings.Header.Enums
import HeaderBindings.Module.Sections
import HeaderBindings.Proofs.Text.Words

/-!
# Constants of an enumeration

A member of an enumeration becomes a constant of a class under a shorter name, made from the end of
the name that it has in the header.  Two names with one ending make one constant, which is assigned
twice, and nothing checks for that.

* `HasEnding` says which part of a name is its ending, and `enumeratorName_of_hasEnding` that the
  constant is named after it.  A digit in front gets an underscore, so `5` and `LEVEL__5` meet too.
* `enumeratorName_eq_iff`: these are all ways in which two members can share a name.
* `constants_of_mem_enumerations` says of a whole enumeration when its constants have different
  names, and when each of them is left with the value of its member.  `constants_okay` is an
  enumeration whose members have different names in the header and one name in the class.
-/

set_option autoImplicit false

namespace HeaderBindings

/-! ## Endings of names -/

/-- The part of a name that follows the last underscore, or the last two parts if the last one is at
most a character. -/
inductive HasEnding : Text → Text → Prop
  | whole {name : Text} (hname : '_' ∉ name) : HasEnding name name
  | last {front last : Text} (hlast : '_' ∉ last) (hlong : 1 < last.length) :
      HasEnding (front ++ '_' :: last) last
  | both {part last : Text} (hpart : '_' ∉ part) (hlast : '_' ∉ last) (hshort : last.length ≤ 1) :
      HasEnding (part ++ '_' :: last) (part ++ '_' :: last)
  | lastTwo {front part last : Text} (hpart : '_' ∉ part) (hlast : '_' ∉ last)
      (hshort : last.length ≤ 1) :
      HasEnding (front ++ '_' :: (part ++ '_' :: last)) (part ++ '_' :: last)

/-- A text is taken apart at the last place of a character. -/
theorem Text.exists_last_part {x : Char} {t : Text} (h : x ∈ t) :
    ∃ front last, t = front ++ x :: last ∧ x ∉ last := by
  obtain ⟨last, front, hsplit, hlast⟩ := List.eq_append_cons_of_mem (List.mem_reverse.2 h)
  refine ⟨front.reverse, last.reverse, ?_, by simpa using hlast⟩
  rw [← t.reverse_reverse, hsplit]
  simp

theorem exists_hasEnding (native : Text) : ∃ ending, HasEnding native ending := by
  by_cases hparts : '_' ∈ native
  · obtain ⟨front, last, rfl, hlast⟩ := Text.exists_last_part hparts
    by_cases hlong : 1 < last.length
    · exact ⟨last, .last hlast hlong⟩
    · by_cases hmore : '_' ∈ front
      · obtain ⟨front, part, rfl, hpart⟩ := Text.exists_last_part hmore
        rw [List.append_assoc]
        exact ⟨_, .lastTwo hpart hlast (by omega)⟩
      · exact ⟨_, .both hmore hlast (by omega)⟩
  · exact ⟨native, .whole hparts⟩

/-- **A constant is named after the ending** of its member's name. -/
theorem enumeratorName_of_hasEnding {native ending : Text} (h : HasEnding native ending) :
    enumeratorName native = Sources.constantName ending := by
  rw [enumeratorName, Sources.constantName]
  cases h with
  | whole hname => rw [Text.splitOn_of_notMem hname]; rfl
  | @last front last hlast hlong =>
    obtain ⟨before, parts, hfront⟩ := List.exists_cons_of_ne_nil (l := (front.splitOn '_').reverse)
      (List.reverse_ne_nil_iff.2 (Text.splitWhere_ne_nil _ front))
    rw [Text.splitOn_append_last hlast, List.reverse_concat, hfront]
    simp only [if_neg (Nat.not_le.2 hlong)]
  | both hpart hlast hshort =>
    rw [Text.splitOn_append_last hlast, List.reverse_concat, Text.splitOn_of_notMem hpart]
    simp only [List.reverse_singleton, if_pos hshort]
  | @lastTwo front part last hpart hlast hshort =>
    rw [← List.cons_append, ← List.append_assoc, Text.splitOn_append_last hlast,
      List.reverse_concat, Text.splitOn_append_last hpart, List.reverse_concat]
    simp only [if_pos hshort, List.cons_append]

/-- Two endings make one name if they are the same, or if the one lacks the underscore that the
other begins with. -/
theorem constantName_eq_iff {x y : Text} :
    Sources.constantName x = Sources.constantName y ↔
      x = y ∨ (x.head?.any Char.isDigit = true ∧ y = '_' :: x) ∨
        (y.head?.any Char.isDigit = true ∧ x = '_' :: y) := by
  have hunderscore (t : Text) : ('_' :: t).head?.any Char.isDigit = false := rfl
  rw [Sources.constantName, Sources.constantName]
  constructor
  · intro h
    split_ifs at h with hx hy hy
    · exact .inl (List.cons.inj h).2
    · exact .inr (.inl ⟨hx, h.symm⟩)
    · exact .inr (.inr ⟨hy, h⟩)
    · exact .inl h
  · rintro (rfl | ⟨hx, rfl⟩ | ⟨hy, rfl⟩)
    · rfl
    · rw [if_pos hx, hunderscore, if_neg (by simp)]
    · rw [if_pos hy, hunderscore, if_neg (by simp)]

theorem ne_underscore_of_isDigit {d : Char} (h : d.isDigit = true) : d ≠ '_' := by
  rintro rfl
  exact absurd h (by decide)

namespace HasEnding

variable {native : Text}

/-- Only a name of one character has one for its ending. -/
theorem eq_singleton {d : Char} (hd : d ≠ '_') (h : HasEnding native [d]) : native = [d] := by
  generalize hending : [d] = ending at h
  cases h with
  | whole => rfl
  | last hlast hlong =>
    rw [← hending] at hlong
    exact absurd hlong (by simp)
  | both | lastTwo =>
    have hmem : '_' ∈ [d] := by simp [hending]
    exact absurd (List.mem_singleton.1 hmem).symm hd

/-- Behind an underscore in front of an ending stands at most a character. -/
theorem length_le_one {rest : Text} (h : HasEnding native ('_' :: rest)) : rest.length ≤ 1 := by
  generalize hending : '_' :: rest = ending at h
  cases h with
  | whole hname => exact absurd (hending ▸ List.mem_cons_self) hname
  | last hlast => exact absurd (hending ▸ List.mem_cons_self) hlast
  | @both part last hpart _ hshort | @lastTwo _ part last hpart _ hshort =>
    cases part with
    | nil => exact (List.cons.inj hending).2 ▸ hshort
    | cons c part => exact absurd ((List.cons.inj hending).1 ▸ List.mem_cons_self) hpart

end HasEnding

/-- Two members have names that make one constant: with one ending, or one that is a digit and one
that ends in two underscores and that digit. -/
inductive SharesName : Text → Text → Prop
  | ending {a b ending : Text} (ha : HasEnding a ending) (hb : HasEnding b ending) : SharesName a b
  | digitLeft {b : Text} {d : Char} (hd : d.isDigit = true) (hb : HasEnding b ['_', d]) :
      SharesName [d] b
  | digitRight {a : Text} {d : Char} (hd : d.isDigit = true) (ha : HasEnding a ['_', d]) :
      SharesName a [d]

/-- A digit is the ending of no name but itself, and behind an underscore it is an ending only
alone. -/
theorem HasEnding.exists_digit {a b x : Text} (ha : HasEnding a x) (hb : HasEnding b ('_' :: x))
    (hx : x.head?.any Char.isDigit = true) :
    ∃ d : Char, d.isDigit = true ∧ a = [d] ∧ HasEnding b ['_', d] := by
  have hlength := hb.length_le_one
  match x with
  | [] => exact absurd hx (by simp)
  | [d] =>
    have hdigit : d.isDigit = true := by simpa using hx
    exact ⟨d, hdigit, ha.eq_singleton (ne_underscore_of_isDigit hdigit), hb⟩
  | _ :: _ :: _ => exact absurd hlength (by simp)

/-- **When two members make one constant.** -/
theorem enumeratorName_eq_iff {a b : Text} :
    enumeratorName a = enumeratorName b ↔ SharesName a b := by
  have hdigit {d : Char} (hd : d.isDigit = true) {b : Text} (hb : HasEnding b ['_', d]) :
      enumeratorName [d] = enumeratorName b := by
    have hname : '_' ∉ [d] := by simpa using (ne_underscore_of_isDigit hd).symm
    rw [enumeratorName_of_hasEnding (.whole hname), enumeratorName_of_hasEnding hb,
      constantName_eq_iff]
    exact .inr (.inl ⟨hd, rfl⟩)
  constructor
  · intro h
    obtain ⟨x, ha⟩ := exists_hasEnding a
    obtain ⟨y, hb⟩ := exists_hasEnding b
    rw [enumeratorName_of_hasEnding ha, enumeratorName_of_hasEnding hb, constantName_eq_iff] at h
    rcases h with rfl | ⟨hx, rfl⟩ | ⟨hy, rfl⟩
    · exact .ending ha hb
    · obtain ⟨d, hd, rfl, hb⟩ := ha.exists_digit hb hx
      exact .digitLeft hd hb
    · obtain ⟨d, hd, rfl, ha⟩ := hb.exists_digit ha hy
      exact .digitRight hd ha
  · rintro (⟨ha, hb⟩ | ⟨hd, hb⟩ | ⟨hd, ha⟩)
    · rw [enumeratorName_of_hasEnding ha, enumeratorName_of_hasEnding hb]
    · exact hdigit hd hb
    · exact (hdigit hd ha).symm

/-! ## Members that are read -/

/-- Each member is named after what is written for it. -/
theorem name_readMembers (earlier : List Enumerator) (previous : Int) (pieces : List Text) :
    ∀ m ∈ readMembers earlier previous pieces, m.name = enumeratorName m.native := by
  induction pieces generalizing earlier previous with
  | nil => exact fun m hm ↦ absurd hm List.not_mem_nil
  | cons piece pieces ih =>
    rw [readMembers]
    dsimp only
    split
    · exact ih _ _
    · refine List.forall_mem_cons.2 ⟨?_, ih _ _⟩
      rw [readMember]
      split <;> rfl

theorem name_of_mem_enumerations {file t : Text} {e : Enumeration} (h : e ∈ enumerations file t) :
    ∀ m ∈ e.members, m.name = enumeratorName m.native := by
  obtain ⟨b, -, rfl⟩ := List.mem_map.1 h
  exact name_readMembers _ _ _

/-! ## Definitions and assignments -/

section

variable {α : Type} {definitions values : List (Text × α)} {name : Text} {value : α}

/-- What a name stands for behind the given definitions: the last one counts. -/
def lastDefinition? (definitions : List (Text × α)) (name : Text) : Option α :=
  definitions.reverse.lookup name

theorem lastDefinition?_append (earlier later : List (Text × α)) (name : Text) :
    lastDefinition? (earlier ++ later) name =
      (lastDefinition? later name).or (lastDefinition? earlier name) := by
  rw [lastDefinition?, List.reverse_append, List.lookup_append]
  rfl

theorem lastDefinition?_append_cons (earlier later : List (Text × α)) (name : Text) (value : α) :
    lastDefinition? (earlier ++ (name, value) :: later) name =
      (lastDefinition? later name).or (some value) := by
  have hself : lastDefinition? [(name, value)] name = some value := List.lookup_cons_self
  rw [← List.singleton_append, ← List.append_assoc, lastDefinition?_append, lastDefinition?_append,
    hself, Option.some_or]

/-- What a name stands for was defined for it. -/
theorem mem_of_lastDefinition? (h : lastDefinition? definitions name = some value) :
    (name, value) ∈ definitions := by
  obtain ⟨_, _, hsplit, -⟩ := List.lookup_eq_some_iff.1 h
  exact List.mem_reverse.1 (hsplit ▸ List.mem_append_right _ List.mem_cons_self)

theorem lastDefinition?_eq_none_iff :
    lastDefinition? definitions name = none ↔ ∀ d ∈ definitions, d.1 ≠ name := by
  rw [lastDefinition?, List.lookup_eq_none_iff]
  simp only [List.mem_reverse, bne_iff_ne, ne_comm]

/-- **Every value is kept** exactly if no name is defined as two values, in whatever order. -/
theorem lastDefinition?_eq_iff (h : definitions.Perm values) :
    (∀ v ∈ values, lastDefinition? definitions v.1 = some v.2) ↔
      ∀ v ∈ values, ∀ w ∈ values, v.1 = w.1 → v.2 = w.2 := by
  constructor
  · intro hkept v hv w hw hname
    exact Option.some_inj.1 ((hkept v hv).symm.trans (hname ▸ hkept w hw))
  · intro hagree v hv
    cases hvalue : lastDefinition? definitions v.1 with
    | none => exact absurd rfl (lastDefinition?_eq_none_iff.1 hvalue v (h.mem_iff.2 hv))
    | some value =>
      have hmem := h.mem_iff.1 (mem_of_lastDefinition? hvalue)
      rw [hagree v hv _ hmem rfl]

end

/-- The constants of a class in the order in which they are assigned. -/
def constantAssignments (name : Text) (values : List (Text × Int)) : List (Text × Int) :=
  values.mergeSort fun a b ↦
    (compare (constantLine name (nameWidth values) a) (constantLine name (nameWidth values) b)).isLE

theorem constantLines_eq (name : Text) (values : List (Text × Int)) :
    constantLines name values =
      (constantAssignments name values).map (constantLine name (nameWidth values)) := by
  rw [constantLines, constantAssignments, List.map_mergeSort]
  exact fun _ _ _ _ ↦ rfl

theorem constantAssignments_perm (name : Text) (values : List (Text × Int)) :
    (constantAssignments name values).Perm values := List.mergeSort_perm _ _

/-- The class of an enumeration ends in its constants. -/
theorem constantLines_suffix_render (name doc : Text) {values : List (Text × Int)}
    (h : values ≠ []) :
    Text.joinWith "\n" (constantLines name values) <:+ (Node.enum name doc values).render := by
  have hlast (front : Text) : Text.joinWith "\n" (constantLines name values) <:+
      front ++ if values.isEmpty then ([] : Text)
        else "\n\n" ++ Text.joinWith "\n" (constantLines name values) := by
    rw [if_neg (by simpa using h), ← List.append_assoc]
    exact List.suffix_append _ _
  exact hlast _

/-- **When the constants of an enumeration are kept apart.**  They have different names exactly if
no two of its members share one.  The class ends in one assignment for each member, and afterwards
each constant has the value of its member exactly if members that share a name have one value. -/
theorem constants_of_mem_enumerations {file t : Text} {e : Enumeration}
    (h : e ∈ enumerations file t) (name doc : Text) :
    let values := e.members.map fun m ↦ (m.name, m.value)
    let assignments := constantAssignments name values
    ((e.members.map (·.name)).Nodup ↔
        e.members.Pairwise fun a b ↦ ¬SharesName a.native b.native) ∧
      (e.members ≠ [] → Text.joinWith "\n"
        (assignments.map (constantLine name (nameWidth values))) <:+
          (Node.enum name doc values).render) ∧
      assignments.Perm values ∧
      ((∀ m ∈ e.members, lastDefinition? assignments m.name = some m.value) ↔
        ∀ a ∈ e.members, ∀ b ∈ e.members, SharesName a.native b.native → a.value = b.value) := by
  intro values assignments
  have hnames : ∀ a ∈ e.members, ∀ b ∈ e.members,
      a.name = b.name ↔ SharesName a.native b.native := by
    intro a ha b hb
    rw [name_of_mem_enumerations h a ha, name_of_mem_enumerations h b hb, enumeratorName_eq_iff]
  have hperm : assignments.Perm values := constantAssignments_perm name values
  refine ⟨?_, fun hne ↦ ?_, hperm, ?_⟩
  · rw [List.Nodup, List.pairwise_map]
    exact List.Pairwise.iff_of_mem fun {a b} ha hb ↦ not_congr (hnames a ha b hb)
  · rw [← constantLines_eq]
    exact constantLines_suffix_render name doc (by simpa [values] using hne)
  · have hkept := lastDefinition?_eq_iff hperm
    simp only [values, List.forall_mem_map] at hkept
    refine hkept.trans ⟨fun hagree a ha b hb hshared ↦ ?_, fun hagree a ha b hb hname ↦ ?_⟩
    · exact hagree a ha b hb ((hnames a ha b hb).2 hshared)
    · exact hagree a ha b hb ((hnames a ha b hb).1 hname)

/-- An enumeration of three members, two of which end in one digit. -/
def modesHeader : Text := "enum XnMode\n\x7b\nXN_MODE_1,\nXN_TYPE_1,\nXN_MODE_WIDE = 7\n\x7d;\n"

/-- The constants of its class. -/
def modeConstants : List (Text × Int) := [("MODE_1", 0), ("TYPE_1", 1), ("WIDE", 7)]

theorem constants_of_mem_enumerations_modes : ∃ e ∈ enumerations "a.h" modesHeader,
    e.members.map (fun m ↦ (m.name, m.value)) = modeConstants ∧
      e.members.Pairwise (fun a b ↦ ¬SharesName a.native b.native) ∧
      ∀ m ∈ e.members, lastDefinition? (constantAssignments "Mode"
        (e.members.map fun m ↦ (m.name, m.value))) m.name = some m.value := by
  obtain ⟨e, he, hvalues, hnodup, hnames, hagree⟩ : ∃ e ∈ enumerations "a.h" modesHeader,
      e.members.map (fun m ↦ (m.name, m.value)) = modeConstants ∧
        (e.members.map (·.name)).Nodup ∧
        (∀ m ∈ e.members, m.name = enumeratorName m.native) ∧
        ∀ a ∈ e.members, ∀ b ∈ e.members, a.name = b.name → a.value = b.value := by
    decide +kernel
  obtain ⟨hpairs, -, -, hkept⟩ := constants_of_mem_enumerations he "Mode" notAvailable
  refine ⟨e, he, hvalues, hpairs.1 hnodup, hkept.2 fun a ha b hb hshared ↦ hagree a ha b hb ?_⟩
  rw [hnames a ha, hnames b hb, enumeratorName_eq_iff]
  exact hshared

/-- **Members of different names can share a constant**, and then one of them is left without its
value. -/
theorem constants_okay : ∃ e ∈ enumerations "a.h" "enum E\n\x7b\nA_OK,\nB_OK = 5\n\x7d;\n",
    e.members = [⟨"A_OK", "OK", 0⟩, ⟨"B_OK", "OK", 5⟩] ∧ (e.members.map (·.native)).Nodup ∧
      ¬(e.members.map (·.name)).Nodup ∧
      (constantLines "E" (e.members.map fun m ↦ (m.name, m.value))).Perm
        ["E.OK = E(0)", "E.OK = E(5)"] ∧
      ¬∀ m ∈ e.members, lastDefinition? (constantAssignments "E"
        (e.members.map fun m ↦ (m.name, m.value))) m.name = some m.value := by
  obtain ⟨e, he, hmembers⟩ : ∃ e ∈ enumerations "a.h" "enum E\n\x7b\nA_OK,\nB_OK = 5\n\x7d;\n",
      e.members = [⟨"A_OK", "OK", 0⟩, ⟨"B_OK", "OK", 5⟩] := by decide +kernel
  refine ⟨e, he, hmembers, ?_⟩
  rw [hmembers]
  have hkept := lastDefinition?_eq_iff (constantAssignments_perm "E" [("OK", 0), ("OK", 5)])
  refine ⟨by decide, by decide, ?_, fun hall ↦ ?_⟩
  · exact (List.mergeSort_perm _ _).trans (.of_eq (by decide +kernel))
  · have hagree := hkept.1 (by simpa using hall)
    exact absurd (hagree ("OK", 0) (by simp) ("OK", 5) (by simp) rfl) (by decide)

end HeaderBindings
