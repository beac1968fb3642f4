import HeaderBindings.Proofs.Module.MethodNames

/-!
# Which derived names are identifiers

The names in a module are made from those of the headers by leaving something out, and what is left
may begin with a digit, or be nothing.  Constants get an underscore in front of a digit, whether
they are made from the members of an enumeration or from constants of the header.  Classes and
methods do not.

* `KeepsFirst` is what changing the case of letters does to a name.  It says that the new name is an
  identifier exactly if the old one begins with something else than a digit.
* `keepsFirst_flatMap_titleCase`: joining the parts of a name drops the underscores in front.
* `isIdentifier_derivedNames` says of all four kinds of names when they are identifiers, and
  `not_isIdentifier_derivedNames` has names of a class and of a method that are none.
-/

set_option autoImplicit false

namespace HeaderBindings

/-! ## Characters of identifiers -/

/-- What is so of all characters of identifiers can be checked in a table of them. -/
theorem of_isIdentChar {P : Char → Prop}
    (h : ∀ n < 128, isIdentChar (Char.ofNat n) = true → P (Char.ofNat n)) {c : Char}
    (hc : isIdentChar c = true) : P c := by
  have hcase := h c.toNat (toNat_of_isIdentChar hc).2
  rw [Char.ofNat_toNat] at hcase
  exact hcase hc

theorem isIdentStart_eq {c : Char} (h : isIdentChar c = true) : isIdentStart c = !c.isDigit :=
  of_isIdentChar (P := fun c ↦ isIdentStart c = !c.isDigit) (by decide) h

/-- Characters of identifiers make an identifier unless the first one is a digit or missing. -/
theorem isIdentifier_iff {t : Text} (h : ∀ c ∈ t, isIdentChar c = true) :
    isIdentifier t = true ↔ t.head?.map Char.isDigit = some false := by
  cases t with
  | nil => simp [isIdentifier]
  | cons c t =>
    have hrest : t.all isIdentChar = true :=
      List.all_eq_true.2 fun x hx ↦ h x (List.mem_cons_of_mem c hx)
    rw [isIdentifier, hrest, isIdentStart_eq (h c List.mem_cons_self)]
    simp

/-- Upper case keeps letters letters and leaves all other characters of identifiers alone. -/
theorem exists_upperCase {c : Char} (h : isIdentChar c = true) :
    ∃ d, upperCase c = [d] ∧ isIdentChar d = true ∧ d.isDigit = c.isDigit :=
  ⟨c.toUpper, by rw [upperCase, if_pos (isAscii_of_isIdentChar h)],
    of_isIdentChar (P := fun c ↦ isIdentChar c.toUpper = true ∧ c.toUpper.isDigit = c.isDigit)
      (by decide) h⟩

/-- So does lower case. -/
theorem exists_lowerCase {c : Char} (h : isIdentChar c = true) :
    ∃ d, lowerCase c = [d] ∧ isIdentChar d = true ∧ d.isDigit = c.isDigit :=
  ⟨c.toLower, by rw [lowerCase, if_pos (isAscii_of_isIdentChar h)],
    of_isIdentChar (P := fun c ↦ isIdentChar c.toLower = true ∧ c.toLower.isDigit = c.isDigit)
      (by decide) h⟩

/-! ## Names with letters in another case -/

/-- A name made from another one has the characters of identifiers, and it is empty or begins with a
digit exactly if the other one is or does. -/
structure KeepsFirst (t name : Text) : Prop where
  chars : ∀ c ∈ name, isIdentChar c = true
  first : name.head?.map Char.isDigit = t.head?.map Char.isDigit

namespace KeepsFirst

variable {c : Char} {t name : Text}

theorem refl (h : ∀ c ∈ t, isIdentChar c = true) : KeepsFirst t t := ⟨h, rfl⟩

theorem isIdentifier_iff (h : KeepsFirst t name) :
    isIdentifier name = true ↔ ∃ c ∈ t.head?, c.isDigit = false := by
  rw [HeaderBindings.isIdentifier_iff h.chars, h.first, Option.map_eq_some_iff]
  rfl

/-- Another case for the first letter of a name, and other characters behind it. -/
theorem of_change {change : Char → Text}
    (hchange : ∀ {c}, isIdentChar c = true →
      ∃ d, change c = [d] ∧ isIdentChar d = true ∧ d.isDigit = c.isDigit)
    {rest more : Text} (hc : isIdentChar c = true) (hmore : ∀ x ∈ more, isIdentChar x = true) :
    KeepsFirst (c :: rest) (change c ++ more) := by
  obtain ⟨d, hd, hident, hdigit⟩ := hchange hc
  rw [hd]
  exact ⟨List.forall_mem_cons.2 ⟨hident, hmore⟩, by simp [hdigit]⟩

theorem upperFirst (h : ∀ c ∈ t, isIdentChar c = true) : KeepsFirst t (upperFirst t) := by
  cases t with
  | nil => exact .refl h
  | cons c rest =>
    obtain ⟨hc, hrest⟩ := List.forall_mem_cons.1 h
    exact of_change exists_upperCase hc hrest

theorem lowerFirst (h : ∀ c ∈ t, isIdentChar c = true) : KeepsFirst t (lowerFirst t) := by
  cases t with
  | nil => exact .refl h
  | cons c rest =>
    obtain ⟨hc, hrest⟩ := List.forall_mem_cons.1 h
    exact of_change exists_lowerCase hc hrest

theorem titleCase (h : ∀ c ∈ t, isIdentChar c = true) : KeepsFirst t (titleCase t) := by
  cases t with
  | nil => exact .refl h
  | cons c rest =>
    obtain ⟨hc, hrest⟩ := List.forall_mem_cons.1 h
    refine of_change exists_upperCase hc fun x hx ↦ ?_
    obtain ⟨y, hy, hx⟩ := List.mem_flatMap.1 hx
    obtain ⟨z, hlower, hz, -⟩ := exists_lowerCase (hrest y hy)
    rw [hlower] at hx
    exact List.mem_singleton.1 hx ▸ hz

end KeepsFirst

/-! ## Names of classes -/

/-- What stands behind the underscores in front. -/
def withoutUnderscores (t : Text) : Text := t.dropWhile (· == '_')

theorem withoutUnderscores_of_notMem {t : Text} (h : '_' ∉ t) : withoutUnderscores t = t := by
  cases t with
  | nil => rfl
  | cons c t => simp [withoutUnderscores, Ne.symm (List.ne_of_not_mem_cons h)]

/-- **Joined parts of a name** begin with the first character that is no underscore. -/
theorem keepsFirst_flatMap_titleCase {t : Text} (h : ∀ c ∈ t, isIdentChar c = true) :
    KeepsFirst (withoutUnderscores t) ((t.splitOn '_').flatMap titleCase) := by
  refine ⟨fun x hx ↦ ?_, ?_⟩
  · obtain ⟨part, hpart, hx⟩ := List.mem_flatMap.1 hx
    exact (KeepsFirst.titleCase fun c hc ↦ h c (Text.subset_of_mem_splitOn hpart hc)).chars x hx
  · induction t with
    | nil => rfl
    | cons c t ih =>
      have ht := ih fun x hx ↦ h x (List.mem_cons_of_mem c hx)
      obtain ⟨part, parts, hsplit⟩ :=
        List.exists_cons_of_ne_nil (Text.splitWhere_ne_nil (· == '_') t)
      rw [Text.splitOn, hsplit] at ht
      rw [Text.splitOn, Text.splitWhere, hsplit]
      by_cases hc : c = '_'
      · subst hc
        exact ht
      · obtain ⟨d, hupper, -, hdigit⟩ := exists_upperCase (h c List.mem_cons_self)
        simp [withoutUnderscores, hc, titleCase, hupper, hdigit]

/-- What is left of the name of a type stands at its end. -/
theorem withoutLead_suffix (leads : List Text) (name : Text) :
    withoutLead leads name <:+ name := by
  rw [withoutLead]
  cases hfound : leads.findSome? fun lead ↦ (name.afterLead? lead).filter (!·.isEmpty) with
  | none => exact List.suffix_rfl
  | some rest =>
    obtain ⟨lead, -, hlead⟩ := List.exists_of_findSome?_eq_some hfound
    obtain ⟨hname, -⟩ := filter_afterLead?_eq_some_iff.1 hlead
    exact ⟨lead, hname.symm⟩

theorem keepsFirst_className (leads : List Text) {native : Text}
    (h : ∀ c ∈ native, isIdentChar c = true) :
    KeepsFirst (withoutUnderscores (withoutLead leads native)) (className leads native) := by
  have hrest : ∀ c ∈ withoutLead leads native, isIdentChar c = true := fun c hc ↦
    h c ((withoutLead_suffix leads native).subset hc)
  simp only [className]
  split
  · exact keepsFirst_flatMap_titleCase hrest
  · rename_i hparts
    have hwhole : withoutUnderscores (withoutLead leads native) = withoutLead leads native :=
      withoutUnderscores_of_notMem hparts
    rw [hwhole]
    split
    · exact .upperFirst hrest
    · exact .refl hrest

/-! ## Names of methods and constants -/

namespace TypeTable

variable {table : TypeTable} {cls f rest : Text}

theorem Leaves.suffix (h : table.Leaves cls f rest) : rest <:+ f := by
  cases h with
  | ofClass _ hname | ofLibrary _ hname => exact ⟨_, hname.1.symm⟩
  | whole => exact List.suffix_rfl

theorem Leaves.ne_nil (h : table.Leaves cls f rest) (hf : f ≠ []) : rest ≠ [] := by
  cases h with
  | ofClass _ hname | ofLibrary _ hname => exact hname.2
  | whole => exact hf

theorem keepsFirst_methodName (h : table.Leaves cls f rest) (hf : ∀ c ∈ f, isIdentChar c = true) :
    KeepsFirst rest (table.methodName cls f) := by
  rw [methodName_of_leaves h]
  exact .lowerFirst fun c hc ↦ hf c (h.suffix.subset hc)

end TypeTable

/-- A constant is named by an identifier. -/
theorem isIdentifier_constantName {t : Text} (hne : t ≠ []) (h : ∀ c ∈ t, isIdentChar c = true) :
    isIdentifier (Sources.constantName t) = true := by
  rw [Sources.constantName]
  split
  · rw [isIdentifier_iff (List.forall_mem_cons.2 ⟨rfl, h⟩)]
    rfl
  · rename_i hdigit
    obtain ⟨c, t, rfl⟩ := List.exists_cons_of_ne_nil hne
    rw [isIdentifier_iff h]
    simpa using hdigit

theorem HasEnding.suffix {name ending : Text} (h : HasEnding name ending) :
    ending <:+ name := by
  cases h with
  | whole | both => exact List.suffix_rfl
  | @last front _ => exact ⟨front ++ ['_'], by simp⟩
  | @lastTwo front _ _ => exact ⟨front ++ ['_'], by simp⟩

theorem HasEnding.ne_nil {native ending : Text} (h : HasEnding native ending) (hne : native ≠ []) :
    ending ≠ [] := by
  cases h with
  | whole => exact hne
  | last _ hlong => exact List.ne_nil_of_length_pos (by omega)
  | both | lastTwo => exact List.append_ne_nil_of_right_ne_nil _ (List.cons_ne_nil _ _)

theorem isIdentifier_enumeratorName {native : Text} (h : isIdentifier native = true) :
    isIdentifier (enumeratorName native) = true := by
  obtain ⟨ending, hending⟩ := exists_hasEnding native
  rw [enumeratorName_of_hasEnding hending]
  exact isIdentifier_constantName (hending.ne_nil (ne_nil_of_isIdentifier h)) fun c hc ↦
    isIdentChar_of_mem h c (hending.suffix.subset hc)

namespace Sources

/-- A constant of the header that goes on behind the lead of a group is in that group. -/
theorem mem_constantsOf {s : Sources} {lead rest value : Text} (hne : rest ≠ [])
    (h : s.declarations.constants[lead ++ rest]? = some value) :
    (constantName rest, value) ∈ s.constantsOf lead := by
  have hrest : ((lead ++ rest).afterLead? lead).filter (!·.isEmpty) = some rest :=
    filter_afterLead?_eq_some_iff.2 ⟨rfl, hne⟩
  refine List.mem_filterMap.2 ⟨(lead ++ rest, value), ?_, ?_⟩
  · exact Std.TreeMap.mem_toList_iff_getElem?_eq_some.2 h
  · simp only [hrest, Option.map_some]

theorem constants_mem_constantGroups {s : Sources} {group : Text}
    (hgroup : group ∈ s.conventions.constantGroups) {entry : Text × Text}
    (h : entry ∈ s.constantsOf (s.conventions.constantLead ++ group ++ "_")) :
    .constants (groupClass group) (s.conventions.constantLead ++ group ++ "_")
      (s.constantsOf (s.conventions.constantLead ++ group ++ "_")) ∈ s.constantGroups := by
  refine List.mem_filterMap.2 ⟨group, hgroup, ?_⟩
  simp only
  rw [if_neg (by simpa using List.ne_nil_of_mem h)]

end Sources

/-! ## All derived names -/

/-- **When the names derived from an identifier are identifiers.**  That of a constant of an
enumeration always is, and so is that of a constant of a group.  That of a class is, unless the
name without its lead has nothing but underscores in front of a digit or of its end.  That of a
method is, unless what is left of the name of its function begins with a digit.  All of them are
made of the characters of identifiers, and only a class can be without a name. -/
theorem isIdentifier_derivedNames {native : Text} (h : isIdentifier native = true) :
    (∀ value, isIdentifier (Enumerator.ofNative native value).name = true) ∧
    (∀ leads, (∀ c ∈ className leads native, isIdentChar c = true) ∧
      (isIdentifier (className leads native) = true ↔
        ∃ c ∈ (withoutUnderscores (withoutLead leads native)).head?, c.isDigit = false)) ∧
    (∀ (table : TypeTable) (cls rest : Text), table.Leaves cls native rest →
      table.methodName cls native ≠ [] ∧
      (∀ c ∈ table.methodName cls native, isIdentChar c = true) ∧
      (isIdentifier (table.methodName cls native) = true ↔
        ∃ c ∈ rest.head?, c.isDigit = false)) ∧
    ∀ (s : Sources) (group rest value : Text), group ∈ s.conventions.constantGroups → rest ≠ [] →
      native = s.conventions.constantLead ++ group ++ "_" ++ rest →
      s.declarations.constants[native]? = some value →
      isIdentifier (Sources.constantName rest) = true ∧
      ∃ values, (Sources.constantName rest, value) ∈ values ∧
        .constants (Sources.groupClass group) (s.conventions.constantLead ++ group ++ "_") values ∈
          s.constantGroups := by
  have hchars := isIdentChar_of_mem h
  refine ⟨fun value ↦ isIdentifier_enumeratorName h, fun leads ↦ ?_, fun table cls rest hrest ↦ ?_,
    fun s group rest value hgroup hne hnative hvalue ↦ ⟨?_, ?_⟩⟩
  · have hname := keepsFirst_className leads hchars
    exact ⟨hname.chars, hname.isIdentifier_iff⟩
  · have hname := TypeTable.keepsFirst_methodName hrest hchars
    have hleft := hrest.ne_nil (ne_nil_of_isIdentifier h)
    refine ⟨fun hnil ↦ hleft ?_, hname.chars, hname.isIdentifier_iff⟩
    have hfirst := hname.first
    rw [hnil] at hfirst
    simpa using hfirst.symm
  · have hsuffix : List.IsSuffix rest native := ⟨_, hnative.symm⟩
    exact isIdentifier_constantName hne fun c hc ↦ hchars c (hsuffix.subset hc)
  · have hmem := Sources.mem_constantsOf hne (hnative ▸ hvalue)
    exact ⟨_, hmem, Sources.constants_mem_constantGroups hgroup hmem⟩

/-- A library with one constant, whose name goes on with a digit. -/
def depthLibrary : Sources :=
  let declarations := (Declarations.ofHeaders {} []
    [("a.h", "#define XN_PROP_3D 12\n")]).1
  { conventions := {}, declarations, types := .build {} ∅ declarations, overrides := ∅ }

/-- What is read for the library. -/
theorem conventions_depthLibrary : depthLibrary.conventions.constantGroups.contains "PROP" = true ∧
    depthLibrary.conventions.constantLead ++ "PROP" ++ "_" = "XN_PROP_" ∧
    depthLibrary.declarations.constants[("XN_PROP_3D" : Text)]? = some ("12" : Text) ∧
    depthLibrary.types.methodLeads[("Depth" : Text)]? = none ∧
    depthLibrary.types.functionLead = "xn" := by
  decide +kernel

theorem isIdentifier_depthLibrary :
    (Enumerator.ofNative "XN_PROP_3D" 0).name = ("_3D" : Text) ∧
    isIdentifier (Enumerator.ofNative "XN_PROP_3D" 0).name = true ∧
    className ["Xn", "XN"] "XN_PROP_3D" = "Prop3d" ∧
    isIdentifier (className ["Xn", "XN"] "XN_PROP_3D") = true ∧
    isIdentifier (depthLibrary.types.methodName "Depth" "XN_PROP_3D") = true ∧
    ∃ values, (("_3D" : Text), ("12" : Text)) ∈ values ∧
      .constants "Prop" "XN_PROP_" values ∈ depthLibrary.constantGroups := by
  obtain ⟨hprop, hlead, hvalue, hmethods, hlibrary⟩ := conventions_depthLibrary
  have hnative : isIdentifier "XN_PROP_3D" = true := by decide
  obtain ⟨hmember, hclass, hmethod, hgroup⟩ := isIdentifier_derivedNames hnative
  have hleaves : depthLibrary.types.Leaves "Depth" "XN_PROP_3D" "XN_PROP_3D" :=
    .whole (fun lead hlead ↦ absurd (hmethods ▸ hlead) (by simp)) fun rest hname ↦ by
      rw [hlibrary] at hname
      exact absurd (congrArg List.head? hname.1) (by simp)
  obtain ⟨-, values, hvalues, hnode⟩ := hgroup depthLibrary "PROP" "3D" "12"
    (List.contains_iff_mem.1 hprop) (by decide) (by rw [hlead]; decide) hvalue
  rw [hlead, show Sources.groupClass "PROP" = "Prop" by decide] at hnode
  exact ⟨by decide, hmember 0, by decide, (hclass _).2.2 ⟨'P', by decide, rfl⟩,
    (hmethod _ _ _ hleaves).2.2.2 ⟨'X', rfl, rfl⟩, values, hvalues, hnode⟩

/-- **Names of classes and methods can begin with a digit**, and a class can be without a name. -/
theorem not_isIdentifier_derivedNames :
    (∀ native ∈ ([("XN_3D" : Text), ("_" : Text)] : List Text), isIdentifier native = true ∧
      isIdentifier (className ({} : Conventions).typeLeads native) = false) ∧
    className ({} : Conventions).typeLeads "XN_3D" = "3d" ∧
    className ({} : Conventions).typeLeads "_" = [] ∧
    isIdentifier "xn2D" = true ∧
    (TypeTable.build {} ∅ {}).methodName "Context" "xn2D" = "2D" ∧
    isIdentifier ((TypeTable.build {} ∅ {}).methodName "Context" "xn2D") = false := by
  decide +kernel

end HeaderBindings
