import HeaderBindings.Proofs.Types.Inheritance

/-!
# Growing configurations

An entry for a type gives that type a descriptor, and it ought to leave every other type one that
has one.  For most types it does: what is followed to a descriptor is followed to one still, perhaps
to another one and sooner, because a way ends at the first type with a given descriptor.

The exception is a pointer to a type name.  It gets its descriptor when the type name is settled,
and a type name with an entry of its own is not settled.  So an entry for the type name takes the
descriptor away from the pointer, and from everything that is followed to the pointer.

* `CutOff given given' aliases t`: the way from the type comes to such a pointer.
* `FollowsTo.or_cutOff`: with more given descriptors a type is still followed to one, or is cut off.
* `Rules.look_eq_none_iff`: of the types with a descriptor, those that are cut off lose it, and no
  others.  An entry for the pointer as well is all that it takes to keep them.
-/

set_option autoImplicit false

namespace HeaderBindings

namespace Descriptors

open Relation

/-- The way from a type comes to the pointer to a type name that has got a descriptor of its own,
while the pointer has none. -/
def CutOff (given given' : Text → Option Text) (aliases : Table) (t : Text) : Prop :=
  ∃ a, ReflTransGen (Leads given' aliases) t (a ++ ['*']) ∧ given' (a ++ ['*']) = none ∧
    a ∈ aliases ∧ given a = none ∧ given' a ≠ none

variable {given given' look look' : Text → Option Text} {aliases : Table} {structs : List Text}
  {t u e : Text}

theorem CutOff.of_leads (hstep : Leads given' aliases t u) (h : CutOff given given' aliases u) :
    CutOff given given' aliases t := by
  obtain ⟨a, hway, hrest⟩ := h
  exact ⟨a, .head hstep hway, hrest⟩

/-- With more given descriptors a type is still followed to one, or is cut off. -/
theorem FollowsTo.or_cutOff (hmore : ∀ t, given' t = none → given t = none)
    (h : FollowsTo given aliases t e) :
    (∃ e', FollowsTo given' aliases t e') ∨ CutOff given given' aliases t := by
  induction h with
  | @given t e ht =>
    refine Or.inl ((Option.ne_none_iff_exists'.1 fun hnone ↦ ?_).imp fun _ ↦ .given)
    exact absurd (ht.symm.trans (hmore t hnone)) (by simp)
  | @original t o e ht ho h ih =>
    cases ht' : given' t with
    | some e' => exact Or.inl ⟨e', .given ht'⟩
    | none =>
      have hstep : Leads given' aliases t o := next?_of_alias ht' ho
      exact ih.imp (fun ⟨e', he'⟩ ↦ ⟨e', .original ht' ho he'⟩) (·.of_leads hstep)
  | @pointee a e ht hname ha hgiven h ih =>
    cases ht' : given' (a ++ ['*']) with
    | some e' => exact Or.inl ⟨e', .given ht'⟩
    | none =>
      by_cases hgiven' : given' a = none
      · have hstep : Leads given' aliases (a ++ ['*']) a := next?_of_pointer ht' hname ha hgiven'
        exact ih.imp (fun ⟨e', he'⟩ ↦ ⟨pointerTo e', .pointee ht' hname ha hgiven' he'⟩)
          (·.of_leads hstep)
      · exact Or.inr ⟨a, .refl, ht', ha, hgiven, hgiven'⟩

/-- What is cut off is not followed to a descriptor. -/
theorem CutOff.not_followsTo (hplain : ∀ t : Text, t ++ ['*'] ∉ aliases)
    (h : CutOff given given' aliases t) : ¬FollowsTo given' aliases t e := by
  obtain ⟨a, hway, hnone, -, -, hgiven'⟩ := h
  have hnext : next? given' aliases (a ++ ['*']) = none := by
    refine Option.eq_none_iff_forall_ne_some.2 fun u hu ↦ ?_
    rcases (next?_eq_some hu).2 with ho | ⟨-, hau, -, hu'⟩
    · exact hplain a (mem_of_getElem?_eq_some ho)
    · obtain rfl := List.append_cancel_right hau
      exact hgiven' hu'
  exact fun hfollows ↦ hfollows.not_fails (Or.inl ⟨_, hway, hnone, hnext⟩)

/-- A pointer to a struct is not cut off. -/
theorem ComesLate.not_cutOff (hplain : ∀ t : Text, t ++ ['*'] ∉ aliases)
    (hstructs : ∀ s ∈ structs, ∃ e, given s = some e)
    (hstructs' : ∀ s ∈ structs, ∃ e, given' s = some e) (ht : ComesLate given' structs t) :
    ¬CutOff given given' aliases t := by
  rintro ⟨a, hway, -, -, hgiven, -⟩
  have hnext := ht.next?_eq_none hplain hstructs'
  obtain ⟨-, s, hs, rfl⟩ := ht
  rcases hway.cases_head with heq | ⟨u, hu, -⟩
  · obtain rfl := List.append_cancel_right heq
    obtain ⟨e, he⟩ := hstructs s hs
    exact absurd (he.symm.trans hgiven) (by simp)
  · exact absurd (hu.symm.trans hnext) (by simp)

/-- **Of the types with a descriptor exactly those that are cut off lose it** with more given
descriptors. -/
theorem Rules.look_eq_none_iff (h : Rules given aliases structs look)
    (h' : Rules given' aliases structs look') (hplain : ∀ t : Text, t ++ ['*'] ∉ aliases)
    (hstructs : ∀ s ∈ structs, ∃ e, given s = some e)
    (hmore : ∀ t, given' t = none → given t = none) (hlook : look t = some e) :
    look' t = none ↔ CutOff given given' aliases t := by
  have hstructs' : ∀ s ∈ structs, ∃ e, given' s = some e := by
    intro s hs
    obtain ⟨e, he⟩ := hstructs s hs
    refine Option.ne_none_iff_exists'.1 fun hnone ↦ ?_
    exact absurd (he.symm.trans (hmore s hnone)) (by simp)
  constructor
  · intro hnone
    rcases h.followsTo_or_comesLate hlook with hfollows | ⟨-, s, hs, rfl⟩
    · refine (hfollows.or_cutOff hmore).resolve_left fun ⟨e', he'⟩ ↦ ?_
      exact absurd ((h'.of_followsTo he').symm.trans hnone) (by simp)
    · obtain ⟨e', he'⟩ := hstructs' s hs
      have hgiven : given' (s ++ ['*']) = none := by
        refine Option.eq_none_iff_forall_ne_some.2 fun e'' he'' ↦ ?_
        exact absurd ((h'.ofGiven he'').symm.trans hnone) (by simp)
      have hpointer := h'.ofStructPointer hgiven (hplain s) hs (h'.ofGiven he')
      exact absurd (hpointer.symm.trans hnone) (by simp)
  · intro hcut
    refine Option.eq_none_iff_forall_ne_some.2 fun e' he' ↦ ?_
    rcases h'.followsTo_or_comesLate he' with hfollows | hlate
    · exact hcut.not_followsTo hplain hfollows
    · exact hlate.not_cutOff hplain hstructs hstructs' hcut

/-- More configured types give descriptors to more types. -/
theorem given?_eq_none_of_subset {conventions : Conventions} {configured configured' : Table}
    {d : Declarations} (hsubset : ∀ t e : Text, configured[t]? = some e → configured'[t]? = some e)
    (h : given? conventions configured' d t = none) : given? conventions configured d t = none := by
  rw [given?, Option.or_eq_none_iff] at h ⊢
  refine ⟨Option.eq_none_iff_forall_ne_some.2 fun e he ↦ ?_, h.2⟩
  exact absurd ((hsubset t e he).symm.trans h.1) (by simp)

end Descriptors

namespace TypeTable

open Descriptors

/-- **More configured types**, for all declarations that headers can make.  A type that has a
descriptor has one with more configured types too, unless it is cut off. -/
theorem resolve?_of_subset (conventions : Conventions) :
    (∀ version headers, (Declarations.ofHeaders conventions version headers).1.PlainAliases) ∧
    ∀ (d : Declarations) (configured configured' : Table), d.PlainAliases →
      (∀ t e : Text, configured[t]? = some e → configured'[t]? = some e) →
      ∀ t e, (build conventions configured d).resolve? t = some e →
        ((∃ e', (build conventions configured' d).resolve? t = some e') ↔
          ¬CutOff (given? conventions configured d) (given? conventions configured' d)
            d.aliases t) := by
  refine ⟨Declarations.plainAliases_ofHeaders conventions,
    fun d configured configured' hplain hsubset t e hlook ↦ ?_⟩
  rw [← Option.ne_none_iff_exists']
  exact not_congr ((rules_build hplain).look_eq_none_iff (rules_build hplain) hplain
    (fun _ hs ↦ exists_given?_of_mem_structs hs) (fun _ ↦ given?_eq_none_of_subset hsubset) hlook)

/-- A header with a type name, another one for it, and a function with both. -/
def countNames : Text :=
  "typedef unsigned int XnCount;\ntypedef XnCount XnLimit;\n" ++
  "XN_C_API int f(XnCount* p, XnLimit n);\n"

/-- What it declares. -/
def countDeclarations : Declarations := (Declarations.ofHeaders {} [] [("a.h", countNames)]).1

/-- A configuration without the type names of the header. -/
def depthTypes : Table := (∅ : Table).insert "XnDepth" "ctypes.c_ushort"

/-- A configuration with one of them. -/
def countTypes : Table := depthTypes.insert "XnCount" "ctypes.c_uint32"

theorem subset_countTypes (t e : Text) (h : depthTypes[t]? = some e) :
    countTypes[t]? = some e := by
  rw [countTypes, Std.TreeMap.getElem?_insert, if_neg, h]
  rw [Std.compare_eq_iff_eq]
  rintro rfl
  exact absurd (h.symm.trans (by decide +kernel : _ = none)) (by simp)

theorem resolve?_countDeclarations :
    (build {} depthTypes countDeclarations).resolve? "XnLimit" = some ("ctypes.c_uint" : Text) ∧
    (build {} countTypes countDeclarations).resolve? "XnLimit" =
      some ("ctypes.c_uint32" : Text) ∧
    (build {} depthTypes countDeclarations).resolve? "XnCount*" =
      some ("ctypes.POINTER(ctypes.c_uint)" : Text) ∧
    (build {} countTypes countDeclarations).resolve? "XnCount*" = none := by
  decide +kernel

theorem resolve?_of_subset_limit :
    (build {} depthTypes countDeclarations).resolve? "XnLimit" = some ("ctypes.c_uint" : Text) ∧
    (build {} countTypes countDeclarations).resolve? "XnLimit" =
      some ("ctypes.c_uint32" : Text) ∧
    ¬CutOff (given? {} depthTypes countDeclarations) (given? {} countTypes countDeclarations)
      countDeclarations.aliases "XnLimit" := by
  obtain ⟨hplain, hmore⟩ := resolve?_of_subset {}
  obtain ⟨hbefore, hafter, -, -⟩ := resolve?_countDeclarations
  exact ⟨hbefore, hafter, (hmore countDeclarations depthTypes countTypes (hplain _ _)
    subset_countTypes _ _ hbefore).1 ⟨_, hafter⟩⟩

/-- An entry for a type name takes the descriptor away from the pointer to it. -/
theorem resolve?_countPtr_lost :
    (∀ t e : Text, depthTypes[t]? = some e → countTypes[t]? = some e) ∧
    (build {} depthTypes countDeclarations).resolve? "XnCount*" =
      some ("ctypes.POINTER(ctypes.c_uint)" : Text) ∧
    (build {} countTypes countDeclarations).resolve? "XnCount*" = none := by
  obtain ⟨-, -, hbefore, hafter⟩ := resolve?_countDeclarations
  exact ⟨subset_countTypes, hbefore, hafter⟩

end TypeTable

end HeaderBindings
