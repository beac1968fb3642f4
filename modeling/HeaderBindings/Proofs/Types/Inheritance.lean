import HeaderBindings.Proofs.Types.Derivation

/-!
# What type names inherit

A type name has the descriptor of the type that it stands for, unless it has one of its own.  That
is so for everything the type names are followed to: given descriptors, other type names and
pointers to type names.

It is not so for the pointers to structs.  They come into the table after the last visit to a type
name, so a type name for such a pointer finds nothing there, and is left without a descriptor.
With a struct `Node` and a type name `NodePtr` for `Node*`, the table has `Node*` in the end but not
`NodePtr`.

* `ComesLate given structs t`: the type is a pointer to a struct and has no given descriptor.
* `Rules.look_alias`: a type name for a type with a descriptor inherits it, or has its own, exactly
  if that type does not come late.
-/

set_option autoImplicit false

namespace HeaderBindings

namespace Descriptors

/-- The type gets its descriptor after all type names have been visited. -/
def ComesLate (given : Text → Option Text) (structs : List Text) (t : Text) : Prop :=
  given t = none ∧ ∃ s ∈ structs, t = s ++ ['*']

instance (given : Text → Option Text) (structs : List Text) (t : Text) :
    Decidable (ComesLate given structs t) :=
  inferInstanceAs (Decidable (_ ∧ _))

variable {given look : Text → Option Text} {aliases : Table} {structs : List Text} {a o e : Text}

/-- What comes late cannot be followed, since a struct has a given descriptor. -/
theorem ComesLate.next?_eq_none (hplain : ∀ t : Text, t ++ ['*'] ∉ aliases)
    (hstructs : ∀ s ∈ structs, ∃ e, given s = some e) (h : ComesLate given structs o) :
    next? given aliases o = none := by
  obtain ⟨-, s, hs, rfl⟩ := h
  obtain ⟨e, he⟩ := hstructs s hs
  refine Option.eq_none_iff_forall_ne_some.2 fun u hu ↦ ?_
  rcases (next?_eq_some hu).2 with ho | ⟨-, hsu, -, hnone⟩
  · exact hplain s (mem_of_getElem?_eq_some ho)
  · obtain rfl := List.append_cancel_right hsu
    exact absurd (he.symm.trans hnone) (by simp)

/-- A type with a descriptor is followed to it, or comes late. -/
theorem Rules.followsTo_or_comesLate (h : Rules given aliases structs look)
    (hlook : look o = some e) : FollowsTo given aliases o e ∨ ComesLate given structs o := by
  rcases h.cases hlook with ho | ⟨ho, ⟨-, hfollows⟩ | ⟨hname, b, e', rfl, hkind, hb, rfl⟩⟩
  · exact Or.inl (.given ho)
  · exact Or.inl hfollows
  · rcases hkind with ⟨hgiven, hmem⟩ | hs
    · exact Or.inl (.pointee ho hname hmem hgiven ((h.ofName hgiven hmem).1 hb))
    · exact Or.inr ⟨ho, b, hs, rfl⟩

/-- **A type name inherits the descriptor** of the type that it stands for, unless it has its own or
that type comes late. -/
theorem Rules.look_alias (h : Rules given aliases structs look)
    (hplain : ∀ t : Text, t ++ ['*'] ∉ aliases) (hstructs : ∀ s ∈ structs, ∃ e, given s = some e)
    (ho : aliases[a]? = some o) (hlook : look o = some e) :
    look a = if ComesLate given structs o then given a else (given a).or (some e) := by
  have ha : a ∈ aliases := mem_of_getElem?_eq_some ho
  cases hgiven : given a with
  | some e' => rw [h.ofGiven hgiven, Option.some_or, ite_self]
  | none =>
    rw [Option.none_or]
    split
    · rename_i hlate
      have hleads : Leads given aliases a o := next?_of_alias hgiven ho
      refine (h.ofFailingName hgiven ha).2 (Or.inl ⟨o, .single hleads, hlate.1, ?_⟩)
      exact hlate.next?_eq_none hplain hstructs
    · rename_i hlate
      have hfollows := (h.followsTo_or_comesLate hlook).resolve_right hlate
      exact (h.ofName hgiven ha).2 (.original hgiven ho hfollows)

end Descriptors

namespace TypeTable

open Descriptors

/-- **What a type name inherits**, for all declarations that headers can make.  If the type that it
stands for has a descriptor, the type name has its own one or else the same, but for the pointers to
structs that come late: with those it is left with its own one, or with none. -/
theorem resolve?_alias (conventions : Conventions) (configured : Table) :
    (∀ version headers, (Declarations.ofHeaders conventions version headers).1.PlainAliases) ∧
    ∀ d : Declarations, d.PlainAliases → ∀ a o e : Text, d.aliases[a]? = some o →
      (build conventions configured d).resolve? o = some e →
        (build conventions configured d).resolve? a =
          if ComesLate (given? conventions configured d) (d.structs.map (·.name)) o then
            given? conventions configured d a
          else (given? conventions configured d a).or (some e) :=
  ⟨Declarations.plainAliases_ofHeaders conventions, fun _ hplain _ _ _ ho hlook ↦
    (rules_build hplain).look_alias hplain (fun _ hs ↦ exists_given?_of_mem_structs hs) ho hlook⟩

/-- A header with a struct, and with type names for it, for pointers to it, and for a pointer to
such a type name. -/
def nodeNames : Text :=
  "struct XnNode\n\x7b\nint x;\n\x7d;\ntypedef struct XnNode* XnNodePtr;\n" ++
  "typedef XnNode XnItem;\ntypedef XnItem* XnItemPtr;\n"

/-- What it declares. -/
def nodeDeclarations : Declarations := (Declarations.ofHeaders {} [] [("a.h", nodeNames)]).1

theorem resolve?_nodeDeclarations :
    (nodeDeclarations.aliases["XnItemPtr".toList]? = some "XnItem*".toList ∧
      nodeDeclarations.aliases["XnNodePtr".toList]? = some "XnNode*".toList) ∧
    (build {} ∅ nodeDeclarations).resolve? "XnItem*" = some ("ctypes.POINTER(Node)" : Text) ∧
    (build {} ∅ nodeDeclarations).resolve? "XnNode*" = some ("ctypes.POINTER(Node)" : Text) ∧
    (build {} ∅ nodeDeclarations).resolve? "XnNodePtr" = none ∧
    (given? {} ∅ nodeDeclarations "XnItemPtr" = none ∧
      given? {} ∅ nodeDeclarations "XnNodePtr" = none) ∧
    ¬ComesLate (given? {} ∅ nodeDeclarations) (nodeDeclarations.structs.map (·.name))
      "XnItem*" := by
  decide +kernel

theorem resolve?_alias_itemPtr :
    nodeDeclarations.aliases["XnItemPtr".toList]? = some "XnItem*".toList ∧
    (build {} ∅ nodeDeclarations).resolve? "XnItem*" = some ("ctypes.POINTER(Node)" : Text) ∧
    (build {} ∅ nodeDeclarations).resolve? "XnItemPtr" = some ("ctypes.POINTER(Node)" : Text) := by
  obtain ⟨hplain, hinherits⟩ := resolve?_alias {} ∅
  obtain ⟨⟨halias, -⟩, hlook, -, -, ⟨hgiven, -⟩, hlate⟩ := resolve?_nodeDeclarations
  refine ⟨halias, hlook, ?_⟩
  rw [hinherits nodeDeclarations (hplain _ _) _ _ _ halias hlook, if_neg hlate, hgiven,
    Option.none_or]

/-- A type name for a pointer to a struct is left without a descriptor, though the pointer has
one. -/
theorem resolve?_nodePtr_eq_none :
    nodeDeclarations.aliases["XnNodePtr".toList]? = some "XnNode*".toList ∧
    given? {} ∅ nodeDeclarations "XnNodePtr" = none ∧
    (build {} ∅ nodeDeclarations).resolve? "XnNode*" = some ("ctypes.POINTER(Node)" : Text) ∧
    (build {} ∅ nodeDeclarations).resolve? "XnNodePtr" = none := by
  obtain ⟨⟨-, halias⟩, -, hpointer, hnone, ⟨-, hgiven⟩, -⟩ := resolve?_nodeDeclarations
  exact ⟨halias, hgiven, hpointer, hnone⟩

end TypeTable

end HeaderBindings
