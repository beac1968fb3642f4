import HeaderBindings.Declarations.Collect
import HeaderBindings.Proofs.Header.Segments
import HeaderBindings.Proofs.Text.Passes

/-!
# The names of types are words

A `typedef` gives its type a name that is a word, so no name of a type ends in a star.  That sets
type names apart from the pointers to them, which the table of types keeps in the same place:
`XnContext` may be declared by a header, `XnContext*` may not.

`Declarations.PlainAliases` says that a collection of declarations keeps to this, and
`plainAliases_ofHeaders` that every collection read from headers does.
-/

set_option autoImplicit false

namespace HeaderBindings

/-- The parts of a block are what its kind of declaration recognised. -/
theorem exists_parts?_of_mem_blocks {kind : BlockKind} {t : Text} {b : Block}
    (h : b ∈ blocks kind t) : ∃ code, kind.parts? code = some b.parts := by
  have hmem : b.found ∈ (blocks kind t).map Block.found := List.mem_map_of_mem h
  rw [blocks, Scanner.run_found] at hmem
  obtain ⟨s, -, hs⟩ := List.mem_filterMap.1 hmem
  obtain ⟨parts, hparts, heq⟩ := Option.map_eq_some_iff.1 hs
  exact ⟨_, hparts.trans (congrArg some (congrArg Prod.fst heq))⟩

/-- The name is the second group of the pattern, and stands on every way through it. -/
theorem aliasPattern_hasGroup : Pattern.HasGroup 2 .word₁ aliasPattern := by
  refine .left (.left (.right ?_ (.here ?_))) <;> decide

/-- Every name given by a header is a word. -/
theorem isWord_of_mem_aliases {t : Text} {entry : Text × Text} (h : entry ∈ aliases t) :
    entry.1.all isWordChar = true := by
  obtain ⟨b, hb, rfl⟩ := List.mem_map.1 h
  obtain ⟨code, hcode⟩ := exists_parts?_of_mem_blocks hb
  obtain ⟨g, hg, hparts⟩ := Option.map_eq_some_iff.1 hcode
  obtain ⟨a, ms, b', hpass, hreads⟩ := Pattern.get_of_search aliasPattern_hasGroup hg
  obtain ⟨name, -, hname, hreads'⟩ := hpass.some₁
  have hget : g.get 2 = name := hreads.textTo.symm.trans hreads'.textTo
  rw [← hparts]
  simpa [hget] using hname

namespace Declarations

/-- No name of a type ends in a star. -/
def PlainAliases (d : Declarations) : Prop := ∀ t : Text, t ++ ['*'] ∉ d.aliases

variable {conventions : Conventions}

/-- Of all that a header adds, only its type names are added to the type names. -/
theorem addHeader_aliases (d : Declarations) (file t : Text) :
    (d.addHeader conventions file t).1.aliases =
      d.aliases.insertMany (HeaderBindings.aliases t) := rfl

theorem isWord_of_mem_addHeaders {headers : List (Text × Text)} :
    ∀ {d : Declarations}, (∀ name ∈ d.aliases, name.all isWordChar = true) →
      ∀ name ∈ (d.addHeaders conventions headers).1.aliases, name.all isWordChar = true := by
  induction headers with
  | nil => intro d hd name hname; exact hd name hname
  | cons header rest ih =>
    intro d hd name hname
    refine ih (d := (d.addHeader conventions header.1 header.2).1) (fun name hname ↦ ?_) name hname
    rw [addHeader_aliases, Std.TreeMap.mem_insertMany_list] at hname
    rcases hname with hold | hnew
    · exact hd name hold
    · obtain ⟨entry, hentry, rfl⟩ := List.mem_map.1 (List.contains_iff_mem.1 hnew)
      exact isWord_of_mem_aliases hentry

/-- **What is read from headers has plain type names.** -/
theorem plainAliases_ofHeaders (conventions : Conventions) (version : Text)
    (headers : List (Text × Text)) : (ofHeaders conventions version headers).1.PlainAliases := by
  intro t ht
  have hword := @isWord_of_mem_addHeaders conventions headers { version }
    (fun name hname ↦ absurd hname Std.TreeMap.not_mem_emptyc) _ ht
  have hstar : isWordChar '*' = true := List.all_eq_true.1 hword '*' (by simp)
  exact absurd hstar (by decide)

end Declarations

end HeaderBindings
