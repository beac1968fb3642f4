import HeaderBindings.Declarations.Collect

/-!
# What reading headers reports

Headers are read before there is a table of types, so nothing that is wrong with a declaration is
about a type without a descriptor.  That tells the two kinds of diagnostics of a run apart: the
ones from reading come first, and the ones about types come after all of them.
-/

set_option autoImplicit false

namespace HeaderBindings

/-- None of the diagnostics is about a type without a descriptor. -/
def Diagnostic.NoTypes (ds : List Diagnostic) : Prop := ∀ wrong ∈ ds, wrong.unresolvedType? = none

theorem Diagnostic.NoTypes.append {ds ds' : List Diagnostic} (h : NoTypes ds) (h' : NoTypes ds') :
    NoTypes (ds ++ ds') := by
  intro wrong hwrong
  exact (List.mem_append.1 hwrong).elim (h wrong) (h' wrong)

theorem Diagnostic.noTypes_flatMap {α : Type} {found : List α} {f : α → List Diagnostic}
    (h : ∀ a ∈ found, NoTypes (f a)) : NoTypes (found.flatMap f) := by
  intro wrong hwrong
  obtain ⟨a, ha, hfa⟩ := List.mem_flatMap.1 hwrong
  exact h a ha wrong hfa

open Diagnostic

variable {conventions : Conventions}

/-! ## Parameters and fields -/

theorem noTypes_readParameter (declaration location piece : Text) {wrong : Diagnostic}
    (h : (readParameter conventions declaration location piece).2 = some wrong) :
    wrong.unresolvedType? = none := by
  rw [readParameter] at h
  split at h
  · exact absurd h (by simp)
  · exact absurd h (by simp)
  · obtain rfl := Option.some_inj.1 h
    rfl

theorem noTypes_readParameters (declaration location t : Text) :
    NoTypes (readParameters conventions declaration location t).2 := by
  have hrefused : NoTypes (((splitTopLevel ',' t).map
      (readParameter conventions declaration location)).filterMap (·.2)) := by
    intro wrong hwrong
    obtain ⟨entry, hentry, hsecond⟩ := List.mem_filterMap.1 hwrong
    obtain ⟨piece, -, rfl⟩ := List.mem_map.1 hentry
    exact noTypes_readParameter declaration location piece hsecond
  rw [readParameters]
  split
  · refine hrefused.append fun wrong hwrong ↦ ?_
    obtain rfl := List.mem_singleton.1 hwrong
    rfl
  · exact hrefused

theorem noTypes_readField (struct location entry : Text) {wrong : Diagnostic}
    (h : (readField conventions struct location entry).2 = some wrong) :
    wrong.unresolvedType? = none := by
  simp only [readField] at h
  split at h
  · exact absurd h (by simp)
  · split at h
    · split at h
      · obtain rfl := Option.some_inj.1 h
        rfl
      · exact absurd h (by simp)
    · exact absurd h (by simp)
    · obtain rfl := Option.some_inj.1 h
      rfl

/-! ## Functions, structs and callbacks -/

theorem noTypes_functionOfBlock (file : Text) (b : Block) :
    NoTypes (functionOfBlock conventions file b).2 := by
  have hheadless (type location : Text) :
      NoTypes [.unnamed type "function declaration" location] := by
    intro wrong hwrong
    obtain rfl := List.mem_singleton.1 hwrong
    rfl
  simp only [functionOfBlock]
  split
  · rename_i name type _
    have hparams := @noTypes_readParameters conventions name
      (Location.display ⟨file, b.line⟩) ((b.parts[1]?).getD [])
    split
    · exact hheadless _ _
    · split
      · exact fun wrong hwrong ↦ absurd hwrong List.not_mem_nil
      · split
        · rename_i hread
          rwa [hread] at hparams
        · rename_i hread
          rwa [hread] at hparams
  · exact hheadless _ _

theorem noTypes_callbackOfBlock (file : Text) (b : Block) :
    NoTypes (callbackOfBlock conventions file b).2 := by
  have hparams := @noTypes_readParameters conventions ((b.parts[1]?).getD [])
    (Location.display ⟨file, b.line⟩) ((b.parts[2]?).getD [])
  simp only [callbackOfBlock]
  split
  · rename_i hread
    rwa [hread] at hparams
  · rename_i hread
    rwa [hread] at hparams

theorem noTypes_structOfBlock (file : Text) (b : Block) :
    NoTypes (structOfBlock conventions file b).2 := by
  intro wrong hwrong
  obtain ⟨field, hfield, hsecond⟩ := List.mem_filterMap.1 hwrong
  obtain ⟨entry, -, rfl⟩ := List.mem_map.1 hfield
  exact noTypes_readField _ _ entry hsecond

/-! ## Headers -/

theorem noTypes_addHeader (d : Declarations) (file t : Text) :
    NoTypes (d.addHeader conventions file t).2 := by
  refine (NoTypes.append (noTypes_flatMap fun fate hfate ↦ ?_)
    (noTypes_flatMap fun found hfound ↦ ?_)).append (noTypes_flatMap fun found hfound ↦ ?_)
  · obtain ⟨b, -, rfl⟩ := List.mem_map.1 hfate
    exact noTypes_functionOfBlock file b
  · obtain ⟨b, -, rfl⟩ := List.mem_map.1 hfound
    exact noTypes_structOfBlock file b
  · obtain ⟨b, -, rfl⟩ := List.mem_map.1 hfound
    exact noTypes_callbackOfBlock file b

theorem noTypes_addHeaders (headers : List (Text × Text)) : ∀ d : Declarations,
    NoTypes (d.addHeaders conventions headers).2 := by
  induction headers with
  | nil => exact fun d wrong hwrong ↦ absurd hwrong List.not_mem_nil
  | cons header rest ih => exact fun d ↦ (noTypes_addHeader d _ _).append (ih _)

/-- **Reading headers reports no type without a descriptor.** -/
theorem noTypes_ofHeaders (conventions : Conventions) (version : Text)
    (headers : List (Text × Text)) :
    NoTypes (Declarations.ofHeaders conventions version headers).2 :=
  noTypes_addHeaders headers _

end HeaderBindings
