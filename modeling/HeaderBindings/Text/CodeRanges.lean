/-!
# Sets of code points

Two ways of writing a set of characters down: closed ranges, in groups so that a character is found
without looking at all of them, and arithmetic progressions for properties that hold of every other
code point.
-/

set_option autoImplicit false

namespace HeaderBindings

/-- A set of code points, given as disjoint closed ranges in order.  They come in groups, each with
the last code point of its last range. -/
abbrev CodeRanges := List (Nat × List (Nat × Nat))

/-- The character lies in one of the ranges.  As these are in order, only the first group that does
not end before the character can hold it. -/
def CodeRanges.contains (groups : CodeRanges) (c : Char) : Bool :=
  match groups.find? fun group ↦ c.toNat ≤ group.1 with
  | some (_, ranges) => ranges.any fun range ↦ range.1 ≤ c.toNat && c.toNat ≤ range.2
  | none => false

/-- The code points `first`, `first + step`, … up to `last`. -/
structure Progression where
  first : Nat
  last : Nat
  step : Nat

/-- The character is a member of the progression. -/
def Progression.contains (p : Progression) (c : Char) : Bool :=
  p.first ≤ c.toNat && c.toNat ≤ p.last && (c.toNat - p.first) % p.step == 0

end HeaderBindings
