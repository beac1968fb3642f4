import HeaderBindings.Text.Basic

/-!
# Signed integers in text

The values of enumeration members are 64-bit signed integers.  Reading one accepts a sign and
digits and nothing else, and refuses a value that does not fit.
-/

set_option autoImplicit false

namespace HeaderBindings

/-- The largest 64-bit signed integer. -/
def maxInt64 : Int := Int.pow 2 63 - 1

/-- The smallest 64-bit signed integer. -/
def minInt64 : Int := -Int.pow 2 63

/-- The value of a digit in any base up to sixteen. -/
def digitValue? (c : Char) : Option Nat :=
  if c.isDigit then some (c.toNat - '0'.toNat)
  else if 'a' ≤ c ∧ c ≤ 'f' then some (c.toNat - 'a'.toNat + 10)
  else if 'A' ≤ c ∧ c ≤ 'F' then some (c.toNat - 'A'.toNat + 10)
  else none

/-- The number that the digits continue, when `n` is what the digits before them say. -/
def digitsFrom? (base : Nat) : Nat → Text → Option Nat
  | n, [] => some n
  | n, c :: t =>
    match digitValue? c with
    | some d => if d < base then digitsFrom? base (n * base + d) t else none
    | none => none

/-- The number written with at least one digit of the given base. -/
def natural? (base : Nat) (t : Text) : Option Nat :=
  if t.isEmpty then none else digitsFrom? base 0 t

/-- The 64-bit signed integer written with an optional sign and digits of the given base. -/
def int64? (base : Nat) (t : Text) : Option Int :=
  let value? : Option Int := match t with
    | '-' :: digits => (natural? base digits).map fun n ↦ -(n : Int)
    | '+' :: digits => (natural? base digits).map fun n ↦ (n : Int)
    | digits => (natural? base digits).map fun n ↦ (n : Int)
  value?.filter fun v ↦ minInt64 ≤ v ∧ v ≤ maxInt64

end HeaderBindings
