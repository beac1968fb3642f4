import HeaderBindings.Text.Integer
import HeaderBindings.Proofs.Text.Words
import Mathlib.Data.Nat.Digits.Defs
import Mathlib.Tactic.SplitIfs

/-!
# Numbers as they are written

A `Numeral` is a sequence of digits as it stands in a text, perhaps with leading zeros, and each
letter among them a small or a capital one.  What it is worth is said by `Nat.ofDigits`, and
`int64?_signedText` says that just this is read from it, if it fits in 64 bits.
-/

set_option autoImplicit false

namespace HeaderBindings

/-- The character of a digit, which is a letter from ten on. -/
def digitChar (capital : Bool) (d : Nat) : Char :=
  if capital then (Nat.digitChar d).toUpper else Nat.digitChar d

theorem digitValue?_digitChar :
    ∀ d < 16, ∀ capital, digitValue? (digitChar capital d) = some d := by
  decide

theorem isIdentChar_digitChar : ∀ d < 16, ∀ capital, isIdentChar (digitChar capital d) = true := by
  decide

/-- A number as it is written in a base: its digits, each with the case of its letter. -/
structure Numeral (base : Nat) where
  digits : List (Fin base × Bool)
  ne_nil : digits ≠ []

namespace Numeral

variable {base : Nat}

def text (n : Numeral base) : Text := n.digits.map fun d ↦ digitChar d.2 d.1

/-- The number that is written. -/
def value (n : Numeral base) : Nat := Nat.ofDigits base (n.digits.map (·.1.1)).reverse

/-- The digits continue the number that they stand behind. -/
theorem digitsFrom?_eq (hbase : base ≤ 16) (ds : List (Fin base × Bool)) : ∀ k : Nat,
    digitsFrom? base k (ds.map fun d ↦ digitChar d.2 d.1) =
      some (Nat.ofDigits base (ds.map (·.1.1)).reverse + base ^ ds.length * k) := by
  induction ds with
  | nil => intro k; simp [digitsFrom?]
  | cons d ds ih =>
    intro k
    obtain ⟨⟨d, hd⟩, capital⟩ := d
    have hvalue := digitValue?_digitChar d (by omega) capital
    rw [List.map_cons, digitsFrom?]
    simp only [hvalue, if_pos hd]
    rw [ih, List.map_cons, List.reverse_cons, Nat.ofDigits_append, Nat.ofDigits_singleton,
      List.length_reverse, List.length_map, List.length_cons, pow_succ]
    congr 1
    ring

variable (n : Numeral base)

theorem isIdentChar_of_mem_text (hbase : base ≤ 16) : ∀ c ∈ n.text, isIdentChar c = true := by
  intro c hc
  obtain ⟨d, -, rfl⟩ := List.mem_map.1 hc
  exact isIdentChar_digitChar d.1 (by omega) d.2

theorem notMem_text (hbase : base ≤ 16) {c : Char} (hc : digitValue? c = none) : c ∉ n.text := by
  intro hmem
  obtain ⟨d, -, rfl⟩ := List.mem_map.1 hmem
  rw [digitValue?_digitChar d.1 (by omega)] at hc
  exact absurd hc (by simp)

theorem text_ne_nil : n.text ≠ [] := fun h ↦ n.ne_nil (List.map_eq_nil_iff.1 h)

theorem natural?_text (hbase : base ≤ 16) : natural? base n.text = some n.value := by
  have hne : n.text.isEmpty = false := by simpa using n.text_ne_nil
  have hdigits := digitsFrom?_eq hbase n.digits 0
  rw [Nat.mul_zero, Nat.add_zero] at hdigits
  rw [natural?, hne]
  exact hdigits

/-- The number with a minus in front, or without. -/
def signedText (minus : Bool) : Text := if minus then '-' :: n.text else n.text

theorem notMem_signedText (hbase : base ≤ 16) {c : Char} (hc : digitValue? c = none)
    (hsign : c ≠ '-') (minus : Bool) : c ∉ n.signedText minus := by
  cases minus with
  | true => simp [signedText, hsign, n.notMem_text hbase hc]
  | false => simp [signedText, n.notMem_text hbase hc]

/-- What the number is worth with a minus in front, or without. -/
def signedValue (minus : Bool) : Int := if minus then -(n.value : Int) else n.value

/-- **What is read from a number** is what it is worth. -/
theorem int64?_signedText (hbase : base ≤ 16) (minus : Bool)
    (hmin : minInt64 ≤ n.signedValue minus) (hmax : n.signedValue minus ≤ maxInt64) :
    int64? base (n.signedText minus) = some (n.signedValue minus) := by
  have hread := n.natural?_text hbase
  have hfits : (some (n.signedValue minus)).filter (fun v ↦ minInt64 ≤ v ∧ v ≤ maxInt64) =
      some (n.signedValue minus) := Option.filter_eq_some_iff.2 ⟨rfl, by simp [hmin, hmax]⟩
  cases minus with
  | true =>
    simp only [signedText, signedValue, if_true, int64?, hread] at hfits ⊢
    exact hfits
  | false =>
    have hsign {c : Char} (hc : isIdentChar c = false) (digits : Text) : n.text ≠ c :: digits := by
      intro h
      have hmem := n.isIdentChar_of_mem_text hbase c (by rw [h]; exact List.mem_cons_self)
      exact absurd (hmem.symm.trans hc) (by simp)
    simp only [signedText, signedValue, Bool.false_eq_true, if_false] at hfits ⊢
    rw [int64?, hread]
    · exact hfits
    · exact hsign (by decide)
    · exact hsign (by decide)

end Numeral

/-- What an identifier begins with is no decimal digit. -/
theorem le_of_digitValue? {c : Char} (hc : isIdentStart c = true) {d : Nat}
    (hd : digitValue? c = some d) : 10 ≤ d := by
  have hdigit : c.isDigit = false := by
    rw [← Bool.not_eq_true]
    intro hdigit
    rw [isDigit_iff] at hdigit
    rw [isIdentStart, Bool.or_eq_true, isAlpha_iff, beq_iff_eq] at hc
    rcases hc with hc | rfl
    · omega
    · exact absurd hdigit (by decide)
  rw [digitValue?, hdigit] at hd
  simp only [Bool.false_eq_true, if_false] at hd
  split_ifs at hd
  · rw [← Option.some_inj.1 hd]
    exact Nat.le_add_left _ _
  · rw [← Option.some_inj.1 hd]
    exact Nat.le_add_left _ _

/-- No name is read as a number. -/
theorem int64?_of_isIdentifier {w : Text} (hw : isIdentifier w = true) : int64? 10 w = none := by
  obtain ⟨c, t, rfl, hc, -⟩ := exists_cons_of_isIdentifier hw
  have hnone : natural? 10 (c :: t) = none := by
    rw [natural?, List.isEmpty_cons, if_neg (by decide), digitsFrom?]
    split
    · rename_i d hd
      rw [if_neg (Nat.not_lt.2 (le_of_digitValue? hc hd))]
    · rfl
  have hsign {x : Char} (hx : isIdentStart x = false) (digits : Text) : c :: t ≠ x :: digits := by
    intro h
    rw [(List.cons.inj h).1] at hc
    exact absurd (hc.symm.trans hx) (by simp)
  rw [int64?, hnone]
  · rfl
  · exact hsign (by decide)
  · exact hsign (by decide)

end HeaderBindings
