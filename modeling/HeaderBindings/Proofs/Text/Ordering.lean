import Mathlib.Data.List.Basic
import HeaderBindings.Text.Basic

/-!
# The order of texts

Texts are compared character by character, and a text comes before every longer one that it begins.
What is sorted are often whole lines, of which only a part matters.

* `compare_append_left`: what all lines begin with has no say in their order.
* `compare_append_cons`: a part that ends with a character below all its own is compared as if it
  stood alone, and what comes behind it decides only between equal parts.
* `pairwise_mergeSort_compare`: a list sorted by a text of its entries is in the order of these.
-/

set_option autoImplicit false

namespace HeaderBindings.Text

/-- What two texts begin with has no say in their order. -/
theorem compare_append_left (front s t : Text) :
    compare (front ++ s) (front ++ t) = compare s t := by
  induction front with
  | nil => rfl
  | cons c front ih =>
    have hself : compare c c = .eq := Std.ReflCmp.compare_self
    rw [List.cons_append, List.cons_append, List.compare_cons_cons, hself, ih]
    rfl

/-- **A part of a text with an end mark** is compared as if it stood alone, if the mark comes before
all characters of the part. -/
theorem compare_append_cons {mark : Char} {a b : Text} (ha : ∀ c ∈ a, mark < c)
    (hb : ∀ c ∈ b, mark < c) (s t : Text) :
    compare (a ++ mark :: s) (b ++ mark :: t) = (compare a b).then (compare s t) := by
  have hlt {c d : Char} (h : c < d) : compare c d = .lt := compareOfLessAndEq_eq_lt.2 h
  have hgt {c d : Char} (h : c < d) : compare d c = .gt := Std.OrientedCmp.gt_of_lt (hlt h)
  induction a generalizing b with
  | nil =>
    cases b with
    | nil => exact compare_append_left [mark] s t
    | cons d b =>
      rw [List.nil_append, List.cons_append, List.compare_cons_cons, hlt (hb d List.mem_cons_self)]
      rfl
  | cons c a ih =>
    cases b with
    | nil =>
      rw [List.nil_append, List.cons_append, List.compare_cons_cons, hgt (ha c List.mem_cons_self)]
      rfl
    | cons d b =>
      rw [List.cons_append, List.cons_append, List.compare_cons_cons, List.compare_cons_cons,
        ih (fun x hx ↦ ha x (List.mem_cons_of_mem c hx)) fun x hx ↦
          hb x (List.mem_cons_of_mem d hx), Ordering.then_assoc]

/-- A list that is sorted by a text of each entry is in the order of these texts. -/
theorem pairwise_mergeSort_compare {α : Type} (f : α → Text) (l : List α) :
    (l.mergeSort fun a b ↦ (compare (f a) (f b)).isLE).Pairwise fun a b ↦
      (compare (f a) (f b)).isLE = true := by
  refine List.pairwise_mergeSort (fun _ _ _ ↦ Std.TransCmp.isLE_trans) (fun a b ↦ ?_) l
  have hswap : compare (f b) (f a) = (compare (f a) (f b)).swap := Std.OrientedCmp.eq_swap
  rw [hswap]
  cases compare (f a) (f b) <;> rfl

end HeaderBindings.Text
