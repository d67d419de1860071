import Mathlib.Algebra.BigOperators.Group.Finset.Piecewise
import Mathlib.Algebra.Order.BigOperators.Group.Finset

/-!
# `Statistics.Labelled` — sums of labelled numbers

A list of numbers with labels, its sum, and its sum label by label. Two such lists are compared as a whole and label
by label.
-/

namespace PickleInfra
namespace Labelled

variable {L M : Type} [DecidableEq L]

def labels (xs : List (L × M)) : Finset L := (xs.map Prod.fst).toFinset

@[simp] theorem labels_cons (x : L × M) (xs : List (L × M)) : labels (x :: xs) = insert x.1 (labels xs) :=
  List.toFinset_cons

section Monoid

variable [AddCommMonoid M] {xs : List (L × M)}

def total (xs : List (L × M)) : M := (xs.map Prod.snd).sum

/-- The sum of the numbers of one label. -/
def value (xs : List (L × M)) (l : L) : M := (xs.map fun x => if x.1 = l then x.2 else 0).sum

omit [DecidableEq L] in
@[simp] theorem total_cons (x : L × M) (xs : List (L × M)) : total (x :: xs) = x.2 + total xs := by
  simp [total]

@[simp] theorem value_cons (x : L × M) (xs : List (L × M)) (l : L) :
    value (x :: xs) l = (if x.1 = l then x.2 else 0) + value xs l := by
  simp [value]

theorem value_eq_zero {l : L} (h : l ∉ labels xs) : value xs l = 0 := by
  induction xs with
  | nil => rfl
  | cons x xs ih =>
      rw [labels_cons, Finset.mem_insert, not_or] at h
      rw [value_cons, if_neg (Ne.symm h.1), zero_add, ih h.2]

/-- The total is the sum over the labels. -/
theorem sum_value {S : Finset L} (h : labels xs ⊆ S) : ∑ l ∈ S, value xs l = total xs := by
  induction xs with
  | nil => exact Finset.sum_const_zero
  | cons x xs ih =>
      rw [labels_cons, Finset.insert_subset_iff] at h
      simp only [value_cons, total_cons, Finset.sum_add_distrib, ih h.2]
      rw [Finset.sum_ite_eq, if_pos h.1]

end Monoid

section Ordered

variable [AddCommGroup M] {xs ys : List (L × M)}

/-- The total changes by what each label changes, and by what is new. -/
theorem total_sub (xs ys : List (L × M)) :
    total ys - total xs =
      ∑ l ∈ labels xs, (value ys l - value xs l) + ∑ l ∈ labels ys \ labels xs, value ys l := by
  have hys : ∑ l ∈ labels xs ∪ labels ys, value ys l = total ys := sum_value Finset.subset_union_right
  rw [Finset.sum_sub_distrib, sum_value (Finset.Subset.refl (labels xs)), ← hys, ← Finset.union_sdiff_self_eq_union,
    Finset.sum_union Finset.disjoint_sdiff, sub_add_eq_add_sub]

variable [LinearOrder M] [IsOrderedAddMonoid M]

theorem value_nonneg (h : ∀ x ∈ xs, 0 ≤ x.2) (l : L) : 0 ≤ value xs l := by
  refine List.sum_nonneg fun v hv => ?_
  obtain ⟨x, hx, rfl⟩ := List.mem_map.mp hv
  split
  · exact h x hx
  · exact le_refl 0

/-- The change of the total is the sum of the changes exactly if nothing new counts. -/
theorem total_sub_eq_iff (h : ∀ y ∈ ys, 0 ≤ y.2) :
    total ys - total xs = ∑ l ∈ labels xs, (value ys l - value xs l) ↔
      ∀ l ∈ labels ys, l ∉ labels xs → value ys l = 0 := by
  rw [total_sub, add_eq_left, Finset.sum_eq_zero_iff_of_nonneg fun l _ => value_nonneg h l]
  simp only [Finset.mem_sdiff, and_imp]

end Ordered

end Labelled
end PickleInfra
