import Mathlib.Order.CompletePartialOrder
import Mathlib.Data.List.Sort
import Mathlib.Data.Set.Lattice

/-!
# `Ranges.Sorted` — lists of closed ranges in a linear order

A range holds both of its ends, so it is never empty. Sorted by their ends, ranges are disjoint as soon as each
ends before the next one begins: `Before` is transitive, because no range is empty.
-/

namespace PickleInfra
namespace Ranges

/-- A range with its ends. -/
@[ext] structure Range (α : Type) [LE α] where
  first : α
  last : α
  le : first ≤ last

namespace Range

variable {α : Type} [LE α] {r s t : Range α}

def points (r : Range α) : Set α := {a | r.first ≤ a ∧ a ≤ r.last}

/-- The points of a list. -/
def covered (rs : List (Range α)) : Set α := {a | ∃ r ∈ rs, a ∈ r.points}

theorem covered_perm {rs ss : List (Range α)} (h : rs.Perm ss) : covered rs = covered ss := by
  ext a
  exact ⟨fun ⟨r, hr, ha⟩ => ⟨r, h.mem_iff.mp hr, ha⟩, fun ⟨r, hr, ha⟩ => ⟨r, h.mem_iff.mpr hr, ha⟩⟩

variable [LT α]

/-- A range ends before the other begins. -/
def Before (r s : Range α) : Prop := r.last < s.first

variable [Std.IsLinearOrder α] [Std.LawfulOrderLT α]

omit [LT α] [Std.LawfulOrderLT α] in
theorem first_mem (r : Range α) : r.first ∈ r.points := ⟨Std.le_refl _, r.le⟩

omit [LT α] [Std.LawfulOrderLT α] in
theorem last_mem (r : Range α) : r.last ∈ r.points := ⟨r.le, Std.le_refl _⟩

theorem Before.trans (hrs : r.Before s) (hst : s.Before t) : r.Before t :=
  Std.lt_trans (Std.lt_of_lt_of_le hrs s.le) hst

instance : Trans (Before (α := α)) Before Before := ⟨Before.trans⟩

theorem Before.disjoint (h : r.Before s) : Disjoint r.points s.points := by
  rw [Set.disjoint_left]
  intro a har has
  exact absurd (Std.lt_of_le_of_lt har.2 h) (Std.not_lt.mpr has.1)

/-- Ranges without a common point come one before the other. -/
theorem disjoint_iff : Disjoint r.points s.points ↔ r.Before s ∨ s.Before r := by
  constructor
  · intro h
    by_contra hnone
    obtain ⟨hrs, hsr⟩ := not_or.mp hnone
    have hrs' : s.first ≤ r.last := Std.not_lt.mp hrs
    have hsr' : r.first ≤ s.last := Std.not_lt.mp hsr
    rw [Set.disjoint_left] at h
    -- the greater of the two beginnings is in both
    rcases Std.le_total (a := r.first) (b := s.first) with hle | hle
    · exact h ⟨hle, hrs'⟩ s.first_mem
    · exact h r.first_mem ⟨hle, hsr'⟩
  · rintro (h | h)
    · exact h.disjoint
    · exact h.disjoint.symm

/-! ## Sorting -/

section Sorting

variable [DecidableEq α] [DecidableLT α] [DecidableLE α]

/-- The order of the pairs of ends. -/
def pairLe (r s : Range α) : Bool := r.first < s.first || (r.first = s.first && r.last ≤ s.last)

def sort (rs : List (Range α)) : List (Range α) := rs.mergeSort pairLe

omit [Std.IsLinearOrder α] [Std.LawfulOrderLT α] in
theorem pairLe_iff : pairLe r s = true ↔ r.first < s.first ∨ r.first = s.first ∧ r.last ≤ s.last := by
  simp only [pairLe, Bool.or_eq_true, Bool.and_eq_true, decide_eq_true_eq]

theorem pairLe_trans (hrs : pairLe r s = true) (hst : pairLe s t = true) : pairLe r t = true := by
  rw [pairLe_iff] at hrs hst ⊢
  rcases hrs with hrs | ⟨hrs, hlast⟩
  · rcases hst with hst | ⟨hst, -⟩
    · exact .inl (Std.lt_trans hrs hst)
    · exact .inl (hst ▸ hrs)
  · rw [hrs]
    exact hst.imp id fun h => ⟨h.1, Std.le_trans hlast h.2⟩

theorem pairLe_total (r s : Range α) : (pairLe r s || pairLe s r) = true := by
  rw [Bool.or_eq_true, pairLe_iff, pairLe_iff]
  by_cases heq : r.first = s.first
  · rcases Std.le_total (a := r.last) (b := s.last) with h | h
    · exact .inl (.inr ⟨heq, h⟩)
    · exact .inr (.inr ⟨heq.symm, h⟩)
  · rcases Std.le_total (a := r.first) (b := s.first) with h | h
    · exact .inl (.inl (Std.lt_of_le_of_ne h heq))
    · exact .inr (.inl (Std.lt_of_le_of_ne h (Ne.symm heq)))

theorem pairLe_antisymm (hrs : pairLe r s = true) (hsr : pairLe s r = true) : r = s := by
  rw [pairLe_iff] at hrs hsr
  rcases hrs with hrs | ⟨hfirst, hlast⟩
  · rcases hsr with hsr | ⟨hsr, -⟩
    · exact absurd (Std.lt_trans hrs hsr) Std.lt_irrefl
    · exact absurd (hsr ▸ hrs) Std.lt_irrefl
  · rcases hsr with hsr | ⟨-, hsr⟩
    · exact absurd (hfirst ▸ hsr) Std.lt_irrefl
    · exact Range.ext hfirst (Std.le_antisymm hlast hsr)

theorem Before.pairLe (h : r.Before s) : pairLe r s = true :=
  pairLe_iff.mpr (.inl (Std.lt_of_le_of_lt r.le h))

theorem before_of_pairLe (hle : pairLe r s = true) (h : Disjoint r.points s.points) : r.Before s := by
  rcases disjoint_iff.mp h with h' | h'
  · exact h'
  · have hself := pairLe_antisymm hle h'.pairLe
    -- a range is not disjoint from itself
    rw [hself] at h
    exact absurd s.first_mem (Set.disjoint_left.mp h s.first_mem)

omit [Std.IsLinearOrder α] [Std.LawfulOrderLT α] in
theorem perm_sort (rs : List (Range α)) : (sort rs).Perm rs := List.mergeSort_perm rs _

theorem pairwise_sort (rs : List (Range α)) : (sort rs).Pairwise fun r s => pairLe r s = true := by
  unfold sort
  refine List.pairwise_mergeSort ?_ pairLe_total rs
  exact fun _ _ _ => pairLe_trans

theorem sort_congr {rs ss : List (Range α)} (h : rs.Perm ss) : sort rs = sort ss :=
  List.Perm.eq_of_pairwise (fun _ _ _ _ => pairLe_antisymm) (pairwise_sort rs) (pairwise_sort ss)
    ((perm_sort rs).trans (h.trans (perm_sort ss).symm))

theorem sort_of_pairwise {rs : List (Range α)} (h : rs.Pairwise Before) : sort rs = rs :=
  List.mergeSort_of_pairwise (h.imp Before.pairLe)

/-- **Comparing neighbours is enough**: ranges are disjoint exactly when each of the sorted ones ends before the next
    begins. -/
theorem pairwise_disjoint_iff (rs : List (Range α)) :
    rs.Pairwise (fun r s => Disjoint r.points s.points) ↔ (sort rs).IsChain Before := by
  rw [List.isChain_iff_pairwise, ← (perm_sort rs).pairwise_iff fun h => h.symm]
  constructor
  · intro h
    exact (h.and (pairwise_sort rs)).imp fun hrs => before_of_pairLe hrs.2 hrs.1
  · exact fun h => h.imp Before.disjoint

end Sorting

end Range
end Ranges
end PickleInfra
