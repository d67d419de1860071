import Mathlib.Algebra.BigOperators.Group.Multiset.Basic
import Mathlib.Algebra.Order.BigOperators.Group.Multiset
import Mathlib.Algebra.Order.BigOperators.Group.List
import Mathlib.Algebra.Order.Field.Basic
import Mathlib.Tactic.Linarith
import Mathlib.Tactic.Ring
import Mathlib.Tactic.FieldSimp

/-!
# `Statistics.Cells` — grouped data and the sums it allows

Of grouped data only the number of values in each cell is known, a cell being a closed interval that may
have no upper end. The sum of the values is then known up to an interval: every value at the lower end of
its cell gives the least sum, every value at the upper end the greatest, and every sum between the two is
the sum of some values (`exists_sum_iff`). A sum that was rounded is judged by the same bounds, widened by
the tolerance (`exists_near_iff`).
-/

namespace PickleInfra
namespace Statistics

/-- An interval `[lo, hi]`, without upper end if `hi` is `none`, and how many values it has. -/
structure Cell (K : Type) where
  lo : K
  hi : Option K
  number : K

section Sums

variable {K : Type} [Field K]

/-- The least sum of values in the cells. -/
def lowerSum (cells : List (Cell K)) : K := (cells.map fun c => c.lo * c.number).sum

/-- The greatest sum, of the cells that have an upper end. -/
def upperSum (cells : List (Cell K)) : K := (cells.map fun c => c.hi.getD 0 * c.number).sum

@[simp] theorem lowerSum_cons (c : Cell K) (cells : List (Cell K)) :
    lowerSum (c :: cells) = c.lo * c.number + lowerSum cells := rfl

@[simp] theorem upperSum_cons (c : Cell K) (cells : List (Cell K)) :
    upperSum (c :: cells) = c.hi.getD 0 * c.number + upperSum cells := rfl

variable [LinearOrder K]

/-- The values of one cell. -/
structure Cell.Holds (c : Cell K) (values : Multiset K) : Prop where
  card : (values.card : K) = c.number
  lower : ∀ x ∈ values, c.lo ≤ x
  upper : ∀ b, c.hi = some b → ∀ x ∈ values, x ≤ b

/-- The values can be divided among the cells. -/
def Distributed (cells : List (Cell K)) (values : Multiset K) : Prop :=
  ∃ groups : List (Multiset K), List.Forall₂ Cell.Holds cells groups ∧ groups.sum = values

/-- There is a value in a cell without upper end. -/
def Unbounded (cells : List (Cell K)) : Prop := ∃ c ∈ cells, c.hi = none ∧ 0 < c.number

/-- A cell that is an interval with a number of values in it. -/
structure Cell.Proper (c : Cell K) : Prop where
  ordered : ∀ b, c.hi = some b → c.lo ≤ b
  number : ∃ n : ℕ, c.number = n

theorem distributed_nil : Distributed ([] : List (Cell K)) 0 := ⟨[], .nil, rfl⟩

theorem Cell.Holds.cons {c : Cell K} {cells : List (Cell K)} {group values : Multiset K}
    (hgroup : c.Holds group) (hvalues : Distributed cells values) :
    Distributed (c :: cells) (group + values) := by
  obtain ⟨groups, hgroups, rfl⟩ := hvalues
  exact ⟨group :: groups, .cons hgroup hgroups, rfl⟩

theorem distributed_cons_iff {c : Cell K} {cells : List (Cell K)} {values : Multiset K} :
    Distributed (c :: cells) values ↔
      ∃ group rest, c.Holds group ∧ Distributed cells rest ∧ group + rest = values := by
  constructor
  · rintro ⟨groups, hgroups, hsum⟩
    cases hgroups with
    | cons hgroup hrest => exact ⟨_, _, hgroup, ⟨_, hrest, rfl⟩, hsum⟩
  · rintro ⟨group, rest, hgroup, hrest, rfl⟩
    exact hgroup.cons hrest

theorem not_unbounded_cons {c : Cell K} {cells : List (Cell K)} :
    ¬Unbounded (c :: cells) ↔ ¬(c.hi = none ∧ 0 < c.number) ∧ ¬Unbounded cells := by
  unfold Unbounded
  simp only [List.exists_mem_cons_iff, not_or]

/-- All values of a distribution are above the lower ends. -/
theorem Distributed.lower {cells : List (Cell K)} {values : Multiset K} {a : K}
    (h : Distributed cells values) (ha : ∀ c ∈ cells, a ≤ c.lo) : ∀ x ∈ values, a ≤ x := by
  induction cells generalizing values with
  | nil =>
      obtain ⟨groups, hgroups, rfl⟩ := h
      cases hgroups
      intro x hx
      exact absurd hx (Multiset.notMem_zero x)
  | cons c cells ih =>
      obtain ⟨group, rest, hgroup, hrest, rfl⟩ := distributed_cons_iff.mp h
      intro x hx
      rcases Multiset.mem_add.mp hx with hx | hx
      · exact (ha c (List.mem_cons_self ..)).trans (hgroup.lower x hx)
      · exact ih hrest (fun c hc => ha c (List.mem_cons_of_mem _ hc)) x hx

end Sums

section Bounds

variable {K : Type} [Field K] [LinearOrder K] [IsStrictOrderedRing K]

theorem Cell.Holds.le_sum {c : Cell K} {values : Multiset K} (h : c.Holds values) :
    c.lo * c.number ≤ values.sum := by
  have hle := Multiset.card_nsmul_le_sum h.lower
  rw [nsmul_eq_mul, h.card] at hle
  rw [mul_comm]
  exact hle

theorem Cell.Holds.sum_le {c : Cell K} {values : Multiset K} (h : c.Holds values)
    (hbounded : ¬(c.hi = none ∧ 0 < c.number)) : values.sum ≤ c.hi.getD 0 * c.number := by
  cases hhi : c.hi with
  | none =>
      -- nothing is in a cell without upper end
      have hzero : (values.card : K) ≤ 0 := by
        rw [h.card]
        exact not_lt.mp fun hpos => hbounded ⟨hhi, hpos⟩
      have hempty : values = 0 := Multiset.card_eq_zero.mp (Nat.le_zero.mp (by exact_mod_cast hzero))
      rw [hempty, Option.getD_none, zero_mul, Multiset.sum_zero]
  | some b =>
      have hle := Multiset.sum_le_card_nsmul values b (h.upper b hhi)
      rw [nsmul_eq_mul, h.card] at hle
      rw [Option.getD_some, mul_comm]
      exact hle

theorem Cell.Proper.number_nonneg {c : Cell K} (h : c.Proper) : 0 ≤ c.number := by
  obtain ⟨n, hn⟩ := h.number
  rw [hn]
  exact Nat.cast_nonneg n

theorem Cell.Proper.lower_le_upper {c : Cell K} (h : c.Proper) (hbounded : ¬(c.hi = none ∧ 0 < c.number)) :
    c.lo * c.number ≤ c.hi.getD 0 * c.number := by
  cases hhi : c.hi with
  | none =>
      have hzero : c.number = 0 :=
        le_antisymm (not_lt.mp fun hpos => hbounded ⟨hhi, hpos⟩) h.number_nonneg
      rw [hzero, mul_zero, mul_zero]
  | some b =>
      exact mul_le_mul_of_nonneg_right (h.ordered b hhi) h.number_nonneg

/-- Equal values in one cell, with any sum between its ends. -/
theorem Cell.Proper.exists_holds {c : Cell K} (h : c.Proper) {s : K} (hlower : c.lo * c.number ≤ s)
    (hupper : ∀ b, c.hi = some b → s ≤ b * c.number) (hempty : c.number = 0 → s = 0) :
    ∃ values, c.Holds values ∧ values.sum = s := by
  obtain ⟨n, hn⟩ := h.number
  rcases Nat.eq_zero_or_pos n with rfl | hpos
  · rw [Nat.cast_zero] at hn
    refine ⟨0, ⟨by rw [hn, Multiset.card_zero, Nat.cast_zero], ?_, ?_⟩, ?_⟩
    · intro x hx
      exact absurd hx (Multiset.notMem_zero x)
    · intro b _ x hx
      exact absurd hx (Multiset.notMem_zero x)
    · rw [Multiset.sum_zero, hempty hn]
  · have hpos : (0 : K) < n := Nat.cast_pos.mpr hpos
    rw [hn] at hlower hupper
    refine ⟨Multiset.replicate n (s / n), ⟨by rw [hn, Multiset.card_replicate], ?_, ?_⟩, ?_⟩
    · intro x hx
      rw [Multiset.eq_of_mem_replicate hx]
      exact (le_div_iff₀ hpos).mpr hlower
    · intro b hb x hx
      rw [Multiset.eq_of_mem_replicate hx]
      exact (div_le_iff₀ hpos).mpr (hupper b hb)
    · rw [Multiset.sum_replicate, nsmul_eq_mul]
      exact mul_div_cancel₀ s hpos.ne'

theorem lowerSum_le_upperSum {cells : List (Cell K)} (hproper : ∀ c ∈ cells, c.Proper)
    (hbounded : ¬Unbounded cells) : lowerSum cells ≤ upperSum cells := by
  induction cells with
  | nil => exact le_refl _
  | cons c cells ih =>
      obtain ⟨hc, hcells⟩ := not_unbounded_cons.mp hbounded
      rw [lowerSum_cons, upperSum_cons]
      exact add_le_add ((hproper c (List.mem_cons_self ..)).lower_le_upper hc)
        (ih (fun c hc => hproper c (List.mem_cons_of_mem _ hc)) hcells)

theorem Distributed.le_sum {cells : List (Cell K)} {values : Multiset K}
    (h : Distributed cells values) : lowerSum cells ≤ values.sum := by
  induction cells generalizing values with
  | nil =>
      obtain ⟨groups, hgroups, rfl⟩ := h
      cases hgroups
      exact le_refl _
  | cons c cells ih =>
      obtain ⟨group, rest, hgroup, hrest, rfl⟩ := distributed_cons_iff.mp h
      rw [lowerSum_cons, Multiset.sum_add]
      exact add_le_add hgroup.le_sum (ih hrest)

theorem Distributed.sum_le {cells : List (Cell K)} {values : Multiset K}
    (h : Distributed cells values) (hbounded : ¬Unbounded cells) : values.sum ≤ upperSum cells := by
  induction cells generalizing values with
  | nil =>
      obtain ⟨groups, hgroups, rfl⟩ := h
      cases hgroups
      exact le_refl _
  | cons c cells ih =>
      obtain ⟨group, rest, hgroup, hrest, rfl⟩ := distributed_cons_iff.mp h
      obtain ⟨hc, hcells⟩ := not_unbounded_cons.mp hbounded
      rw [upperSum_cons, Multiset.sum_add]
      exact add_le_add (hgroup.sum_le hc) (ih hrest hcells)

/-- Every sum between the least and the greatest is the sum of values in the cells. -/
theorem exists_distributed {cells : List (Cell K)} (hproper : ∀ c ∈ cells, c.Proper) {s : K}
    (hlower : lowerSum cells ≤ s) (hupper : ¬Unbounded cells → s ≤ upperSum cells) :
    ∃ values, Distributed cells values ∧ values.sum = s := by
  induction cells generalizing s with
  | nil =>
      have hs : s = 0 := le_antisymm (hupper (by rintro ⟨c, hc, -⟩; cases hc)) hlower
      exact ⟨0, distributed_nil, by rw [hs, Multiset.sum_zero]⟩
  | cons c cells ih =>
      have hc := hproper c (List.mem_cons_self ..)
      have hcells : ∀ c ∈ cells, c.Proper := fun c hc => hproper c (List.mem_cons_of_mem _ hc)
      rw [lowerSum_cons] at hlower
      -- the first cell takes as much of the sum as the others leave and as it can hold
      obtain ⟨t, hlo, hhi, hzero, hrest, hrestUpper⟩ : ∃ t : K, c.lo * c.number ≤ t ∧
          (∀ b, c.hi = some b → t ≤ b * c.number) ∧ (c.number = 0 → t = 0) ∧
          lowerSum cells ≤ s - t ∧ (¬Unbounded cells → s - t ≤ upperSum cells) := by
        by_cases hc' : c.hi = none ∧ 0 < c.number
        · refine ⟨s - lowerSum cells, by linarith, ?_, fun h => absurd h hc'.2.ne', by linarith, ?_⟩
          · intro b hb
            rw [hc'.1] at hb
            cases hb
          · intro hb
            have := lowerSum_le_upperSum hcells hb
            linarith
        · have hends := hc.lower_le_upper hc'
          refine ⟨min (s - lowerSum cells) (c.hi.getD 0 * c.number), le_min (by linarith) hends, ?_, ?_,
            ?_, ?_⟩
          · intro b hb
            rw [hb]
            exact min_le_right _ _
          · intro h
            rw [h, mul_zero, add_comm, add_zero] at hlower
            rw [h, mul_zero]
            exact min_eq_right (by linarith)
          · have := min_le_left (s - lowerSum cells) (c.hi.getD 0 * c.number)
            linarith
          · intro hb
            have hs := hupper (not_unbounded_cons.mpr ⟨hc', hb⟩)
            have hle := lowerSum_le_upperSum hcells hb
            rw [upperSum_cons] at hs
            rcases min_choice (s - lowerSum cells) (c.hi.getD 0 * c.number) with h | h <;> rw [h] <;>
              linarith
      obtain ⟨group, hgroup, hsum⟩ := hc.exists_holds hlo hhi hzero
      obtain ⟨values, hvalues, hvsum⟩ := ih hcells hrest hrestUpper
      exact ⟨group + values, hgroup.cons hvalues, by rw [Multiset.sum_add, hsum, hvsum]; ring⟩

/-- **The sums of grouped data.** -/
theorem exists_sum_iff {cells : List (Cell K)} (hproper : ∀ c ∈ cells, c.Proper) {s : K} :
    (∃ values, Distributed cells values ∧ values.sum = s) ↔
      lowerSum cells ≤ s ∧ (¬Unbounded cells → s ≤ upperSum cells) := by
  constructor
  · rintro ⟨values, hvalues, rfl⟩
    exact ⟨hvalues.le_sum, hvalues.sum_le⟩
  · rintro ⟨hlower, hupper⟩
    exact exists_distributed hproper hlower hupper

/-- **The sums of grouped data, up to a tolerance.** -/
theorem exists_near_iff {cells : List (Cell K)} (hproper : ∀ c ∈ cells, c.Proper) {total tolerance : K}
    (htolerance : 0 ≤ tolerance) :
    (∃ values, Distributed cells values ∧ |values.sum - total| ≤ tolerance) ↔
      lowerSum cells - tolerance ≤ total ∧ (¬Unbounded cells → total ≤ upperSum cells + tolerance) := by
  constructor
  · rintro ⟨values, hvalues, hnear⟩
    obtain ⟨hbelow, habove⟩ := abs_le.mp hnear
    refine ⟨by linarith [hvalues.le_sum], fun hbounded => ?_⟩
    linarith [hvalues.sum_le hbounded]
  · rintro ⟨hlower, hupper⟩
    -- the nearest sum the cells allow
    by_cases hbounded : Unbounded cells
    · obtain ⟨values, hvalues, hsum⟩ := exists_distributed hproper
        (le_max_left (lowerSum cells) total) (fun h => absurd hbounded h)
      refine ⟨values, hvalues, ?_⟩
      rw [hsum, abs_le]
      rcases max_choice (lowerSum cells) total with h | h <;> rw [h]
      · exact ⟨by linarith [h ▸ le_max_right (lowerSum cells) total], by linarith⟩
      · exact ⟨by linarith, by linarith⟩
    · have hle := lowerSum_le_upperSum hproper hbounded
      have hup := hupper hbounded
      obtain ⟨values, hvalues, hsum⟩ := exists_distributed hproper
        (le_max_left (lowerSum cells) (min (upperSum cells) total))
        (fun _ => max_le hle (min_le_left _ _))
      refine ⟨values, hvalues, ?_⟩
      rw [hsum, abs_le]
      rcases le_total (upperSum cells) total with h | h
      · rw [min_eq_left h, max_eq_right hle]
        exact ⟨by linarith, by linarith⟩
      · rw [min_eq_right h]
        rcases le_total (lowerSum cells) total with h' | h'
        · rw [max_eq_right h']
          exact ⟨by linarith, by linarith⟩
        · rw [max_eq_left h']
          exact ⟨by linarith, by linarith⟩

end Bounds

end Statistics
end PickleInfra
