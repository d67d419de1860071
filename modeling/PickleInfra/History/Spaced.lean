import Mathlib.Algebra.Order.Field.Rat
import Mathlib.Tactic.Linarith

/-!
# `History.Spaced` — events that keep a distance

Newest first, each event comes at least `period` after every older one; so few of them fit in a stretch of time.
-/

namespace PickleInfra
namespace History

/-- Every time is at least `period` after the older ones. -/
def Spaced (period : ℚ) (times : List ℚ) : Prop := times.Pairwise fun later earlier => period ≤ later - earlier

theorem Spaced.sublist {period : ℚ} {times times' : List ℚ} (h : Spaced period times) (hsub : times'.Sublist times) :
    Spaced period times' := List.Pairwise.sublist hsub h

/-- The newest of `n + 1` spaced times is `n` periods after the time they start from. -/
theorem Spaced.newest {period start : ℚ} {later : ℚ} {times : List ℚ} (h : Spaced period (later :: times))
    (hstart : ∀ t ∈ later :: times, start ≤ t) : start + times.length * period ≤ later := by
  induction times generalizing later with
  | nil => simpa using hstart later List.mem_cons_self
  | cons earlier times ih =>
      have hgap : period ≤ later - earlier := List.rel_of_pairwise_cons h List.mem_cons_self
      have hrest := ih (List.Pairwise.of_cons h) fun t ht => hstart t (List.mem_cons_of_mem _ ht)
      rw [List.length_cons, Nat.cast_succ]
      linarith

/-- **A stretch of time has room for few spaced events.** -/
theorem Spaced.length_le {period start span : ℚ} {times : List ℚ} {maximum : Nat} (h : Spaced period times)
    (hperiod : 0 ≤ period) (hspan : span ≤ maximum * period) (hin : ∀ t ∈ times, start ≤ t ∧ t < start + span) :
    times.length ≤ maximum := by
  cases times with
  | nil => exact Nat.zero_le _
  | cons later times =>
      have hnewest := h.newest fun t ht => (hin t ht).1
      have hlast := (hin later List.mem_cons_self).2
      rw [List.length_cons, Nat.succ_le_iff]
      by_contra hmany
      have hcount : (maximum : ℚ) ≤ times.length := Nat.cast_le.mpr (not_lt.mp hmany)
      have hmul := mul_le_mul_of_nonneg_right hcount hperiod
      linarith

end History
end PickleInfra
