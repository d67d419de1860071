import PickleInfra.Discord.Reader

/-!
# `Discord.DbCache` — `collect` of a `db_cache` source

The cache is read for its times only, and its age is that of the file.
-/

namespace PickleInfra
namespace Discord

open Python

/-- `collect` of a `db_cache` source whose file was read, up to its `except` clause: condition and freshness. -/
def readDbCache (maxAge : Int) (now mtime : ℚ) (state : Json) : Except ReadExn (Signal × Signal) := do
  ensure state.isDict
  let point ← number (← state.item "recovery_point_epoch")
  let readback ← number (← state.item "last_readback_epoch")
  ensure (!(decide (point ≤ 0) || decide (readback < point) || decide (now + 5 < readback)))
  let age := now - mtime
  let condition := if -5 ≤ now - point ∧ now - point < maxAge then Signal.normal else .alarm
  ensure (!decide (age < -5))
  -- an old healthy record cannot establish recovery of a newer incident
  let condition := if maxAge < age ∧ condition = .normal then .unknown else condition
  return (condition, if maxAge < age then .alarm else .normal)

/-- `collect` of a `db_cache` source. -/
def collectDbCache (maxAge : Int) (now mtime : ℚ) (state : Json) : Signal × Signal :=
  match readDbCache maxAge now mtime state with
  | .ok signals => signals
  | .error _    => (.unknown, .alarm)

theorem number_int {n : Int} (h0 : 0 ≤ n) (h1 : n ≤ Json.maxDouble) : number (.int n) = .ok n := by
  have hlow : -Json.maxDouble ≤ n := (Int.neg_nonpos_of_nonneg (h0.trans h1)).trans h0
  unfold number Json.finiteNumber
  dsimp only
  rw [if_pos ⟨h1, hlow⟩]

/-- **A point that was read back since, in a file that is not of the future, is classified by its age.** The file is not
    older than the point. -/
theorem readDbCache_of_times {maxAge : Int} {now mtime : ℚ} {state : Json} {point readback : Int}
    (hpoint : state.get? "recovery_point_epoch" = some (.int point))
    (hreadback : state.get? "last_readback_epoch" = some (.int readback)) (hpositive : 0 < point)
    (horder : point ≤ readback) (hmax : readback ≤ Json.maxDouble) (hnow : (readback : ℚ) ≤ now) (hlow : (point : ℚ) ≤ mtime)
    (hhigh : mtime ≤ now + 5) :
    ∃ freshness, readDbCache maxAge now mtime state =
      .ok (if now - point < maxAge then .normal else .alarm, freshness) := by
  have hdict : state.isDict = true := by
    cases state with
    | dict kvs => rfl
    | null | bool | int | float | str | list => cases hpoint
  have hpositive' : ((0 : Int) : ℚ) < point := Int.cast_lt.mpr hpositive
  have horder' : (point : ℚ) ≤ readback := Int.cast_le.mpr horder
  have hage : ¬ now - mtime < -5 := by linarith
  have hsane : (!(decide ((point : ℚ) ≤ 0) || decide ((readback : ℚ) < point) || decide (now + 5 < readback))) = true := by
    rw [Int.cast_zero] at hpositive'
    rw [decide_eq_false (by linarith), decide_eq_false (by linarith), decide_eq_false (by linarith)]
    rfl
  have hyoung : -5 ≤ now - point := by linarith
  refine ⟨if maxAge < now - mtime then .alarm else .normal, ?_⟩
  unfold readDbCache
  rw [hdict, Json.item_of_get? hpoint, Json.item_of_get? hreadback]
  simp only [bind, Except.bind, number_int hpositive.le (horder.trans hmax),
    number_int (hpositive.le.trans horder) hmax, hsane, ensure, if_true, hyoung, true_and, decide_eq_false hage, Bool.not_false, pure, Except.pure]
  by_cases hmaxAge : now - point < maxAge
  · -- the file is no older than the point
    have hfresh : ¬ (maxAge : ℚ) < now - mtime := by linarith
    simp only [hmaxAge, if_true, hfresh, false_and, if_false]
  · simp only [hmaxAge, if_false, reduceCtorEq, and_false]

end Discord
end PickleInfra
