import PickleInfra.Metrics.Number

/-!
# `Metrics.Histogram` — `_histogram`, the check of one cumulative histogram

The bounds of a histogram are numbers closed by `'+Inf'`, the counts are cumulative. The same check is
made by the parser, by the validator, and on the difference of two histograms.
-/

namespace PickleInfra
namespace Metrics

/-- A histogram boundary: a number, or `'+Inf'`. -/
inductive Bound where
  | num (x : Num)
  | inf
deriving DecidableEq, Repr

/-- Two boundaries are equal if they are both `'+Inf'` or of one value. -/
def Bound.value : Bound → Option ℚ
  | .num x => some x.value
  | .inf   => none

variable (F : FloatFormat)

/-- One bound of the first loop of `_histogram`: a number above the last one, or the closing `'+Inf'`. -/
def checkBound (lastBound : ℚ) (closing : Bool) : Bound → Checked ℚ
  | .num x => do
    let x ← numberOf F false maxNumber x
    failIf (x.value ≤ lastBound) .histogramBoundaryInvalid
    .ok x.value
  | .inf   => do
    failIf (!closing) .histogramBoundaryInvalid
    .ok lastBound

/-- The first loop of `_histogram`: increasing bounds, closed by one `'+Inf'`, and counts that do not
    decrease. -/
def checkBuckets : ℚ → ℚ → List (Bound × Num) → Checked Unit
  | _, _, []                                     => .ok ()
  | lastBound, lastCount, (bound, cumulative) :: rest => do
    let lastBound ← checkBound F lastBound rest.isEmpty bound
    let cumulative ← numberOf F true maxNumber cumulative
    failIf (cumulative.value < lastCount) .histogramBucketsNotMonotone
    checkBuckets lastBound cumulative.value rest

/-- What the second loop of `_histogram` adds up: the least and the greatest sum the counts allow, and
    whether there are observations beyond the last number. -/
structure Feasible where
  lower : ℚ := 0
  upper : ℚ := 0
  previousBound : ℚ := 0
  previousCount : ℚ := 0
  unbounded : Bool := false

def Feasible.next (f : Feasible) (bucket : Bound × Num) : Feasible :=
  let observations := bucket.2.value - f.previousCount
  let f := { f with lower := f.lower + f.previousBound * observations
                    previousCount := bucket.2.value }
  match bucket.1 with
  | .num x => { f with upper := f.upper + x.value * observations, previousBound := x.value }
  | .inf   => { f with unbounded := 0 < observations }

/-- The tolerance for the rounding of floating sums. -/
def Feasible.tolerance (f : Feasible) (total : ℚ) : ℚ :=
  1 / 10 ^ 9 * max 1 (max f.lower (max f.upper total))

/-- `MAX_BUCKETS` -/
def maxBuckets : Nat := 128

/-- `_histogram` -/
def histogram (bounds : List Bound) (counts : List Num) (count total : Option Num) : Checked Unit :=
  match count, total with
  | some count, some total => do
    failIf (bounds.isEmpty || maxBuckets < bounds.length || bounds.length ≠ counts.length
      || bounds.getLast? ≠ some .inf) .histogramIncomplete
    let buckets := bounds.zip counts
    checkBuckets F (-1) 0 buckets
    let count ← numberOf F true maxNumber count
    let total ← numberOf F false maxNumber total
    failIf (counts.getLast?.map Num.value ≠ some count.value || (count.value = 0 && total.value ≠ 0))
      .histogramCountSumMismatch
    let f := buckets.foldl Feasible.next {}
    failIf (total.value < f.lower - f.tolerance total.value
      || (!f.unbounded && f.upper + f.tolerance total.value < total.value))
      .histogramSumOutsideBucketBounds
  | _, _ => .error .histogramIncomplete

end Metrics
end PickleInfra
