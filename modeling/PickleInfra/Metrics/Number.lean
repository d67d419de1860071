import PickleInfra.Python.Value

/-!
# `Metrics.Number` — the numbers of the inference metrics and `_number`

`_number` reads a number through its decimal text: the text of an integer is its digits, and the text of a
float is the shortest decimal that rounds to it. What decides is the exact decimal; what is kept is an
integer where the decimal is one, and the nearest float otherwise. `FloatFormat` is the part of this that
is the machine's: rounding to the nearest float, and the decimal a float is printed as.
-/

namespace PickleInfra
namespace Metrics

open Python

/-- `2**53 - 1`, `MAX_SAFE_COUNT` -/
def maxSafeCount : ℚ := 2 ^ 53 - 1

/-- The floats of the machine, as rational numbers. -/
structure FloatFormat where
  /-- `float(decimal)`: the nearest float. -/
  round : ℚ → ℚ
  /-- `Decimal(str(value))`: the decimal a float is printed as. -/
  printed : ℚ → ℚ
  round_mono : ∀ {x y}, x ≤ y → round x ≤ round y
  /-- Small integers are floats, and printed as themselves. -/
  round_int : ∀ n : Int, |n| ≤ 2 ^ 53 → round n = n
  printed_int : ∀ n : Int, |n| ≤ 2 ^ 53 → printed n = n
  /-- What is printed rounds to the float it was printed from. -/
  round_printed : ∀ x, round (printed (round x)) = round x

/-- A Python `int` or finite `float` in a snapshot. -/
inductive Num where
  | int (n : Int)
  | float (q : ℚ)
deriving DecidableEq, Repr

/-- The value, by which Python compares the two. -/
def Num.value : Num → ℚ
  | .int n   => n
  | .float q => q

/-- `type(value) in (int, float)`, with the value; a float that is not finite is no `Num`. -/
def Num.ofJson : Json → Option Num
  | .int n             => some (.int n)
  | .float (.finite q) => some (.float q)
  | _                  => none

def Num.toJson : Num → Json
  | .int n   => .int n
  | .float q => .float (.finite q)

@[simp] theorem Num.ofJson_toJson (x : Num) : Num.ofJson x.toJson = some x := by cases x <;> rfl

/-- The reasons of a `MetricsError`. -/
inductive MetricsError where
  | numberInvalid
  | numberTooLong
  | numberOutOfRange
  | numberUnsafeInteger
  | countNotSafeInteger
  | numberNotRepresentable
  | identityInvalid
  | textEncodingInvalid
  | labelSyntaxInvalid
  | labelEscapeInvalid
  | duplicateLabel
  | labelLimitExceeded
  | sampleSyntaxInvalid
  | histogramIncomplete
  | histogramBoundaryInvalid
  | histogramBucketsNotMonotone
  | histogramCountSumMismatch
  | histogramSumOutsideBucketBounds
  | sourceStateInvalid
  | observationTimeInvalid
  | sourceStateValueConflict
  | payloadInvalid
  | payloadTooLarge
  | payloadEncodingInvalid
  | lineLimitExceeded
  | typeSyntaxInvalid
  | typeMismatch
  | unknownMetricLimitExceeded
  | labelsUnsupported
  | duplicateSeries
  | seriesLimitExceeded
  | engineLimitExceeded
  | ratioOutOfRange
  | stateOutOfRange
  | duplicateHistogramBoundary
  | bucketLimitExceeded
  | histogramTimestampMismatch
  | snapshotTooLarge
  | snapshotInvalid
  | snapshotDuplicateEngine
  | gapLimitInvalid
deriving DecidableEq, Repr

abbrev Checked (α : Type) := Except MetricsError α

/-- `if c: _fail(reason)` -/
def failIf (c : Bool) (reason : MetricsError) : Checked Unit := if c then .error reason else .ok ()

@[simp] theorem failIf_eq_ok {c : Bool} {reason : MetricsError} {u : Unit} :
    failIf c reason = .ok u ↔ c = false := by
  cases c <;> simp [failIf]

def isInteger (q : ℚ) : Bool := q.den = 1

theorem isInteger_iff {q : ℚ} : isInteger q = true ↔ ∃ n : Int, q = n := by
  unfold isInteger
  rw [decide_eq_true_eq]
  constructor
  · exact fun h => ⟨q.num, (Rat.den_eq_one_iff q).mp h |>.symm⟩
  · rintro ⟨n, rfl⟩
    exact Rat.den_intCast n

variable (F : FloatFormat)

/-- The checks of `_number` on the decimal. -/
def checkDecimal (count : Bool) (maximum q : ℚ) : Checked Unit := do
  failIf (q < 0 || maximum < q) .numberOutOfRange
  failIf (isInteger q && maxSafeCount < q) .numberUnsafeInteger
  failIf (count && !isInteger q) .countNotSafeInteger
  failIf (q ≠ 0 && F.round q = 0) .numberNotRepresentable

/-- What `_number` returns for a decimal it accepts. -/
def keptNumber (q : ℚ) : Num := if isInteger q then .int q.num else .float (F.round q)

/-- `_number` on the decimal of the text. -/
def numberOfDecimal (count : Bool) (maximum q : ℚ) : Checked Num := do
  checkDecimal F count maximum q
  .ok (keptNumber F q)

/-- The decimal of `str(value)`. -/
def decimalOf : Num → ℚ
  | .int n   => n
  | .float q => F.printed q

/-- `len(str(value)) > 128`; a float is printed with fewer characters. -/
def tooLong : Num → Bool
  | .int n   => 10 ^ 128 ≤ n || n ≤ -(10 ^ 127)
  | .float _ => false

/-- `_number` on an integer or a finite float. -/
def numberOf (count : Bool) (maximum : ℚ) (x : Num) : Checked Num := do
  failIf (tooLong x) .numberTooLong
  numberOfDecimal F count maximum (decimalOf F x)

/-- The default of `maximum`. -/
def maxNumber : ℚ := 10 ^ 300

/-- The `maximum` of times in seconds. -/
def maxTime : ℚ := 10 ^ 12

theorem checkDecimal_eq_ok {count : Bool} {maximum q : ℚ} {u : Unit} :
    checkDecimal F count maximum q = .ok u ↔
      (0 ≤ q ∧ q ≤ maximum) ∧ (isInteger q = true → q ≤ maxSafeCount) ∧
        (count = true → isInteger q = true) ∧ (q ≠ 0 → F.round q ≠ 0) := by
  unfold checkDecimal
  simp only [bind_eq_ok, failIf_eq_ok, exists_const, Bool.or_eq_false_iff, Bool.and_eq_false_iff,
    decide_eq_false_iff_not, Bool.not_eq_false', not_lt, not_not]
  rw [← Bool.not_eq_true, ← Bool.not_eq_true]
  simp only [imp_iff_not_or, ne_eq, not_not]

end Metrics
end PickleInfra
