import PickleInfra.Metrics.Accepted
import PickleInfra.Metrics.Parse

/-!
# `Metrics.Kept` — what the parser keeps is accepted again

The parser and the validator check by different code. A number the parser kept, a safe integer or the
nearest float, passes the checks of the validator, which go through the decimal the float is printed as;
so do the times after their division by a thousand, and the labels.
-/

namespace PickleInfra
namespace Metrics

open Python

/-! ## Numbers -/

section Numbers

variable (M : Machine)

/-- What the parser keeps of a number: a safe integer, or a float of the machine. -/
def Num.Kept : Num → Prop
  | .int n   => 0 ≤ n ∧ (n : ℚ) ≤ maxSafeCount
  | .float q => M.text.IsFloat q

variable {M}

theorem checkDecimal_ok {F : FloatFormat} {count : Bool} {maximum q : ℚ} {u : Unit}
    (h : checkDecimal F count maximum q = .ok u) :
    0 ≤ q ∧ q ≤ maximum ∧ (isInteger q = true → q ≤ maxSafeCount) ∧
      (count = true → isInteger q = true) := by
  obtain ⟨⟨hpos, hmax⟩, hsafe, hcount, -⟩ := (checkDecimal_eq_ok F).mp h
  exact ⟨hpos, hmax, hsafe, hcount⟩

theorem keptNumber_int {F : FloatFormat} {n : Int} : keptNumber F n = .int n := by
  unfold keptNumber
  rw [if_pos (isInteger_iff.mpr ⟨n, rfl⟩), Rat.num_intCast]

theorem keptNumber_float {F : FloatFormat} {q : ℚ} (h : isInteger q = false) :
    keptNumber F q = .float (F.round q) := by
  unfold keptNumber
  rw [h]
  rfl

theorem kept_keptNumber {count : Bool} {maximum q : ℚ} {u : Unit}
    (h : checkDecimal M.toFloatFormat count maximum q = .ok u) (hmax : maximum ≤ maxNumber) :
    (keptNumber M.toFloatFormat q).Kept M := by
  obtain ⟨hpos, hle, hsafe, -⟩ := checkDecimal_ok h
  cases hq : isInteger q with
  | true =>
      obtain ⟨n, rfl⟩ := isInteger_iff.mp hq
      rw [keptNumber_int]
      exact ⟨by exact_mod_cast hpos, hsafe hq⟩
  | false =>
      rw [keptNumber_float hq]
      exact ⟨⟨q, rfl⟩, M.round_finite q hpos (hle.trans hmax)⟩

variable {F : FloatFormat}

theorem safe_iff {n : Int} : (n : ℚ) ≤ maxSafeCount ↔ n ≤ 2 ^ 53 - 1 := by
  have heq : maxSafeCount = ((2 ^ 53 - 1 : Int) : ℚ) := by
    unfold maxSafeCount
    norm_num
  rw [heq, Int.cast_le]

/-- A safe integer is accepted. -/
theorem numberOf_int {count : Bool} {maximum : ℚ} {n : Int} (hpos : 0 ≤ n) (hmax : (n : ℚ) ≤ maximum)
    (hsafe : (n : ℚ) ≤ maxSafeCount) : numberOf F count maximum (.int n) = .ok (.int n) := by
  have hsafe' := safe_iff.mp hsafe
  unfold numberOf numberOfDecimal
  simp only [bind_eq_ok, failIf_eq_ok, exists_const]
  refine ⟨?_, (), ?_, ?_⟩
  · unfold tooLong
    rw [Bool.or_eq_false_iff, decide_eq_false_iff_not, decide_eq_false_iff_not]
    constructor
    · have : (2 : Int) ^ 53 - 1 < 10 ^ 128 := by norm_num
      omega
    · have : -(10 : Int) ^ 127 < 0 := by norm_num
      omega
  · refine (checkDecimal_eq_ok F).mpr ⟨⟨?_, hmax⟩, fun _ => hsafe, fun _ => isInteger_iff.mpr ⟨n, rfl⟩, ?_⟩
    · show (0 : ℚ) ≤ n
      exact_mod_cast hpos
    · intro hne
      show F.round (n : ℚ) ≠ 0
      rw [F.round_int n (by rw [abs_le]; constructor <;> omega)]
      exact hne
  · show (.ok (keptNumber F n) : Checked Num) = _
    rw [keptNumber_int]

/-- A float that is small enough is accepted: what it is printed as lies in the same range. -/
theorem numberOf_float {maximum d : ℚ} {m : Int} (hpos : 0 ≤ F.round d) (hm : F.round d ≤ m)
    (hsafe : (m : ℚ) ≤ maxSafeCount) (hm0 : 0 ≤ m) (hmax : (m : ℚ) ≤ maximum) :
    ∃ y, numberOf F false maximum (.float (F.round d)) = .ok y := by
  have hsafe' := safe_iff.mp hsafe
  have hround := F.round_printed d
  have hround_m : F.round (m : ℚ) = m := F.round_int m (by rw [abs_le]; constructor <;> omega)
  have hround_0 : F.round 0 = 0 := by exact_mod_cast F.round_int 0 (by norm_num)
  have hprinted_0 : F.printed 0 = 0 := by exact_mod_cast F.printed_int 0 (by norm_num)
  have hp0 : 0 ≤ F.printed (F.round d) := by
    by_contra hlt
    have hle := F.round_mono (not_le.mp hlt).le
    rw [hround, hround_0] at hle
    have hzero : F.round d = 0 := le_antisymm hle hpos
    rw [hzero, hprinted_0] at hlt
    exact hlt le_rfl
  have hpm : F.printed (F.round d) ≤ m := by
    by_contra hlt
    have hle := F.round_mono (not_le.mp hlt).le
    rw [hround, hround_m] at hle
    have heq : F.round d = m := le_antisymm hm hle
    rw [heq, F.printed_int m (by rw [abs_le]; constructor <;> omega)] at hlt
    exact hlt le_rfl
  refine ⟨keptNumber F (F.printed (F.round d)), ?_⟩
  unfold numberOf numberOfDecimal
  simp only [bind_eq_ok, failIf_eq_ok, exists_const]
  refine ⟨rfl, (), ?_, rfl⟩
  refine (checkDecimal_eq_ok F).mpr ⟨⟨hp0, hpm.trans hmax⟩, fun _ => hpm.trans hsafe, ?_, ?_⟩
  · intro h
    cases h
  · intro hne
    show F.round (F.printed (F.round d)) ≠ 0
    rw [hround]
    intro hzero
    apply hne
    show F.printed (F.round d) = 0
    rw [hzero, hprinted_0]

theorem maxTime_eq : maxTime = ((10 ^ 12 : Int) : ℚ) := by
  unfold maxTime
  norm_num

theorem maxTime_le : maxTime ≤ maxNumber := pow_le_pow_right₀ (by norm_num) (by norm_num)

theorem round_nonneg {q : ℚ} (h : 0 ≤ q) : 0 ≤ F.round q := by
  have h0 : F.round 0 = 0 := by exact_mod_cast F.round_int 0 (by norm_num)
  rw [← h0]
  exact F.round_mono h

theorem round_le_int {q : ℚ} {m : Int} (h : q ≤ m) (hm : |m| ≤ 2 ^ 53) : F.round q ≤ m := by
  rw [← F.round_int m hm]
  exact F.round_mono h

/-- A float of a time is accepted as a time. -/
theorem timeOk_float {d : ℚ} (hpos : 0 ≤ d) (hmax : d ≤ maxTime) : TimeOk F (.float (F.round d)) := by
  rw [maxTime_eq] at hmax
  refine numberOf_float (round_nonneg hpos) (round_le_int hmax (by norm_num)) ?_ (by norm_num) ?_
  · unfold maxSafeCount
    norm_num
  · rw [maxTime_eq]

/-- A time that was kept is accepted as a time. -/
theorem timeOk_kept {q : ℚ} {u : Unit} (h : checkDecimal F false maxTime q = .ok u) :
    TimeOk F (keptNumber F q) := by
  obtain ⟨hpos, hle, hsafe, -⟩ := checkDecimal_ok h
  cases hq : isInteger q with
  | true =>
      obtain ⟨n, rfl⟩ := isInteger_iff.mp hq
      rw [keptNumber_int]
      exact ⟨_, numberOf_int (by exact_mod_cast hpos) hle (hsafe hq)⟩
  | false =>
      rw [keptNumber_float hq]
      exact timeOk_float hpos hle

theorem numberOfText_ok {count : Bool} {maximum : ℚ} {cs : List Char} {x : Num}
    (h : numberOfText F count maximum cs = .ok x) :
    ∃ q, checkDecimal F count maximum q = .ok () ∧ x = keptNumber F q := by
  unfold numberOfText at h
  simp only [bind_eq_ok] at h
  obtain ⟨_, -, h⟩ := h
  split at h
  · cases h
  · simp only [bind_eq_ok] at h
    obtain ⟨_, -, h⟩ := h
    unfold numberOfDecimal at h
    simp only [bind_eq_ok] at h
    obtain ⟨_, hcheck, h⟩ := h
    exact ⟨_, hcheck, (Except.ok.inj h).symm⟩

theorem gauge_unit : ∀ d ∈ definitions, d.kind = .gauges →
    d.unit = .requests ∨ d.unit = .state ∨ d.unit = .ratio := by
  decide +kernel

/-- The value of a gauge or a counter is accepted again, as it was kept. -/
theorem scalarValue_ok {family : Definition} (hknown : family ∈ definitions)
    (hkind : family.kind = .gauges ∨ family.kind = .counters) {raw : List Char} {x : Num}
    (h : scalarValue M.toFloatFormat family raw = .ok x) :
    checkScalar M.toFloatFormat family x = .ok () ∧ x.Kept M := by
  unfold scalarValue at h
  simp only [bind_eq_ok, failIf_eq_ok, exists_const] at h
  obtain ⟨y, hy, hratio, hstate, h⟩ := h
  cases h
  obtain ⟨q, hq, rfl⟩ := numberOfText_ok hy
  refine ⟨?_, kept_keptNumber hq le_rfl⟩
  obtain ⟨hpos, hle, hsafe, hcount⟩ := checkDecimal_ok hq
  unfold checkScalar
  simp only [bind_eq_ok, failIf_eq_ok]
  cases hint : isInteger q with
  | true =>
      obtain ⟨n, rfl⟩ := isInteger_iff.mp hint
      rw [keptNumber_int] at hratio hstate ⊢
      exact ⟨_, numberOf_int (by exact_mod_cast hpos) hle (hsafe hint), (), hratio, hstate⟩
  | false =>
      have hcond : (decide (family.kind = .counters) || decide (family.unit = .requests)) = false := by
        by_contra hne
        rw [hcount (Bool.not_eq_false _ ▸ hne)] at hint
        cases hint
      obtain ⟨hcounters, hrequests⟩ := Bool.or_eq_false_iff.mp hcond
      rw [keptNumber_float hint] at hratio hstate ⊢
      have hone : M.round q ≤ ((1 : Int) : ℚ) := by
        rw [Int.cast_one]
        rcases gauge_unit family hknown (hkind.resolve_right (of_decide_eq_false hcounters)) with hunit | hunit | hunit
        · exact absurd hunit (of_decide_eq_false hrequests)
        · rw [hunit] at hstate
          have hvalue : M.round q = 0 ∨ M.round q = 1 := by
            by_contra hne
            rw [not_or] at hne
            simp [Num.value, hne.1, hne.2] at hstate
          rcases hvalue with hvalue | hvalue
          · exact hvalue ▸ zero_le_one
          · exact hvalue.le
        · rw [hunit, Bool.and_eq_false_iff] at hratio
          exact not_lt.mp (of_decide_eq_false (hratio.resolve_left (by decide)))
      have hsafe1 : ((1 : Int) : ℚ) ≤ maxSafeCount := safe_iff.mpr (by decide)
      have hmax1 : ((1 : Int) : ℚ) ≤ maxNumber := by
        rw [Int.cast_one]
        exact one_le_pow₀ (by norm_num)
      obtain ⟨y, hy⟩ := numberOf_float (round_nonneg hpos) hone hsafe1 (by norm_num) hmax1
      refine ⟨y, ?_, (), hratio, hstate⟩
      rw [hcond]
      exact hy

/-- A count is a safe integer. -/
theorem countOfText_ok {maximum : ℚ} {cs : List Char} {x : Num} (hmax : maximum ≤ maxNumber)
    (h : numberOfText M.toFloatFormat true maximum cs = .ok x) : x.IsInt ∧ x.Kept M := by
  obtain ⟨q, hq, rfl⟩ := numberOfText_ok h
  refine ⟨?_, kept_keptNumber hq hmax⟩
  obtain ⟨-, -, -, hcount⟩ := checkDecimal_ok hq
  obtain ⟨n, rfl⟩ := isInteger_iff.mp (hcount rfl)
  exact ⟨n, keptNumber_int⟩

/-- What is needed of a time in a snapshot. -/
def TimeKept (M : Machine) (x : Num) : Prop := TimeOk M.toFloatFormat x ∧ x.Kept M

theorem timeOfText_ok {cs : List Char} {x : Num} (h : numberOfText M.toFloatFormat false maxTime cs = .ok x) :
    TimeKept M x := by
  obtain ⟨q, hq, rfl⟩ := numberOfText_ok h
  exact ⟨timeOk_kept hq, kept_keptNumber hq maxTime_le⟩

theorem keptNumber_bounds {count : Bool} {m : Int} {q : ℚ} (hm : |m| ≤ 2 ^ 53) {u : Unit}
    (h : checkDecimal F count m q = .ok u) : 0 ≤ (keptNumber F q).value ∧ (keptNumber F q).value ≤ m := by
  obtain ⟨hpos, hle, -, -⟩ := checkDecimal_ok h
  cases hq : isInteger q with
  | true =>
      obtain ⟨n, rfl⟩ := isInteger_iff.mp hq
      rw [keptNumber_int]
      exact ⟨hpos, hle⟩
  | false =>
      rw [keptNumber_float hq]
      exact ⟨round_nonneg hpos, round_le_int hle hm⟩

/-- A time in milliseconds is a time in seconds after the division. -/
theorem sampleTime_ok {cs : List Char} {x : Num} (h : sampleTime M.toFloatFormat cs = .ok x) :
    TimeKept M x := by
  unfold sampleTime at h
  simp only [bind_eq_ok] at h
  obtain ⟨y, hy, h⟩ := h
  cases h
  obtain ⟨q, hq, rfl⟩ := numberOfText_ok hy
  have hmillis : (10 : ℚ) ^ 15 = ((10 ^ 15 : Int) : ℚ) := by norm_num
  rw [hmillis] at hq
  obtain ⟨hpos, hle⟩ := keptNumber_bounds (by norm_num) hq
  have hpos' : 0 ≤ (keptNumber M.toFloatFormat q).value / 1000 := div_nonneg hpos (by norm_num)
  have hle' : (keptNumber M.toFloatFormat q).value / 1000 ≤ maxTime := by
    rw [div_le_iff₀ (by norm_num)]
    refine hle.trans ?_
    unfold maxTime
    norm_num
  exact ⟨timeOk_float hpos' hle', ⟨_, rfl⟩, M.round_finite _ hpos' (hle'.trans maxTime_le)⟩

end Numbers

/-! ## Labels and names -/

section Labels

/-- No label value is too long. -/
def Short (labels : Labels) : Prop := ∀ l ∈ labels, l.2.utf8ByteSize ≤ 256

theorem scanLabel_ok {result : Labels} {cs rest : List Char} {label : String × String}
    (h : scanLabel result cs = .ok (label, rest)) : label.2.utf8ByteSize ≤ 256 := by
  unfold scanLabel at h
  split at h
  · cases h
  · simp only [bind_eq_ok, failIf_eq_ok, exists_const, Bool.or_eq_false_iff, decide_eq_false_iff_not,
      not_lt] at h
    obtain ⟨_, -, _, -, ⟨value, after⟩, -, -, hlimit, h⟩ := h
    cases h
    exact hlimit.1

theorem labelsFrom_ok {fuel : Nat} {result found : Labels} {cs : List Char} (hresult : Short result)
    (h : labelsFrom fuel result cs = .ok found) : Short found := by
  induction fuel generalizing result cs with
  | zero => cases h
  | succ fuel ih =>
      unfold labelsFrom at h
      dsimp only at h
      split at h
      · cases h
        exact hresult
      · simp only [bind_eq_ok] at h
        obtain ⟨⟨label, rest⟩, hlabel, h⟩ := h
        have hshort : Short (result ++ [label]) := by
          intro l hl
          rcases List.mem_append.mp hl with hl | hl
          · exact hresult l hl
          · rw [List.mem_singleton.mp hl]
            exact scanLabel_ok hlabel
        split at h
        · cases h
          exact hshort
        · simp only [bind_eq_ok] at h
          obtain ⟨_, -, h⟩ := h
          exact ih hshort h

theorem scanLabels_ok {cs rest : List Char} {found : Labels} (h : scanLabels cs = .ok (found, rest)) :
    Short found := by
  unfold scanLabels at h
  split at h
  · cases h
    exact fun l hl => absurd hl List.not_mem_nil
  · split at h
    · cases h
    next inside after hbraces =>
    rename_i cs'
    cases hlabels : labels inside with
    | error e =>
        rw [hlabels] at h
        cases h
    | ok found' =>
        rw [hlabels] at h
        cases h
        exact labelsFrom_ok (fun l hl => absurd hl List.not_mem_nil) hlabels

variable {M : Machine}

theorem sample_ok {line : List Char} {s : Sample} (h : sample M.toFloatFormat line = .ok s) :
    Short s.labels ∧ ∀ t, s.sampleAt = some t → TimeKept M t := by
  unfold sample at h
  simp only [bind_eq_ok] at h
  obtain ⟨⟨name, rest⟩, -, ⟨found, after⟩, hfound, _, -, h⟩ := h
  have hshort := scanLabels_ok hfound
  split at h
  · cases h
    exact ⟨hshort, fun t ht => by cases ht⟩
  · simp only [bind_eq_ok] at h
    obtain ⟨time, htime, h⟩ := h
    cases h
    refine ⟨hshort, ?_⟩
    intro t ht
    cases ht
    exact sampleTime_ok htime
  · cases h

theorem extras_length : ∀ d ∈ definitions, d.extras.length ≤ 1 := by decide +kernel

/-- The labels a series keeps are sorted and short. -/
theorem otherLabels_ok {family : Definition} (hknown : family ∈ definitions) {labels : Labels}
    (hshort : Short labels) : LabelsOk family (otherLabels family labels) := by
  have hmem : ∀ l ∈ otherLabels family labels, l.1 ∈ family.extras ∧ l ∈ labels := by
    intro l hl
    unfold otherLabels at hl
    obtain ⟨key, hkey, hl⟩ := List.mem_filterMap.mp hl
    rw [Option.map_eq_some_iff] at hl
    obtain ⟨v, hv, rfl⟩ := hl
    exact ⟨(List.mem_insertionSort _).mp hkey, Dict.mem_of_lookup hv⟩
  have hlength : (otherLabels family labels).length ≤ 1 := by
    unfold otherLabels
    refine (List.length_filterMap_le _ _).trans ?_
    rw [List.length_insertionSort]
    exact extras_length family hknown
  refine ⟨fun l hl => (hmem l hl).1, fun l hl => hshort l (hmem l hl).2, ?_, ?_⟩
  · unfold sortLabels
    match otherLabels family labels, hlength with
    | [], _  => rfl
    | [l], _ => rfl
  · match otherLabels family labels, hlength with
    | [], _  => exact List.nodup_nil
    | [l], _ => exact List.nodup_singleton _

end Labels

end Metrics
end PickleInfra
