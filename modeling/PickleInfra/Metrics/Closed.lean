import PickleInfra.Metrics.Interval
import PickleInfra.Metrics.Reading
import Mathlib.Algebra.Order.Floor.Ring
import Mathlib.Data.Rat.Floor

/-!
# `Metrics.Closed` — what `parse_snapshot` returns passes `_validate_snapshot`

Also after it was printed to JSON and read back: the document has no key twice, and its numbers are those
of the machine. Only the gap limit can then be refused, by `_number`.
-/

namespace PickleInfra
namespace Metrics

open Python

variable {M : Machine}

/-! ## The snapshot is accepted -/

theorem textOf_ok {v : Json} {s : String} (h : textOf v = .ok s) : textOk s = true := by
  unfold textOf at h
  split at h
  · cases h
  · unfold text at h
    simp only [bind_eq_ok, failIf_eq_ok, exists_const] at h
    obtain ⟨hok, h⟩ := h
    cases h
    rwa [Bool.not_eq_false'] at hok

theorem optionalText_textOk {v : Json} {o : Option String} (h : optionalText v = .ok o) :
    ∀ s, o = some s → textOk s = true := by
  unfold optionalText at h
  split at h
  · cases h
    rintro s ⟨⟩
  · cases ht : textOf v with
    | error e => rw [ht] at h; cases h
    | ok t =>
        rw [ht] at h
        cases h
        rintro s ⟨⟩
        exact textOf_ok ht

theorem identityOf_ok {v : Json} {i : Identity} (h : identityOf v = .ok i) : i.Accepted := by
  unfold identityOf at h
  simp only [bind_eq_ok] at h
  obtain ⟨_, -, sourceId, hsource, bootId, hboot, processId, hprocess, configId, hconfig, h⟩ := h
  cases h
  exact ⟨textOf_ok hsource, optionalText_textOk hboot, optionalText_textOk hprocess,
    optionalText_textOk hconfig⟩

theorem observationTime_ok {v : Json} {x : Num} (h : observationTime M.toFloatFormat v = .ok x) :
    TimeKept M x := by
  unfold observationTime at h
  split at h
  · unfold numberOf numberOfDecimal at h
    simp only [bind_eq_ok] at h
    obtain ⟨_, -, _, hcheck, h⟩ := h
    cases h
    exact ⟨timeOk_kept hcheck, kept_keptNumber hcheck maxTime_le⟩
  · cases h
  · cases h

theorem readText_ok {text : String} {engines : List Engine} {names : List String}
    (h : readText M.toFloatFormat text = .ok (engines, names)) :
    EnginesOk M engines ∧ NamesOk maxUnknownMetrics isMetricName names := by
  unfold readText at h
  simp only [bind_eq_ok] at h
  obtain ⟨_, -, r, hr, _, -, engines', hengines, h⟩ := h
  cases h
  have hok := addLines_ok (Reading.ok_empty M) hr
  refine ⟨finishGroups_ok hok hengines, ?_⟩
  have hperm : (r.unknown.insertionSort (· ≤ ·)).Perm r.unknown := List.perm_insertionSort _ _
  refine ⟨hperm.length_eq ▸ hok.unknown.length, ?_, hperm.nodup_iff.mpr hok.unknown.nodup⟩
  exact fun name hname => hok.unknown.ok name (hperm.mem_iff.mp hname)

/-- What JSON needs of a snapshot. -/
structure Snapshot.Kept (M : Machine) (s : Snapshot) : Prop where
  observedAt : s.observedAt.Kept M
  engines : ∀ e ∈ s.engines, e.Kept M

theorem metricName_definition : ∀ name ∈ definitionNames, isMetricName name = true := by
  intro name hname
  obtain ⟨d, hd, rfl⟩ := List.mem_map.mp hname
  exact (familyName_definition d hd).metricName

theorem namesOk_notReported' (present : List String) : NamesOk definitions.length
    (fun name => isMetricName name && definitionNames.contains name) (notReportedNames present) := by
  have h := namesOk_notReported present
  refine ⟨h.length, ?_, h.nodup⟩
  intro name hname
  have hcontains := h.ok name hname
  rw [metricName_definition name (List.contains_iff_mem.mp hcontains), hcontains]
  rfl

/-- A snapshot of checked parts. -/
theorem accepted_of_parts {observedAt : Num} (htime : TimeKept M observedAt) {state : SourceState}
    {identity : Identity} (hidentity : identity.Accepted) {engines : List Engine}
    (hengines : EnginesOk M engines) (hstate : state ≠ .observed → engines = []) {names : List String}
    (hnames : NamesOk maxUnknownMetrics isMetricName names) (present : List String) :
    (Snapshot.mk observedAt state identity engines names (notReportedNames present)).Accepted
        M.toFloatFormat ∧
      (Snapshot.mk observedAt state identity engines names (notReportedNames present)).Kept M :=
  ⟨⟨hidentity, htime.1, hnames, namesOk_notReported' present, hengines.length, hstate, hengines.distinct,
    hengines.accepted, hengines.series⟩, htime.2, hengines.kept⟩

/-- **What the parser returns is accepted by the validator**, and kept by JSON. -/
theorem parseSnapshot_accepted {payload : Payload} {observedAt identity sourceState : Json} {s : Snapshot}
    (h : parseSnapshot M payload observedAt identity sourceState = .ok s) :
    s.Accepted M.toFloatFormat ∧ s.Kept M := by
  unfold parseSnapshot at h
  split at h
  · cases h
  next state _ =>
  simp only [bind_eq_ok] at h
  obtain ⟨time, htime, i, hi, h⟩ := h
  have htime' := observationTime_ok htime
  have hi' := identityOf_ok hi
  split at h
  · simp only [bind_eq_ok] at h
    obtain ⟨_, -, h⟩ := h
    cases h
    have hempty : EnginesOk M [] :=
      ⟨Nat.zero_le _, List.nodup_nil, fun _ he => absurd he List.not_mem_nil,
        fun _ he => absurd he List.not_mem_nil, Nat.zero_le _⟩
    exact accepted_of_parts htime' hi' hempty (fun _ => rfl)
      ⟨Nat.zero_le _, fun _ hn => absurd hn List.not_mem_nil, List.nodup_nil⟩ []
  · next hobserved =>
    simp only [bind_eq_ok] at h
    obtain ⟨text, -, ⟨engines, names⟩, hread, _, -, h⟩ := h
    cases h
    obtain ⟨hengines, hnames⟩ := readText_ok hread
    exact accepted_of_parts htime' hi' hengines (fun hne => absurd hne hobserved) hnames _

/-- What `parse_snapshot` returns for a text of an observed source. -/
def observedSnapshot (observedAt : Num) (identity : Identity) (engines : List Engine)
    (unsupported : List String) : Snapshot :=
  { observedAt, sourceState := .observed, identity, engines, unsupported
    notReported := notReportedNames (engines.flatMap Engine.present) }

theorem parseSnapshot_observed {payload : Payload} {observedAt identity : Json} {time : Num} {i : Identity}
    {text : String} {engines : List Engine} {unsupported : List String}
    (htime : observationTime M.toFloatFormat observedAt = .ok time) (hidentity : identityOf identity = .ok i)
    (hdecode : payload.decode = .ok text) (hread : readText M.toFloatFormat text = .ok (engines, unsupported))
    (hsize : documentSize M (observedSnapshot time i engines unsupported) ≤ maxPayloadBytes) :
    parseSnapshot M payload observedAt identity (.str "OBSERVED")
      = .ok (observedSnapshot time i engines unsupported) := by
  have hstate : ((Json.str "OBSERVED").asStr?).bind SourceState.ofText = some .observed := by decide
  unfold parseSnapshot
  rw [hstate]
  dsimp only
  rw [htime, hidentity, hdecode]
  simp only [bind_eq_ok, failIf_eq_ok, exists_const, Except.ok.injEq, exists_eq_left', ne_eq,
    not_true_eq_false, if_false]
  refine ⟨_, hread, ?_, rfl⟩
  exact decide_eq_false (not_lt.mpr hsize)

/-! ## The document is kept by JSON -/

section Valid

open JsonText

theorem valid_str (s : String) : Valid M.text (.str s) := by
  rw [Valid]
  trivial

theorem valid_num {x : Num} (h : x.Kept M) : Valid M.text x.toJson := by
  cases x with
  | int n =>
      show Valid M.text (.int n)
      obtain ⟨hpos, hsafe⟩ := h
      have hsafe' := safe_iff.mp hsafe
      rw [Valid, Nat.length_toDigits_le_iff (by decide) (by decide)]
      have hsmall : n.natAbs < 10 ^ 16 := by
        have : (2 : Int) ^ 53 - 1 < 10 ^ 16 := by decide
        omega
      exact hsmall.trans (Nat.pow_lt_pow_right (by decide) (by decide))
  | float q =>
      show Valid M.text (.float (.finite q))
      rw [Valid]
      exact h

theorem valid_option {α : Type} {f : α → Json} {o : Option α} (h : ∀ x, o = some x → Valid M.text (f x)) :
    Valid M.text (jsonOfOption f o) := by
  cases o with
  | none =>
      show Valid M.text .null
      rw [Valid]
      trivial
  | some x => exact h x rfl

theorem valid_strings (xs : List String) : Valid M.text (stringsJson xs) := by
  unfold stringsJson
  rw [valid_list]
  intro x hx
  obtain ⟨s, -, rfl⟩ := List.mem_map.mp hx
  exact valid_str s

theorem valid_bool (b : Bool) : Valid M.text (.bool b) := by
  rw [Valid]
  trivial

theorem valid_labels {family : Definition} {labels : Labels} (h : LabelsOk family labels) :
    Valid M.text (labelsJson labels) := by
  unfold labelsJson
  rw [valid_dict]
  constructor
  · rw [List.map_map]
    exact h.nodup
  · intro m hm
    obtain ⟨l, -, rfl⟩ := List.mem_map.mp hm
    exact valid_str l.2

theorem valid_bound {b : Bound} (h : b.Kept M) : Valid M.text b.toJson := by
  cases b with
  | num x => exact valid_num h
  | inf => exact valid_str _

theorem valid_gauge {s : Scalar} (h : s.Accepted M.toFloatFormat .gauges)
    (hkept : s.head.Kept M ∧ s.value.Kept M) : Valid M.text (gaugeJson s) := by
  unfold gaugeJson
  rw [valid_dict]
  refine ⟨by simp, ?_⟩
  simp only [List.forall_mem_cons]
  exact ⟨valid_str _, valid_labels h.head.labels, valid_num hkept.2, valid_str _,
    valid_option fun t ht => valid_num (hkept.1.sampleAt t ht), valid_bool _,
    fun _ hm => absurd hm List.not_mem_nil⟩

theorem valid_counter {s : Scalar} (h : s.Accepted M.toFloatFormat .counters)
    (hkept : s.head.Kept M ∧ s.value.Kept M) : Valid M.text (counterJson s) := by
  unfold counterJson
  rw [valid_dict]
  refine ⟨by simp, ?_⟩
  simp only [List.forall_mem_cons]
  exact ⟨valid_str _, valid_labels h.head.labels, valid_num hkept.2, valid_str _,
    valid_option fun t ht => valid_num (hkept.1.sampleAt t ht), valid_bool _,
    valid_option fun t ht => valid_num (hkept.1.createdAt t ht), fun _ hm => absurd hm List.not_mem_nil⟩

theorem valid_histogram {s : Histogram} (h : s.Accepted M.toFloatFormat)
    (hkept : s.head.Kept M ∧ (∀ b ∈ s.bounds, b.Kept M) ∧ (∀ c ∈ s.counts, c.Kept M) ∧ s.count.Kept M ∧
      s.sum.Kept M) : Valid M.text (histogramJson s) := by
  obtain ⟨hhead, hbounds, hcounts, hcount, hsum⟩ := hkept
  unfold histogramJson
  rw [valid_dict]
  refine ⟨by simp, ?_⟩
  simp only [List.forall_mem_cons]
  refine ⟨valid_str _, valid_labels h.head.labels, valid_str _, valid_num hcount, valid_num hsum,
    valid_bool _, valid_option fun t ht => valid_num (hhead.createdAt t ht),
    valid_option fun t ht => valid_num (hhead.sampleAt t ht), ?_, ?_, fun _ hm => absurd hm List.not_mem_nil⟩
  · rw [valid_list]
    intro x hx
    obtain ⟨b, hb, rfl⟩ := List.mem_map.mp hx
    exact valid_bound (hbounds b hb)
  · rw [valid_list]
    intro x hx
    obtain ⟨c, hc, rfl⟩ := List.mem_map.mp hx
    exact valid_num (hcounts c hc)

theorem valid_engine {e : Engine} (h : e.Accepted M.toFloatFormat) (hkept : e.Kept M) :
    Valid M.text e.toJson := by
  unfold Engine.toJson
  rw [valid_dict]
  refine ⟨by simp, ?_⟩
  simp only [List.forall_mem_cons]
  refine ⟨valid_str _, valid_str _, ?_, ?_, ?_, valid_strings _, fun _ hm => absurd hm List.not_mem_nil⟩
  · rw [valid_list]
    intro x hx
    obtain ⟨s, hs, rfl⟩ := List.mem_map.mp hx
    exact valid_gauge (h.gauges s hs) (hkept.gauges s hs)
  · rw [valid_list]
    intro x hx
    obtain ⟨s, hs, rfl⟩ := List.mem_map.mp hx
    exact valid_counter (h.counters s hs) (hkept.counters s hs)
  · rw [valid_list]
    intro x hx
    obtain ⟨s, hs, rfl⟩ := List.mem_map.mp hx
    exact valid_histogram (h.histograms s hs) (hkept.histograms s hs)

theorem valid_snapshot {s : Snapshot} (h : s.Accepted M.toFloatFormat) (hkept : s.Kept M) :
    Valid M.text s.toJson := by
  unfold Snapshot.toJson
  rw [valid_dict]
  refine ⟨by simp, ?_⟩
  simp only [List.forall_mem_cons]
  refine ⟨?_, valid_num hkept.observedAt, valid_str _, ?_, ?_, valid_strings _, valid_strings _,
    fun _ hm => absurd hm List.not_mem_nil⟩
  · rw [Valid]
    decide
  · unfold Identity.toJson
    rw [valid_dict]
    refine ⟨by simp, ?_⟩
    simp only [List.forall_mem_cons]
    exact ⟨valid_str _, valid_option fun s _ => valid_str s, valid_option fun s _ => valid_str s,
      valid_option fun s _ => valid_str s, fun _ hm => absurd hm List.not_mem_nil⟩
  · rw [valid_list]
    intro x hx
    obtain ⟨e, he, rfl⟩ := List.mem_map.mp hx
    exact valid_engine (h.engines e he) (hkept.engines e he)

end Valid

/-! ## `interval` on what was parsed -/

/-- The positive gap limits that `_number` accepts: integers up to `2 ** 53 - 1`, and floats in its range
    whose decimal is no larger integer. -/
def Admitted (F : FloatFormat) (gap : Json) : Prop :=
  (∃ n : Int, gap = .int n ∧ 0 < n ∧ n ≤ 2 ^ 53 - 1) ∨
    ∃ q, gap = .float (.finite q) ∧ 0 < F.printed q ∧ F.printed q ≤ maxNumber ∧
      (isInteger (F.printed q) = true → F.printed q ≤ maxSafeCount) ∧ 0 < F.round (F.printed q)

theorem maxSafe_le : maxSafeCount ≤ maxNumber := by
  have h16 : maxSafeCount ≤ 10 ^ 16 := by
    unfold maxSafeCount
    norm_num
  refine h16.trans ?_
  unfold maxNumber
  apply pow_le_pow_right₀
  · norm_num
  · omega

theorem gapLimit_ok {F : FloatFormat} {x y : Num} (hy : numberOf F false maxNumber x = .ok y)
    (hne : y.value ≠ 0) : gapLimit F x.toJson = .ok y.value := by
  have hlimit : gapLimit F x.toJson = (do
      let maximum ← numberOf F false maxNumber x
      failIf (maximum.value = 0) .gapLimitInvalid
      .ok maximum.value) := by
    cases x with
    | int n   => rfl
    | float q => rfl
  rw [hlimit, hy]
  show (do failIf (y.value = 0) .gapLimitInvalid; .ok y.value) = Except.ok y.value
  rw [decide_eq_false hne]
  rfl

theorem gapLimit_admitted {F : FloatFormat} {gap : Json} (h : Admitted F gap) :
    ∃ maximum, gapLimit F gap = .ok maximum := by
  rcases h with ⟨n, rfl, hpos, hle⟩ | ⟨q, rfl, hpos, hle, hsafe, hround⟩
  · have hsafe : (n : ℚ) ≤ maxSafeCount := safe_iff.mpr hle
    have hmax : (n : ℚ) ≤ maxNumber := hsafe.trans maxSafe_le
    refine ⟨_, gapLimit_ok (numberOf_int hpos.le hmax hsafe) ?_⟩
    show (n : ℚ) ≠ 0
    exact_mod_cast hpos.ne'
  · have hvalue : (keptNumber F (F.printed q)).value ≠ 0 := by
      unfold keptNumber
      split
      · next hint =>
        obtain ⟨n, hn⟩ := isInteger_iff.mp hint
        rw [hn, Rat.num_intCast]
        show (n : ℚ) ≠ 0
        rw [← hn]
        exact hpos.ne'
      · exact hround.ne'
    have hnumber : numberOf F false maxNumber (.float q) = .ok (keptNumber F (F.printed q)) := by
      show numberOfDecimal F false maxNumber (F.printed q) = _
      unfold numberOfDecimal
      rw [(checkDecimal_eq_ok F (u := ())).mpr
        ⟨⟨hpos.le, hle⟩, hsafe, fun h => Bool.noConfusion h, fun _ => hround.ne'⟩]
      rfl
    exact ⟨_, gapLimit_ok hnumber hvalue⟩

/-- **Snapshots are closed under the validator**: `interval` takes what `parse_snapshot` returned, also
    after it was printed to JSON and read back, for every gap limit that is admitted. -/
theorem parsed_accepted {payload : Payload} {observedAt identity sourceState : Json} {s : Snapshot}
    (h : parseSnapshot M payload observedAt identity sourceState = .ok s) :
    JsonText.loads M.text (JsonText.text M.text s.toJson) = some s.toJson ∧
      ∀ gap, Admitted M.toFloatFormat gap →
        ∃ r, interval M.toFloatFormat none s.toJson gap = .ok r := by
  obtain ⟨haccepted, hkept⟩ := parseSnapshot_accepted h
  refine ⟨JsonText.loads_text (valid_snapshot haccepted hkept), ?_⟩
  intro gap hgap
  obtain ⟨maximum, hmax⟩ := gapLimit_admitted hgap
  refine ⟨compare M.toFloatFormat none s maximum, ?_⟩
  unfold interval
  simp only [bind_eq_ok]
  exact ⟨s, validateSnapshot_toJson M.toFloatFormat haccepted, maximum, hmax, rfl⟩

/-! ## A machine of whole numbers -/

/-- The numeral of a whole number, with a fraction of zero. -/
def wholeNumeral (q : ℚ) : Numeral := { Numeral.ofInt ⌊q⌋ with fraction := some ['0'] }

theorem wholeNumeral_value (n : Int) : (wholeNumeral n).value = n := by
  have hdigits : digitsValue ((Numeral.ofInt n).whole ++ ['0']) = 10 * n.natAbs := by
    unfold digitsValue
    rw [Nat.ofDigitChars_append]
    show Nat.ofDigitChars 10 ['0'] (digitsValue (Nat.toDigits 10 n.natAbs)) = _
    rw [Numeral.digitsValue_toDigits]
    rfl
  unfold wholeNumeral Numeral.value Numeral.coefficient Numeral.power
  rw [Int.floor_intCast]
  show (if (Numeral.ofInt n).sign = some '-' then -1 else 1) *
    ((digitsValue ((Numeral.ofInt n).whole ++ ['0']) : Nat) : ℚ) * (10 : ℚ) ^ ((0 : Int) - 1) = n
  rw [hdigits]
  unfold Numeral.ofInt
  dsimp only
  by_cases hn : n < 0
  · rw [if_pos hn, if_pos rfl]
    have habs : (n.natAbs : ℚ) = -n := by
      rw [← Int.cast_natCast, Int.ofNat_natAbs_of_nonpos hn.le, Int.cast_neg]
    push_cast
    rw [habs]
    norm_num
    ring
  · rw [if_neg hn, if_neg (by decide)]
    have habs : (n.natAbs : ℚ) = n := by
      rw [← Int.cast_natCast, Int.natAbs_of_nonneg (not_lt.mp hn)]
    push_cast
    rw [habs]
    norm_num
    ring

theorem maxNumber_lt : (10 : ℚ) ^ 300 < 2 ^ 1024 := by
  have hbase : (10 : ℚ) ^ 3 < 2 ^ 10 := by norm_num
  have hhundred : ((10 : ℚ) ^ 3) ^ 100 < (2 ^ 10) ^ 100 := by
    apply pow_lt_pow_left₀ hbase
    · norm_num
    · omega
  rw [← pow_mul, ← pow_mul] at hhundred
  refine hhundred.trans_le (pow_le_pow_right₀ ?_ ?_)
  · norm_num
  · omega

/-- Numbers are rounded down to integers: the machine's floats, where a text has small integers only. -/
def wholeMachine : Machine where
  round q := ⌊q⌋
  printed := id
  round_mono h := by exact_mod_cast Int.floor_mono h
  round_int n _ := by rw [Int.floor_intCast]
  printed_int := FloatFormat.exact.printed_int
  round_printed x := by
    show ((⌊((⌊x⌋ : Int) : ℚ)⌋ : Int) : ℚ) = _
    rw [Int.floor_intCast]
  repr := wholeNumeral
  round_finite x hx hle := by
    have hfloor : (0 : ℚ) ≤ (⌊x⌋ : Int) := by exact_mod_cast Int.floor_nonneg.mpr hx
    rw [abs_of_nonneg hfloor]
    exact ((Int.floor_le x).trans hle).trans_lt maxNumber_lt
  repr_isJson x _ := by
    obtain ⟨hsign, hwhole, -, -⟩ := Numeral.ofInt_isJson ⌊((⌊x⌋ : Int) : ℚ)⌋
    refine ⟨hsign, hwhole, ?_, fun e he => (by cases he)⟩
    intro f hf
    cases hf
    exact ⟨by decide, by decide⟩
  repr_float _ _ := rfl
  printed_repr x _ := (wholeNumeral_value _).symm

/-- The text of one gauge. -/
def oneGaugeText : String :=
  "# TYPE vllm:num_requests_running gauge\n" ++
    "vllm:num_requests_running\x7bmodel_name=\"m\",engine=\"0\"\x7d 2 5000\n"

/-- Its snapshot. -/
def oneGauge : Snapshot :=
  { observedAt := .int 100, sourceState := .observed, identity := ⟨"s", none, none, none⟩
    engines := [{ modelName := "m", engineId := "0"
                  gauges := [{ head := { family := ⟨"vllm:num_requests_running", .gauges, .requests, []⟩
                                         labels := [], sampleAt := some (.float 5), createdAt := none
                                         typeDeclared := true }
                               value := .int 2 }]
                  counters := [], histograms := []
                  notReported := notReportedNames ["vllm:num_requests_running"] }]
    unsupported := []
    notReported := notReportedNames ["vllm:num_requests_running"] }

theorem oneGauge_size : documentSize wholeMachine oneGauge ≤ maxPayloadBytes := by
  have hlength := JsonText.length_text_le wholeMachine.text oneGauge.toJson
  have hbytes := JsonText.utf8ByteSize_ofList_le (JsonText.text wholeMachine.text oneGauge.toJson)
  have hsize : 4 * JsonText.size wholeMachine.text oneGauge.toJson ≤ maxPayloadBytes := by decide +kernel
  unfold documentSize utf8Length
  omega

theorem oneGauge_parsed : parseSnapshot wholeMachine (.str oneGaugeText) (.int 100)
    (.dict [("sourceId", .str "s")]) (.str "OBSERVED") = .ok oneGauge := by
  have htime : observationTime wholeMachine.toFloatFormat (.int 100) = .ok (.int 100) := by decide +kernel
  have hidentity : identityOf (.dict [("sourceId", .str "s")]) = .ok ⟨"s", none, none, none⟩ := by
    decide +kernel
  have hdecode : (Payload.str oneGaugeText).decode = .ok oneGaugeText := by decide +kernel
  have hread : readText wholeMachine.toFloatFormat oneGaugeText = .ok (oneGauge.engines, []) := by
    decide +kernel
  exact parseSnapshot_observed htime hidentity hdecode hread oneGauge_size
/-- The gauge is accepted with a limit of one minute. -/
theorem parsed_accepted_gauge :
    ∃ r, interval wholeMachine.toFloatFormat none oneGauge.toJson (.int 60) = .ok r := by
  refine (parsed_accepted oneGauge_parsed).2 (.int 60) (.inl ⟨60, rfl, ?_, ?_⟩)
  · decide
  · decide

/-- **A gap limit of `2 ** 53` is refused**, although it is positive. -/
theorem gap_refused : ∃ payload observedAt identity sourceState s,
    parseSnapshot wholeMachine payload observedAt identity sourceState = .ok s ∧
      ∃ n : Int, 0 < n ∧
        interval wholeMachine.toFloatFormat none s.toJson (.int n) = .error .numberUnsafeInteger := by
  refine ⟨_, _, _, _, oneGauge, oneGauge_parsed, 2 ^ 53, by decide, ?_⟩
  unfold interval
  rw [validateSnapshot_toJson _ (parseSnapshot_accepted oneGauge_parsed).1]
  have hgap : gapLimit wholeMachine.toFloatFormat (.int (2 ^ 53)) = .error .numberUnsafeInteger := by
    decide +kernel
  show (do let maximum ← gapLimit wholeMachine.toFloatFormat (.int (2 ^ 53)); _) = _
  rw [hgap]
  rfl

end Metrics
end PickleInfra
