import PickleInfra.Metrics.Interval

/-!
# `Metrics.Sound` — a valid row is evidence from two comparable snapshots

The refusal reasons are inverted one layer at a time: the pair of snapshots (`comparable_of_reason`), one
series (`seriesElapsed_ok`, `delta_valid`), and the change of each kind. A row that is `VALID` then has all
of it at once. Numbers are exact rationals here, so a difference is the difference.
-/

namespace PickleInfra
namespace Metrics

open Python

/-! ## Numbers and histograms -/

section Numbers

variable {F : FloatFormat}

theorem numberOf_ok {count : Bool} {maximum : ℚ} {x y : Num} (h : numberOf F count maximum x = .ok y) :
    0 ≤ decimalOf F x ∧ decimalOf F x ≤ maximum ∧ y = keptNumber F (decimalOf F x) ∧
      (count = true → isInteger (decimalOf F x) = true) := by
  unfold numberOf numberOfDecimal at h
  simp only [bind_eq_ok, failIf_eq_ok, exists_const, checkDecimal_eq_ok, Except.ok.injEq] at h
  obtain ⟨-, ⟨⟨hpos, hmax⟩, -, hcount, -⟩, rfl⟩ := h
  exact ⟨hpos, hmax, rfl, hcount⟩

@[simp] theorem decimalOf_exact (x : Num) : decimalOf .exact x = x.value := by cases x <;> rfl

/-- An exact number is kept as it is. -/
theorem keptNumber_exact (q : ℚ) : (keptNumber .exact q).value = q := by
  unfold keptNumber
  by_cases h : isInteger q = true
  · obtain ⟨n, rfl⟩ := isInteger_iff.mp h
    rw [if_pos h]
    exact congrArg (Int.cast : Int → ℚ) (Rat.num_intCast n)
  · rw [if_neg h]
    rfl

theorem numberOf_exact_ok {count : Bool} {maximum : ℚ} {x y : Num}
    (h : numberOf .exact count maximum x = .ok y) :
    0 ≤ x.value ∧ x.value ≤ maximum ∧ y.value = x.value := by
  obtain ⟨hpos, hmax, rfl, -⟩ := numberOf_ok h
  rw [decimalOf_exact] at hpos hmax
  exact ⟨hpos, hmax, (keptNumber_exact _).trans (decimalOf_exact x)⟩

/-- Every cumulative count that passes is a number. -/
theorem checkBuckets_nonneg {lastBound lastCount : ℚ} {buckets : List (Bound × Num)} {u : Unit}
    (h : checkBuckets .exact lastBound lastCount buckets = .ok u) :
    ∀ b ∈ buckets, 0 ≤ b.2.value := by
  induction buckets generalizing lastBound lastCount with
  | nil => simp
  | cons b rest ih =>
      obtain ⟨bound, cumulative⟩ := b
      unfold checkBuckets at h
      simp only [bind_eq_ok, failIf_eq_ok, exists_const] at h
      obtain ⟨_, -, y, hy, -, hrest⟩ := h
      intro b hb
      rcases List.mem_cons.mp hb with rfl | hb
      · exact (numberOf_exact_ok hy).1
      · exact ih hrest b hb

/-- What `_histogram` says of the numbers it accepts. -/
theorem histogram_ok {bounds : List Bound} {counts : List Num} {count total : Num} {u : Unit}
    (h : histogram .exact bounds counts (some count) (some total) = .ok u) :
    bounds.length = counts.length ∧ (∀ c ∈ counts, 0 ≤ c.value) ∧ 0 ≤ count.value ∧ 0 ≤ total.value := by
  unfold histogram at h
  simp only [bind_eq_ok, failIf_eq_ok, exists_const, Bool.or_eq_false_iff, decide_eq_false_iff_not,
    not_not] at h
  obtain ⟨⟨⟨-, hlength⟩, -⟩, _, hbuckets, x, hx, y, hy, -⟩ := h
  refine ⟨hlength, ?_, (numberOf_exact_ok hx).1, (numberOf_exact_ok hy).1⟩
  intro c hc
  have hmap : (bounds.zip counts).map Prod.snd = counts := List.map_snd_zip (by omega)
  rw [← hmap] at hc
  obtain ⟨b, hb, rfl⟩ := List.mem_map.mp hc
  exact checkBuckets_nonneg hbuckets b hb

end Numbers

/-! ## The pair of snapshots -/

/-- Two snapshots of one observed epoch, in order and close enough. -/
structure Comparable (F : FloatFormat) (p c : Snapshot) (maximum : ℚ) : Prop where
  previousObserved : p.sourceState = .observed
  currentObserved : c.sourceState = .observed
  complete : c.identity.complete = true
  identity : p.identity = c.identity
  later : 0 < (c.observedAt.sub F p.observedAt).value
  near : (c.observedAt.sub F p.observedAt).value ≤ maximum

theorem pairReason_eq_none {F : FloatFormat} {previous : Option Snapshot} {c : Snapshot} {maximum : ℚ} :
    pairReason previous c (previous.map fun p => c.observedAt.sub F p.observedAt) maximum = none ↔
      ∃ p, previous = some p ∧ Comparable F p c maximum := by
  unfold pairReason
  cases previous with
  | none =>
      constructor
      · intro h
        split at h
        · cases h
        split at h <;> cases h
      · rintro ⟨p, hp, -⟩
        cases hp
  | some p =>
      simp only [Option.map_some, Option.getD_some, Option.some.injEq, exists_eq_left']
      constructor
      · intro h
        split at h
        · cases h
        next hcurrent =>
        split at h
        · cases h
        next hcomplete =>
        split at h
        · cases h
        next hprevious =>
        split at h
        · cases h
        next hpcomplete =>
        split at h
        · cases h
        next hidentity =>
        split at h
        · cases h
        next hlater =>
        split at h
        · cases h
        next hnear =>
        exact ⟨not_not.mp hprevious, not_not.mp hcurrent, by simpa using hcomplete, not_not.mp hidentity,
          not_le.mp hlater, not_lt.mp hnear⟩
      · rintro ⟨hprevious, hcurrent, hcomplete, hidentity, hlater, hnear⟩
        simp [hprevious, hcurrent, hcomplete, hidentity, not_le.mpr hlater, not_lt.mpr hnear]

/-! ## One series -/

section Series

variable {S C : Type} {k : SeriesKind S C}

theorem seriesElapsed_ok {previous current : Head} {elapsed duration : Num} {maximum : ℚ}
    (h : seriesElapsed .exact previous current elapsed maximum = .ok duration) :
    0 < duration.value ∧ duration.value ≤ maximum ∧
      ((previous.sampleAt = none ∧ current.sampleAt = none ∧ duration = elapsed) ∨
        ∃ old new, previous.sampleAt = some old ∧ current.sampleAt = some new ∧
          duration = new.sub .exact old) := by
  have hbounds : ∀ d : Num, (if d.value ≤ 0 then
      (.error (if d.value = 0 then .duplicateTimestamp else .clockMovedBackwards) : Except Reason Num)
      else if maximum < d.value then .error .sampleGap else .ok d) = .ok duration →
      duration = d ∧ 0 < duration.value ∧ duration.value ≤ maximum := by
    intro d hd
    split at hd
    · cases hd
    next hpos =>
    split at hd
    · cases hd
    next hle =>
    cases hd
    exact ⟨rfl, not_le.mp hpos, not_lt.mp hle⟩
  unfold seriesElapsed at h
  cases ho : previous.sampleAt with
  | none =>
      cases hn : current.sampleAt with
      | none =>
          rw [ho, hn] at h
          obtain ⟨rfl, hpos, hle⟩ := hbounds _ h
          exact ⟨hpos, hle, .inl ⟨rfl, rfl, rfl⟩⟩
      | some new => rw [ho, hn] at h; cases h
  | some old =>
      cases hn : current.sampleAt with
      | none => rw [ho, hn] at h; cases h
      | some new =>
          rw [ho, hn] at h
          obtain ⟨rfl, hpos, hle⟩ := hbounds _ h
          exact ⟨hpos, hle, .inr ⟨old, new, rfl, rfl, rfl⟩⟩

/-- What a valid row says: the series of both snapshots, their window, and their change. -/
structure ValidRow (k : SeriesKind S C) (maximum : ℚ) (old new : S) (row : Row C) : Prop where
  sameKey : keyOf k old = keyOf k new
  rowKey : row.key = keyOf k new
  createdAt : (k.head old).createdAt.map Num.value = (k.head new).createdAt.map Num.value
  window : ∃ elapsed fromAt toAt change, row.elapsedSeconds = some elapsed ∧
    row.fromSampleAt = some fromAt ∧ row.toSampleAt = some toAt ∧
    elapsed.value = toAt.value - fromAt.value ∧ 0 < elapsed.value ∧ elapsed.value ≤ maximum ∧
    row.change = some change ∧ k.change old new elapsed = .ok change

/-- A row has a change exactly if it is valid. -/
theorem delta_change {F : FloatFormat} (previous : Option S) (current : S) (elapsed : Option Num)
    (maximum : ℚ) (reason : Option Reason) (windowFrom windowTo : Option Num) :
    (delta F k previous current elapsed maximum reason windowFrom windowTo).change.isSome =
      decide ((delta F k previous current elapsed maximum reason windowFrom windowTo).state =
        .valid) := by
  unfold delta
  cases reason with
  | some r => rfl
  | none =>
      dsimp only
      split <;> rfl

theorem delta_key {F : FloatFormat} (previous : Option S) (current : S) (elapsed : Option Num)
    (maximum : ℚ) (reason : Option Reason) (windowFrom windowTo : Option Num) :
    (delta F k previous current elapsed maximum reason windowFrom windowTo).key = keyOf k current := by
  unfold delta
  cases reason with
  | some r => rfl
  | none =>
      dsimp only
      split <;> rfl

/-- A row of a current series is never `NOT_REPORTED`. -/
theorem delta_reported {F : FloatFormat} (previous : Option S) (current : S) (elapsed : Option Num)
    (maximum : ℚ) (reason : Option Reason) (windowFrom windowTo : Option Num) :
    (delta F k previous current elapsed maximum reason windowFrom windowTo).state ≠ .notReported := by
  unfold delta
  cases reason with
  | some r => exact fun h => by cases h
  | none =>
      dsimp only
      split
      · exact fun h => by cases h
      · exact fun h => by cases h

/-- **A valid row of a series**, when the window of the snapshots is known. -/
theorem delta_valid {old : List S} {current : S} {elapsed windowFrom windowTo : Num} {maximum : ℚ}
    {reason : Option Reason} (helapsed : elapsed.value = windowTo.value - windowFrom.value)
    (h : (delta .exact k (findSeries k old (keyOf k current)) current (some elapsed) maximum reason
      (some windowFrom) (some windowTo)).state = .valid) :
    reason = none ∧ ∃ s ∈ old, ValidRow k maximum s current
      (delta .exact k (findSeries k old (keyOf k current)) current (some elapsed) maximum reason
        (some windowFrom) (some windowTo)) := by
  cases reason with
  | some r => cases h
  | none =>
      refine ⟨rfl, ?_⟩
      cases hf : findSeries k old (keyOf k current) with
      | none => rw [hf] at h; cases h
      | some s =>
          have hkey : keyOf k s = keyOf k current := by simpa using List.find?_some hf
          rw [hf] at h
          unfold delta at h ⊢
          dsimp only at h ⊢
          cases hc : changeOf .exact k (some s) current (some elapsed) maximum with
          | error e => rw [hc] at h; cases h
          | ok done =>
              obtain ⟨duration, change⟩ := done
              refine ⟨s, List.mem_of_find?_eq_some hf, hkey, rfl, ?_, ?_⟩
              all_goals
                unfold changeOf at hc
                dsimp only at hc
                split at hc
                · cases hc
              · next hcreated =>
                unfold createdDiffers at hcreated
                simpa using hcreated
              · simp only [bind_eq_ok, Except.ok.injEq, Prod.mk.injEq, Option.getD_some] at hc
                obtain ⟨d, hd, ch, hch, rfl, rfl⟩ := hc
                obtain ⟨hpos, hle, hwindow⟩ := seriesElapsed_ok hd
                rcases hwindow with ⟨ho, hn, rfl⟩ | ⟨o, n, ho, hn, rfl⟩
                · refine ⟨_, windowFrom, windowTo, ch, rfl, ?_, ?_, helapsed, hpos, hle, rfl, hch⟩
                  · show ((some s).bind fun p => (k.head p).sampleAt).or (some windowFrom) = _
                    rw [Option.bind_some, ho]
                    rfl
                  · show (k.head current).sampleAt.or (some windowTo) = _
                    rw [hn]
                    rfl
                · refine ⟨n.sub .exact o, o, n, ch, rfl, ?_, ?_, Num.sub_exact n o, hpos, hle, rfl, hch⟩
                  · show ((some s).bind fun p => (k.head p).sampleAt).or (some windowFrom) = _
                    rw [Option.bind_some, ho]
                    rfl
                  · show (k.head current).sampleAt.or (some windowTo) = _
                    rw [hn]
                    rfl

/-- A valid row of an engine comes from one series of each snapshot. -/
theorem rowsOf_valid {old new : List S} {elapsed windowFrom windowTo : Num} {maximum : ℚ}
    {reason : Option Reason} (helapsed : elapsed.value = windowTo.value - windowFrom.value)
    {row : Row C} (hrow : row ∈ rowsOf .exact k old new (some elapsed) maximum reason (some windowFrom)
      (some windowTo)) (hvalid : row.state = .valid) :
    reason = none ∧ ∃ so ∈ old, ∃ sn ∈ new, ValidRow k maximum so sn row := by
  rcases List.mem_append.mp hrow with hrow | hrow
  · obtain ⟨sn, hsn, rfl⟩ := List.mem_map.mp hrow
    obtain ⟨hreason, so, hso, hv⟩ := delta_valid helapsed hvalid
    exact ⟨hreason, so, hso, sn, hsn, hv⟩
  · obtain ⟨so, -, rfl⟩ := List.mem_map.mp hrow
    cases hvalid

/-- Without a window there is no valid row. -/
theorem rowsOf_valid_reason {F : FloatFormat} {old new : List S} {elapsed windowFrom windowTo : Option Num}
    {maximum : ℚ} {reason : Option Reason} {row : Row C}
    (hrow : row ∈ rowsOf F k old new elapsed maximum reason windowFrom windowTo)
    (hvalid : row.state = .valid) : reason = none := by
  rcases List.mem_append.mp hrow with hrow | hrow
  · obtain ⟨sn, -, rfl⟩ := List.mem_map.mp hrow
    cases reason with
    | none => rfl
    | some r => cases hvalid
  · obtain ⟨so, -, rfl⟩ := List.mem_map.mp hrow
    cases hvalid

/-- A row that is not valid has no change. -/
theorem rowsOf_change {F : FloatFormat} {old new : List S} {elapsed windowFrom windowTo : Option Num}
    {maximum : ℚ} {reason : Option Reason} {row : Row C}
    (hrow : row ∈ rowsOf F k old new elapsed maximum reason windowFrom windowTo)
    (hvalid : row.state ≠ .valid) : row.change = none := by
  rcases List.mem_append.mp hrow with hrow | hrow
  · obtain ⟨sn, -, rfl⟩ := List.mem_map.mp hrow
    rw [← Option.not_isSome_iff_eq_none, delta_change, decide_eq_true_eq]
    exact hvalid
  · obtain ⟨so, -, rfl⟩ := List.mem_map.mp hrow
    rfl

end Series

/-! ## The change of each kind -/

/-- The numbers of a valid counter row. -/
structure CounterChange.Ok (old new : Scalar) (elapsed : ℚ) (change : CounterChange) : Prop where
  delta : change.delta.value = new.value.value - old.value.value
  nonneg : 0 ≤ change.delta.value
  rate : change.ratePerSecond.value = change.delta.value / elapsed

theorem counterChange_ok {old new : Scalar} {elapsed : Num} {change : CounterChange}
    (h : counterChange .exact old new elapsed = .ok change) : change.Ok old new elapsed.value := by
  unfold counterChange at h
  dsimp only at h
  split at h
  · cases h
  next hpos =>
  split at h
  · cases h
  cases h
  exact ⟨Num.sub_exact _ _, not_lt.mp hpos, rfl⟩

/-- The numbers of a valid histogram row, bucket by bucket. -/
structure HistogramChange.Ok (old new : Histogram) (change : HistogramChange) : Prop where
  bounds : new.bounds.map Bound.value = old.bounds.map Bound.value
  buckets : change.counts.length = new.bounds.length
  counts : change.counts.map Num.value =
    List.zipWith (· - ·) (new.counts.map Num.value) (old.counts.map Num.value)
  countsNonneg : ∀ c ∈ change.counts, 0 ≤ c.value
  count : change.count.value = new.count.value - old.count.value
  countNonneg : 0 ≤ change.count.value
  sum : change.sum.value = new.sum.value - old.sum.value
  sumNonneg : 0 ≤ change.sum.value
  mean : change.mean.map Num.value =
    if change.count.value = 0 then none else some (change.sum.value / change.count.value)

theorem histogramChange_ok {old new : Histogram} {elapsed : Num} {change : HistogramChange}
    (h : histogramChange .exact old new elapsed = .ok change) : change.Ok old new := by
  unfold histogramChange at h
  split at h
  · cases h
  next hbounds =>
  dsimp only at h
  split at h
  · cases h
  next hok =>
  obtain ⟨hlength, hcounts, hcount, hsum⟩ := histogram_ok hok
  cases h
  refine ⟨not_not.mp hbounds, hlength.symm, ?_, hcounts, Num.sub_exact _ _, hcount, Num.sub_exact _ _,
    hsum, ?_⟩
  · show (List.zipWith (Num.sub .exact) new.counts old.counts).map Num.value = _
    rw [List.map_zipWith, List.zipWith_map]
    exact congrArg (fun f => List.zipWith f new.counts old.counts)
      (funext fun a => funext fun b => Num.sub_exact a b)
  · show (if (new.count.sub .exact old.count).value = 0 then none else some _).map Num.value = _
    split <;> rfl

/-! ## `interval` -/

/-- The evidence behind a valid row: both documents were valid snapshots, and comparable. -/
structure Evidence (previous : Option Json) (current gap : Json) (p c : Snapshot) (maximum : ℚ) :
    Prop where
  previous : ∃ v, previous = some v ∧ validateSnapshot .exact v = .ok p
  current : validateSnapshot .exact current = .ok c
  gap : gapLimit .exact gap = .ok maximum
  comparable : Comparable .exact p c maximum

theorem interval_eq {F : FloatFormat} {previous : Option Json} {current gap : Json} {r : Interval}
    (h : interval F previous current gap = .ok r) :
    ∃ c maximum, validateSnapshot F current = .ok c ∧ gapLimit F gap = .ok maximum ∧
      ((previous = none ∧ r = compare F none c maximum) ∨
        ∃ v p, previous = some v ∧ validateSnapshot F v = .ok p ∧ r = compare F (some p) c maximum) := by
  unfold interval at h
  simp only [bind_eq_ok] at h
  obtain ⟨c, hc, maximum, hgap, h⟩ := h
  refine ⟨c, maximum, hc, hgap, ?_⟩
  cases previous with
  | none => exact .inl ⟨rfl, (Except.ok.inj h).symm⟩
  | some v =>
      simp only [bind_eq_ok] at h
      obtain ⟨p, hp, h⟩ := h
      exact .inr ⟨v, p, rfl, hp, (Except.ok.inj h).symm⟩

section Rows

variable {S C : Type}

/-- A valid row of one kind of one engine of the output. -/
theorem engine_rows_sound (k : SeriesKind S C) (series : Engine → List S) {p : Option Snapshot}
    {c : Snapshot} {maximum : ℚ} {g : Engine} {row : Row C}
    (hrow : row ∈ rowsOf .exact k
      (((findEngine ((p.map Snapshot.engines).getD []) g.key).map series).getD []) (series g)
      (windowOf .exact p c maximum).elapsed maximum
      ((windowOf .exact p c maximum).reason.or
        (if (findEngine ((p.map Snapshot.engines).getD []) g.key).isNone then some .newModelOrEngine
          else none))
      (windowOf .exact p c maximum).fromObservedAt (some c.observedAt))
    (hvalid : row.state = .valid) :
    ∃ p', p = some p' ∧ Comparable .exact p' c maximum ∧ ∃ e ∈ p'.engines, e.key = g.key ∧
      ∃ so ∈ series e, ∃ sn ∈ series g, ValidRow k maximum so sn row := by
  have hreason := rowsOf_valid_reason hrow hvalid
  rw [Option.or_eq_none_iff] at hreason
  obtain ⟨hpair, hengine⟩ := hreason
  obtain ⟨p', rfl, hcomparable⟩ := pairReason_eq_none.mp hpair
  refine ⟨p', rfl, hcomparable, ?_⟩
  cases hf : findEngine p'.engines g.key with
  | none =>
      rw [Option.map_some, Option.getD_some, hf] at hengine
      cases hengine
  | some e =>
      have hkey : e.key = g.key := by simpa using List.find?_some hf
      refine ⟨e, List.mem_of_find?_eq_some hf, hkey, ?_⟩
      have hold : (((findEngine (((some p').map Snapshot.engines).getD []) g.key).map series).getD []) =
          series e := by rw [Option.map_some, Option.getD_some, hf]; rfl
      rw [hold] at hrow
      exact (rowsOf_valid (Num.sub_exact c.observedAt p'.observedAt) hrow hvalid).2

end Rows

/-- **Nothing is fabricated.** A valid counter or histogram row of an interval is computed from one series
    of each of two comparable snapshots, over a window within the limit, and its numbers are the
    differences and quotients; every other row has no numbers. -/
theorem interval_sound {previous : Option Json} {current gap : Json} {r : Interval}
    (h : interval .exact previous current gap = .ok r) :
    ∀ o ∈ r.engines,
      (∀ row ∈ o.counters,
        (row.state ≠ .valid → row.change = none) ∧
        (row.state = .valid → ∃ p c maximum, Evidence previous current gap p c maximum ∧
          ∃ ep ∈ p.engines, ∃ ec ∈ c.engines, ep.key = ec.key ∧ ec.key = (o.modelName, o.engineId) ∧
          ∃ old ∈ ep.counters, ∃ new ∈ ec.counters, ValidRow (counterKind .exact) maximum old new row ∧
          ∃ elapsed change, row.elapsedSeconds = some elapsed ∧ row.change = some change ∧
            change.Ok old new elapsed.value)) ∧
      (∀ row ∈ o.histograms,
        (row.state ≠ .valid → row.change = none) ∧
        (row.state = .valid → ∃ p c maximum, Evidence previous current gap p c maximum ∧
          ∃ ep ∈ p.engines, ∃ ec ∈ c.engines, ep.key = ec.key ∧ ec.key = (o.modelName, o.engineId) ∧
          ∃ old ∈ ep.histograms, ∃ new ∈ ec.histograms,
            ValidRow (histogramKind .exact) maximum old new row ∧
          ∃ change, row.change = some change ∧ change.Ok old new)) := by
  obtain ⟨c, maximum, hc, hgap, hr⟩ := interval_eq h
  obtain ⟨p, hp, rfl⟩ : ∃ p : Option Snapshot,
      (∀ p', p = some p' → ∃ v, previous = some v ∧ validateSnapshot .exact v = .ok p') ∧
      r = compare .exact p c maximum := by
    rcases hr with ⟨-, rfl⟩ | ⟨v, p, hv, hp, rfl⟩
    · exact ⟨none, by rintro p ⟨⟩, rfl⟩
    · exact ⟨some p, by rintro p' ⟨⟩; exact ⟨v, hv, hp⟩, rfl⟩
  intro o ho
  obtain ⟨g, hg, rfl⟩ := List.mem_map.mp ho
  refine ⟨fun row hrow => ⟨rowsOf_change hrow, fun hvalid => ?_⟩,
    fun row hrow => ⟨rowsOf_change hrow, fun hvalid => ?_⟩⟩
  · obtain ⟨p', hp', hcomparable, ep, hep, hkey, old, hold, new, hnew, hv⟩ :=
      engine_rows_sound (counterKind .exact) Engine.counters hrow hvalid
    refine ⟨p', c, maximum, ⟨hp p' hp', hc, hgap, hcomparable⟩, ep, hep, g, hg, hkey, rfl, old, hold,
      new, hnew, hv, ?_⟩
    obtain ⟨elapsed, -, -, change, he, -, -, -, -, -, hchange, hok⟩ := hv.window
    exact ⟨elapsed, change, he, hchange, counterChange_ok hok⟩
  · obtain ⟨p', hp', hcomparable, ep, hep, hkey, old, hold, new, hnew, hv⟩ :=
      engine_rows_sound (histogramKind .exact) Engine.histograms hrow hvalid
    refine ⟨p', c, maximum, ⟨hp p' hp', hc, hgap, hcomparable⟩, ep, hep, g, hg, hkey, rfl, old, hold,
      new, hnew, hv, ?_⟩
    obtain ⟨elapsed, _, _, change, _, _, _, _, _, _, hchange, hok⟩ := hv.window
    exact ⟨change, hchange, @histogramChange_ok _ _ elapsed _ hok⟩

/-- A snapshot with one counter of one engine. -/
def oneCounter (observedAt value : Int) : Json :=
  .dict [("version", .int 1), ("observedAt", .int observedAt), ("sourceState", .str "OBSERVED"),
    ("identity", .dict [("sourceId", .str "s"), ("bootId", .str "b"), ("processId", .str "p"),
      ("configId", .str "c")]),
    ("engines", .list [.dict [("modelName", .str "m"), ("engineId", .str "0"), ("gauges", .list []),
      ("counters", .list [.dict [("name", .str "vllm:prompt_tokens_total"), ("labels", .dict []),
        ("unit", .str "tokens"), ("sampleAt", .null), ("typeDeclared", .bool true),
        ("value", .int value), ("createdAt", .int 7)]]),
      ("histograms", .list []), ("notReportedMetricNames", .list [])]]),
    ("unsupportedMetricNames", .list []), ("notReportedMetricNames", .list [])]

/-- Fifty tokens in ten seconds: the interval has a valid row, and its change is not negative. -/
theorem interval_sound_tokens : ∃ r o row change,
    interval .exact (some (oneCounter 100 40)) (oneCounter 110 90) (.int 60) = .ok r ∧
      o ∈ r.engines ∧ row ∈ o.counters ∧ row.state = .valid ∧ row.change = some change ∧
      0 ≤ change.delta.value := by
  have hstates : (interval .exact (some (oneCounter 100 40)) (oneCounter 110 90) (.int 60)).toOption.map
      (fun r => r.engines.map (fun o => o.counters.map Row.state)) = some [[.valid]] := by
    decide +kernel
  cases hr : interval .exact (some (oneCounter 100 40)) (oneCounter 110 90) (.int 60) with
  | error e => rw [hr] at hstates; cases hstates
  | ok r =>
      rw [hr] at hstates
      have hengines : r.engines.map (fun o => o.counters.map Row.state) = [[.valid]] :=
        Option.some.inj hstates
      obtain ⟨o, ho, hrows⟩ := List.mem_map.mp (hengines ▸ List.mem_singleton_self [RowState.valid])
      obtain ⟨row, hrow, hvalid⟩ := List.mem_map.mp (hrows ▸ List.mem_singleton_self RowState.valid)
      obtain ⟨_, _, _, -, _, -, _, -, -, -, _, -, _, -, -, _, change, -, hchange, hok⟩ :=
        ((interval_sound hr o ho).1 row hrow).2 hvalid
      exact ⟨r, o, row, change, rfl, ho, hrow, hvalid, hchange, hok.nonneg⟩

end Metrics
end PickleInfra
