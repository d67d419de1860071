import PickleInfra.Canary.HostQuery
import PickleInfra.Metrics.Sound
import PickleInfra.Statistics.Labelled

/-!
# `Canary.Counters` — what a counter delta of the host query says about the engines

Each engine reports a series of its own. The probe compares the sums, `inference_metrics` compares series by series.
The two agree exactly if no series fell, vanished or appeared with a value, or the sum itself fell.
-/

namespace PickleInfra
namespace Canary

open Python Labelled
open Metrics (FloatFormat CounterChange EngineKey SeriesKey)

/-! ## The series of a page -/

section Series

variable (F : FloatFormat)

/-- The number of generated tokens a line reports, with its labels. -/
def tokenSample (line : List Char) : Option (Option (List Char) × ℚ) :=
  match sampleLine line with
  | some s =>
    if s.name = "vllm:generation_tokens_total" then
      match sampleValue F s.value with
      | .ok v    => some (s.labels, v)
      | .error _ => none
    else none
  | none   => none

/-- The `vllm:generation_tokens_total` samples of a page. `labelSet` reads what stands between the braces. -/
def tokenSeries {L : Type} (labelSet : Option (List Char) → L) (page : List Char) : List (L × ℚ) :=
  ((Str.splitlines page).filterMap (tokenSample F)).map fun s => (labelSet s.1, s.2)

theorem sampleValue_nonneg {F : FloatFormat} {value : List Char} {q : ℚ} (h : sampleValue F value = .ok q) :
    0 ≤ q := by
  unfold sampleValue at h
  split at h
  · split at h
    · cases h
    next hpos =>
      cases h
      exact not_lt.mp hpos
  · cases h
  · cases h

theorem tokenSample_nonneg {F : FloatFormat} {line : List Char} {s : Option (List Char) × ℚ}
    (h : tokenSample F line = some s) : 0 ≤ s.2 := by
  unfold tokenSample at h
  split at h
  · split at h
    · split at h
      next hv =>
        cases h
        exact sampleValue_nonneg hv
      · cases h
    · cases h
  · cases h

theorem tokenSeries_nonneg {F : FloatFormat} {L : Type} {labelSet : Option (List Char) → L} {page : List Char}
    {s : L × ℚ} (h : s ∈ tokenSeries F labelSet page) : 0 ≤ s.2 := by
  obtain ⟨t, ht, rfl⟩ := List.mem_map.mp h
  obtain ⟨line, -, hline⟩ := List.mem_filterMap.mp ht
  exact tokenSample_nonneg hline

/-- Only the token counter is summed under `generation_tokens`. -/
theorem generation_tokens_iff {name : String} :
    Dict.lookup name METRICS = some "generation_tokens" ↔ name = "vllm:generation_tokens_total" := by
  constructor
  · intro h
    have hmem := Dict.mem_of_lookup h
    simpa [METRICS] using hmem
  · rintro rfl
    rfl

/-- What one line does to the sum. -/
theorem readLine_lookup {F : FloatFormat} {result result' : List (String × ℚ)} {line : List Char}
    (h : readLine F result line = .ok result') :
    Dict.lookup "generation_tokens" result' =
      match tokenSample F line with
      | none   => Dict.lookup "generation_tokens" result
      | some s => some (F.round ((Dict.lookup "generation_tokens" result).getD 0 + s.2)) := by
  unfold readLine at h
  unfold tokenSample
  cases hs : sampleLine line with
  | none =>
      rw [hs] at h
      cases h
      rfl
  | some s =>
      rw [hs] at h
      dsimp only at h ⊢
      cases hname : Dict.lookup s.name METRICS with
      | none =>
          rw [hname] at h
          cases h
          rw [if_neg fun hs => by rw [generation_tokens_iff.mpr hs] at hname; cases hname]
      | some name =>
          rw [hname] at h
          dsimp only at h
          cases hv : sampleValue F s.value with
          | error e => rw [hv] at h; cases h
          | ok v =>
              rw [hv] at h
              cases h
              unfold addSample
              rw [Dict.lookup_assign]
              by_cases hgeneration : name = "generation_tokens"
              · subst hgeneration
                rw [if_pos rfl, if_pos (generation_tokens_iff.mp hname)]
              · rw [if_neg hgeneration, if_neg fun hs => hgeneration (by
                  rw [generation_tokens_iff.mpr hs] at hname
                  exact (Option.some.inj hname).symm)]

end Series

/-- What a run of the loop adds to the sum, in exact numbers. -/
theorem readLines_lookup {lines : List (List Char)} : ∀ {result result' : List (String × ℚ)},
    lines.foldlM (readLine .exact) result = .ok result' →
      Dict.lookup "generation_tokens" result' =
        if lines.filterMap (tokenSample .exact) = [] then Dict.lookup "generation_tokens" result
        else some ((Dict.lookup "generation_tokens" result).getD 0 +
          ((lines.filterMap (tokenSample .exact)).map Prod.snd).sum) := by
  induction lines with
  | nil =>
      intro result result' h
      cases h
      rfl
  | cons line lines ih =>
      intro result result' h
      rw [List.foldlM_cons, bind_eq_ok] at h
      obtain ⟨middle, hline, hlines⟩ := h
      rw [ih hlines, readLine_lookup hline]
      cases ht : tokenSample .exact line with
      | none => rw [List.filterMap_cons_none ht]
      | some s =>
          rw [List.filterMap_cons_some ht, if_neg (List.cons_ne_nil _ _), List.map_cons, List.sum_cons]
          dsimp only
          split
          next hnil =>
            rw [hnil, List.map_nil, List.sum_nil, add_zero]
            rfl
          next hcons =>
            rw [Option.getD_some, ← add_assoc]
            rfl

/-- The sum that is kept of a page. -/
theorem parseMetrics_total {L : Type} (labelSet : Option (List Char) → L) {page : List Char}
    {metrics : List (String × ℚ)} (h : parseMetrics .exact page = .ok metrics) :
    Dict.lookup "generation_tokens" metrics =
      if tokenSeries .exact labelSet page = [] then none else some (total (tokenSeries .exact labelSet page)) := by
  rw [readLines_lookup h]
  unfold tokenSeries total
  simp only [List.map_eq_nil_iff, List.map_map]
  split
  · rfl
  · rw [Dict.lookup, Option.getD_none, zero_add]
    rfl

/-! ## Two probes -/

/-- A response that has metrics is a page that was read. -/
theorem metricsFields_page {F : FloatFormat} {a : HostAnswers} {page : List Char} (hpage : a.metrics = .page page)
    (h : (metricsFields F a).2 ≠ []) : parseMetrics F page = .ok (metricsFields F a).2 := by
  have hof : metricsOf F a.metrics = .ok (metricsFields F a).2 := by
    unfold metricsFields at h ⊢
    by_cases hhealthy : (Json.dict a.check).getOrNull "status" = .str "HEALTHY"
    · rw [if_pos hhealthy] at h ⊢
      cases hm : metricsOf F a.metrics with
      | ok metrics   => rfl
      | error reason => rw [hm] at h; exact absurd rfl h
    · rw [if_neg hhealthy] at h
      exact absurd rfl h
  rw [hpage, metricsOf] at hof
  cases hp : parseMetrics F page with
  | error e => rw [hp] at hof; cases hof
  | ok metrics =>
      rw [hp] at hof
      dsimp only at hof
      split at hof
      · exact congrArg Except.ok (Except.ok.inj hof)
      · cases hof

theorem hostQuery_metrics {F : FloatFormat} (source : String) (state : Option Scraped) (now : ℚ) {a : HostAnswers}
    (h : (metricsFields F a).2 ≠ []) :
    (hostQuery F source state now a).1.counters = some (counters F state (metricsFields F a).2 a.bootId).1 ∧
      (hostQuery F source state now a).2 = some { metrics := (metricsFields F a).2, bootId := a.bootId } := by
  unfold hostQuery
  dsimp only
  rw [List.isEmpty_eq_false_iff.mpr h]
  exact ⟨rfl, rfl⟩

/-- A probe without metrics keeps what was known. -/
theorem hostQuery_silent {F : FloatFormat} (source : String) (state : Option Scraped) (now : ℚ) {a : HostAnswers}
    (h : (metricsFields F a).2 = []) : (hostQuery F source state now a).2 = state := by
  unfold hostQuery
  dsimp only
  rw [h]
  rfl

/-- What is kept after a run of probes. -/
def afterProbes (F : FloatFormat) (source : String) (state : Option Scraped) (probes : List (ℚ × HostAnswers)) :
    Option Scraped :=
  probes.foldl (fun state p => (hostQuery F source state p.1 p.2).2) state

theorem afterProbes_silent {F : FloatFormat} (source : String) (state : Option Scraped)
    {probes : List (ℚ × HostAnswers)} (h : ∀ p ∈ probes, (metricsFields F p.2).2 = []) :
    afterProbes F source state probes = state := by
  induction probes generalizing state with
  | nil => rfl
  | cons p probes ih =>
      show afterProbes F source (hostQuery F source state p.1 p.2).2 probes = state
      rw [hostQuery_silent source state p.1 (h p List.mem_cons_self)]
      exact ih state fun p hp => h p (List.mem_cons_of_mem _ hp)

/-- The comparison on the same boot: a reset, or a delta. -/
theorem counters_eq {F : FloatFormat} {state : Scraped} {metrics : List (String × ℚ)} {bootId : Json}
    (hboot : state.bootId.equal bootId = true) :
    (counters F (some state) metrics bootId).1 =
      match Dict.lookup "generation_tokens" state.metrics, Dict.lookup "generation_tokens" metrics with
      | some old, some current => if old ≤ current then ⟨false, some (F.round (current - old))⟩ else ⟨true, none⟩
      | _, _                   => ⟨true, none⟩ := by
  unfold counters
  dsimp only
  cases hold : Dict.lookup "generation_tokens" state.metrics with
  | none =>
      rw [Option.bind_some, hold]
  | some old =>
      cases Dict.lookup "generation_tokens" metrics with
      | none => rw [Option.bind_some, hold]
      | some current =>
          rw [Option.bind_some, hold, Option.any_some, hboot]
          simp only [Bool.true_and, decide_eq_true_eq]

/-! ## Agreement with the interval -/

/-- Wherever a snapshot has the series of an engine, it has this value. -/
def Reports (document : Json) (engine : EngineKey) (key : SeriesKey) (v : ℚ) : Prop :=
  ∀ s, Metrics.validateSnapshot .exact document = .ok s → ∀ e ∈ s.engines, e.key = engine →
    ∀ x ∈ e.counters, Metrics.keyOf (Metrics.counterKind .exact) x = key → x.value.value = v

/-- A valid row of the interval between two snapshots, of a series that had these two values. -/
def IntervalRow (previous current gap : Json) (old new : ℚ) (change : CounterChange) : Prop :=
  ∃ r, Metrics.interval .exact (some previous) current gap = .ok r ∧ ∃ o ∈ r.engines, ∃ row ∈ o.counters,
    row.state = .valid ∧ row.change = some change ∧ Reports previous (o.modelName, o.engineId) row.key old ∧
      Reports current (o.modelName, o.engineId) row.key new

/-- The interval reports the change of the series. -/
theorem intervalRow_delta {previous current gap : Json} {old new : ℚ} {change : CounterChange}
    (h : IntervalRow previous current gap old new change) : change.delta.value = new - old := by
  obtain ⟨r, hr, o, ho, row, hrow, hvalid, hchange, hold, hnew⟩ := h
  obtain ⟨p, c, maximum, hevidence, ep, hep, ec, hec, hkeys, hkey, so, hso, sn, hsn, hv, elapsed, ch, -, hch, hok⟩ :=
    ((Metrics.interval_sound hr o ho).1 row hrow).2 hvalid
  rw [hchange] at hch
  cases hch
  obtain ⟨v, hsome, hp⟩ := hevidence.previous
  cases hsome
  rw [hok.delta, hnew c hevidence.current ec hec hkey sn hsn hv.rowKey.symm,
    hold p hp ep hep (hkeys.trans hkey) so hso (hv.sameKey.trans hv.rowKey.symm)]

section Faithful

variable {L : Type} [DecidableEq L]

/-- No series fell or vanished. -/
def NoneFell (old new : List (L × ℚ)) : Prop := ∀ l ∈ labels old, l ∈ labels new ∧ value old l ≤ value new l

/-- No series appeared with tokens that were already counted. -/
def NoneAppeared (old new : List (L × ℚ)) : Prop := ∀ l ∈ labels new, l ∉ labels old → value new l = 0

/-- What a delta should mean: no reset is hidden, and it is the sum of what the series grew by, also as the interval
    reports it. -/
structure Faithful (old new : List (L × ℚ)) (delta : ℚ) : Prop where
  noneFell : NoneFell old new
  increases : delta = ∑ l ∈ labels old, (value new l - value old l)
  interval : ∀ (previous current gap : Json) (change : L → CounterChange),
    (∀ l ∈ labels old, IntervalRow previous current gap (value old l) (value new l) (change l)) →
      delta = ∑ l ∈ labels old, (change l).delta.value

theorem faithful_of_noneAppeared {old new : List (L × ℚ)} (hnonneg : ∀ s ∈ new, 0 ≤ s.2)
    (hfell : NoneFell old new) (happeared : NoneAppeared old new) : Faithful old new (total new - total old) := by
  have hdelta := (total_sub_eq_iff hnonneg).mpr happeared
  refine ⟨hfell, hdelta, fun previous current gap change hrows => hdelta.trans ?_⟩
  exact Finset.sum_congr rfl fun l hl => (intervalRow_delta (hrows l hl)).symm

end Faithful

/-- What the engines report, by their numbers. -/
def enginePage (lines : List (String × String)) : List Char :=
  lines.flatMap fun l => ("vllm:generation_tokens_total" ++ String.ofList [Char.ofNat 123] ++ "engine=" ++ l.1 ++
    String.ofList [Char.ofNat 125] ++ " " ++ l.2).toList ++ ['\n']

/-- A probe of a host in good health. -/
def probed (page : List Char) : HostAnswers where
  host := [("status", .str "HEALTHY"), ("boot_id", .str "b1")]
  check := [("status", .str "HEALTHY"), ("reason", .str "HEALTH_AND_MODEL_VERIFIED")]
  metrics := .page page

def beforeRestart : List Char := enginePage [("0", "100"), ("1", "100")]

def afterRestart : List Char := enginePage [("0", "0"), ("1", "250")]

end Canary
end PickleInfra
