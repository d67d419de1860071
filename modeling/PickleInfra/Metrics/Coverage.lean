import PickleInfra.Metrics.Sound

/-!
# `Metrics.Coverage` — every series of the two snapshots is in the interval, exactly once

A snapshot that passes `_validate_snapshot` has no engine twice and no series twice (`Snapshot.Distinct`);
the `seen` sets of the validator carry it. The rows of one engine are then the union of the two indexes,
and the overall state is decided by the pair of snapshots, the rows and the engines that are gone.
-/

namespace PickleInfra
namespace Metrics

open Python

/-! ## What the validator's `seen` sets give -/

section Distinct

variable {F : FloatFormat}

section Lists

variable {S : Type} {headOfSeries : S → Head} {kind : Kind} {rest : Head → Json → Checked S}
  (hrest : ∀ {head item s}, rest head item = .ok s → headOfSeries s = head)
include hrest

/-- A series that was accepted is new, and remembered. -/
theorem seriesOf_ok {engine : EngineKey} {seen seen' : Seen} {item : Json} {s : S}
    (h : seriesOf F kind rest engine seen item = .ok (seen', s)) :
    (engine, (headOfSeries s).key) ∉ seen ∧ seen' = (engine, (headOfSeries s).key) :: seen := by
  unfold seriesOf at h
  simp only [bind_eq_ok, failIf_eq_ok, exists_const] at h
  obtain ⟨⟨family, labels, typeDeclared⟩, hfamily, hseen, head, hhead, series, hseries, h⟩ := h
  cases h
  rw [hrest hseries]
  have hkey : head.key = (family.name, labels) := by
    unfold headOf at hhead
    simp only [bind_eq_ok, failIf_eq_ok, exists_const] at hhead
    obtain ⟨-, sampleAt, -, createdAt, -, hhead⟩ := hhead
    cases hhead
    rfl
  rw [hkey]
  refine ⟨?_, rfl⟩
  intro hmem
  rw [Bool.or_eq_false_iff] at hseen
  exact absurd hseen.1 (by rw [List.contains_iff_mem.mpr hmem]; decide)

/-- The series of one kind of one engine are distinct, and new. -/
theorem seriesList_ok {engine : EngineKey} {seen seen' : Seen} {items : List Json} {all : List S}
    (h : seriesList F kind rest engine seen items = .ok (seen', all)) :
    (all.map fun s => (headOfSeries s).key).Nodup ∧
      ∀ s ∈ all, (engine, (headOfSeries s).key) ∉ seen := by
  induction items generalizing seen all with
  | nil =>
      cases h
      exact ⟨List.nodup_nil, fun s hs => absurd hs List.not_mem_nil⟩
  | cons item items ih =>
      unfold seriesList at h
      simp only [bind_eq_ok] at h
      obtain ⟨⟨next, s⟩, hs, ⟨last, others⟩, hothers, h⟩ := h
      cases h
      obtain ⟨hnew, rfl⟩ := seriesOf_ok hrest hs
      obtain ⟨hnodup, hothersNew⟩ := ih hothers
      constructor
      · rw [List.map_cons, List.nodup_cons]
        refine ⟨?_, hnodup⟩
        intro hmem
        obtain ⟨t, ht, hkey⟩ := List.mem_map.mp hmem
        apply hothersNew t ht
        rw [hkey]
        exact List.mem_cons_self
      · intro t ht
        rcases List.mem_cons.mp ht with rfl | ht
        · exact hnew
        · exact fun hmem => hothersNew t ht (List.mem_cons_of_mem _ hmem)

end Lists

theorem scalarOf_head {head : Head} {item : Json} {s : Scalar} (h : scalarOf F head item = .ok s) :
    s.head = head := by
  unfold scalarOf at h
  simp only [bind_eq_ok] at h
  obtain ⟨value, -, _, -, h⟩ := h
  cases h
  rfl

theorem histogramOf_head {head : Head} {item : Json} {s : Histogram}
    (h : histogramOf F head item = .ok s) : s.head = head := by
  unfold histogramOf at h
  simp only [bind_eq_ok] at h
  obtain ⟨_, -, _, -, _, -, bounds, -, counts, -, count, -, sum, -, _, -, h⟩ := h
  cases h
  rfl

/-- The series of an engine, each kind without a repeated key. -/
structure Engine.Distinct (e : Engine) : Prop where
  counters : (e.counters.map fun s => s.head.key).Nodup
  histograms : (e.histograms.map fun s => s.head.key).Nodup

theorem engineOf_ok {engines : List EngineKey} {seen seen' : Seen} {group : Json} {e : Engine}
    (h : engineOf F engines seen group = .ok (seen', e)) : e.key ∉ engines ∧ e.Distinct := by
  unfold engineOf at h
  simp only [bind_eq_ok, failIf_eq_ok, exists_const] at h
  obtain ⟨-, modelName, -, engineId, -, hnew, notReported, -, _, -, ⟨_, gauges⟩, -, _, -,
    ⟨_, counters⟩, hcounters, _, -, ⟨_, histograms⟩, hhistograms, h⟩ := h
  cases h
  refine ⟨?_, (seriesList_ok scalarOf_head hcounters).1, (seriesList_ok histogramOf_head hhistograms).1⟩
  intro hmem
  have hcontains : engines.contains (modelName, engineId) = true := List.contains_iff_mem.mpr hmem
  rw [hnew] at hcontains
  cases hcontains

theorem engineList_ok {engines : List EngineKey} {seen : Seen} {groups : List Json} {all : List Engine}
    (h : engineList F engines seen groups = .ok all) :
    (all.map Engine.key).Nodup ∧ ∀ e ∈ all, e.key ∉ engines ∧ e.Distinct := by
  induction groups generalizing engines seen all with
  | nil =>
      cases h
      exact ⟨List.nodup_nil, fun e he => absurd he List.not_mem_nil⟩
  | cons group groups ih =>
      unfold engineList at h
      simp only [bind_eq_ok] at h
      obtain ⟨⟨next, e⟩, he, others, hothers, h⟩ := h
      cases h
      obtain ⟨hnew, hdistinct⟩ := engineOf_ok he
      obtain ⟨hnodup, hrest⟩ := ih hothers
      constructor
      · rw [List.map_cons, List.nodup_cons]
        refine ⟨?_, hnodup⟩
        intro hmem
        obtain ⟨t, ht, hkey⟩ := List.mem_map.mp hmem
        apply (hrest t ht).1
        rw [hkey]
        exact List.mem_cons_self
      · intro t ht
        rcases List.mem_cons.mp ht with rfl | ht
        · exact ⟨hnew, hdistinct⟩
        · exact ⟨fun hmem => (hrest t ht).1 (List.mem_cons_of_mem _ hmem), (hrest t ht).2⟩

/-- No engine twice, and in no engine a series twice. -/
structure Snapshot.Distinct (s : Snapshot) : Prop where
  engines : (s.engines.map Engine.key).Nodup
  series : ∀ e ∈ s.engines, e.Distinct

theorem validateSnapshot_distinct {v : Json} {s : Snapshot} (h : validateSnapshot F v = .ok s) :
    s.Distinct := by
  unfold validateSnapshot at h
  simp only [bind_eq_ok] at h
  obtain ⟨_, -, h⟩ := h
  split at h
  · cases h
  simp only [bind_eq_ok] at h
  obtain ⟨_, -, identity, -, observedAt, -, _, -, unsupported, -, notReported, -, groups, -, _, -, _, -,
    engines, hengines, h⟩ := h
  cases h
  obtain ⟨hnodup, hall⟩ := engineList_ok hengines
  exact ⟨hnodup, fun e he => (hall e he).2⟩

end Distinct

/-! ## The rows of one engine -/

/-- The rows have each key of either index once, and those that only the old index has are the ones
    `NOT_REPORTED`. -/
structure Covers {C : Type} (old new : SeriesKey → Prop) (rows : List (Row C)) : Prop where
  nodup : (rows.map Row.key).Nodup
  keys : ∀ key, key ∈ rows.map Row.key ↔ new key ∨ old key
  notReported : ∀ row ∈ rows, row.state = .notReported ↔ ¬ new row.key

section Rows

variable {S C : Type} (F : FloatFormat) (k : SeriesKind S C)

theorem rowsOf_keys (old new : List S) (elapsed : Option Num) (maximum : ℚ) (reason : Option Reason)
    (windowFrom windowTo : Option Num) :
    (rowsOf F k old new elapsed maximum reason windowFrom windowTo).map Row.key =
      new.map (keyOf k) ++ (old.map (keyOf k)).filter (fun key => !(new.map (keyOf k)).contains key) := by
  unfold rowsOf
  rw [List.map_append, List.map_map, List.map_map, List.filter_map]
  congr 1
  apply List.map_congr_left
  intro s _
  exact delta_key _ _ _ _ _ _ _

theorem rowsOf_covers {old new : List S} (hold : (old.map (keyOf k)).Nodup)
    (hnew : (new.map (keyOf k)).Nodup) (elapsed : Option Num) (maximum : ℚ) (reason : Option Reason)
    (windowFrom windowTo : Option Num) :
    Covers (· ∈ old.map (keyOf k)) (· ∈ new.map (keyOf k))
      (rowsOf F k old new elapsed maximum reason windowFrom windowTo) := by
  refine ⟨?_, ?_, ?_⟩
  · rw [rowsOf_keys, List.nodup_append]
    refine ⟨hnew, hold.filter _, ?_⟩
    intro a ha b hb hab
    subst hab
    have hfilter := (List.mem_filter.mp hb).2
    rw [List.contains_iff_mem.mpr ha] at hfilter
    cases hfilter
  · intro key
    rw [rowsOf_keys, List.mem_append, List.mem_filter, Bool.not_eq_true', ← Bool.not_eq_true,
      List.contains_iff_mem]
    by_cases h : key ∈ new.map (keyOf k)
    · exact ⟨fun _ => .inl h, fun _ => .inl h⟩
    · constructor
      · rintro (h' | ⟨h', -⟩)
        · exact .inl h'
        · exact .inr h'
      · rintro (h' | h')
        · exact .inl h'
        · exact .inr ⟨h', h⟩
  · intro row hrow
    unfold rowsOf at hrow
    rcases List.mem_append.mp hrow with hrow | hrow
    · obtain ⟨s, hs, rfl⟩ := List.mem_map.mp hrow
      rw [delta_key]
      have hmem : keyOf k s ∈ new.map (keyOf k) := List.mem_map_of_mem hs
      exact ⟨fun h => absurd h (delta_reported _ _ _ _ _ _ _), fun h => absurd hmem h⟩
    · obtain ⟨s, hs, rfl⟩ := List.mem_map.mp hrow
      have hgone := (List.mem_filter.mp hs).2
      rw [Bool.not_eq_true', ← Bool.not_eq_true, List.contains_iff_mem] at hgone
      exact ⟨fun _ => hgone, fun _ => rfl⟩

end Rows

/-! ## `interval` -/

def EngineOutput.key (o : EngineOutput) : EngineKey := (o.modelName, o.engineId)

def counterKeys (e : Engine) : List SeriesKey := e.counters.map fun s => s.head.key
def histogramKeys (e : Engine) : List SeriesKey := e.histograms.map fun s => s.head.key

/-- The snapshot, if there is one, has the series under the engine. -/
def HasSeries (s : Option Snapshot) (keys : Engine → List SeriesKey) (engine : EngineKey)
    (key : SeriesKey) : Prop :=
  ∃ t, s = some t ∧ ∃ e ∈ t.engines, e.key = engine ∧ key ∈ keys e

/-- Every series and every engine of either snapshot is in the interval, and nothing else. -/
structure Coverage (p : Option Snapshot) (c : Snapshot) (r : Interval) : Prop where
  engines : r.engines.map EngineOutput.key = c.engines.map Engine.key
  once : (r.engines.map EngineOutput.key).Nodup
  counters : ∀ o ∈ r.engines,
    Covers (HasSeries p counterKeys o.key) (HasSeries (some c) counterKeys o.key) o.counters
  histograms : ∀ o ∈ r.engines,
    Covers (HasSeries p histogramKeys o.key) (HasSeries (some c) histogramKeys o.key) o.histograms
  missingOnce : r.missingEngineKeys.Nodup
  missing : ∀ key, key ∈ r.missingEngineKeys ↔
    (∃ t, p = some t ∧ key ∈ t.engines.map Engine.key) ∧ key ∉ c.engines.map Engine.key

/-- The engine of a key, in a list of engines without repetition. -/
theorem mem_engine_iff {engines : List Engine} (hnodup : (engines.map Engine.key).Nodup)
    {engine : EngineKey} {keys : Engine → List SeriesKey} {key : SeriesKey} :
    (∃ e ∈ engines, e.key = engine ∧ key ∈ keys e) ↔
      key ∈ ((findEngine engines engine).map keys).getD [] := by
  constructor
  · rintro ⟨e, he, hengine, hkey⟩
    have hfind : findEngine engines engine = some e := by
      unfold findEngine
      cases hf : engines.find? (fun e => e.key = engine) with
      | none =>
          have := List.find?_eq_none.mp hf e he
          simp [hengine] at this
      | some t =>
          have ht : t.key = engine := by simpa using List.find?_some hf
          have := List.inj_on_of_nodup_map hnodup (List.mem_of_find?_eq_some hf) he (ht.trans hengine.symm)
          rw [this]
    rw [hfind]
    exact hkey
  · intro h
    cases hf : findEngine engines engine with
    | none => rw [hf] at h; exact absurd h List.not_mem_nil
    | some e =>
        rw [hf] at h
        exact ⟨e, List.mem_of_find?_eq_some hf, by simpa using List.find?_some hf, h⟩

theorem hasSeries_iff {p : Option Snapshot} (hp : ∀ t, p = some t → t.Distinct)
    (keys : Engine → List SeriesKey) (engine : EngineKey) (key : SeriesKey) :
    HasSeries p keys engine key ↔
      key ∈ ((findEngine ((p.map Snapshot.engines).getD []) engine).map keys).getD [] := by
  cases p with
  | none =>
      constructor
      · rintro ⟨t, ht, -⟩
        cases ht
      · intro h
        exact absurd h List.not_mem_nil
  | some t =>
      rw [Option.map_some, Option.getD_some, ← mem_engine_iff (hp t rfl).engines]
      constructor
      · rintro ⟨t', ht, h⟩
        cases ht
        exact h
      · intro h
        exact ⟨t, rfl, h⟩

/-- The series of an engine of the current snapshot are the ones under its key. -/
theorem hasSeries_current {c : Snapshot} (hc : c.Distinct) (keys : Engine → List SeriesKey) {g : Engine}
    (hg : g ∈ c.engines) (key : SeriesKey) : HasSeries (some c) keys g.key key ↔ key ∈ keys g := by
  constructor
  · rintro ⟨t, ht, e, he, hkey, hmem⟩
    cases ht
    rwa [List.inj_on_of_nodup_map hc.engines he hg hkey] at hmem
  · intro h
    exact ⟨c, rfl, g, hg, rfl, h⟩

/-- The engine of the previous snapshot that an engine is compared with has distinct series too. -/
theorem findEngine_distinct {p : Option Snapshot} (hp : ∀ t, p = some t → t.Distinct) {engine : EngineKey}
    {e : Engine} (h : findEngine ((p.map Snapshot.engines).getD []) engine = some e) : e.Distinct := by
  cases p with
  | none => cases h
  | some t => exact (hp t rfl).series e (List.mem_of_find?_eq_some h)

section Engines

variable {F : FloatFormat} {S C : Type} (k : SeriesKind S C) (series : Engine → List S)

/-- The rows of one kind of one engine cover the series of that kind in both snapshots. -/
theorem engine_rows_cover {p : Option Snapshot} {c : Snapshot} (hp : ∀ t, p = some t → t.Distinct)
    (hc : c.Distinct) (hnodup : ∀ e : Engine, e.Distinct → ((series e).map (keyOf k)).Nodup)
    {g : Engine} (hg : g ∈ c.engines) (elapsed : Option Num) (maximum : ℚ) (reason : Option Reason)
    (windowFrom windowTo : Option Num) :
    Covers (HasSeries p (fun e => (series e).map (keyOf k)) g.key)
      (HasSeries (some c) (fun e => (series e).map (keyOf k)) g.key)
      (rowsOf F k (((findEngine ((p.map Snapshot.engines).getD []) g.key).map series).getD []) (series g)
        elapsed maximum reason windowFrom windowTo) := by
  have hold : HasSeries p (fun e => (series e).map (keyOf k)) g.key =
      (· ∈ (((findEngine ((p.map Snapshot.engines).getD []) g.key).map series).getD []).map (keyOf k)) := by
    funext key
    rw [hasSeries_iff hp]
    cases findEngine ((p.map Snapshot.engines).getD []) g.key with
    | none => rfl
    | some e => rfl
  have hnew : HasSeries (some c) (fun e => (series e).map (keyOf k)) g.key =
      (· ∈ (series g).map (keyOf k)) :=
    funext fun key => propext (hasSeries_current hc _ hg key)
  rw [hold, hnew]
  apply rowsOf_covers
  · cases hf : findEngine ((p.map Snapshot.engines).getD []) g.key with
    | none => exact List.nodup_nil
    | some e => exact hnodup e (findEngine_distinct hp hf)
  · exact hnodup g (hc.series g hg)

end Engines

/-- The comparison of two distinct snapshots covers both. -/
theorem compare_coverage {F : FloatFormat} {p : Option Snapshot} {c : Snapshot}
    (hp : ∀ t, p = some t → t.Distinct) (hc : c.Distinct) (maximum : ℚ) :
    Coverage p c (compare F p c maximum) := by
  have hkeys : (compare F p c maximum).engines.map EngineOutput.key = c.engines.map Engine.key := by
    show (c.engines.map _).map EngineOutput.key = _
    rw [List.map_map]
    rfl
  have hperm : List.Perm (compare F p c maximum).missingEngineKeys
      ((((p.map Snapshot.engines).getD []).map Engine.key).filter
        (fun key => !(c.engines.map Engine.key).contains key)) := List.perm_insertionSort _ _
  have hold : (((p.map Snapshot.engines).getD []).map Engine.key).Nodup := by
    cases p with
    | none => exact List.nodup_nil
    | some t => exact (hp t rfl).engines
  refine ⟨hkeys, hkeys ▸ hc.engines, ?_, ?_, hperm.nodup_iff.mpr (hold.filter _), ?_⟩
  · intro o ho
    obtain ⟨g, hg, rfl⟩ := List.mem_map.mp ho
    exact engine_rows_cover (counterKind F) Engine.counters hp hc (fun e he => he.counters) hg _ _ _ _ _
  · intro o ho
    obtain ⟨g, hg, rfl⟩ := List.mem_map.mp ho
    exact engine_rows_cover (histogramKind F) Engine.histograms hp hc (fun e he => he.histograms) hg _ _ _ _ _
  · intro key
    rw [hperm.mem_iff, List.mem_filter, Bool.not_eq_true', ← Bool.not_eq_true, List.contains_iff_mem]
    cases p with
    | none => simp
    | some t => simp

/-! ## The overall state -/

/-- All rows of an interval. -/
def Interval.states (r : Interval) : List RowState := r.engines.flatMap EngineOutput.states

/-- When the overall reason is missing, and what the state then is. -/
theorem overall_spec {c : Snapshot} {reason : Option Reason} (hreason : c.sourceState ≠ .observed →
    reason ≠ none) (states : List RowState) (missing : List EngineKey) :
    ((overall c reason states missing).1 = .valid ↔ (overall c reason states missing).2 = none) ∧
      ((overall c reason states missing).2 = none ↔
        reason = none ∧ states ≠ [] ∧ (∀ s ∈ states, s = .valid) ∧ missing = []) ∧
      ((overall c reason states missing).1 = .unavailable ↔ c.sourceState ≠ .observed) := by
  unfold overall
  by_cases hsource : c.sourceState = .observed
  · rw [if_neg (not_not.mpr hsource)]
    cases reason with
    | some r => simp [hsource]
    | none =>
        dsimp only
        by_cases hall : states ≠ [] ∧ (∀ s ∈ states, s = .valid) ∧ missing = []
        · obtain ⟨hstates, hvalid, rfl⟩ := hall
          have hany : states.any (fun s => decide (s ≠ .valid)) = false := by
            simpa using hvalid
          have hempty : states.isEmpty = false := by simpa using hstates
          have hcond : (states.isEmpty || !([] : List EngineKey).isEmpty ||
              states.any (fun s => decide (s ≠ .valid))) = false := by
            rw [hempty, hany]
            rfl
          rw [if_neg (Bool.not_eq_true _ ▸ hcond)]
          exact ⟨⟨fun _ => rfl, fun _ => rfl⟩, ⟨fun _ => ⟨rfl, hstates, hvalid, rfl⟩, fun _ => rfl⟩,
            fun h => (by cases h), fun h => absurd hsource h⟩
        · have hcond : (states.isEmpty || !missing.isEmpty ||
              states.any (fun s => decide (s ≠ .valid))) = true := by
            by_contra hfalse
            rw [Bool.not_eq_true, Bool.or_eq_false_iff, Bool.or_eq_false_iff] at hfalse
            obtain ⟨⟨hempty, hmissing⟩, hany⟩ := hfalse
            exact hall ⟨by simpa using hempty, by simpa using hany, by simpa using hmissing⟩
          rw [if_pos hcond]
          refine ⟨?_, ?_, ?_⟩
          · dsimp only
            split <;> simp
          · simp [hall]
          · dsimp only
            split <;> simp [hsource]
  · rw [if_pos hsource]
    have hr := hreason hsource
    simp [hsource, hr]

/-- A source that did not report is the reason of the pair. -/
theorem pairReason_unobserved {p : Option Snapshot} {c : Snapshot} {elapsed : Option Num} {maximum : ℚ}
    (h : c.sourceState ≠ .observed) : pairReason p c elapsed maximum ≠ none := by
  unfold pairReason
  rw [if_pos h]
  exact fun h => by cases h

/-- The two snapshots are comparable. -/
def PairComparable (F : FloatFormat) (p : Option Snapshot) (c : Snapshot) (maximum : ℚ) : Prop :=
  ∃ t, p = some t ∧ Comparable F t c maximum

/-- **No series is lost or counted twice**, and the overall state tells whether all of them are valid. -/
theorem interval_coverage {F : FloatFormat} {previous : Option Json} {current gap : Json}
    {p : Option Snapshot} {c : Snapshot} {maximum : ℚ}
    (hp : previous.map (validateSnapshot F) = p.map Except.ok) (hc : validateSnapshot F current = .ok c)
    (hgap : gapLimit F gap = .ok maximum) :
    ∃ r, interval F previous current gap = .ok r ∧ Coverage p c r ∧
      (r.state = .valid ↔ r.reason = none) ∧
      (r.reason = none ↔ PairComparable F p c maximum ∧ r.states ≠ [] ∧
        (∀ s ∈ r.states, s = .valid) ∧ r.missingEngineKeys = []) ∧
      (r.state = .unavailable ↔ c.sourceState ≠ .observed) := by
  have hinterval : interval F previous current gap = .ok (compare F p c maximum) := by
    unfold interval
    simp only [bind_eq_ok]
    refine ⟨c, hc, maximum, hgap, ?_⟩
    cases previous with
    | none =>
        cases p with
        | none => rfl
        | some t => cases hp
    | some v =>
        cases p with
        | none => cases hp
        | some t => exact bind_eq_ok.mpr ⟨t, Option.some.inj hp, rfl⟩
  have hdistinct : ∀ t, p = some t → t.Distinct := by
    rintro t rfl
    cases previous with
    | none => cases hp
    | some v => exact validateSnapshot_distinct (Option.some.inj hp)
  have hunobserved : c.sourceState ≠ .observed →
      pairReason p c (p.map fun t => c.observedAt.sub F t.observedAt) maximum ≠ none :=
    pairReason_unobserved
  obtain ⟨hvalid, hreason, hunavailable⟩ := overall_spec hunobserved (compare F p c maximum).states
    (compare F p c maximum).missingEngineKeys
  rw [pairReason_eq_none] at hreason
  exact ⟨_, hinterval, compare_coverage hdistinct (validateSnapshot_distinct hc) _, hvalid, hreason,
    hunavailable⟩

/-- What `oneCounter` is read as. -/
def oneCounterSnapshot (observedAt value : Int) : Snapshot where
  observedAt := .int observedAt
  sourceState := .observed
  identity := ⟨"s", some "b", some "p", some "c"⟩
  engines := [{ modelName := "m", engineId := "0", gauges := []
                counters := [⟨⟨plain .counters .tokens "prompt_tokens_total", [], none, some (.int 7), true⟩,
                  .int value⟩]
                histograms := [], notReported := [] }]
  unsupported := []
  notReported := []

/-- Two snapshots of a counter that grew: the interval has one row for it. -/
theorem interval_coverage_tokens : ∃ r,
    interval .exact (some (oneCounter 100 40)) (oneCounter 110 90) (.int 60) = .ok r ∧
      Coverage (some (oneCounterSnapshot 100 40)) (oneCounterSnapshot 110 90) r := by
  have hold : validateSnapshot .exact (oneCounter 100 40) = .ok (oneCounterSnapshot 100 40) := by
    decide +kernel
  have hnew : validateSnapshot .exact (oneCounter 110 90) = .ok (oneCounterSnapshot 110 90) := by
    decide +kernel
  have hgap : gapLimit .exact (.int 60) = .ok 60 := by decide +kernel
  obtain ⟨r, hr, hcoverage, -⟩ := @interval_coverage _ (some _) _ _ (some _) _ _
    (congrArg some hold) hnew hgap
  exact ⟨r, hr, hcoverage⟩

end Metrics
end PickleInfra
