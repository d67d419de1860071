import PickleInfra.Metrics.Coverage
import PickleInfra.Metrics.Document

/-!
# `Metrics.Accepted` — the validator reads the document of a well-formed snapshot as that snapshot

`Snapshot.Accepted` says of a typed snapshot what `_validate_snapshot` checks of its document. The parts
are read back one by one, and the `seen` sets are carried through the lists of series and engines.
-/

namespace PickleInfra
namespace Metrics

open Python

variable (F : FloatFormat)

/-! ## What is checked of the parts -/

/-- `_number` accepts the number, for a time. -/
def TimeOk (x : Num) : Prop := ∃ y, numberOf F false maxTime x = .ok y

/-- The labels of a series are sorted, permitted by its family, and short. -/
structure LabelsOk (family : Definition) (labels : Labels) : Prop where
  permitted : ∀ l ∈ labels, l.1 ∈ family.extras
  short : ∀ l ∈ labels, l.2.utf8ByteSize ≤ 256
  sorted : sortLabels labels = labels
  nodup : (labels.map Prod.fst).Nodup

structure Head.Accepted (kind : Kind) (h : Head) : Prop where
  known : definition? h.family.name = some h.family
  kind : h.family.kind = kind
  labels : LabelsOk h.family h.labels
  sampleAt : ∀ t, h.sampleAt = some t → TimeOk F t
  createdAt : ∀ t, h.createdAt = some t → TimeOk F t

structure Scalar.Accepted (kind : Kind) (s : Scalar) : Prop where
  head : s.head.Accepted F kind
  value : checkScalar F s.head.family s.value = .ok ()

/-- An integer, as a count is. -/
def Num.IsInt (x : Num) : Prop := ∃ n, x = .int n

structure Histogram.Accepted (s : Histogram) : Prop where
  head : s.head.Accepted F .histograms
  counts : ∀ c ∈ s.counts, c.IsInt
  count : s.count.IsInt
  histogram : histogram F s.bounds s.counts (some s.count) (some s.sum) = .ok ()

structure NamesOk (maximum : Nat) (ok : String → Bool) (names : List String) : Prop where
  length : names.length ≤ maximum
  ok : ∀ name ∈ names, ok name = true
  nodup : names.Nodup

/-- The keys of all series of an engine, in the order of the document. -/
def Engine.keys (e : Engine) : List SeriesKey :=
  e.gauges.map (fun s => s.head.key) ++ e.counters.map (fun s => s.head.key)
    ++ e.histograms.map (fun s => s.head.key)

structure Engine.Accepted (e : Engine) : Prop where
  modelName : textOk e.modelName = true
  engineId : textOk e.engineId = true
  notReported : NamesOk definitions.length definitionNames.contains e.notReported
  gauges : ∀ s ∈ e.gauges, s.Accepted F .gauges
  gaugeTimes : ∀ s ∈ e.gauges, s.head.createdAt = none
  counters : ∀ s ∈ e.counters, s.Accepted F .counters
  histograms : ∀ s ∈ e.histograms, s.Accepted F
  distinct : e.keys.Nodup

/-- The number of all series. -/
def seriesCount (engines : List Engine) : Nat := (engines.map fun e => e.keys.length).sum

structure Identity.Accepted (i : Identity) : Prop where
  sourceId : textOk i.sourceId = true
  bootId : ∀ s, i.bootId = some s → textOk s = true
  processId : ∀ s, i.processId = some s → textOk s = true
  configId : ∀ s, i.configId = some s → textOk s = true

structure Snapshot.Accepted (s : Snapshot) : Prop where
  identity : s.identity.Accepted
  observedAt : TimeOk F s.observedAt
  unsupported : NamesOk maxUnknownMetrics isMetricName s.unsupported
  notReported : NamesOk definitions.length
    (fun name => isMetricName name && definitionNames.contains name) s.notReported
  groups : s.engines.length ≤ maxEngineGroups
  unobserved : s.sourceState ≠ .observed → s.engines = []
  distinct : (s.engines.map Engine.key).Nodup
  engines : ∀ e ∈ s.engines, e.Accepted F
  series : seriesCount s.engines ≤ maxSeries

/-! ## The parts are read back -/

section Parts

theorem getOrNull_dict {k : String} {kvs : List (String × Json)} {v : Json} (h : Json.lookup k kvs = some v) :
    (Json.dict kvs).getOrNull k = v := by
  unfold Json.getOrNull Json.get?
  dsimp only
  rw [h]
  rfl

theorem text_ok {s : String} (h : textOk s = true) : text s = .ok s := by
  unfold text
  rw [h]
  rfl

theorem optionalText_ok {o : Option String} (h : ∀ s, o = some s → textOk s = true) :
    optionalText (jsonOfOption .str o) = .ok o := by
  cases o with
  | none => rfl
  | some s =>
      show (text s).map some = _
      rw [text_ok (h s rfl)]
      rfl

theorem identityOf_toJson {i : Identity} (h : i.Accepted) : identityOf i.toJson = .ok i := by
  unfold identityOf Identity.toJson
  simp only [bind_eq_ok, failIf_eq_ok, exists_const]
  refine ⟨by simp, i.sourceId, ?_, i.bootId, ?_, i.processId, ?_, i.configId, ?_, rfl⟩
  · rw [getOrNull_dict (v := .str i.sourceId) (by simp [Json.lookup])]
    exact text_ok h.sourceId
  · rw [getOrNull_dict (v := jsonOfOption .str i.bootId) (by simp [Json.lookup])]
    exact optionalText_ok h.bootId
  · rw [getOrNull_dict (v := jsonOfOption .str i.processId) (by simp [Json.lookup])]
    exact optionalText_ok h.processId
  · rw [getOrNull_dict (v := jsonOfOption .str i.configId) (by simp [Json.lookup])]
    exact optionalText_ok h.configId

theorem numOf_toJson (x : Num) : numOf x.toJson = .ok x := by
  cases x <;> rfl

theorem nameList_stringsJson {maximum : Nat} {ok : String → Bool} {names : List String}
    (h : NamesOk maximum ok names) : nameList maximum ok (stringsJson names) = .ok names := by
  have hfilter : (names.map Json.str).filterMap Json.asStr? = names := by
    rw [List.filterMap_map]
    exact List.filterMap_some
  have hall : (names.map Json.str).all (fun x => (x.asStr?).any ok) = true := by
    rw [List.all_map, List.all_eq_true]
    exact h.ok
  unfold nameList stringsJson asList?
  dsimp only
  rw [hfilter, if_pos ⟨by rw [List.length_map]; exact h.length, hall, h.nodup⟩]

variable {F}

theorem stampOf_stampJson {t : Option Num} (h : ∀ x, t = some x → TimeOk F x) :
    stampOf F (stampJson t) = .ok t := by
  cases t with
  | none => rfl
  | some x =>
      obtain ⟨y, hy⟩ := h x rfl
      unfold stampOf stampJson jsonOfOption
      have hnull : x.toJson.isNull = false := by cases x <;> rfl
      rw [hnull]
      simp only [Bool.false_eq_true, if_false, bind_eq_ok]
      exact ⟨x, numOf_toJson x, y, hy, rfl⟩

theorem labelsOf_labelsJson {family : Definition} {labels : Labels} (h : LabelsOk family labels) :
    labelsOf family (labelsJson labels) = .ok labels := by
  have hfilter : (labels.map (fun l => (l.1, Json.str l.2))).filterMap
      (fun kv => kv.2.asStr?.map (fun s => (kv.1, s))) = labels := by
    rw [List.filterMap_map]
    exact List.filterMap_some
  unfold labelsOf labelsJson
  simp only [bind_eq_ok, failIf_eq_ok, exists_const, Bool.not_eq_false']
  refine ⟨?_, ?_, ?_⟩
  · rw [List.all_map, List.all_eq_true]
    intro l hl
    exact List.contains_iff_mem.mpr (h.permitted l hl)
  · rw [List.all_map, List.all_eq_true]
    intro l hl
    exact decide_eq_true (h.short l hl)
  · rw [hfilter, h.sorted]

/-- What the fields of an item must be for its family, key and head to be read back. -/
structure ItemOf (kind : Kind) (h : Head) (item : Json) : Prop where
  keys : hasKeys (seriesKeys kind) item = true
  name : item.getOrNull "name" = .str h.family.name
  labels : item.getOrNull "labels" = labelsJson h.labels
  unit : item.getOrNull "unit" = .str h.family.unit.text
  typeDeclared : item.getOrNull "typeDeclared" = .bool h.typeDeclared
  sampleAt : item.getOrNull "sampleAt" = stampJson h.sampleAt
  createdAt : item.getOrNull "createdAt" = stampJson h.createdAt

theorem familyOf_item {kind : Kind} {h : Head} {item : Json} (hitem : ItemOf kind h item)
    (hh : h.Accepted F kind) : familyOf kind item = .ok (h.family, h.labels, h.typeDeclared) := by
  unfold familyOf
  simp only [bind_eq_ok, failIf_eq_ok, exists_const]
  refine ⟨by rw [hitem.keys]; rfl, ?_⟩
  rw [hitem.typeDeclared, hitem.name]
  refine bind_eq_ok.mpr ⟨h.typeDeclared, rfl, ?_⟩
  have hfamily : (Json.str h.family.name).asStr?.bind definition? = some h.family := hh.known
  rw [hfamily]
  dsimp only
  simp only [bind_eq_ok, failIf_eq_ok, exists_const]
  refine ⟨by rw [hh.kind]; simp, h.labels, ?_, rfl⟩
  rw [hitem.labels]
  exact labelsOf_labelsJson hh.labels

theorem headOf_item {kind : Kind} {h : Head} {item : Json} (hitem : ItemOf kind h item)
    (hh : h.Accepted F kind) : headOf F h.family h.labels h.typeDeclared item = .ok h := by
  unfold headOf
  simp only [bind_eq_ok, failIf_eq_ok, exists_const]
  refine ⟨by rw [hitem.unit]; simp [Json.isStr], h.sampleAt, ?_, h.createdAt, ?_, rfl⟩
  · rw [hitem.sampleAt]
    exact stampOf_stampJson hh.sampleAt
  · rw [hitem.createdAt]
    exact stampOf_stampJson hh.createdAt

theorem gaugeJson_item {s : Scalar} (h : s.head.createdAt = none) : ItemOf .gauges s.head (gaugeJson s) := by
  refine ⟨?_, ?_, ?_, ?_, ?_, ?_, ?_⟩
  · simp [hasKeys, seriesKeys, gaugeJson]
  · exact getOrNull_dict (by simp [Json.lookup])
  · exact getOrNull_dict (by simp [Json.lookup])
  · exact getOrNull_dict (by simp [Json.lookup])
  · exact getOrNull_dict (by simp [Json.lookup])
  · exact getOrNull_dict (by simp [Json.lookup])
  · rw [h]
    simp [gaugeJson, Json.getOrNull, Json.get?, Json.lookup, stampJson, jsonOfOption]

theorem counterJson_item (s : Scalar) : ItemOf .counters s.head (counterJson s) := by
  refine ⟨?_, ?_, ?_, ?_, ?_, ?_, ?_⟩
  · simp [hasKeys, seriesKeys, counterJson]
  all_goals exact getOrNull_dict (by simp [Json.lookup])

theorem histogramJson_item (s : Histogram) : ItemOf .histograms s.head (histogramJson s) := by
  refine ⟨?_, ?_, ?_, ?_, ?_, ?_, ?_⟩
  · simp [hasKeys, seriesKeys, histogramJson]
  all_goals exact getOrNull_dict (by simp [Json.lookup])

theorem scalarOf_item {s : Scalar} {kind : Kind} (h : s.Accepted F kind) {item : Json}
    (hvalue : item.getOrNull "value" = s.value.toJson) : scalarOf F s.head item = .ok s := by
  unfold scalarOf
  simp only [bind_eq_ok]
  exact ⟨s.value, by rw [hvalue, numOf_toJson], (), h.value, rfl⟩

theorem boundOf_toJson (b : Bound) : boundOf b.toJson = .ok b := by
  cases b with
  | num x => cases x <;> rfl
  | inf => rfl

theorem isBoundType_toJson (b : Bound) : isBoundType b.toJson = true := by
  cases b with
  | num x => cases x <;> rfl
  | inf => rfl

theorem isNumberType_toJson (x : Num) : isNumberType x.toJson = true := by cases x <;> rfl

theorem isInt_toJson {x : Num} (h : x.IsInt) : isInt x.toJson = true := by
  obtain ⟨n, rfl⟩ := h
  rfl

theorem histogramOf_item {s : Histogram} (h : s.Accepted F) :
    histogramOf F s.head (histogramJson s) = .ok s := by
  have hbounds : (histogramJson s).getOrNull "bounds" = .list (s.bounds.map Bound.toJson) :=
    getOrNull_dict (by simp [Json.lookup])
  have hcounts : (histogramJson s).getOrNull "counts" = .list (s.counts.map Num.toJson) :=
    getOrNull_dict (by simp [Json.lookup])
  have hcount : (histogramJson s).getOrNull "count" = s.count.toJson :=
    getOrNull_dict (by simp [Json.lookup])
  have hsum : (histogramJson s).getOrNull "sum" = s.sum.toJson := getOrNull_dict (by simp [Json.lookup])
  unfold histogramOf
  rw [hbounds, hcounts, hcount, hsum]
  simp only [bind_eq_ok, failIf_eq_ok, exists_const]
  refine ⟨_, rfl, _, rfl, ?_, s.bounds, mapM_map_ok fun b _ => boundOf_toJson b, s.counts,
    mapM_map_ok fun c _ => numOf_toJson c, s.count, numOf_toJson _, s.sum, numOf_toJson _, (),
    h.histogram, rfl⟩
  rw [isInt_toJson h.count, isNumberType_toJson, Bool.and_true, Bool.and_true, Bool.not_eq_false',
    Bool.and_eq_true, List.all_map, List.all_map, List.all_eq_true, List.all_eq_true]
  exact ⟨fun b _ => isBoundType_toJson b, fun c hc => isInt_toJson (h.counts c hc)⟩

end Parts

/-! ## Lists of series -/

section Lists

variable {F}
variable {S : Type} {head : S → Head} {toJson : S → Json} {kind : Kind} {rest : Head → Json → Checked S}

/-- Distinct series that have not been seen are read back, and remembered. -/
theorem seriesList_toJson {items : List S} (hitem : ∀ s ∈ items, ItemOf kind (head s) (toJson s))
    (haccepted : ∀ s ∈ items, (head s).Accepted F kind)
    (hrest : ∀ s ∈ items, rest (head s) (toJson s) = .ok s) {engine : EngineKey} {seen : Seen}
    (hnodup : (items.map fun s => (head s).key).Nodup)
    (hnew : ∀ s ∈ items, (engine, (head s).key) ∉ seen)
    (hmax : seen.length + items.length ≤ maxSeries) :
    seriesList F kind rest engine seen (items.map toJson) =
      .ok ((items.map fun s => (engine, (head s).key)).reverse ++ seen, items) := by
  induction items generalizing seen with
  | nil => rfl
  | cons s items ih =>
      rw [List.map_cons, List.nodup_cons] at hnodup
      rw [List.length_cons] at hmax
      have hmem : ∀ t ∈ items, t ∈ s :: items := fun t ht => List.mem_cons_of_mem _ ht
      have hs : seriesOf F kind rest engine seen (toJson s) = .ok ((engine, (head s).key) :: seen, s) := by
        have hitem' := hitem s List.mem_cons_self
        have haccepted' := haccepted s List.mem_cons_self
        unfold seriesOf
        simp only [bind_eq_ok, failIf_eq_ok, exists_const]
        refine ⟨_, familyOf_item hitem' haccepted', ?_, head s, headOf_item hitem' haccepted', s,
          hrest s List.mem_cons_self, rfl⟩
        rw [Bool.or_eq_false_iff, ← Bool.not_eq_true, List.contains_iff_mem, decide_eq_false_iff_not]
        exact ⟨hnew s List.mem_cons_self, by omega⟩
      have hnew' : ∀ t ∈ items, (engine, (head t).key) ∉ (engine, (head s).key) :: seen := by
        intro t ht hseen
        rcases List.mem_cons.mp hseen with heq | hseen
        · apply hnodup.1
          rw [← (Prod.mk.inj heq).2]
          exact List.mem_map_of_mem (f := fun s => (head s).key) ht
        · exact hnew t (hmem t ht) hseen
      have hothers := ih (fun t ht => hitem t (hmem t ht)) (fun t ht => haccepted t (hmem t ht))
        (fun t ht => hrest t (hmem t ht)) hnodup.2 hnew' (by rw [List.length_cons]; omega)
      rw [List.map_cons, seriesList]
      simp only [bind_eq_ok]
      refine ⟨_, hs, _, hothers, ?_⟩
      rw [List.map_cons, List.reverse_cons, List.append_assoc, List.singleton_append]

end Lists

/-! ## Engines and the snapshot -/

section Engines

variable {F}

/-- What an engine adds to the series seen. -/
def Engine.seenKeys (e : Engine) : Seen := (e.keys.map fun k => (e.key, k)).reverse

theorem engineOf_toJson {e : Engine} (h : e.Accepted F) {engines : List EngineKey} {seen : Seen}
    (hkey : e.key ∉ engines) (hnew : ∀ k ∈ e.keys, (e.key, k) ∉ seen)
    (hmax : seen.length + e.keys.length ≤ maxSeries) :
    engineOf F engines seen e.toJson = .ok (e.seenKeys ++ seen, e) := by
  have hfield : ∀ {k v}, Json.lookup k [("modelName", Json.str e.modelName),
      ("engineId", .str e.engineId), ("gauges", .list (e.gauges.map gaugeJson)),
      ("counters", .list (e.counters.map counterJson)), ("histograms", .list (e.histograms.map histogramJson)),
      ("notReportedMetricNames", stringsJson e.notReported)] = some v → e.toJson.getOrNull k = v :=
    fun h => getOrNull_dict h
  have hdistinct := h.distinct
  unfold Engine.keys at hdistinct hnew hmax
  rw [List.nodup_append, List.nodup_append] at hdistinct
  obtain ⟨⟨hgauges, hcounters, hgc⟩, hhistograms, hgch⟩ := hdistinct
  rw [List.length_append, List.length_append, List.length_map, List.length_map, List.length_map] at hmax
  have hmem : ∀ {k : SeriesKey}, k ∈ e.gauges.map (fun s => s.head.key) ∨
      k ∈ e.counters.map (fun s => s.head.key) ∨ k ∈ e.histograms.map (fun s => s.head.key) →
        (e.key, k) ∉ seen := by
    intro k hk
    apply hnew
    rw [List.mem_append, List.mem_append, or_assoc]
    exact hk
  have hnot : ∀ {k : SeriesKey} {ks : List SeriesKey}, k ∉ ks →
      (e.key, k) ∉ (ks.map fun k => (e.key, k)).reverse := by
    intro k ks hk hmem
    rw [List.mem_reverse] at hmem
    obtain ⟨k', hk', heq⟩ := List.mem_map.mp hmem
    cases heq
    exact hk hk'
  have hg : seriesList F .gauges (scalarOf F) e.key seen (e.gauges.map gaugeJson) =
      .ok ((e.gauges.map fun s => (e.key, s.head.key)).reverse ++ seen, e.gauges) := by
    apply seriesList_toJson (fun s hs => gaugeJson_item (h.gaugeTimes s hs))
      (fun s hs => (h.gauges s hs).head)
      (fun s hs => scalarOf_item (h.gauges s hs) (getOrNull_dict (by simp [Json.lookup]))) hgauges
    · intro s hs
      exact hmem (.inl (List.mem_map_of_mem hs))
    · omega
  have hc : seriesList F .counters (scalarOf F) e.key
      ((e.gauges.map fun s => (e.key, s.head.key)).reverse ++ seen) (e.counters.map counterJson) =
      .ok ((e.counters.map fun s => (e.key, s.head.key)).reverse ++
        ((e.gauges.map fun s => (e.key, s.head.key)).reverse ++ seen), e.counters) := by
    apply seriesList_toJson (fun s _ => counterJson_item s) (fun s hs => (h.counters s hs).head)
      (fun s hs => scalarOf_item (h.counters s hs) (getOrNull_dict (by simp [Json.lookup]))) hcounters
    · intro s hs
      have hkey : s.head.key ∈ e.counters.map (fun s => s.head.key) := List.mem_map_of_mem hs
      rw [List.mem_append, not_or]
      refine ⟨?_, hmem (.inr (.inl hkey))⟩
      have := hnot (fun hk => hgc _ hk _ hkey rfl)
      rwa [List.map_map] at this
    · rw [List.length_append, List.length_reverse, List.length_map]
      omega
  have hh : seriesList F .histograms (histogramOf F) e.key
      ((e.counters.map fun s => (e.key, s.head.key)).reverse ++
        ((e.gauges.map fun s => (e.key, s.head.key)).reverse ++ seen)) (e.histograms.map histogramJson) =
      .ok ((e.histograms.map fun s => (e.key, s.head.key)).reverse ++
        ((e.counters.map fun s => (e.key, s.head.key)).reverse ++
          ((e.gauges.map fun s => (e.key, s.head.key)).reverse ++ seen)), e.histograms) := by
    apply seriesList_toJson (fun s _ => histogramJson_item s) (fun s hs => (h.histograms s hs).head)
      (fun s hs => histogramOf_item (h.histograms s hs)) hhistograms
    · intro s hs
      have hkey : s.head.key ∈ e.histograms.map (fun s => s.head.key) := List.mem_map_of_mem hs
      rw [List.mem_append, List.mem_append, not_or, not_or]
      refine ⟨?_, ?_, hmem (.inr (.inr hkey))⟩
      · have := hnot (fun hk => hgch _ (List.mem_append_right _ hk) _ hkey rfl)
        rwa [List.map_map] at this
      · have := hnot (fun hk => hgch _ (List.mem_append_left _ hk) _ hkey rfl)
        rwa [List.map_map] at this
    · rw [List.length_append, List.length_append, List.length_reverse, List.length_reverse,
        List.length_map, List.length_map]
      omega
  have hseen : e.seenKeys ++ seen = (e.histograms.map fun s => (e.key, s.head.key)).reverse ++
      ((e.counters.map fun s => (e.key, s.head.key)).reverse ++
        ((e.gauges.map fun s => (e.key, s.head.key)).reverse ++ seen)) := by
    simp [Engine.seenKeys, Engine.keys, Function.comp_def]
  have hkeys : hasKeys engineKeys e.toJson = true := by
    simp [hasKeys, engineKeys, Engine.toJson]
  have hcontains : engines.contains (e.modelName, e.engineId) = false := by
    rw [← Bool.not_eq_true, List.contains_iff_mem]
    exact hkey
  unfold engineOf
  simp only [bind_eq_ok, failIf_eq_ok, exists_const]
  refine ⟨by rw [hkeys]; rfl, e.modelName, ?_, e.engineId, ?_, hcontains, e.notReported, ?_,
    e.gauges.map gaugeJson, ?_, _, hg, e.counters.map counterJson, ?_, _, hc,
    e.histograms.map histogramJson, ?_, _, hh, ?_⟩
  · rw [hfield (by simp [Json.lookup]; rfl)]
    exact text_ok h.modelName
  · rw [hfield (by simp [Json.lookup]; rfl)]
    exact text_ok h.engineId
  · rw [hfield (by simp [Json.lookup]; rfl)]
    exact nameList_stringsJson h.notReported
  · rw [hfield (by simp [Json.lookup]; rfl)]
    rfl
  · rw [hfield (by simp [Json.lookup]; rfl)]
    rfl
  · rw [hfield (by simp [Json.lookup]; rfl)]
    rfl
  · rw [hseen]

theorem engineList_toJson {all : List Engine} (haccepted : ∀ e ∈ all, e.Accepted F)
    (hnodup : (all.map Engine.key).Nodup) {engines : List EngineKey} {seen : Seen}
    (hnew : ∀ e ∈ all, e.key ∉ engines) (hseen : ∀ x ∈ seen, x.1 ∈ engines)
    (hmax : seen.length + seriesCount all ≤ maxSeries) :
    engineList F engines seen (all.map Engine.toJson) = .ok all := by
  induction all generalizing engines seen with
  | nil => rfl
  | cons e all ih =>
      rw [List.map_cons, List.nodup_cons] at hnodup
      have hcount : seriesCount (e :: all) = e.keys.length + seriesCount all := by
        unfold seriesCount
        rw [List.map_cons, List.sum_cons]
      rw [hcount] at hmax
      have hlength : e.seenKeys.length = e.keys.length := by
        unfold Engine.seenKeys
        rw [List.length_reverse, List.length_map]
      have he : engineOf F engines seen e.toJson = .ok (e.seenKeys ++ seen, e) :=
        engineOf_toJson (haccepted e List.mem_cons_self) (hnew e List.mem_cons_self)
          (fun k _ hmem => hnew e List.mem_cons_self (hseen _ hmem)) (by omega)
      rw [List.map_cons, engineList]
      simp only [bind_eq_ok]
      refine ⟨_, he, all, ?_, rfl⟩
      apply ih (fun t ht => haccepted t (List.mem_cons_of_mem _ ht)) hnodup.2
      · intro t ht hmem
        rcases List.mem_cons.mp hmem with heq | hmem
        · apply hnodup.1
          rw [← heq]
          exact List.mem_map_of_mem ht
        · exact hnew t (List.mem_cons_of_mem _ ht) hmem
      · intro x hx
        rcases List.mem_append.mp hx with hx | hx
        · unfold Engine.seenKeys at hx
          rw [List.mem_reverse] at hx
          obtain ⟨k, -, rfl⟩ := List.mem_map.mp hx
          exact List.mem_cons_self
        · exact List.mem_cons_of_mem _ (hseen x hx)
      · rw [List.length_append, hlength]
        omega

end Engines

theorem ofText_text (s : SourceState) : SourceState.ofText s.text = some s := by
  cases s <;> decide

/-- **A well-formed snapshot passes the validator**, and is read as itself. -/
theorem validateSnapshot_toJson {s : Snapshot} (h : s.Accepted F) : validateSnapshot F s.toJson = .ok s := by
  have hfield : ∀ {k v}, Json.lookup k [("version", Json.int 1), ("observedAt", s.observedAt.toJson),
      ("sourceState", .str s.sourceState.text), ("identity", s.identity.toJson),
      ("engines", .list (s.engines.map Engine.toJson)),
      ("unsupportedMetricNames", stringsJson s.unsupported),
      ("notReportedMetricNames", stringsJson s.notReported)] = some v → s.toJson.getOrNull k = v :=
    fun h => getOrNull_dict h
  have hversion : s.toJson.getOrNull "version" = .int 1 := hfield (by simp [Json.lookup])
  have hsource : s.toJson.getOrNull "sourceState" = .str s.sourceState.text := hfield (by simp [Json.lookup])
  have hidentity : s.toJson.getOrNull "identity" = s.identity.toJson := hfield (by simp [Json.lookup])
  have hobserved : s.toJson.getOrNull "observedAt" = s.observedAt.toJson := hfield (by simp [Json.lookup])
  have hunsupported : s.toJson.getOrNull "unsupportedMetricNames" = stringsJson s.unsupported :=
    hfield (by simp [Json.lookup])
  have hnotReported : s.toJson.getOrNull "notReportedMetricNames" = stringsJson s.notReported :=
    hfield (by simp [Json.lookup])
  have hengines : s.toJson.getOrNull "engines" = .list (s.engines.map Engine.toJson) :=
    hfield (by simp [Json.lookup])
  have hkeys : hasKeys snapshotKeys s.toJson = true := by
    simp [hasKeys, snapshotKeys, Snapshot.toJson]
  obtain ⟨y, hy⟩ := h.observedAt
  unfold validateSnapshot
  rw [hversion, hsource, hidentity, hobserved, hunsupported, hnotReported, hengines]
  simp only [bind_eq_ok, failIf_eq_ok, exists_const]
  refine ⟨by decide, ?_⟩
  have htext : (Json.str s.sourceState.text).asStr?.bind SourceState.ofText = some s.sourceState :=
    ofText_text _
  rw [htext]
  simp only [bind_eq_ok, failIf_eq_ok, exists_const]
  refine ⟨by rw [hkeys]; rfl, s.identity, identityOf_toJson h.identity, s.observedAt, numOf_toJson _, y, hy,
    s.unsupported, nameList_stringsJson h.unsupported, s.notReported, nameList_stringsJson h.notReported,
    s.engines.map Engine.toJson, rfl, ?_, ?_, s.engines, ?_, rfl⟩
  · rw [List.length_map, decide_eq_false_iff_not, not_lt]
    exact h.groups
  · by_cases hs : s.sourceState = .observed
    · simp [hs]
    · rw [h.unobserved hs]
      simp
  · apply engineList_toJson h.engines h.distinct
    · exact fun _ _ => List.not_mem_nil
    · exact fun x hx => absurd hx List.not_mem_nil
    · rw [List.length_nil, Nat.zero_add]
      exact h.series

end Metrics
end PickleInfra
