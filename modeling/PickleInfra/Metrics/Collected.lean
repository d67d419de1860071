import PickleInfra.Metrics.Event

/-!
# `Metrics.Collected` — what has been read, by what the lines said

`Collected events r` describes the dictionaries and sets of `parse_snapshot` by the events alone, whatever their
order: every entry belongs to an event, no two samples share a key, and no limit is exceeded.
-/

namespace PickleInfra
namespace Metrics

open Python

variable {es es' : List Event} {engine : EngineKey} {series : SeriesKey}

/-- The sample is among the events, under the engine and the series. -/
def At (es : List Event) (engine : EngineKey) (series : SeriesKey) (e : Entry) : Prop :=
  Event.entry e ∈ es ∧ e.engine = engine ∧ e.series = series

/-- The keys of the samples. -/
def keysOf (es : List Event) : List (String × Labels) := es.filterMap fun event => event.entry?.map Entry.key

/-- The bucket that an event adds to the histogram. -/
def bucketAt? (engine : EngineKey) (series : SeriesKey) : Event → Option (Bound × Num)
  | .entry e => if e.engine = engine ∧ e.series = series then
      match e.item with
      | .bucket bound x => some (bound, x)
      | _               => none
    else none
  | _        => none

def bucketsAt (es : List Event) (engine : EngineKey) (series : SeriesKey) : List (Bound × Num) :=
  es.filterMap (bucketAt? engine series)

/-- A part of a histogram. -/
def Item.IsPart (item : Item) : Prop := item.part = .bucket ∨ item.part = .count ∨ item.part = .sum

/-- A histogram after the events. -/
structure HistogramCollected (es : List Event) (engine : EngineKey) (series : SeriesKey) (h : RawHistogram) :
    Prop where
  buckets : h.buckets.Perm (bucketsAt es engine series)
  bounds : (h.buckets.map fun b => b.1.value).Nodup
  room : h.buckets.length ≤ maxBuckets
  timestamps : ∀ t, t ∈ h.timestamps ↔ ∃ e, At es engine series e ∧ e.item.IsPart ∧ e.sampleAt = t
  times : h.timestamps.Nodup
  count : ∀ x, h.count = some x ↔ ∃ e, At es engine series e ∧ e.item = .count x
  sum : ∀ x, h.sum = some x ↔ ∃ e, At es engine series e ∧ e.item = .sum x

/-- The gauges or counters after the events. -/
def ScalarsCollected (es : List Event) (engine : EngineKey) (item : Num → Item) (d : Dict SeriesKey RawScalar) :
    Prop :=
  ∀ series v, d.get? series = some v ↔
    ∃ e, At es engine series e ∧ e.item = item v.value ∧ e.sampleAt = v.sampleAt

/-- A group after the events. -/
structure GroupCollected (es : List Event) (engine : EngineKey) (g : Group) : Prop where
  gauges : ScalarsCollected es engine .gauge g.gauges
  counters : ScalarsCollected es engine .counter g.counters
  present : ∀ series, (g.histograms.get? series).isSome = true ↔ ∃ e, At es engine series e ∧ e.item.IsPart
  histograms : ∀ series, HistogramCollected es engine series ((g.histograms.get? series).getD {})

/-- **What has been read after the events.** -/
structure Collected (es : List Event) (r : Reading) : Prop where
  read : ∀ event ∈ es, event.Read
  types : ∀ family declared, r.types.get? family = some declared ↔ Event.type family declared ∈ es
  unknown : ∀ name, name ∈ r.unknown ↔ Event.unknown name ∈ es
  names : r.unknown.Nodup
  unknownRoom : r.unknown.length ≤ maxUnknownMetrics
  seen : r.seen.Perm (keysOf es)
  keys : r.seen.Nodup
  seenRoom : r.seen.length ≤ maxSeries
  engines : ∀ engine, (r.groups.get? engine).isSome = true ↔ ∃ e, Event.entry e ∈ es ∧ e.engine = engine
  enginesRoom : r.groups.size ≤ maxEngineGroups
  groups : ∀ engine, GroupCollected es engine ((r.groups.get? engine).getD {})
  created : ∀ engine series x, r.created.get? (engine, series) = some x ↔
    ∃ e, At es engine series e ∧ e.item = .created x

/-! ## The events in another order -/

theorem at_perm (h : es.Perm es') {e : Entry} : At es engine series e ↔ At es' engine series e := by
  unfold At
  rw [h.mem_iff]

theorem HistogramCollected.perm {h : RawHistogram} (hh : HistogramCollected es engine series h)
    (hperm : es.Perm es') : HistogramCollected es' engine series h where
  buckets := hh.buckets.trans (hperm.filterMap _)
  bounds := hh.bounds
  room := hh.room
  timestamps t := by simp only [hh.timestamps, at_perm hperm]
  times := hh.times
  count x := by simp only [hh.count, at_perm hperm]
  sum x := by simp only [hh.sum, at_perm hperm]

theorem GroupCollected.perm {g : Group} (hg : GroupCollected es engine g) (hperm : es.Perm es') :
    GroupCollected es' engine g where
  gauges series v := by simp only [hg.gauges series v, at_perm hperm]
  counters series v := by simp only [hg.counters series v, at_perm hperm]
  present series := by simp only [hg.present, at_perm hperm]
  histograms series := (hg.histograms series).perm hperm

theorem Collected.perm {r : Reading} (h : Collected es r) (hperm : es.Perm es') : Collected es' r where
  read event hevent := h.read event (hperm.mem_iff.mpr hevent)
  types family declared := by rw [h.types, hperm.mem_iff]
  unknown name := by rw [h.unknown, hperm.mem_iff]
  names := h.names
  unknownRoom := h.unknownRoom
  seen := h.seen.trans (hperm.filterMap _)
  keys := h.keys
  seenRoom := h.seenRoom
  engines engine := by simp only [h.engines, hperm.mem_iff]
  enginesRoom := h.enginesRoom
  groups engine := (h.groups engine).perm hperm
  created engine series x := by simp only [h.created, at_perm hperm]

/-! ## The empty reading -/

theorem groupCollected_nil : GroupCollected [] engine {} where
  gauges series v := ⟨fun h => (by cases h), fun ⟨e, he, _⟩ => absurd he.1 List.not_mem_nil⟩
  counters series v := ⟨fun h => (by cases h), fun ⟨e, he, _⟩ => absurd he.1 List.not_mem_nil⟩
  present series := ⟨fun h => (by cases h), fun ⟨e, he, _⟩ => absurd he.1 List.not_mem_nil⟩
  histograms series :=
    { buckets := .nil
      bounds := List.nodup_nil
      room := Nat.zero_le _
      timestamps := fun t => ⟨fun h => absurd h List.not_mem_nil, fun ⟨e, he, _⟩ => absurd he.1 List.not_mem_nil⟩
      times := List.nodup_nil
      count := fun x => ⟨fun h => (by cases h), fun ⟨e, he, _⟩ => absurd he.1 List.not_mem_nil⟩
      sum := fun x => ⟨fun h => (by cases h), fun ⟨e, he, _⟩ => absurd he.1 List.not_mem_nil⟩ }

theorem collected_nil : Collected [] {} where
  read event hevent := absurd hevent List.not_mem_nil
  types family declared := ⟨fun h => (by cases h), fun h => absurd h List.not_mem_nil⟩
  unknown name := ⟨fun h => absurd h List.not_mem_nil, fun h => absurd h List.not_mem_nil⟩
  names := List.nodup_nil
  unknownRoom := Nat.zero_le _
  seen := .nil
  keys := List.nodup_nil
  seenRoom := Nat.zero_le _
  engines engine := ⟨fun h => (by cases h), fun ⟨e, he, _⟩ => absurd he List.not_mem_nil⟩
  enginesRoom := Nat.zero_le _
  groups engine := groupCollected_nil
  created engine series x := ⟨fun h => (by cases h), fun ⟨e, he, _⟩ => absurd he.1 List.not_mem_nil⟩

/-! ## One event more -/

/-- The samples of a series after one more sample. -/
theorem exists_at_cons {e : Entry} {P : Entry → Prop} :
    (∃ x, At (.entry e :: es) engine series x ∧ P x) ↔
      (e.engine = engine ∧ e.series = series ∧ P e) ∨ ∃ x, At es engine series x ∧ P x := by
  unfold At
  constructor
  · rintro ⟨x, ⟨hmem, hengine, hseries⟩, hx⟩
    rcases List.mem_cons.mp hmem with heq | hmem
    · obtain rfl := Event.entry.inj heq
      exact .inl ⟨hengine, hseries, hx⟩
    · exact .inr ⟨x, ⟨hmem, hengine, hseries⟩, hx⟩
  · rintro (⟨hengine, hseries, hx⟩ | ⟨x, ⟨hmem, hengine, hseries⟩, hx⟩)
    · exact ⟨e, ⟨List.mem_cons_self, hengine, hseries⟩, hx⟩
    · exact ⟨x, ⟨List.mem_cons_of_mem _ hmem, hengine, hseries⟩, hx⟩

/-- A sample of another kind, or of another series, says nothing of these. -/
theorem exists_at_other {e : Entry} {P : Entry → Prop} (h : e.engine = engine → e.series = series → ¬ P e) :
    (∃ x, At (.entry e :: es) engine series x ∧ P x) ↔ ∃ x, At es engine series x ∧ P x := by
  rw [exists_at_cons]
  constructor
  · rintro (⟨hengine, hseries, hx⟩ | hx)
    · exact absurd hx (h hengine hseries)
    · exact hx
  · exact .inr

theorem bucketsAt_other {e : Entry} (h : e.engine = engine → e.series = series → e.item.part ≠ .bucket) :
    bucketsAt (.entry e :: es) engine series = bucketsAt es engine series := by
  apply List.filterMap_cons_none
  unfold bucketAt?
  dsimp only
  split
  · next heq =>
    split
    · next hitem =>
      refine absurd ?_ (h heq.1 heq.2)
      rw [hitem]
      rfl
    · rfl
  · rfl

/-- A histogram that the sample is no part of. -/
theorem HistogramCollected.other {h : RawHistogram} (hh : HistogramCollected es engine series h) {e : Entry}
    (hother : e.engine = engine → e.series = series → ¬ e.item.IsPart) :
    HistogramCollected (.entry e :: es) engine series h where
  buckets := by
    rw [bucketsAt_other fun hengine hseries hbucket => hother hengine hseries (.inl hbucket)]
    exact hh.buckets
  bounds := hh.bounds
  room := hh.room
  timestamps t := by
    rw [exists_at_other fun hengine hseries hx => hother hengine hseries hx.1]
    exact hh.timestamps t
  times := hh.times
  count x := by
    have hnot : e.engine = engine → e.series = series → ¬ e.item = .count x := by
      intro hengine hseries hx
      exact hother hengine hseries (by rw [hx]; exact .inr (.inl rfl))
    rw [@exists_at_other _ _ _ e (fun e => e.item = .count x) hnot]
    exact hh.count x
  sum x := by
    have hnot : e.engine = engine → e.series = series → ¬ e.item = .sum x := by
      intro hengine hseries hx
      exact hother hengine hseries (by rw [hx]; exact .inr (.inr rfl))
    rw [@exists_at_other _ _ _ e (fun e => e.item = .sum x) hnot]
    exact hh.sum x

theorem ScalarsCollected.other {item : Num → Item} {d : Dict SeriesKey RawScalar}
    (h : ScalarsCollected es engine item d) {e : Entry}
    (hother : e.engine = engine → ∀ x, e.item ≠ item x) : ScalarsCollected (.entry e :: es) engine item d := by
  intro series v
  rw [exists_at_other fun hengine _ hx => hother hengine _ hx.1]
  exact h series v

/-- A sample of another engine leaves the group. -/
theorem GroupCollected.other {g : Group} (hg : GroupCollected es engine g) {e : Entry} (hne : e.engine ≠ engine) :
    GroupCollected (.entry e :: es) engine g where
  gauges := hg.gauges.other fun h => absurd h hne
  counters := hg.counters.other fun h => absurd h hne
  present series := by
    rw [exists_at_other fun h => absurd h hne]
    exact hg.present series
  histograms series := (hg.histograms series).other fun h => absurd h hne

/-- A scalar is entered at its place. -/
theorem ScalarsCollected.set {item : Num → Item} {d : Dict SeriesKey RawScalar}
    (h : ScalarsCollected es engine item d) {e : Entry} {x : Num} (hengine : e.engine = engine)
    (hitem : e.item = item x) (hinj : Function.Injective item)
    (hfresh : ∀ y v, At es engine e.series y → y.item ≠ item v) :
    ScalarsCollected (.entry e :: es) engine item (d.set e.series { value := x, sampleAt := e.sampleAt }) := by
  intro series v
  rw [Dict.get?_set, exists_at_cons]
  by_cases hseries : e.series = series
  · rw [if_pos hseries, Option.some.injEq]
    constructor
    · rintro rfl
      exact .inl ⟨hengine, hseries, hitem, rfl⟩
    · rintro (⟨-, -, hvalue, htime⟩ | ⟨y, hy, hvalue, -⟩)
      · obtain ⟨value, sampleAt⟩ := v
        rw [hitem] at hvalue
        rw [hinj hvalue, htime]
      · exact absurd hvalue (hfresh y _ (hseries ▸ hy))
  · rw [if_neg hseries, h]
    constructor
    · exact .inr
    · rintro (⟨-, heq, -⟩ | hx)
      · exact absurd heq hseries
      · exact hx

/-- The time of a part is kept once. -/
theorem timed_collected {h : RawHistogram} (hh : HistogramCollected es engine series h) {e : Entry}
    (hengine : e.engine = engine) (hseries : e.series = series) (hpart : e.item.IsPart) :
    (∀ t, t ∈ (h.timed e.sampleAt).timestamps ↔
      ∃ x, At (.entry e :: es) engine series x ∧ x.item.IsPart ∧ x.sampleAt = t) ∧
    (h.timed e.sampleAt).timestamps.Nodup := by
  have hmem : ∀ t, t ∈ (h.timed e.sampleAt).timestamps ↔ e.sampleAt = t ∨ t ∈ h.timestamps := by
    intro t
    unfold RawHistogram.timed
    split
    · next hold =>
      constructor
      · exact .inr
      · rintro (rfl | ht)
        · exact List.contains_iff_mem.mp hold
        · exact ht
    · rw [List.mem_append, List.mem_singleton, or_comm, eq_comm]
  constructor
  · intro t
    rw [hmem, exists_at_cons, hh.timestamps]
    constructor
    · rintro (ht | hx)
      · exact .inl ⟨hengine, hseries, hpart, ht⟩
      · exact .inr hx
    · rintro (⟨-, -, -, ht⟩ | hx)
      · exact .inl ht
      · exact .inr hx
  · unfold RawHistogram.timed
    split
    · exact hh.times
    · next hnew =>
      show (h.timestamps ++ [e.sampleAt]).Nodup
      rw [List.nodup_append]
      refine ⟨hh.times, List.nodup_singleton _, ?_⟩
      rintro t ht _ hlast rfl
      rw [List.mem_singleton.mp hlast] at ht
      exact hnew (List.contains_iff_mem.mpr ht)

/-- A bucket more, under a bound of its own. -/
theorem HistogramCollected.addBucket {h : RawHistogram} (hh : HistogramCollected es engine series h) {e : Entry}
    {bound : Bound} {x : Num} (hengine : e.engine = engine) (hseries : e.series = series)
    (hitem : e.item = .bucket bound x)
    (hnew : bound.value ∉ h.buckets.map fun b => b.1.value)
    (hroom : (h.buckets ++ [(bound, x)]).length ≤ maxBuckets) :
    HistogramCollected (.entry e :: es) engine series
      { h.timed e.sampleAt with buckets := h.buckets ++ [(bound, x)] } := by
  have hpart : e.item.IsPart := by
    rw [hitem]
    exact .inl rfl
  obtain ⟨htimes, hnodup⟩ := timed_collected hh hengine hseries hpart
  have htimed : (h.timed e.sampleAt).count = h.count ∧ (h.timed e.sampleAt).sum = h.sum := by
    unfold RawHistogram.timed
    split <;> exact ⟨rfl, rfl⟩
  refine ⟨?_, ?_, hroom, htimes, hnodup, ?_, ?_⟩
  · have hsome : bucketAt? engine series (.entry e) = some (bound, x) := by
      unfold bucketAt?
      dsimp only
      rw [if_pos ⟨hengine, hseries⟩, hitem]
    unfold bucketsAt
    rw [List.filterMap_cons_some hsome]
    exact (List.perm_append_singleton _ _).trans (hh.buckets.cons _)
  · show ((h.buckets ++ [(bound, x)]).map fun b => b.1.value).Nodup
    rw [List.map_append, List.map_singleton, List.nodup_append]
    refine ⟨hh.bounds, List.nodup_singleton _, ?_⟩
    rintro v hv _ hlast rfl
    rw [List.mem_singleton.mp hlast] at hv
    exact hnew hv
  · intro y
    rw [@exists_at_other _ _ _ e (fun e => e.item = .count y) fun _ _ hx => by rw [hitem] at hx; cases hx]
    show (h.timed e.sampleAt).count = _ ↔ _
    rw [htimed.1, hh.count]
  · intro y
    rw [@exists_at_other _ _ _ e (fun e => e.item = .sum y) fun _ _ hx => by rw [hitem] at hx; cases hx]
    show (h.timed e.sampleAt).sum = _ ↔ _
    rw [htimed.2, hh.sum]

/-- The count or the sum of a histogram, which is there once. -/
theorem once_collected {item : Num → Item} (hinj : Function.Injective item) {e : Entry} {x : Num}
    (hengine : e.engine = engine) (hseries : e.series = series) (hitem : e.item = item x)
    (hfresh : ∀ y v, At es engine series y → y.item ≠ item v) (y : Num) :
    some x = some y ↔ ∃ e', At (.entry e :: es) engine series e' ∧ e'.item = item y := by
  rw [@exists_at_cons _ _ _ e (fun e => e.item = item y), Option.some.injEq]
  constructor
  · rintro rfl
    exact .inl ⟨hengine, hseries, hitem⟩
  · rintro (⟨-, -, hx⟩ | ⟨e', he', hx⟩)
    · rw [hitem] at hx
      exact hinj hx
    · exact absurd hx (hfresh e' y he')

/-- **A part of a histogram is entered.** -/
theorem HistogramCollected.enterPart {h h' : RawHistogram} (hh : HistogramCollected es engine series h) {e : Entry}
    (hengine : e.engine = engine) (hseries : e.series = series) (hpart : e.item.IsPart)
    (hfresh : ∀ y, At es engine series y → e.item.part ≠ .bucket → y.item.part ≠ e.item.part)
    (henter : Metrics.enterPart (h.timed e.sampleAt) e.item = .ok h') :
    HistogramCollected (.entry e :: es) engine series h' := by
  obtain ⟨htimes, hnodup⟩ := timed_collected hh hengine hseries hpart
  have htimed : (h.timed e.sampleAt).buckets = h.buckets ∧ (h.timed e.sampleAt).count = h.count ∧
      (h.timed e.sampleAt).sum = h.sum := by
    unfold RawHistogram.timed
    split <;> exact ⟨rfl, rfl, rfl⟩
  have hother : ∀ {item : Num → Item} {old : Option Num} (y : Num), (∀ v, (item v).part ≠ e.item.part) →
      (old = some y ↔ ∃ x, At es engine series x ∧ x.item = item y) →
      (old = some y ↔ ∃ x, At (.entry e :: es) engine series x ∧ x.item = item y) := by
    intro item old y hne hold
    rw [@exists_at_other _ _ _ e (fun x => x.item = item y) fun _ _ hx => hne y (by rw [← hx])]
    exact hold
  have hbuckets : e.item.part ≠ .bucket →
      (h.timed e.sampleAt).buckets.Perm (bucketsAt (.entry e :: es) engine series) := by
    intro hne
    rw [bucketsAt_other fun _ _ => hne, htimed.1]
    exact hh.buckets
  have hbounds : ((h.timed e.sampleAt).buckets.map fun b => b.1.value).Nodup ∧
      (h.timed e.sampleAt).buckets.length ≤ maxBuckets := by
    rw [htimed.1]
    exact ⟨hh.bounds, hh.room⟩
  cases hitem : e.item with
  | bucket bound x =>
      rw [hitem] at henter
      unfold Metrics.enterPart at henter
      simp only [bind_eq_ok, failIf_eq_ok, exists_const] at henter
      obtain ⟨hnew, hroom, henter⟩ := henter
      obtain rfl := Except.ok.inj henter
      rw [htimed.1] at hnew hroom ⊢
      rw [← Bool.not_eq_true, List.contains_iff_mem] at hnew
      exact hh.addBucket hengine hseries hitem hnew (not_lt.mp (of_decide_eq_false hroom))
  | count x =>
      have hne : e.item.part ≠ .bucket := by rw [hitem]; rintro ⟨⟩
      have hfresh' : ∀ y v, At es engine series y → y.item ≠ .count v := by
        intro y v hy heq
        apply hfresh y hy hne
        rw [heq, hitem]
        rfl
      rw [hitem] at henter
      obtain rfl := Except.ok.inj henter
      refine ⟨hbuckets hne, hbounds.1, hbounds.2, htimes, hnodup, ?_, fun y => ?_⟩
      · exact once_collected (fun _ _ => Item.count.inj) hengine hseries hitem hfresh'
      · show (h.timed e.sampleAt).sum = _ ↔ _
        rw [htimed.2.2]
        exact hother y (fun _ => by rw [hitem]; rintro ⟨⟩) (hh.sum y)
  | sum x =>
      have hne : e.item.part ≠ .bucket := by rw [hitem]; rintro ⟨⟩
      have hfresh' : ∀ y v, At es engine series y → y.item ≠ .sum v := by
        intro y v hy heq
        apply hfresh y hy hne
        rw [heq, hitem]
        rfl
      rw [hitem] at henter
      obtain rfl := Except.ok.inj henter
      refine ⟨hbuckets hne, hbounds.1, hbounds.2, htimes, hnodup, fun y => ?_, ?_⟩
      · show (h.timed e.sampleAt).count = _ ↔ _
        rw [htimed.2.1]
        exact hother y (fun _ => by rw [hitem]; rintro ⟨⟩) (hh.count y)
      · exact once_collected (fun _ _ => Item.sum.inj) hengine hseries hitem hfresh'
  | created x | gauge x | counter x =>
      rw [hitem] at hpart
      rcases hpart with h | h | h <;> cases h

/-- **A sample is entered in the group of its engine.** -/
theorem GroupCollected.enterItem {g g' : Group} (hg : GroupCollected es engine g) {e : Entry}
    (hengine : e.engine = engine)
    (hfresh : ∀ y, At es engine e.series y → e.item.part ≠ .bucket → y.item.part ≠ e.item.part)
    (henter : Metrics.enterItem g e.series e.sampleAt e.item = .ok g') :
    GroupCollected (.entry e :: es) engine g' := by
  have hnever : ¬ e.item.IsPart → ∀ series,
      ((g.histograms.get? series).isSome = true ↔ ∃ x, At (.entry e :: es) engine series x ∧ x.item.IsPart) ∧
        HistogramCollected (.entry e :: es) engine series ((g.histograms.get? series).getD {}) := by
    intro hpart series
    refine ⟨?_, (hg.histograms series).other fun _ _ => hpart⟩
    rw [exists_at_other fun _ _ => hpart]
    exact hg.present series
  have hsame : ∀ {item : Num → Item}, (∀ v, item v ≠ e.item) → e.engine = engine → ∀ x, e.item ≠ item x :=
    fun h _ x heq => h x heq.symm
  cases hitem : e.item with
  | created x =>
      rw [hitem] at henter
      obtain rfl := Except.ok.inj henter
      have hpart : ¬ e.item.IsPart := by
        rw [hitem]
        rintro (h | h | h) <;> cases h
      exact ⟨hg.gauges.other (hsame fun v h => by rw [hitem] at h; cases h),
        hg.counters.other (hsame fun v h => by rw [hitem] at h; cases h), fun s => (hnever hpart s).1,
        fun s => (hnever hpart s).2⟩
  | gauge x =>
      rw [hitem] at henter
      obtain rfl := Except.ok.inj henter
      have hpart : ¬ e.item.IsPart := by
        rw [hitem]
        rintro (h | h | h) <;> cases h
      refine ⟨?_, hg.counters.other (hsame fun v h => by rw [hitem] at h; cases h),
        fun s => (hnever hpart s).1, fun s => (hnever hpart s).2⟩
      apply hg.gauges.set hengine hitem fun _ _ => Item.gauge.inj
      intro y v hy heq
      exact hfresh y hy (by rw [hitem]; rintro ⟨⟩) (by rw [heq, hitem]; rfl)
  | counter x =>
      rw [hitem] at henter
      obtain rfl := Except.ok.inj henter
      have hpart : ¬ e.item.IsPart := by
        rw [hitem]
        rintro (h | h | h) <;> cases h
      refine ⟨hg.gauges.other (hsame fun v h => by rw [hitem] at h; cases h), ?_,
        fun s => (hnever hpart s).1, fun s => (hnever hpart s).2⟩
      apply hg.counters.set hengine hitem fun _ _ => Item.counter.inj
      intro y v hy heq
      exact hfresh y hy (by rw [hitem]; rintro ⟨⟩) (by rw [heq, hitem]; rfl)
  | bucket bound x | count x | sum x =>
      have hpart : e.item.IsPart := by
        rw [hitem]
        simp [Item.IsPart, Item.part]
      have hcase : (∃ b x, e.item = .bucket b x) ∨ (∃ x, e.item = .count x) ∨ ∃ x, e.item = .sum x := by
        rw [hitem]
        simp
      rw [enterItem_part hcase] at henter
      obtain ⟨raw, hraw, rfl⟩ := henter
      refine ⟨hg.gauges.other (hsame fun v h => by rw [hitem] at h; cases h),
        hg.counters.other (hsame fun v h => by rw [hitem] at h; cases h), fun series => ?_, fun series => ?_⟩
      · dsimp only
        rw [Dict.get?_set, exists_at_cons]
        by_cases hseries : e.series = series
        · rw [if_pos hseries]
          exact ⟨fun _ => .inl ⟨hengine, hseries, hpart⟩, fun _ => rfl⟩
        · rw [if_neg hseries, hg.present]
          exact ⟨.inr, fun h => h.resolve_left fun hx => hseries hx.2.1⟩
      · dsimp only
        rw [Dict.get?_set]
        by_cases hseries : e.series = series
        · rw [if_pos hseries, Option.getD_some]
          rw [hseries] at hraw hfresh
          exact (hg.histograms series).enterPart hengine hseries hpart hfresh hraw
        · rw [if_neg hseries]
          exact (hg.histograms series).other fun _ h => absurd h hseries

/-! ## A line more -/

theorem mem_cons_skip {event : Event} (h : event.entry? = none) {e : Entry} :
    Event.entry e ∈ event :: es ↔ Event.entry e ∈ es := by
  rw [List.mem_cons]
  constructor
  · rintro (rfl | hmem)
    · cases h
    · exact hmem
  · exact .inr

theorem at_skip {event : Event} (h : event.entry? = none) {e : Entry} :
    At (event :: es) engine series e ↔ At es engine series e := by
  unfold At
  rw [mem_cons_skip h]

/-- A line that is no sample leaves the groups. -/
theorem GroupCollected.skip {g : Group} (hg : GroupCollected es engine g) {event : Event}
    (h : event.entry? = none) : GroupCollected (event :: es) engine g where
  gauges series v := by simp only [hg.gauges series v, at_skip h]
  counters series v := by simp only [hg.counters series v, at_skip h]
  present series := by simp only [hg.present, at_skip h]
  histograms series :=
    { buckets := by
        have hnone : bucketAt? engine series event = none := by
          unfold bucketAt?
          split
          · cases h
          · rfl
        unfold bucketsAt
        rw [List.filterMap_cons_none hnone]
        exact (hg.histograms series).buckets
      bounds := (hg.histograms series).bounds
      room := (hg.histograms series).room
      timestamps := fun t => by simp only [(hg.histograms series).timestamps, at_skip h]
      times := (hg.histograms series).times
      count := fun x => by simp only [(hg.histograms series).count, at_skip h]
      sum := fun x => by simp only [(hg.histograms series).sum, at_skip h] }

theorem keysOf_skip {event : Event} (h : event.entry? = none) : keysOf (event :: es) = keysOf es := by
  unfold keysOf
  rw [List.filterMap_cons_none]
  rw [h]
  rfl

/-- What a line that is no sample leaves. -/
theorem Collected.skip {r : Reading} (h : Collected es r) {event : Event} (hread : event.Read)
    (hevent : event.entry? = none) (types : Dict String String) (unknown : List String)
    (htypes : ∀ family declared, types.get? family = some declared ↔ Event.type family declared ∈ event :: es)
    (hunknown : ∀ name, name ∈ unknown ↔ Event.unknown name ∈ event :: es) (hnames : unknown.Nodup)
    (hroom : unknown.length ≤ maxUnknownMetrics) : Collected (event :: es) { r with types, unknown } where
  read := List.forall_mem_cons.mpr ⟨hread, h.read⟩
  types := htypes
  unknown := hunknown
  names := hnames
  unknownRoom := hroom
  seen := by rw [keysOf_skip hevent]; exact h.seen
  keys := h.keys
  seenRoom := h.seenRoom
  engines engine := by simp only [h.engines, mem_cons_skip hevent]
  enginesRoom := h.enginesRoom
  groups engine := (h.groups engine).skip hevent
  created engine series x := by simp only [h.created, at_skip hevent]

theorem groupOf_getD {r : Reading} {g : Group} (h : groupOf r engine = .ok g) :
    g = (r.groups.get? engine).getD {} ∧ (r.groups.get? engine = none → r.groups.size < maxEngineGroups) := by
  unfold groupOf at h
  cases hget : r.groups.get? engine with
  | some group =>
      rw [hget] at h
      exact ⟨(Except.ok.inj h).symm, fun hnone => by cases hnone⟩
  | none =>
      rw [hget] at h
      simp only [bind_eq_ok, failIf_eq_ok, exists_const] at h
      obtain ⟨hmax, h⟩ := h
      exact ⟨(Except.ok.inj h).symm, fun _ => not_le.mp (of_decide_eq_false hmax)⟩

/-- An assignment adds a key that is new. -/
theorem size_set {K V : Type} [DecidableEq K] (d : Dict K V) (k : K) (v : V) :
    (d.set k v).size = if (d.get? k).isSome then d.size else d.size + 1 := by
  have h := Dict.total_set (fun _ => 1) d k v
  rw [← Dict.size_eq_total, ← Dict.size_eq_total] at h
  cases hget : d.get? k with
  | none =>
      rw [hget] at h
      exact h
  | some w =>
      rw [hget] at h
      exact Nat.succ.inj h

/-- **A sample is entered.** -/
theorem Collected.enterEntry {r r' : Reading} (h : Collected es r) {e : Entry} (hread : e.Read)
    (henter : Metrics.enterEntry r e = .ok r') : Collected (.entry e :: es) r' := by
  unfold Metrics.enterEntry at henter
  simp only [bind_eq_ok, failIf_eq_ok, exists_const] at henter
  obtain ⟨hnew, hroom, g, hgroup, g', hg', henter⟩ := henter
  obtain rfl := Except.ok.inj henter
  rw [← Bool.not_eq_true, List.contains_iff_mem] at hnew
  obtain ⟨rfl, hsize⟩ := groupOf_getD hgroup
  -- a sample of the same series and part has the same key, and a key is seen once
  have hfresh : ∀ series y, At es e.engine series y → e.series = series → e.item.part ≠ .bucket →
      y.item.part ≠ e.item.part := by
    rintro series y ⟨hy, hengine, rfl⟩ hseries hbucket hpart
    have hread' : y.Read := h.read _ hy y rfl
    have hkey := hread'.key_eq hread hengine hseries.symm hpart (hpart ▸ hbucket)
    apply hnew
    rw [h.seen.mem_iff, ← hkey]
    exact List.mem_filterMap.mpr ⟨_, hy, rfl⟩
  refine ⟨List.forall_mem_cons.mpr ⟨fun _ heq => Event.entry.inj heq ▸ hread, h.read⟩, ?_, ?_, h.names,
    h.unknownRoom, ?_, List.nodup_cons.mpr ⟨hnew, h.keys⟩, not_lt.mp (of_decide_eq_false hroom), ?_, ?_, ?_, ?_⟩
  · intro family declared
    rw [List.mem_cons, h.types]
    exact ⟨.inr, fun hmem => hmem.resolve_left (by rintro ⟨⟩)⟩
  · intro name
    rw [List.mem_cons, h.unknown]
    exact ⟨.inr, fun hmem => hmem.resolve_left (by rintro ⟨⟩)⟩
  · have hkeys : keysOf (.entry e :: es) = e.key :: keysOf es := List.filterMap_cons_some rfl
    rw [hkeys]
    exact h.seen.cons _
  · intro engine
    dsimp only
    rw [Dict.get?_set]
    by_cases hengine : e.engine = engine
    · rw [if_pos hengine]
      exact ⟨fun _ => ⟨e, List.mem_cons_self, hengine⟩, fun _ => rfl⟩
    · rw [if_neg hengine, h.engines]
      constructor
      · rintro ⟨x, hx, hxe⟩
        exact ⟨x, List.mem_cons_of_mem _ hx, hxe⟩
      · rintro ⟨x, hx, hxe⟩
        rcases List.mem_cons.mp hx with heq | hx
        · exact absurd (Event.entry.inj heq ▸ hxe) hengine
        · exact ⟨x, hx, hxe⟩
  · dsimp only
    rw [size_set]
    split
    · exact h.enginesRoom
    · next hnone => exact hsize (Option.not_isSome_iff_eq_none.mp hnone)
  · intro engine
    dsimp only
    rw [Dict.get?_set]
    by_cases hengine : e.engine = engine
    · rw [if_pos hengine, Option.getD_some]
      subst hengine
      exact (h.groups e.engine).enterItem rfl (fun y hy => hfresh e.series y hy rfl) hg'
    · rw [if_neg hengine]
      exact (h.groups engine).other hengine
  · intro engine series x
    dsimp only
    unfold enterCreated
    rw [@exists_at_cons _ _ _ e (fun e => e.item = .created x)]
    split
    · next y hitem =>
      rw [Dict.get?_set]
      by_cases hplace : (e.engine, e.series) = (engine, series)
      · obtain ⟨rfl, rfl⟩ := Prod.mk.inj hplace
        rw [if_pos rfl, Option.some.injEq]
        constructor
        · rintro rfl
          exact .inl ⟨rfl, rfl, hitem⟩
        · rintro (⟨-, -, hx⟩ | ⟨z, hz, hx⟩)
          · rw [hitem] at hx
            exact Item.created.inj hx
          · refine absurd ?_ (hfresh _ z hz rfl (by rw [hitem]; rintro ⟨⟩))
            rw [hx, hitem]
            rfl
      · rw [if_neg hplace, h.created]
        exact ⟨.inr, fun hx => hx.resolve_left fun heq => hplace (by rw [heq.1, heq.2.1])⟩
    · next hitem =>
      rw [h.created]
      exact ⟨.inr, fun hx => hx.resolve_left fun heq => hitem x heq.2.2⟩

/-- **A line is entered.** -/
theorem Collected.next {r r' : Reading} {event : Event} (hread : event.Read) (h : Collected es r)
    (henter : enter r event = .ok r') : Collected (event :: es) r' := by
  have htypes : (∀ f d, event ≠ .type f d) → ∀ family declared,
      r.types.get? family = some declared ↔ Event.type family declared ∈ event :: es := by
    intro hne family declared
    rw [List.mem_cons, h.types]
    exact ⟨.inr, fun hmem => hmem.resolve_left fun heq => hne _ _ heq.symm⟩
  have hunknown : (∀ n, event ≠ .unknown n) → ∀ name, name ∈ r.unknown ↔ Event.unknown name ∈ event :: es := by
    intro hne name
    rw [List.mem_cons, h.unknown]
    exact ⟨.inr, fun hmem => hmem.resolve_left fun heq => hne _ heq.symm⟩
  cases event with
  | blank =>
      obtain rfl := Except.ok.inj henter
      exact h.skip hread rfl r.types r.unknown (htypes nofun) (hunknown nofun) h.names h.unknownRoom
  | type family declared =>
      unfold enter at henter
      simp only [bind_eq_ok, failIf_eq_ok, exists_const] at henter
      obtain ⟨hsame, henter⟩ := henter
      obtain rfl := Except.ok.inj henter
      refine h.skip hread rfl _ r.unknown ?_ (hunknown nofun) h.names h.unknownRoom
      intro family' declared'
      rw [Dict.get?_set, List.mem_cons]
      by_cases hfamily : family = family'
      · rw [if_pos hfamily, Option.some.injEq]
        constructor
        · rintro rfl
          exact .inl (by rw [hfamily])
        · rintro (heq | hmem)
          · exact (Event.type.inj heq).2.symm
          · -- an older declaration of the family says the same
            rw [← h.types, ← hfamily] at hmem
            rw [hmem] at hsame
            simp only [Option.any_some, decide_eq_false_iff_not, not_not] at hsame
            exact hsame.symm
      · rw [if_neg hfamily, h.types]
        exact ⟨.inr, fun hmem => hmem.resolve_left fun heq => hfamily (Event.type.inj heq).1.symm⟩
  | unknown name =>
      unfold enter at henter
      simp only [bind_eq_ok, failIf_eq_ok, exists_const] at henter
      obtain ⟨hroom, henter⟩ := henter
      obtain rfl := Except.ok.inj henter
      refine h.skip hread rfl r.types _ (htypes nofun) ?_ h.names.insert (not_lt.mp (of_decide_eq_false hroom))
      intro name'
      rw [List.mem_insert_iff, List.mem_cons, h.unknown]
      constructor
      · rintro (rfl | hmem)
        · exact .inl rfl
        · exact .inr hmem
      · rintro (heq | hmem)
        · exact .inl (Event.unknown.inj heq)
        · exact .inr hmem
  | entry e => exact h.enterEntry (hread e rfl) henter

/-! ## Room for one of the lines that have been collected -/

/-- Distinct items among others are no more than these. -/
theorem length_le_of_subset {α : Type} {xs ys : List α} (hnodup : xs.Nodup) (h : xs ⊆ ys) :
    xs.length ≤ ys.length := (List.subperm_of_subset hnodup h).length_le

theorem keysOf_cons (e : Entry) (es : List Event) : keysOf (.entry e :: es) = e.key :: keysOf es :=
  List.filterMap_cons_some rfl

/-- There is a group for the sample. -/
theorem Collected.groupOf_room {r all : Reading} {rest : List Event} {e : Entry} (h : Collected es r)
    (hall : Collected (.entry e :: (es ++ rest)) all) : ∃ g, groupOf r e.engine = .ok g := by
  unfold groupOf
  cases hget : r.groups.get? e.engine with
  | some g => exact ⟨g, rfl⟩
  | none =>
      refine ⟨{}, ?_⟩
      simp only [bind_eq_ok, failIf_eq_ok, exists_const, and_true]
      apply decide_eq_false
      have hnodup : (e.engine :: r.groups.keys).Nodup := by
        refine List.nodup_cons.mpr ⟨?_, r.groups.nodup⟩
        rw [← Dict.get?_isSome_iff, hget]
        exact Bool.false_ne_true
      have hsubset : e.engine :: r.groups.keys ⊆ all.groups.keys := by
        intro engine hengine
        rw [← Dict.get?_isSome_iff, hall.engines]
        rcases List.mem_cons.mp hengine with rfl | hold
        · exact ⟨e, List.mem_cons_self, rfl⟩
        · rw [← Dict.get?_isSome_iff, h.engines] at hold
          obtain ⟨x, hx, hxe⟩ := hold
          exact ⟨x, List.mem_cons_of_mem _ (List.mem_append_left _ hx), hxe⟩
      have hlength := length_le_of_subset hnodup hsubset
      have hroom := hall.enginesRoom
      have hkeys : ∀ d : Dict EngineKey Group, d.keys.length = d.size := fun d => List.length_map _
      rw [List.length_cons, hkeys, hkeys] at hlength
      omega

/-- There is a place for the sample in its group. -/
theorem Collected.item_room {r all : Reading} {rest : List Event} {e : Entry} (h : Collected es r)
    (hall : Collected (.entry e :: (es ++ rest)) all) :
    ∃ g, Metrics.enterItem ((r.groups.get? e.engine).getD {}) e.series e.sampleAt e.item = .ok g := by
  cases hitem : e.item with
  | created x | gauge x | counter x | count x | sum x => exact ⟨_, rfl⟩
  | bucket bound x =>
      have hh := (h.groups e.engine).histograms e.series
      have hhall := (hall.groups e.engine).histograms e.series
      generalize hold : ((((r.groups.get? e.engine).getD {}).histograms.get? e.series).getD {}) = old at hh
      generalize ((((all.groups.get? e.engine).getD {}).histograms.get? e.series).getD {}) = new at hhall
      -- in the end the histogram has this bucket and all the earlier ones
      have hbuckets : new.buckets.Perm ((bound, x) :: (bucketsAt es e.engine e.series ++
          bucketsAt rest e.engine e.series)) := by
        have hsome : bucketAt? e.engine e.series (.entry e) = some (bound, x) := by
          unfold bucketAt?
          dsimp only
          rw [if_pos ⟨rfl, rfl⟩, hitem]
        have hperm := hhall.buckets
        unfold bucketsAt at hperm
        rw [List.filterMap_cons_some hsome, List.filterMap_append] at hperm
        exact hperm
      have htimed : (old.timed e.sampleAt).buckets = old.buckets := by
        unfold RawHistogram.timed
        split <;> rfl
      have hnew : ((old.timed e.sampleAt).buckets.map fun b => b.1.value).contains bound.value = false := by
        have hnodup := ((hbuckets.map fun b => b.1.value).nodup_iff).mp hhall.bounds
        rw [List.map_cons, List.nodup_cons] at hnodup
        rw [← Bool.not_eq_true, List.contains_iff_mem, htimed]
        intro hmem
        apply hnodup.1
        rw [List.map_append, List.mem_append]
        exact .inl ((hh.buckets.map fun b => b.1.value).mem_iff.mp hmem)
      have hlength : ((old.timed e.sampleAt).buckets ++ [(bound, x)]).length ≤ maxBuckets := by
        have hroom := hhall.room
        rw [hbuckets.length_eq, List.length_cons, List.length_append, ← hh.buckets.length_eq] at hroom
        rw [htimed, List.length_append, List.length_singleton]
        omega
      have hpart : ∃ raw, Metrics.enterPart (old.timed e.sampleAt) (.bucket bound x) = .ok raw := by
        unfold Metrics.enterPart
        simp only [bind_eq_ok, failIf_eq_ok, exists_const]
        exact ⟨_, hnew, decide_eq_false (not_lt.mpr hlength), rfl⟩
      obtain ⟨raw, hraw⟩ := hpart
      rw [← hold] at hraw
      exact ⟨_, (enterItem_part (.inl ⟨bound, x, rfl⟩)).mpr ⟨raw, hraw, rfl⟩⟩

/-- **Whatever has been collected can be entered earlier**: no check and no limit is in its way. -/
theorem Collected.room {r all : Reading} {rest : List Event} {event : Event} (h : Collected es r)
    (hall : Collected (event :: (es ++ rest)) all) : ∃ r', enter r event = .ok r' := by
  cases event with
  | blank => exact ⟨r, rfl⟩
  | type family declared =>
      refine ⟨_, bind_eq_ok.mpr ⟨(), failIf_eq_ok.mpr ?_, rfl⟩⟩
      cases hget : r.types.get? family with
      | none => rfl
      | some declared' =>
          have hold := (h.types family declared').mp hget
          have hboth := (hall.types family declared').mpr (List.mem_cons_of_mem _ (List.mem_append_left _ hold))
          rw [(hall.types family declared).mpr List.mem_cons_self] at hboth
          obtain rfl := Option.some.inj hboth
          simp
  | unknown name =>
      refine ⟨_, bind_eq_ok.mpr ⟨(), failIf_eq_ok.mpr ?_, rfl⟩⟩
      apply decide_eq_false
      rw [not_lt]
      refine le_trans (length_le_of_subset h.names.insert ?_) hall.unknownRoom
      intro name' hname
      rw [hall.unknown]
      rcases List.mem_insert_iff.mp hname with rfl | hold
      · exact List.mem_cons_self
      · exact List.mem_cons_of_mem _ (List.mem_append_left _ ((h.unknown name').mp hold))
  | entry e =>
      obtain ⟨g, hg⟩ := h.groupOf_room hall
      obtain ⟨rfl, -⟩ := groupOf_getD hg
      obtain ⟨g', hg'⟩ := h.item_room hall
      have hseen := hall.seen
      rw [keysOf_cons] at hseen
      have hkeys : keysOf (es ++ rest) = keysOf es ++ keysOf rest := List.filterMap_append
      rw [hkeys] at hseen
      have hnew : e.key ∉ r.seen := by
        have hnodup := hseen.nodup_iff.mp hall.keys
        rw [List.nodup_cons, List.mem_append, not_or] at hnodup
        rw [h.seen.mem_iff]
        exact hnodup.1.1
      have hlength : (e.key :: r.seen).length ≤ maxSeries := by
        have hroom := hall.seenRoom
        rw [hseen.length_eq, List.length_cons, List.length_append, ← h.seen.length_eq] at hroom
        rw [List.length_cons]
        omega
      have hcontains : r.seen.contains e.key = false := by rwa [← Bool.not_eq_true, List.contains_iff_mem]
      show ∃ r', Metrics.enterEntry r e = .ok r'
      unfold Metrics.enterEntry
      simp only [bind_eq_ok, failIf_eq_ok, exists_const]
      exact ⟨_, hcontains, decide_eq_false (not_lt.mpr hlength), _, hg, g', hg', rfl⟩

/-- **The lines are collected**, in whatever order they come. -/
theorem collects : Collects enter Event.Read Collected where
  perm hperm h := h.perm hperm
  next hread h henter := h.next hread henter
  room h hall := h.room hall

end Metrics
end PickleInfra
