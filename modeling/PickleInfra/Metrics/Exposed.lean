import PickleInfra.Metrics.Cut
import PickleInfra.Metrics.Points

/-!
# `Metrics.Exposed` — the series a text exposes, and the points they are written as
-/

namespace PickleInfra
namespace Metrics

open Python Python.Text Python.Str

/-- A series of an engine, and the time of its samples in milliseconds. -/
structure Reported (S : Type) where
  engine : EngineKey
  time : Option Num
  series : S

/-- What a text exposes. -/
structure Exposed where
  scalars : List (Reported Scalar)
  histograms : List (Reported Histogram)

/-! ## Points -/

section Points

variable (engine : EngineKey) (time : Option Num) (h : Head)

def Head.point (part : Part) (bound : Option Bound) (value : Num) : Point :=
  { engine, family := h.family, labels := h.labels, part, bound, value, time }

/-- The sample of the creation time, if the series has one. -/
def Head.createdPoints : List Point := (h.createdAt.map (h.point engine time .created none)).toList

end Points

def Reported.scalarPoints (s : Reported Scalar) : List Point :=
  s.series.head.point s.engine s.time .value none s.series.value
    :: s.series.head.createdPoints s.engine s.time

/-- The samples of a histogram without its creation time. -/
def Reported.parts (h : Reported Histogram) : List Point :=
  (h.series.bounds.zip h.series.counts).map
      (fun b => h.series.head.point h.engine h.time .bucket (some b.1) b.2)
    ++ [h.series.head.point h.engine h.time .count none h.series.count,
        h.series.head.point h.engine h.time .sum none h.series.sum]

def Reported.histogramPoints (h : Reported Histogram) : List Point :=
  h.parts ++ h.series.head.createdPoints h.engine h.time

def Exposed.points (x : Exposed) : List Point :=
  x.scalars.flatMap Reported.scalarPoints ++ x.histograms.flatMap Reported.histogramPoints

/-! ## Supported series -/

variable (F : FloatFormat)

/-- The common fields of a series: an allowlisted family, and labels within the limits. -/
structure HeadSupported (engine : EngineKey) (time : Option Num) (h : Head) : Prop where
  known : h.family ∈ definitions
  model : textOk engine.1 = true
  engine : textOk engine.2 = true
  labels : LabelsOk h.family h.labels
  sampleAt : h.sampleAt = time.map (seconds F)
  undeclared : h.typeDeclared = false

structure ScalarSupported (s : Reported Scalar) : Prop where
  head : HeadSupported F s.engine s.time s.series.head
  kind : s.series.head.family.kind ≠ .histograms
  gauge : s.series.head.family.kind = .gauges → s.series.head.createdAt = none
  ratio : s.series.head.family.unit = .ratio → s.series.value.value ≤ 1
  state : s.series.head.family.unit = .state → s.series.value.value = 0 ∨ s.series.value.value = 1

/-- A histogram is consistent if it passes `_histogram`; its boundaries are numbers of the machine. -/
structure HistogramSupported (h : Reported Histogram) : Prop where
  head : HeadSupported F h.engine h.time h.series.head
  kind : h.series.head.family.kind = .histograms
  floats : ∀ b ∈ h.series.bounds, ∀ q, b = .num (.float q) → ∃ d, q = F.round d
  consistent : histogram F h.series.bounds h.series.counts (some h.series.count) (some h.series.sum) = .ok ()

def Reported.scalarKey (s : Reported Scalar) : EngineKey × SeriesKey := (s.engine, s.series.head.key)

def Reported.histogramKey (h : Reported Histogram) : EngineKey × SeriesKey := (h.engine, h.series.head.key)

/-- **Supported series with distinct keys.** -/
structure Exposed.Supported (x : Exposed) : Prop where
  scalars : ∀ s ∈ x.scalars, ScalarSupported F s
  histograms : ∀ h ∈ x.histograms, HistogramSupported F h
  distinct : (x.scalars.map Reported.scalarKey ++ x.histograms.map Reported.histogramKey).Nodup

variable {F}

/-! ## What `_histogram` says about the boundaries -/

theorem numberOf_value {count : Bool} {maximum : ℚ} {x y : Num} (h : numberOf F count maximum x = .ok y)
    (hfloat : ∀ q, x = .float q → ∃ d, q = F.round d) : y.value = x.value := by
  unfold numberOf numberOfDecimal at h
  simp only [bind_eq_ok, failIf_eq_ok, exists_const] at h
  obtain ⟨-, _, hcheck, h⟩ := h
  cases h
  cases x with
  | int n =>
      show (keptNumber F (n : ℚ)).value = n
      rw [keptNumber_int]
      rfl
  | float q =>
      obtain ⟨d, rfl⟩ := hfloat q rfl
      show (keptNumber F (F.printed (F.round d))).value = F.round d
      cases hint : isInteger (F.printed (F.round d)) with
      | false =>
          rw [keptNumber_float hint]
          exact F.round_printed d
      | true =>
          obtain ⟨⟨hpos, -⟩, hsafe, -, -⟩ := (checkDecimal_eq_ok F).mp hcheck
          have hpos' : 0 ≤ F.printed (F.round d) := hpos
          have hsafe' : F.printed (F.round d) ≤ maxSafeCount := hsafe hint
          obtain ⟨n, hn⟩ := isInteger_iff.mp hint
          have hround := F.round_printed d
          rw [hn] at hpos' hsafe' hround ⊢
          have hn0 : 0 ≤ n := by exact_mod_cast hpos'
          have hnmax := safe_iff.mp hsafe'
          rw [F.round_int n (by rw [abs_le]; constructor <;> omega)] at hround
          rw [keptNumber_int]
          exact hround

/-- The boundaries increase, up to the closing `'+Inf'`. -/
theorem checkBuckets_sorted {buckets : List (Bound × Num)} :
    ∀ {last count : ℚ}, checkBuckets F last count buckets = .ok () →
      (∀ b ∈ buckets, ∀ q, b.1 = .num (.float q) → ∃ d, q = F.round d) →
      (∀ b ∈ buckets, ∀ x, b.1 = .num x → last < x.value) ∧
        buckets.Pairwise (fun a b => boundLe a.1 b.1 = true ∧ a.1.value ≠ b.1.value) := by
  induction buckets with
  | nil => exact fun _ _ => ⟨fun b hb => absurd hb List.not_mem_nil, List.Pairwise.nil⟩
  | cons b rest ih =>
      intro last count h hfloat
      obtain ⟨bound, cumulative⟩ := b
      unfold checkBuckets at h
      simp only [bind_eq_ok, failIf_eq_ok, exists_const] at h
      obtain ⟨last', hbound, cumulative', -, -, hrest⟩ := h
      obtain ⟨hlast, hpair⟩ := ih hrest fun b hb => hfloat b (List.mem_cons_of_mem _ hb)
      cases bound with
      | num x =>
          unfold checkBound at hbound
          simp only [bind_eq_ok, failIf_eq_ok, exists_const] at hbound
          obtain ⟨y, hy, hlt, hlast'⟩ := hbound
          cases hlast'
          have hvalue : y.value = x.value := by
            apply numberOf_value hy
            rintro q rfl
            exact hfloat _ List.mem_cons_self q rfl
          rw [decide_eq_false_iff_not, not_le, hvalue] at hlt
          rw [hvalue] at hlast
          refine ⟨?_, List.pairwise_cons.mpr ⟨?_, hpair⟩⟩
          · intro b hb z hz
            rcases List.mem_cons.mp hb with rfl | hb
            · cases hz
              exact hlt
            · exact hlt.trans (hlast b hb z hz)
          · intro b hb
            cases hb' : b.1 with
            | num z =>
                have hz := hlast b hb z hb'
                unfold boundLe Bound.value
                refine ⟨decide_eq_true hz.le, ?_⟩
                intro heq
                exact hz.ne (Option.some.inj heq)
            | inf => exact ⟨rfl, fun heq => (by cases heq)⟩
      | inf =>
          unfold checkBound at hbound
          simp only [bind_eq_ok, failIf_eq_ok, exists_const, Bool.not_eq_false', List.isEmpty_iff] at hbound
          obtain ⟨hempty, -⟩ := hbound
          subst hempty
          refine ⟨?_, List.pairwise_singleton _ _⟩
          intro b hb x hx
          rw [List.mem_singleton.mp hb] at hx
          cases hx

/-- What is used of a consistent histogram. -/
theorem histogram_consistent {bounds : List Bound} {counts : List Num} {count total : Num}
    (h : histogram F bounds counts (some count) (some total) = .ok ()) :
    bounds.length = counts.length ∧ bounds.length ≤ maxBuckets ∧ bounds ≠ [] ∧
      checkBuckets F (-1) 0 (bounds.zip counts) = .ok () := by
  unfold histogram at h
  simp only [bind_eq_ok, failIf_eq_ok, exists_const, Bool.or_eq_false_iff, decide_eq_false_iff_not,
    not_lt, not_not] at h
  obtain ⟨⟨⟨⟨hempty, hmax⟩, hlength⟩, -⟩, _, hcheck, -⟩ := h
  refine ⟨hlength, hmax, ?_, hcheck⟩
  rintro rfl
  cases hempty

/-- The buckets of a histogram are in the order of their boundaries, which are distinct. -/
theorem HistogramSupported.sorted {h : Reported Histogram} (hh : HistogramSupported F h) :
    (h.series.bounds.zip h.series.counts).Pairwise
      (fun a b => boundLe a.1 b.1 = true ∧ a.1.value ≠ b.1.value) := by
  obtain ⟨-, -, -, hcheck⟩ := histogram_consistent hh.consistent
  refine (checkBuckets_sorted hcheck ?_).2
  intro b hb q hq
  exact hh.floats b.1 (List.of_mem_zip hb).1 q hq

/-! ## The points of a series -/

theorem mem_createdPoints {engine : EngineKey} {time : Option Num} {h : Head} {p : Point} :
    p ∈ h.createdPoints engine time ↔ ∃ c, h.createdAt = some c ∧ p = h.point engine time .created none c := by
  unfold Head.createdPoints
  rw [Option.mem_toList, Option.map_eq_some_iff]
  exact ⟨fun ⟨c, hc, hp⟩ => ⟨c, hc, hp.symm⟩, fun ⟨c, hc, hp⟩ => ⟨c, hc, hp.symm⟩⟩

theorem mem_scalarPoints {s : Reported Scalar} {p : Point} : p ∈ s.scalarPoints ↔
    p = s.series.head.point s.engine s.time .value none s.series.value ∨
      ∃ c, s.series.head.createdAt = some c ∧ p = s.series.head.point s.engine s.time .created none c := by
  unfold Reported.scalarPoints
  rw [List.mem_cons, mem_createdPoints]

theorem mem_parts {h : Reported Histogram} {p : Point} : p ∈ h.parts ↔
    (∃ b ∈ h.series.bounds.zip h.series.counts,
      p = h.series.head.point h.engine h.time .bucket (some b.1) b.2) ∨
    p = h.series.head.point h.engine h.time .count none h.series.count ∨
    p = h.series.head.point h.engine h.time .sum none h.series.sum := by
  unfold Reported.parts
  rw [List.mem_append, List.mem_map, List.mem_cons, List.mem_singleton]
  exact or_congr ⟨fun ⟨b, hb, hp⟩ => ⟨b, hb, hp.symm⟩, fun ⟨b, hb, hp⟩ => ⟨b, hb, hp.symm⟩⟩ Iff.rfl

theorem mem_histogramPoints {h : Reported Histogram} {p : Point} : p ∈ h.histogramPoints ↔
    p ∈ h.parts ∨ ∃ c, h.series.head.createdAt = some c ∧
      p = h.series.head.point h.engine h.time .created none c := by
  unfold Reported.histogramPoints
  rw [List.mem_append, mem_createdPoints]

theorem mem_points {x : Exposed} {p : Point} : p ∈ x.points ↔
    (∃ s ∈ x.scalars, p ∈ s.scalarPoints) ∨ ∃ h ∈ x.histograms, p ∈ h.histogramPoints := by
  unfold Exposed.points
  rw [List.mem_append, List.mem_flatMap, List.mem_flatMap]

theorem HeadSupported.point_ok {engine : EngineKey} {time : Option Num} {h : Head}
    (hh : HeadSupported F engine time h) {part : Part} {bound : Option Bound} {value : Num}
    (hbound : bound.isSome = decide (part = .bucket))
    (hratio : part = .value → h.family.unit = .ratio → value.value ≤ 1)
    (hstate : part = .value → h.family.unit = .state → value.value = 0 ∨ value.value = 1) :
    (h.point engine time part bound value).Ok :=
  ⟨hh.model, hh.engine, hh.labels, hbound, hratio, hstate⟩

theorem scalarPoints_ok {s : Reported Scalar} (hs : ScalarSupported F s) : ∀ p ∈ s.scalarPoints, p.Ok := by
  intro p hp
  rcases mem_scalarPoints.mp hp with rfl | ⟨c, -, rfl⟩
  · exact hs.head.point_ok rfl (fun _ => hs.ratio) (fun _ => hs.state)
  · exact hs.head.point_ok rfl (fun h => by cases h) (fun h => by cases h)

theorem parts_ok {h : Reported Histogram} (hh : HistogramSupported F h) : ∀ p ∈ h.parts, p.Ok := by
  intro p hp
  rcases mem_parts.mp hp with ⟨b, -, rfl⟩ | rfl | rfl
  · exact hh.head.point_ok rfl (fun h => by cases h) (fun h => by cases h)
  · exact hh.head.point_ok rfl (fun h => by cases h) (fun h => by cases h)
  · exact hh.head.point_ok rfl (fun h => by cases h) (fun h => by cases h)

theorem points_ok {x : Exposed} (hx : x.Supported F) : ∀ p ∈ x.points, p.Ok := by
  intro p hp
  rcases mem_points.mp hp with ⟨s, hs, hp⟩ | ⟨h, hh, hp⟩
  · exact scalarPoints_ok (hx.scalars s hs) p hp
  · rcases mem_histogramPoints.mp hp with hp | ⟨c, -, rfl⟩
    · exact parts_ok (hx.histograms h hh) p hp
    · exact (hx.histograms h hh).head.point_ok rfl (fun h => by cases h) (fun h => by cases h)

/-- The points of a series have its key and its time. -/
theorem scalarPoints_key {s : Reported Scalar} {p : Point} (hp : p ∈ s.scalarPoints) :
    (p.engine, p.key) = s.scalarKey ∧ p.time = s.time := by
  rcases mem_scalarPoints.mp hp with rfl | ⟨c, -, rfl⟩
  · exact ⟨rfl, rfl⟩
  · exact ⟨rfl, rfl⟩

theorem histogramPoints_key {h : Reported Histogram} {p : Point} (hp : p ∈ h.histogramPoints) :
    (p.engine, p.key) = h.histogramKey ∧ p.time = h.time := by
  rcases mem_histogramPoints.mp hp with hp | ⟨c, -, rfl⟩
  · rcases mem_parts.mp hp with ⟨b, -, rfl⟩ | rfl | rfl
    · exact ⟨rfl, rfl⟩
    · exact ⟨rfl, rfl⟩
    · exact ⟨rfl, rfl⟩
  · exact ⟨rfl, rfl⟩

/-! ## Distinct keys -/

section Distinct

variable {x : Exposed}

theorem Exposed.Supported.scalar_eq (hx : x.Supported F) {s s' : Reported Scalar} (hs : s ∈ x.scalars)
    (hs' : s' ∈ x.scalars) (hkey : s.scalarKey = s'.scalarKey) : s = s' :=
  List.inj_on_of_nodup_map (List.nodup_append.mp hx.distinct).1 hs hs' hkey

theorem Exposed.Supported.histogram_eq (hx : x.Supported F) {h h' : Reported Histogram}
    (hh : h ∈ x.histograms) (hh' : h' ∈ x.histograms) (hkey : h.histogramKey = h'.histogramKey) : h = h' :=
  List.inj_on_of_nodup_map (List.nodup_append.mp hx.distinct).2.1 hh hh' hkey

theorem Exposed.Supported.disjoint (hx : x.Supported F) {s : Reported Scalar} (hs : s ∈ x.scalars)
    {h : Reported Histogram} (hh : h ∈ x.histograms) : s.scalarKey ≠ h.histogramKey :=
  (List.nodup_append.mp hx.distinct).2.2 _ (List.mem_map_of_mem hs) _ (List.mem_map_of_mem hh)

/-- The samples of one series have one time. -/
theorem points_together (hx : x.Supported F) {p q : Point} (hp : p ∈ x.points) (hq : q ∈ x.points)
    (hengine : q.engine = p.engine) (hkey : q.key = p.key) : q.time = p.time := by
  have hpair : (q.engine, q.key) = (p.engine, p.key) := Prod.ext hengine hkey
  rcases mem_points.mp hp with ⟨s, hs, hp⟩ | ⟨h, hh, hp⟩
  · obtain ⟨hpkey, hptime⟩ := scalarPoints_key hp
    rcases mem_points.mp hq with ⟨s', hs', hq⟩ | ⟨h', hh', hq⟩
    · obtain ⟨hqkey, hqtime⟩ := scalarPoints_key hq
      have hsame := hx.scalar_eq hs' hs (hqkey.symm.trans (hpair.trans hpkey))
      rw [hqtime, hptime, hsame]
    · obtain ⟨hqkey, -⟩ := histogramPoints_key hq
      exact absurd (hpkey.symm.trans (hpair.symm.trans hqkey)) (hx.disjoint hs hh')
  · obtain ⟨hpkey, hptime⟩ := histogramPoints_key hp
    rcases mem_points.mp hq with ⟨s', hs', hq⟩ | ⟨h', hh', hq⟩
    · obtain ⟨hqkey, -⟩ := scalarPoints_key hq
      exact absurd (hqkey.symm.trans (hpair.trans hpkey)) (hx.disjoint hs' hh)
    · obtain ⟨hqkey, hqtime⟩ := histogramPoints_key hq
      have hsame := hx.histogram_eq hh' hh (hqkey.symm.trans (hpair.trans hpkey))
      rw [hqtime, hptime, hsame]

theorem createdPlaces_nodup {engine : EngineKey} {time : Option Num} {h : Head} :
    ((h.createdPoints engine time).map Point.place).Nodup := by
  unfold Head.createdPoints
  cases h.createdAt with
  | none => exact List.nodup_nil
  | some c => exact List.nodup_singleton _

theorem scalarPlaces_nodup (s : Reported Scalar) : (s.scalarPoints.map Point.place).Nodup := by
  unfold Reported.scalarPoints
  rw [List.map_cons, List.nodup_cons]
  refine ⟨?_, createdPlaces_nodup⟩
  intro hmem
  obtain ⟨q, hq, hplace⟩ := List.mem_map.mp hmem
  obtain ⟨c, -, rfl⟩ := mem_createdPoints.mp hq
  have hpart : Part.created = Part.value := congrArg (fun t => t.2.2.1) hplace
  cases hpart

theorem partPlaces_nodup {h : Reported Histogram} (hh : HistogramSupported F h) :
    (h.parts.map Point.place).Nodup := by
  unfold Reported.parts
  rw [List.map_append, List.map_map]
  refine List.nodup_append.mpr ⟨?_, ?_, ?_⟩
  · rw [List.Nodup, List.pairwise_map]
    refine hh.sorted.imp ?_
    rintro a b ⟨-, hne⟩ heq
    exact hne (Option.some.inj (congrArg (fun t => t.2.2.2) heq))
  · rw [List.map_cons, List.map_cons, List.map_nil, List.nodup_cons]
    refine ⟨?_, List.nodup_singleton _⟩
    intro hmem
    have hpart : Part.count = Part.sum := congrArg (fun t => t.2.2.1) (List.mem_singleton.mp hmem)
    cases hpart
  · intro place hplace place' hplace' heq
    obtain ⟨b, -, rfl⟩ := List.mem_map.mp hplace
    rw [List.map_cons, List.map_cons, List.map_nil, List.mem_cons, List.mem_singleton] at hplace'
    rcases hplace' with rfl | rfl
    · have hpart : Part.bucket = Part.count := congrArg (fun t => t.2.2.1) heq
      cases hpart
    · have hpart : Part.bucket = Part.sum := congrArg (fun t => t.2.2.1) heq
      cases hpart

theorem histogramPlaces_nodup {h : Reported Histogram} (hh : HistogramSupported F h) :
    (h.histogramPoints.map Point.place).Nodup := by
  unfold Reported.histogramPoints
  rw [List.map_append]
  refine List.nodup_append.mpr ⟨partPlaces_nodup hh, createdPlaces_nodup, ?_⟩
  intro place hplace place' hplace' heq
  obtain ⟨p, hp, rfl⟩ := List.mem_map.mp hplace
  obtain ⟨q, hq, rfl⟩ := List.mem_map.mp hplace'
  obtain ⟨c, -, rfl⟩ := mem_createdPoints.mp hq
  have hpart : p.part = .created := congrArg (fun t => t.2.2.1) heq
  rcases mem_parts.mp hp with ⟨b, -, rfl⟩ | rfl | rfl
  · cases hpart
  · cases hpart
  · cases hpart

/-- **Every point has a place of its own.** -/
theorem places_nodup (hx : x.Supported F) : (x.points.map Point.place).Nodup := by
  have hkeys := List.nodup_append.mp hx.distinct
  unfold Exposed.points
  rw [List.map_append, List.map_flatMap, List.map_flatMap]
  refine List.nodup_append.mpr ⟨?_, ?_, ?_⟩
  · refine List.nodup_flatMap.mpr ⟨fun s _ => scalarPlaces_nodup s, ?_⟩
    have hpairs := List.pairwise_map.mp hkeys.1
    refine hpairs.imp ?_
    intro s s' hne place hplace hplace'
    obtain ⟨p, hp, rfl⟩ := List.mem_map.mp hplace
    obtain ⟨q, hq, heq⟩ := List.mem_map.mp hplace'
    have hpq : (p.engine, p.key) = (q.engine, q.key) :=
      (congrArg (fun t : EngineKey × SeriesKey × Part × Option (Option ℚ) => (t.1, t.2.1)) heq).symm
    exact hne ((scalarPoints_key hp).1.symm.trans (hpq.trans (scalarPoints_key hq).1))
  · refine List.nodup_flatMap.mpr ⟨fun h hh => histogramPlaces_nodup (hx.histograms h hh), ?_⟩
    have hpairs := List.pairwise_map.mp hkeys.2.1
    refine hpairs.imp ?_
    intro h h' hne place hplace hplace'
    obtain ⟨p, hp, rfl⟩ := List.mem_map.mp hplace
    obtain ⟨q, hq, heq⟩ := List.mem_map.mp hplace'
    have hpq : (p.engine, p.key) = (q.engine, q.key) :=
      (congrArg (fun t : EngineKey × SeriesKey × Part × Option (Option ℚ) => (t.1, t.2.1)) heq).symm
    exact hne ((histogramPoints_key hp).1.symm.trans (hpq.trans (histogramPoints_key hq).1))
  · intro place hplace place' hplace' heq
    obtain ⟨s, hs, hplace⟩ := List.mem_flatMap.mp hplace
    obtain ⟨h, hh, hplace'⟩ := List.mem_flatMap.mp hplace'
    obtain ⟨p, hp, rfl⟩ := List.mem_map.mp hplace
    obtain ⟨q, hq, rfl⟩ := List.mem_map.mp hplace'
    have hpq : (p.engine, p.key) = (q.engine, q.key) :=
      congrArg (fun t : EngineKey × SeriesKey × Part × Option (Option ℚ) => (t.1, t.2.1)) heq
    exact hx.disjoint hs hh ((scalarPoints_key hp).1.symm.trans (hpq.trans (histogramPoints_key hq).1))

/-! ## The points of one series among all points -/

theorem inHistogram_point {h : Reported Histogram} (hh : HistogramSupported F h) {p : Point}
    (hp : p ∈ h.parts) : Point.inHistogram h.engine h.series.head.key p = true := by
  rw [inHistogram_iff]
  rcases mem_parts.mp hp with ⟨b, -, rfl⟩ | rfl | rfl
  · exact ⟨rfl, rfl, hh.kind, fun hpart => by cases hpart⟩
  · exact ⟨rfl, rfl, hh.kind, fun hpart => by cases hpart⟩
  · exact ⟨rfl, rfl, hh.kind, fun hpart => by cases hpart⟩

/-- A sample of a histogram comes from a histogram of its key. -/
theorem histogram_of_point (hx : x.Supported F) {e : EngineKey} {key : SeriesKey} {p : Point}
    (hp : p ∈ x.points) (hin : Point.inHistogram e key p = true) :
    ∃ h ∈ x.histograms, h.histogramKey = (e, key) ∧ p ∈ h.parts := by
  obtain ⟨hengine, hkey, hkind, hpart⟩ := inHistogram_iff.mp hin
  rcases mem_points.mp hp with ⟨s, hs, hp⟩ | ⟨h, hh, hp⟩
  · rcases mem_scalarPoints.mp hp with rfl | ⟨c, -, rfl⟩
    · exact absurd hkind (hx.scalars s hs).kind
    · exact absurd rfl hpart
  · refine ⟨h, hh, ?_, ?_⟩
    · rw [← (histogramPoints_key hp).1, hengine, hkey]
    · rcases mem_histogramPoints.mp hp with hp | ⟨c, -, rfl⟩
      · exact hp
      · exact absurd rfl hpart

/-- **The samples of a histogram are its parts**, in some order. -/
theorem parts_perm (hx : x.Supported F) {ps : List Point} (hperm : ps.Perm x.points)
    {h : Reported Histogram} (hh : h ∈ x.histograms) :
    (ps.filter (Point.inHistogram h.engine h.series.head.key)).Perm h.parts := by
  have hnodup : ps.Nodup := (List.Nodup.of_map Point.place (places_nodup hx)).perm hperm.symm
  refine (List.perm_ext_iff_of_nodup (hnodup.filter _)
    (List.Nodup.of_map Point.place (partPlaces_nodup (hx.histograms h hh)))).mpr ?_
  intro p
  rw [List.mem_filter, hperm.mem_iff]
  constructor
  · rintro ⟨hp, hin⟩
    obtain ⟨h', hh', hkey, hpart⟩ := histogram_of_point hx hp hin
    rwa [hx.histogram_eq hh' hh hkey] at hpart
  · intro hp
    exact ⟨mem_points.mpr (.inr ⟨h, hh, mem_histogramPoints.mpr (.inl hp)⟩),
      inHistogram_point (hx.histograms h hh) hp⟩

end Distinct

end Metrics
end PickleInfra
