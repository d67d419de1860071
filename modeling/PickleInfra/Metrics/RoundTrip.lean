import PickleInfra.Metrics.Closed
import PickleInfra.Metrics.Exposed

/-!
# `Metrics.RoundTrip` — a rendered text is parsed to the series it exposes

The lines may come in any order and layout. The parser gives the series back unless a line has a blank in
front of its brace or a label value with a line boundary that the format does not escape.
-/

namespace PickleInfra
namespace Metrics

open Python Python.Text Python.Str

variable {F : FloatFormat}

/-! ## The lines -/

/-- Every point has room after those in front of it. -/
def Roomy (ps : List Point) : Prop := ∀ before p after, ps = before ++ p :: after → Room before p

theorem addLines_render {lines : List LineText} {qs : List Point}
    (hlines : List.Forall₂ (Renders F) lines qs) : ∀ {ps : List Point} {r : Reading}, Entered F r ps →
      (∀ l ∈ lines, l.Fine) → (∀ l ∈ lines, utf8Length l.render ≤ maxLineBytes) →
      (∀ p ∈ ps ++ qs, p.Ok) → Roomy (ps ++ qs) →
      ∃ r', addLines F r (lines.map LineText.render) = .ok r' ∧ Entered F r' (ps ++ qs) := by
  induction hlines with
  | nil =>
      intro ps r h _ _ _ _
      rw [List.append_nil]
      exact ⟨r, rfl, h⟩
  | @cons l p lines qs hl _ ih =>
      intro ps r h hfine hshort hok hroomy
      have hp : p.Ok := hok p (List.mem_append_right _ List.mem_cons_self)
      have hps : ∀ q ∈ ps, q.Ok := fun q hq => hok q (List.mem_append_left _ hq)
      obtain ⟨r', hadd, hentered⟩ := h.next hl hp hps (hroomy ps p qs rfl)
      have hline := addLine_render (hl.ok hp) (hfine l List.mem_cons_self).together hl.time hl.name r
      have hassoc : ps ++ p :: qs = (ps ++ [p]) ++ qs := by
        rw [List.append_assoc]
        rfl
      rw [hassoc] at hok hroomy ⊢
      obtain ⟨r'', hrest, hentered'⟩ := ih hentered (fun x hx => hfine x (List.mem_cons_of_mem _ hx))
        (fun x hx => hshort x (List.mem_cons_of_mem _ hx)) hok hroomy
      refine ⟨r'', ?_, hentered'⟩
      rw [List.map_cons, addLines]
      simp only [bind_eq_ok, failIf_eq_ok, exists_const]
      exact ⟨decide_eq_false (not_lt.mpr (hshort l List.mem_cons_self)), r', hline.trans hadd, hrest⟩

/-! ## Limits -/

def Exposed.engines (x : Exposed) : List EngineKey :=
  x.scalars.map Reported.engine ++ x.histograms.map Reported.engine

theorem engine_of_point {x : Exposed} {p : Point} (hp : p ∈ x.points) : p.engine ∈ x.engines := by
  unfold Exposed.engines
  rcases mem_points.mp hp with ⟨s, hs, hp⟩ | ⟨h, hh, hp⟩
  · have hkey : p.engine = s.engine := congrArg Prod.fst (scalarPoints_key hp).1
    rw [hkey]
    exact List.mem_append_left _ (List.mem_map_of_mem hs)
  · have hkey : p.engine = h.engine := congrArg Prod.fst (histogramPoints_key hp).1
    rw [hkey]
    exact List.mem_append_right _ (List.mem_map_of_mem hh)

theorem bucket_parts {h : Reported Histogram} :
    h.parts.filterMap Point.bucket? = h.series.bounds.zip h.series.counts := by
  unfold Reported.parts
  rw [List.filterMap_append, List.filterMap_map]
  have hbuckets : (Point.bucket? ∘ fun b : Bound × Num =>
      h.series.head.point h.engine h.time .bucket (some b.1) b.2) = some := by
    funext b
    rfl
  rw [hbuckets, List.filterMap_some]
  exact List.append_nil _

/-- The samples of a histogram have no more buckets than the histogram. -/
theorem buckets_le {x : Exposed} (hx : x.Supported F) {ps : List Point} (hperm : ps.Perm x.points)
    (e : EngineKey) (key : SeriesKey) :
    ((ps.filter (Point.inHistogram e key)).filterMap Point.bucket?).length ≤ maxBuckets := by
  cases hfilter : ps.filter (Point.inHistogram e key) with
  | nil => exact Nat.zero_le _
  | cons p qs =>
      obtain ⟨hp, hin⟩ := List.mem_filter.mp (hfilter ▸ List.mem_cons_self : p ∈ ps.filter _)
      obtain ⟨h, hh, hkey, -⟩ := histogram_of_point hx (hperm.mem_iff.mp hp) hin
      cases hkey
      have hparts := (parts_perm hx hperm hh).filterMap Point.bucket?
      obtain ⟨hlength, hmax, -, -⟩ := histogram_consistent (hx.histograms h hh).consistent
      rw [← hfilter, hparts.length_eq, bucket_parts, List.length_zip]
      exact (Nat.min_le_left _ _).trans hmax

theorem roomy_of_limits {x : Exposed} (hx : x.Supported F) {ps : List Point} (hperm : ps.Perm x.points)
    (hseries : ps.length ≤ maxSeries) (hengines : x.engines.dedup.length ≤ maxEngineGroups) : Roomy ps := by
  intro before p after heq
  have hnodup : (ps.map Point.place).Nodup := (places_nodup hx).perm (hperm.symm.map _)
  have hmem : ∀ q ∈ before ++ [p], q ∈ ps := by
    intro q hq
    rw [heq]
    rcases List.mem_append.mp hq with hq | hq
    · exact List.mem_append_left _ hq
    · exact List.mem_append_right _ (List.mem_singleton.mp hq ▸ List.mem_cons_self)
  have hsublist : (before ++ [p]).Sublist ps := by
    rw [heq]
    exact (List.Sublist.refl before).append (List.singleton_sublist.mpr List.mem_cons_self)
  refine ⟨?_, ?_, ?_, ?_, ?_⟩
  · intro q hq hplace
    rw [heq, List.map_append, List.map_cons] at hnodup
    exact (List.nodup_append.mp hnodup).2.2 _ (List.mem_map_of_mem hq) _ List.mem_cons_self hplace
  · intro q hq hengine hkey
    exact points_together hx (hperm.mem_iff.mp (hmem p (List.mem_append_right _ (List.mem_singleton_self p))))
      (hperm.mem_iff.mp (hmem q (List.mem_append_left _ hq))) hengine hkey
  · rw [heq, List.length_append, List.length_cons] at hseries
    omega
  · refine le_trans ?_ hengines
    apply List.Subperm.length_le
    apply List.subperm_of_subset (List.nodup_dedup _)
    intro e he
    rw [List.mem_dedup] at he ⊢
    obtain ⟨q, hq, rfl⟩ := List.mem_map.mp he
    exact engine_of_point (hperm.mem_iff.mp (hmem q hq))
  · exact ((hsublist.filter _).filterMap _).length_le.trans (buckets_le hx hperm _ _)

/-! ## The series of a key -/

section Lookup

variable {x : Exposed} {ps : List Point}

/-- A gauge or counter among the points is one that is exposed. -/
theorem scalar_of_point (hx : x.Supported F) (hperm : ps.Perm x.points) {kind : Kind} (hkind : kind ≠ .histograms)
    {e : EngineKey} {key : SeriesKey} {raw : RawScalar} :
    (∃ p ∈ ps, IsScalar F kind e key raw p) ↔ ∃ s ∈ x.scalars, s.scalarKey = (e, key) ∧
      s.series.head.family.kind = kind ∧ raw = ⟨s.series.value, s.series.head.sampleAt⟩ := by
  constructor
  · rintro ⟨p, hp, hengine, hkey, hfamily, hpart, rfl⟩
    rcases mem_points.mp (hperm.mem_iff.mp hp) with ⟨s, hs, hp⟩ | ⟨h, hh, hp⟩
    · refine ⟨s, hs, ?_⟩
      rcases mem_scalarPoints.mp hp with rfl | ⟨c, -, rfl⟩
      · refine ⟨Prod.ext hengine hkey, hfamily, ?_⟩
        rw [(hx.scalars s hs).head.sampleAt]
        rfl
      · cases hpart
    · have hhist : p.family.kind = .histograms := by
        rcases mem_histogramPoints.mp hp with hp | ⟨c, -, rfl⟩
        · rcases mem_parts.mp hp with ⟨b, -, rfl⟩ | rfl | rfl
          · exact (hx.histograms h hh).kind
          · exact (hx.histograms h hh).kind
          · exact (hx.histograms h hh).kind
        · exact (hx.histograms h hh).kind
      exact absurd (hfamily.symm.trans hhist) hkind
  · rintro ⟨s, hs, hkey, hfamily, rfl⟩
    cases hkey
    refine ⟨s.series.head.point s.engine s.time .value none s.series.value, ?_, rfl, rfl, hfamily, rfl, ?_⟩
    · exact hperm.mem_iff.mpr (mem_points.mpr (.inl ⟨s, hs, mem_scalarPoints.mpr (.inl rfl)⟩))
    · rw [(hx.scalars s hs).head.sampleAt]
      rfl

/-- The creation time of a key, over both sorts of series. -/
theorem created_scalar (hx : x.Supported F) (hperm : ps.Perm x.points) {r : Reading} (h : Entered F r ps)
    {s : Reported Scalar} (hs : s ∈ x.scalars) :
    r.created.get? (s.engine, s.series.head.key) = s.series.head.createdAt := by
  apply Option.ext
  intro c
  rw [h.created]
  constructor
  · rintro ⟨p, hp, hengine, hkey, hpart, rfl⟩
    have hpair : (p.engine, p.key) = s.scalarKey := Prod.ext hengine hkey
    rcases mem_points.mp (hperm.mem_iff.mp hp) with ⟨s', hs', hp⟩ | ⟨h', hh', hp⟩
    · have hsame := hx.scalar_eq hs' hs ((scalarPoints_key hp).1.symm.trans hpair)
      subst hsame
      rcases mem_scalarPoints.mp hp with rfl | ⟨c, hc, rfl⟩
      · cases hpart
      · exact hc
    · exact absurd (hpair.symm.trans (histogramPoints_key hp).1) (hx.disjoint hs hh')
  · intro hc
    refine ⟨s.series.head.point s.engine s.time .created none c, ?_, rfl, rfl, rfl, rfl⟩
    exact hperm.mem_iff.mpr (mem_points.mpr (.inl ⟨s, hs, mem_scalarPoints.mpr (.inr ⟨c, hc, rfl⟩)⟩))

theorem created_histogram (hx : x.Supported F) (hperm : ps.Perm x.points) {r : Reading} (h : Entered F r ps)
    {s : Reported Histogram} (hs : s ∈ x.histograms) :
    r.created.get? (s.engine, s.series.head.key) = s.series.head.createdAt := by
  apply Option.ext
  intro c
  rw [h.created]
  constructor
  · rintro ⟨p, hp, hengine, hkey, hpart, rfl⟩
    have hpair : (p.engine, p.key) = s.histogramKey := Prod.ext hengine hkey
    rcases mem_points.mp (hperm.mem_iff.mp hp) with ⟨s', hs', hp⟩ | ⟨h', hh', hp⟩
    · exact absurd ((scalarPoints_key hp).1.symm.trans hpair) (hx.disjoint hs' hs)
    · have hsame := hx.histogram_eq hh' hs ((histogramPoints_key hp).1.symm.trans hpair)
      subst hsame
      rcases mem_histogramPoints.mp hp with hp | ⟨c, hc, rfl⟩
      · rcases mem_parts.mp hp with ⟨b, -, rfl⟩ | rfl | rfl
        · cases hpart
        · cases hpart
        · cases hpart
      · exact hc
  · intro hc
    refine ⟨s.series.head.point s.engine s.time .created none c, ?_, rfl, rfl, rfl, rfl⟩
    exact hperm.mem_iff.mpr
      (mem_points.mpr (.inr ⟨s, hs, mem_histogramPoints.mpr (.inr ⟨c, hc, rfl⟩)⟩))

/-! ## The finished series -/

theorem finishHead_supported {r : Reading} (htypes : r.types = Dict.empty) {kind : Kind} {e : EngineKey}
    {time : Option Num} {h : Head} (hh : HeadSupported F e time h) {sampleAt : Option Num}
    (hcreated : (if kind = .gauges then none else r.created.get? (e, h.key)) = h.createdAt) :
    finishHead r kind e h.key sampleAt = .ok { h with sampleAt } := by
  unfold finishHead
  have hfamily : definition? h.key.1 = some h.family := definition?_name h.family hh.known
  rw [hfamily]
  dsimp only
  rw [hcreated, htypes]
  simp only [Dict.get?_empty, Option.any_none, Option.isSome_none, bind_eq_ok, failIf_eq_ok, exists_const,
    true_and, Except.ok.injEq]
  rw [← hh.undeclared]
  rfl

/-- **A gauge or counter is finished** to the series that was exposed. -/
theorem finishScalar_exposed (hx : x.Supported F) (hperm : ps.Perm x.points) {r : Reading}
    (h : Entered F r ps) {s : Reported Scalar} (hs : s ∈ x.scalars) :
    finishScalar r s.series.head.family.kind s.engine
      (s.series.head.key, ⟨s.series.value, s.series.head.sampleAt⟩) = .ok s.series := by
  have hcreated : (if s.series.head.family.kind = .gauges then none
      else r.created.get? (s.engine, s.series.head.key)) = s.series.head.createdAt := by
    by_cases hkind : s.series.head.family.kind = .gauges
    · rw [if_pos hkind, (hx.scalars s hs).gauge hkind]
    · rw [if_neg hkind, created_scalar hx hperm h hs]
  unfold finishScalar
  rw [finishHead_supported h.types (hx.scalars s hs).head hcreated]
  rfl

theorem findSome?_unique {α β : Type} {f : α → Option β} {xs : List α} {v : β}
    (hall : ∀ a ∈ xs, f a = none ∨ f a = some v) (hsome : ∃ a ∈ xs, f a = some v) :
    xs.findSome? f = some v := by
  cases hfind : xs.findSome? f with
  | none =>
      obtain ⟨a, ha, hfa⟩ := hsome
      rw [List.findSome?_eq_none_iff.mp hfind a ha] at hfa
      cases hfa
  | some w =>
      obtain ⟨a, ha, hfa⟩ := List.exists_of_findSome?_eq_some hfind
      rcases hall a ha with hnone | hv
      · rw [hnone] at hfa
        cases hfa
      · rw [← hfa, hv]

/-- **The samples of a histogram give it back.** -/
theorem rawHistogram_exposed (hx : x.Supported F) (hperm : ps.Perm x.points) {h : Reported Histogram}
    (hh : h ∈ x.histograms) :
    ∃ buckets, rawHistogram F (ps.filter (Point.inHistogram h.engine h.series.head.key))
        = some ⟨buckets, [h.series.head.sampleAt], some h.series.count, some h.series.sum⟩ ∧
      buckets.Perm (h.series.bounds.zip h.series.counts) := by
  have hparts := parts_perm hx hperm hh
  have htime : ∀ p ∈ ps.filter (Point.inHistogram h.engine h.series.head.key), p.time = h.time := by
    intro p hp
    exact (histogramPoints_key (mem_histogramPoints.mpr (.inl (hparts.mem_iff.mp hp)))).2
  have hvalue : ∀ part v, (∀ p ∈ h.parts, p.part = part → p.value = v) → (∃ p ∈ h.parts, p.part = part) →
      (ps.filter (Point.inHistogram h.engine h.series.head.key)).findSome? (Point.valueOf part) = some v := by
    intro part v hall hsome
    apply findSome?_unique
    · intro p hp
      unfold Point.valueOf
      by_cases hpart : p.part = part
      · rw [if_pos hpart, hall p (hparts.mem_iff.mp hp) hpart]
        exact .inr rfl
      · rw [if_neg hpart]
        exact .inl rfl
    · obtain ⟨p, hp, hpart⟩ := hsome
      refine ⟨p, hparts.mem_iff.mpr hp, ?_⟩
      unfold Point.valueOf
      rw [if_pos hpart, hall p hp hpart]
  have hcount := hvalue .count h.series.count (by
    intro p hp hpart
    rcases mem_parts.mp hp with ⟨b, -, rfl⟩ | rfl | rfl
    · cases hpart
    · rfl
    · cases hpart) ⟨_, mem_parts.mpr (.inr (.inl rfl)), rfl⟩
  have hsum := hvalue .sum h.series.sum (by
    intro p hp hpart
    rcases mem_parts.mp hp with ⟨b, -, rfl⟩ | rfl | rfl
    · cases hpart
    · cases hpart
    · rfl) ⟨_, mem_parts.mpr (.inr (.inr rfl)), rfl⟩
  refine ⟨(ps.filter (Point.inHistogram h.engine h.series.head.key)).filterMap Point.bucket?, ?_, ?_⟩
  · cases hfilter : ps.filter (Point.inHistogram h.engine h.series.head.key) with
    | nil =>
        rw [hfilter] at hcount
        cases hcount
    | cons p qs =>
        rw [hfilter] at hcount hsum htime
        show some (rawOf F p.time (p :: qs)) = _
        unfold rawOf
        rw [hcount, hsum, htime p List.mem_cons_self, (hx.histograms h hh).head.sampleAt]
  · have hbuckets := hparts.filterMap Point.bucket?
    rwa [bucket_parts] at hbuckets

theorem boundLe_total (a b : Bound) : boundLe a b = true ∨ boundLe b a = true := by
  cases a with
  | inf => exact .inr (by cases b <;> rfl)
  | num x =>
      cases b with
      | inf => exact .inl rfl
      | num y =>
          unfold boundLe
          rw [decide_eq_true_eq, decide_eq_true_eq]
          exact le_total _ _

theorem boundLe_trans {a b c : Bound} (hab : boundLe a b = true) (hbc : boundLe b c = true) :
    boundLe a c = true := by
  cases c with
  | inf => cases a <;> rfl
  | num z =>
      cases b with
      | inf => cases hbc
      | num y =>
          cases a with
          | inf => cases hab
          | num x =>
              unfold boundLe at hab hbc ⊢
              rw [decide_eq_true_eq] at hab hbc ⊢
              exact hab.trans hbc

theorem boundLe_antisymm {a b : Bound} (hab : boundLe a b = true) (hba : boundLe b a = true) :
    a.value = b.value := by
  cases a with
  | inf =>
      cases b with
      | inf => rfl
      | num y => cases hab
  | num x =>
      cases b with
      | inf => cases hba
      | num y =>
          unfold boundLe at hab hba
          rw [decide_eq_true_eq] at hab hba
          exact congrArg some (le_antisymm hab hba)

/-- The buckets are sorted to the order of the boundaries. -/
theorem sorted_buckets {h : Reported Histogram} (hh : HistogramSupported F h) {buckets : List (Bound × Num)}
    (hperm : buckets.Perm (h.series.bounds.zip h.series.counts)) :
    buckets.insertionSort (fun a b => boundLe a.1 b.1 = true) = h.series.bounds.zip h.series.counts := by
  have hsort := List.perm_insertionSort (fun a b : Bound × Num => boundLe a.1 b.1 = true) buckets
  have hvalues : ((h.series.bounds.zip h.series.counts).map fun b => b.1.value).Nodup := by
    rw [List.Nodup, List.pairwise_map]
    exact hh.sorted.imp And.right
  have : Std.Total (fun a b : Bound × Num => boundLe a.1 b.1 = true) := ⟨fun a b => boundLe_total a.1 b.1⟩
  have : IsTrans (Bound × Num) (fun a b => boundLe a.1 b.1 = true) := ⟨fun _ _ _ => boundLe_trans⟩
  refine List.Perm.eq_of_pairwise ?_ (List.pairwise_insertionSort _ _) (hh.sorted.imp And.left)
    (hsort.trans hperm)
  intro a b ha hb hab hba
  exact List.inj_on_of_nodup_map hvalues ((hsort.trans hperm).mem_iff.mp ha) hb (boundLe_antisymm hab hba)

/-- **A histogram is finished** to the series that was exposed. -/
theorem finishHistogram_exposed (hx : x.Supported F) (hperm : ps.Perm x.points) {r : Reading}
    (h : Entered F r ps) {s : Reported Histogram} (hs : s ∈ x.histograms) {buckets : List (Bound × Num)}
    (hbuckets : buckets.Perm (s.series.bounds.zip s.series.counts)) :
    finishHistogram F r s.engine (s.series.head.key,
      ⟨buckets, [s.series.head.sampleAt], some s.series.count, some s.series.sum⟩) = .ok s.series := by
  have hsupported := hx.histograms s hs
  obtain ⟨hlength, -, -, -⟩ := histogram_consistent hsupported.consistent
  have hcreated : (if Kind.histograms = .gauges then none
      else r.created.get? (s.engine, s.series.head.key)) = s.series.head.createdAt := by
    rw [if_neg (by decide), created_histogram hx hperm h hs]
  have hbounds : (s.series.bounds.zip s.series.counts).map Prod.fst = s.series.bounds :=
    List.map_fst_zip hlength.le
  have hcounts : (s.series.bounds.zip s.series.counts).map Prod.snd = s.series.counts :=
    List.map_snd_zip hlength.ge
  unfold finishHistogram
  rw [finishHead_supported h.types hsupported.head hcreated]
  dsimp only
  rw [sorted_buckets hsupported hbuckets, hbounds, hcounts, hsupported.consistent]
  rfl

end Lookup

/-! ## Engines -/

/-- **An engine of the snapshot**: its series are those exposed for it. -/
structure EngineOf (x : Exposed) (e : EngineKey) (E : Engine) : Prop where
  key : E.key = e
  gauges : ∀ s, s ∈ E.gauges ↔
    ∃ y ∈ x.scalars, y.engine = e ∧ y.series.head.family.kind = .gauges ∧ y.series = s
  counters : ∀ s, s ∈ E.counters ↔
    ∃ y ∈ x.scalars, y.engine = e ∧ y.series.head.family.kind = .counters ∧ y.series = s
  histograms : ∀ s, s ∈ E.histograms ↔ ∃ y ∈ x.histograms, y.engine = e ∧ y.series = s
  nodup : E.gauges.Nodup ∧ E.counters.Nodup ∧ E.histograms.Nodup
  notReported : E.notReported = notReportedNames E.present

section Finished

variable {x : Exposed} {ps : List Point}

theorem finishScalars_exposed (hx : x.Supported F) (hperm : ps.Perm x.points) {r : Reading} (h : Entered F r ps)
    {kind : Kind} (hkind : kind ≠ .histograms) {e : EngineKey} {d : Dict SeriesKey RawScalar}
    (hd : ∀ key raw, d.get? key = some raw ↔ ∃ p ∈ ps, IsScalar F kind e key raw p) :
    ∃ ys, (sortedEntries d).mapM (finishScalar r kind e) = .ok ys ∧ ys.Nodup ∧ ∀ s, s ∈ ys ↔
      ∃ y ∈ x.scalars, y.engine = e ∧ y.series.head.family.kind = kind ∧ y.series = s := by
  have hget : ∀ entry, entry ∈ sortedEntries d ↔ ∃ y ∈ x.scalars, y.scalarKey = (e, entry.1) ∧
      y.series.head.family.kind = kind ∧ entry.2 = ⟨y.series.value, y.series.head.sampleAt⟩ := by
    rintro ⟨key, raw⟩
    rw [(perm_sortedEntries d).mem_iff, ← d.get?_eq_some_iff, hd, scalar_of_point hx hperm hkind]
  have hfinish : ∀ entry ∈ sortedEntries d, ∃ s, finishScalar r kind e entry = .ok s ∧
      ∃ y ∈ x.scalars, y.scalarKey = (e, entry.1) ∧ y.series.head.family.kind = kind ∧ y.series = s := by
    rintro ⟨key, raw⟩ hentry
    obtain ⟨y, hy, hkey, hfamily, hraw⟩ := (hget _).mp hentry
    refine ⟨y.series, ?_, y, hy, hkey, hfamily, rfl⟩
    dsimp only at hkey hraw
    have hfinished := finishScalar_exposed hx hperm h hy
    rw [hfamily] at hfinished
    cases hkey
    rw [hraw]
    exact hfinished
  obtain ⟨ys, hys, hall⟩ := mapM_exists hfinish
  refine ⟨ys, hys, ?_, ?_⟩
  · have hkeys : ys.map (fun s => s.head.key) = (sortedEntries d).map Prod.fst := by
      refine forall₂_keys hall ?_
      rintro entry s ⟨-, y, -, hkey, -, rfl⟩
      exact congrArg Prod.snd hkey
    exact List.Nodup.of_map (fun s : Scalar => s.head.key) (hkeys ▸ nodup_sortedEntries d)
  · intro s
    constructor
    · intro hs
      obtain ⟨entry, -, -, y, hy, hkey, hfamily, heq⟩ := forall₂_right hall s hs
      exact ⟨y, hy, congrArg Prod.fst hkey, hfamily, heq⟩
    · rintro ⟨y, hy, rfl, hfamily, rfl⟩
      have hentry := (hget (y.series.head.key, ⟨y.series.value, y.series.head.sampleAt⟩)).mpr
        ⟨y, hy, rfl, hfamily, rfl⟩
      obtain ⟨s, hs, -, y', hy', hkey, -, rfl⟩ := forall₂_left hall _ hentry
      rwa [hx.scalar_eq hy' hy hkey] at hs

theorem finishHistograms_exposed (hx : x.Supported F) (hperm : ps.Perm x.points) {r : Reading}
    (h : Entered F r ps) {e : EngineKey} {d : Dict SeriesKey RawHistogram}
    (hd : ∀ key, d.get? key = rawHistogram F (ps.filter (Point.inHistogram e key))) :
    ∃ ys, (sortedEntries d).mapM (finishHistogram F r e) = .ok ys ∧ ys.Nodup ∧ ∀ s, s ∈ ys ↔
      ∃ y ∈ x.histograms, y.engine = e ∧ y.series = s := by
  have hfinish : ∀ entry ∈ sortedEntries d, ∃ s, finishHistogram F r e entry = .ok s ∧
      ∃ y ∈ x.histograms, y.histogramKey = (e, entry.1) ∧ y.series = s := by
    rintro ⟨key, raw⟩ hentry
    rw [(perm_sortedEntries d).mem_iff, ← d.get?_eq_some_iff, hd] at hentry
    have hsome : ∃ p, p ∈ ps.filter (Point.inHistogram e key) := by
      cases hfilter : ps.filter (Point.inHistogram e key) with
      | nil =>
          rw [hfilter] at hentry
          cases hentry
      | cons p qs => exact ⟨p, List.mem_cons_self⟩
    obtain ⟨p, hp⟩ := hsome
    obtain ⟨hp, hin⟩ := List.mem_filter.mp hp
    obtain ⟨y, hy, hkey, -⟩ := histogram_of_point hx (hperm.mem_iff.mp hp) hin
    cases hkey
    obtain ⟨buckets, hraw, hbuckets⟩ := rawHistogram_exposed hx hperm hy
    rw [hraw, Option.some.injEq] at hentry
    subst hentry
    exact ⟨y.series, finishHistogram_exposed hx hperm h hy hbuckets, y, hy, rfl, rfl⟩
  obtain ⟨ys, hys, hall⟩ := mapM_exists hfinish
  refine ⟨ys, hys, ?_, ?_⟩
  · have hkeys : ys.map (fun s => s.head.key) = (sortedEntries d).map Prod.fst := by
      refine forall₂_keys hall ?_
      rintro entry s ⟨-, y, -, hkey, rfl⟩
      exact congrArg Prod.snd hkey
    exact List.Nodup.of_map (fun s : Histogram => s.head.key) (hkeys ▸ nodup_sortedEntries d)
  · intro s
    constructor
    · intro hs
      obtain ⟨entry, -, -, y, hy, hkey, heq⟩ := forall₂_right hall s hs
      exact ⟨y, hy, congrArg Prod.fst hkey, heq⟩
    · rintro ⟨y, hy, rfl, rfl⟩
      obtain ⟨buckets, hraw, -⟩ := rawHistogram_exposed hx hperm hy
      rw [← hd, d.get?_eq_some_iff, ← (perm_sortedEntries d).mem_iff] at hraw
      obtain ⟨s, hs, -, y', hy', hkey, rfl⟩ := forall₂_left hall _ hraw
      rwa [hx.histogram_eq hy' hy hkey] at hs

/-- **A group is finished** to the engine with the exposed series. -/
theorem finishGroup_exposed (hx : x.Supported F) (hperm : ps.Perm x.points) {r : Reading} (h : Entered F r ps)
    {e : EngineKey} {g : Group} (hget : r.groups.get? e = some g) :
    ∃ E, finishGroup F r (e, g) = .ok E ∧ EngineOf x e E := by
  have hg := h.groups e g hget
  obtain ⟨gauges, hgauges, hgnodup, hgmem⟩ :=
    finishScalars_exposed hx hperm h (by decide : Kind.gauges ≠ .histograms) hg.gauges
  obtain ⟨counters, hcounters, hcnodup, hcmem⟩ :=
    finishScalars_exposed hx hperm h (by decide : Kind.counters ≠ .histograms) hg.counters
  obtain ⟨histograms, hhistograms, hhnodup, hhmem⟩ := finishHistograms_exposed hx hperm h hg.histograms
  let E : Engine := { modelName := e.1, engineId := e.2, gauges, counters, histograms, notReported := [] }
  refine ⟨{ E with notReported := notReportedNames E.present }, ?_,
    ⟨rfl, hgmem, hcmem, hhmem, ⟨hgnodup, hcnodup, hhnodup⟩, rfl⟩⟩
  unfold finishGroup
  simp only [bind_eq_ok]
  exact ⟨gauges, hgauges, counters, hcounters, histograms, hhistograms, rfl⟩

end Finished

/-! ## The snapshot -/

/-- **The snapshot holds exactly the exposed series**, each under its engine, and nothing else. -/
structure Snapshot.Holds (s : Snapshot) (observedAt : Num) (identity : Identity) (x : Exposed) : Prop where
  fields : s = observedSnapshot observedAt identity s.engines []
  gauges : (s.engines.flatMap fun e => e.gauges.map (Prod.mk e.key)).Perm
    ((x.scalars.filter fun y => y.series.head.family.kind = .gauges).map fun y => (y.engine, y.series))
  counters : (s.engines.flatMap fun e => e.counters.map (Prod.mk e.key)).Perm
    ((x.scalars.filter fun y => y.series.head.family.kind = .counters).map fun y => (y.engine, y.series))
  histograms : (s.engines.flatMap fun e => e.histograms.map (Prod.mk e.key)).Perm
    (x.histograms.map fun y => (y.engine, y.series))
  engines : (s.engines.map Engine.key).Nodup
  present : ∀ e ∈ s.engines, e.present ≠ []
  notReported : ∀ e ∈ s.engines, e.notReported = notReportedNames e.present

/-- The series of the engines, when each has those exposed for it. -/
theorem collected_perm {S : Type} {f : Engine → List S} {engines : List Engine} {xs : List (EngineKey × S)}
    (hkeys : (engines.map Engine.key).Nodup) (hnodup : ∀ e ∈ engines, (f e).Nodup) (hxs : xs.Nodup)
    (hmem : ∀ k s, (∃ e ∈ engines, e.key = k ∧ s ∈ f e) ↔ (k, s) ∈ xs) :
    (engines.flatMap fun e => (f e).map (Prod.mk e.key)).Perm xs := by
  have hflat : (engines.flatMap fun e => (f e).map (Prod.mk e.key)).Nodup := by
    refine List.nodup_flatMap.mpr ⟨?_, ?_⟩
    · intro e he
      exact (hnodup e he).map (fun a b heq => congrArg Prod.snd heq)
    · refine (List.pairwise_map.mp hkeys).imp ?_
      intro e e' hne pair hpair hpair'
      obtain ⟨s, -, rfl⟩ := List.mem_map.mp hpair
      obtain ⟨s', -, heq⟩ := List.mem_map.mp hpair'
      exact hne (congrArg Prod.fst heq).symm
  refine (List.perm_ext_iff_of_nodup hflat hxs).mpr ?_
  rintro ⟨k, s⟩
  rw [← hmem, List.mem_flatMap]
  constructor
  · rintro ⟨e, he, hpair⟩
    obtain ⟨s', hs', heq⟩ := List.mem_map.mp hpair
    cases heq
    exact ⟨e, he, rfl, hs'⟩
  · rintro ⟨e, he, rfl, hs⟩
    exact ⟨e, he, List.mem_map_of_mem hs⟩

theorem scalars_nodup {x : Exposed} (hx : x.Supported F) (kind : Kind) :
    ((x.scalars.filter fun y => y.series.head.family.kind = kind).map
      fun y => (y.engine, y.series)).Nodup := by
  apply List.Nodup.of_map (fun pair : EngineKey × Scalar => (pair.1, pair.2.head.key))
  rw [List.map_map]
  have hsublist : (x.scalars.filter fun y => y.series.head.family.kind = kind).Sublist x.scalars :=
    List.filter_sublist
  exact (List.nodup_append.mp hx.distinct).1.sublist (hsublist.map Reported.scalarKey)

theorem histograms_nodup {x : Exposed} (hx : x.Supported F) :
    (x.histograms.map fun y => (y.engine, y.series)).Nodup := by
  apply List.Nodup.of_map (fun pair : EngineKey × Histogram => (pair.1, pair.2.head.key))
  rw [List.map_map]
  exact (List.nodup_append.mp hx.distinct).2.1

theorem present_of_mem {e : Engine} (h : (∃ s, s ∈ e.gauges) ∨ (∃ s, s ∈ e.counters) ∨ ∃ s, s ∈ e.histograms) :
    e.present ≠ [] := by
  intro hnil
  unfold Engine.present at hnil
  simp only [List.append_eq_nil_iff, List.map_eq_nil_iff] at hnil
  rcases h with ⟨s, hs⟩ | ⟨s, hs⟩ | ⟨s, hs⟩
  · rw [hnil.1.1] at hs
    exact absurd hs List.not_mem_nil
  · rw [hnil.1.2] at hs
    exact absurd hs List.not_mem_nil
  · rw [hnil.2] at hs
    exact absurd hs List.not_mem_nil

theorem finishGroups_exposed {x : Exposed} (hx : x.Supported F) {ps : List Point} (hperm : ps.Perm x.points)
    {r : Reading} (h : Entered F r ps) (observedAt : Num) (identity : Identity) :
    ∃ engines, finishGroups F r = .ok engines ∧
      (observedSnapshot observedAt identity engines []).Holds observedAt identity x := by
  have hentries : (r.groups.entries.insertionSort fun a b => EngineKey.le a.1 b.1 = true).Perm
      r.groups.entries := List.perm_insertionSort _ _
  have hfinish : ∀ entry ∈ r.groups.entries.insertionSort (fun a b => EngineKey.le a.1 b.1 = true),
      ∃ E, finishGroup F r entry = .ok E ∧ EngineOf x entry.1 E := by
    rintro ⟨e, g⟩ hentry
    rw [hentries.mem_iff, ← r.groups.get?_eq_some_iff] at hentry
    exact finishGroup_exposed hx hperm h hentry
  obtain ⟨ys, hys, hall⟩ := mapM_exists hfinish
  have hkeys : (ys.map Engine.key).Nodup := by
    rw [forall₂_keys (f := Prod.fst) hall fun _ _ hpair => hpair.2.key]
    exact (hentries.map Prod.fst).nodup_iff.mpr r.groups.nodup
  have hsublist : (ys.filter fun e => !e.present.isEmpty).Sublist ys := List.filter_sublist
  have hof : ∀ e ∈ ys.filter (fun e => !e.present.isEmpty), EngineOf x e.key e := by
    intro e he
    obtain ⟨entry, -, -, hentry⟩ := forall₂_right hall e (List.mem_of_mem_filter he)
    have hkey := hentry.key
    rwa [hkey]
  have hthere : ∀ p ∈ ps, ∃ e ∈ ys, EngineOf x p.engine e := by
    intro p hp
    have hsome := (h.engines p.engine).mpr ⟨p, hp, rfl⟩
    obtain ⟨g, hg⟩ := Option.isSome_iff_exists.mp hsome
    rw [r.groups.get?_eq_some_iff, ← hentries.mem_iff] at hg
    obtain ⟨e, he, -, hpair⟩ := forall₂_left hall _ hg
    exact ⟨e, he, hpair⟩
  have hscalar : ∀ y ∈ x.scalars, ∃ e ∈ ys, EngineOf x y.engine e := by
    intro y hy
    exact hthere _ (hperm.mem_iff.mpr (mem_points.mpr (.inl ⟨y, hy, mem_scalarPoints.mpr (.inl rfl)⟩)))
  have hhistogram : ∀ y ∈ x.histograms, ∃ e ∈ ys, EngineOf x y.engine e := by
    intro y hy
    exact hthere _ (hperm.mem_iff.mpr (mem_points.mpr (.inr ⟨y, hy, mem_histogramPoints.mpr
      (.inl (mem_parts.mpr (.inr (.inl rfl))))⟩)))
  have hkept : ∀ e ∈ ys, ((∃ s, s ∈ e.gauges) ∨ (∃ s, s ∈ e.counters) ∨ ∃ s, s ∈ e.histograms) →
      e ∈ ys.filter (fun e => !e.present.isEmpty) := by
    intro e he hsome
    refine List.mem_filter.mpr ⟨he, ?_⟩
    rw [Bool.not_eq_true', ← Bool.not_eq_true, List.isEmpty_iff]
    exact present_of_mem hsome
  refine ⟨ys.filter fun e => !e.present.isEmpty, ?_, rfl, ?_, ?_, ?_, ?_, ?_, ?_⟩
  · unfold finishGroups
    simp only [bind_eq_ok]
    exact ⟨ys, hys, rfl⟩
  · refine collected_perm (hkeys.sublist (hsublist.map _)) (fun e he => (hof e he).nodup.1)
      (scalars_nodup hx .gauges) ?_
    intro k s
    rw [List.mem_map]
    constructor
    · rintro ⟨e, he, rfl, hs⟩
      obtain ⟨y, hy, hengine, hkind, rfl⟩ := ((hof e he).gauges s).mp hs
      exact ⟨y, List.mem_filter.mpr ⟨hy, decide_eq_true hkind⟩, Prod.ext hengine rfl⟩
    · rintro ⟨y, hy, heq⟩
      cases heq
      obtain ⟨hy, hkind⟩ := List.mem_filter.mp hy
      obtain ⟨e, he, hE⟩ := hscalar y hy
      have hs := (hE.gauges y.series).mpr ⟨y, hy, rfl, of_decide_eq_true hkind, rfl⟩
      exact ⟨e, hkept e he (.inl ⟨_, hs⟩), hE.key, hs⟩
  · refine collected_perm (hkeys.sublist (hsublist.map _)) (fun e he => (hof e he).nodup.2.1)
      (scalars_nodup hx .counters) ?_
    intro k s
    rw [List.mem_map]
    constructor
    · rintro ⟨e, he, rfl, hs⟩
      obtain ⟨y, hy, hengine, hkind, rfl⟩ := ((hof e he).counters s).mp hs
      exact ⟨y, List.mem_filter.mpr ⟨hy, decide_eq_true hkind⟩, Prod.ext hengine rfl⟩
    · rintro ⟨y, hy, heq⟩
      cases heq
      obtain ⟨hy, hkind⟩ := List.mem_filter.mp hy
      obtain ⟨e, he, hE⟩ := hscalar y hy
      have hs := (hE.counters y.series).mpr ⟨y, hy, rfl, of_decide_eq_true hkind, rfl⟩
      exact ⟨e, hkept e he (.inr (.inl ⟨_, hs⟩)), hE.key, hs⟩
  · refine collected_perm (hkeys.sublist (hsublist.map _)) (fun e he => (hof e he).nodup.2.2)
      (histograms_nodup hx) ?_
    intro k s
    rw [List.mem_map]
    constructor
    · rintro ⟨e, he, rfl, hs⟩
      obtain ⟨y, hy, hengine, rfl⟩ := ((hof e he).histograms s).mp hs
      exact ⟨y, hy, Prod.ext hengine rfl⟩
    · rintro ⟨y, hy, heq⟩
      cases heq
      obtain ⟨e, he, hE⟩ := hhistogram y hy
      have hs := (hE.histograms y.series).mpr ⟨y, hy, rfl, rfl⟩
      exact ⟨e, hkept e he (.inr (.inr ⟨_, hs⟩)), hE.key, hs⟩
  · exact hkeys.sublist (hsublist.map _)
  · intro e he hnil
    have hpresent := (List.mem_filter.mp he).2
    rw [hnil] at hpresent
    cases hpresent
  · exact fun e he => (hof e he).notReported

/-! ## The round trip -/

/-- The text, as a `str` or as its bytes in UTF-8. -/
def Payload.OfText (payload : Payload) (text : String) : Prop :=
  payload = .str text ∨ payload = .bytes text.toUTF8

/-- The limits of `parse_snapshot`: bytes, lines, samples, engines, and the size of the document. -/
structure WithinLimits (M : Machine) (observedAt : Num) (identity : Identity) (x : Exposed)
    (lines : List LineText) : Prop where
  bytes : (String.ofList (renderText lines)).utf8ByteSize ≤ maxPayloadBytes
  few : lines.length ≤ maxLines
  line : ∀ l ∈ lines, utf8Length l.render ≤ maxLineBytes
  series : lines.length ≤ maxSeries
  engines : x.engines.dedup.length ≤ maxEngineGroups
  document : ∀ s : Snapshot, s.Holds observedAt identity x → documentSize M s ≤ maxPayloadBytes

theorem decode_ofText {payload : Payload} {text : String} (h : payload.OfText text) :
    payload.decode = if maxPayloadBytes < text.utf8ByteSize then .error .payloadTooLarge else .ok text := by
  have hcheck : (do failIf (maxPayloadBytes < text.utf8ByteSize) .payloadTooLarge; .ok text : Checked String)
      = if maxPayloadBytes < text.utf8ByteSize then .error .payloadTooLarge else .ok text := by
    by_cases hlarge : maxPayloadBytes < text.utf8ByteSize
    · rw [if_pos hlarge, decide_eq_true hlarge]
      rfl
    · rw [if_neg hlarge, decide_eq_false hlarge]
      rfl
  rcases h with rfl | rfl
  · exact hcheck
  · have hutf8 : String.fromUTF8? text.toUTF8 = some text := by
      unfold String.fromUTF8?
      exact dif_pos text.isValidUTF8
    unfold Payload.decode
    dsimp only
    rw [hutf8]
    exact hcheck

/-- A snapshot of an observed source was read from the lines of the text. -/
theorem addLines_of_parsed {M : Machine} {payload : Payload} {text : String} (hpayload : payload.OfText text)
    {observedAt identity : Json} {s : Snapshot}
    (h : parseSnapshot M payload observedAt identity (.str "OBSERVED") = .ok s) :
    ∃ r, addLines M.toFloatFormat {} (splitlines text.toList) = .ok r := by
  have hstate : ((Json.str "OBSERVED").asStr?).bind SourceState.ofText = some .observed := by decide
  unfold parseSnapshot at h
  rw [hstate] at h
  simp only [bind_eq_ok, ne_eq, not_true_eq_false, if_false] at h
  obtain ⟨_, -, _, -, found, hdecode, _, hread, -⟩ := h
  have hfound : found = text := by
    rw [decode_ofText hpayload] at hdecode
    split at hdecode
    · cases hdecode
    · cases hdecode
      rfl
  subst hfound
  unfold readText at hread
  simp only [bind_eq_ok] at hread
  obtain ⟨_, -, r, hr, -⟩ := hread
  exact ⟨r, hr⟩

def noBlanks : Blanks := ⟨[], rfl⟩

def labelText (name value : String) : LabelText :=
  { label := (name, value), beforeName := noBlanks, beforeEquals := noBlanks, beforeQuote := noBlanks
    afterQuote := noBlanks }

/-- The line of a gauge of two running requests. -/
def gaugeLine (model : String) : LineText :=
  { before := noBlanks, name := "vllm:num_requests_running", beforeBrace := noBlanks
    labels := [labelText "model_name" model, labelText "engine" "0"], beforeValue := ⟨[' '], rfl⟩
    value := Numeral.ofInt 2, time := none, after := noBlanks, apart := List.cons_ne_nil _ _ }

def runningFamily : Definition := ⟨"vllm:num_requests_running", .gauges, .requests, []⟩

def gaugeSeries : Scalar :=
  { head := { family := runningFamily, labels := [], sampleAt := none, createdAt := none
              typeDeclared := false }
    value := .int 2 }

def gaugeExposed (model : String) : Exposed :=
  { scalars := [{ engine := (model, "0"), time := none, series := gaugeSeries }], histograms := [] }

def gaugeEngine (model : String) : Engine :=
  { modelName := model, engineId := "0", gauges := [gaugeSeries], counters := [], histograms := []
    notReported := notReportedNames [runningFamily.name] }

theorem gauge_supported {model : String} (h : textOk model = true) :
    (gaugeExposed model).Supported wholeMachine.toFloatFormat := by
  refine ⟨?_, fun y hy => absurd hy List.not_mem_nil, List.nodup_singleton _⟩
  intro y hy
  rw [List.mem_singleton.mp hy]
  have hknown : runningFamily ∈ definitions := by decide +kernel
  have hengine : textOk "0" = true := by decide
  have hkind : runningFamily.kind ≠ .histograms := by decide
  refine ⟨⟨hknown, h, hengine, ?_, rfl, rfl⟩, hkind, fun _ => rfl, ?_, ?_⟩
  · exact ⟨fun l hl => absurd hl List.not_mem_nil, fun l hl => absurd hl List.not_mem_nil, rfl,
      List.nodup_nil⟩
  · intro hunit
    cases hunit
  · intro hunit
    cases hunit

theorem gauge_rendered (model : String) :
    List.Forall₂ (Renders wholeMachine.toFloatFormat) [gaugeLine model] (gaugeExposed model).points := by
  have hname : sample? "vllm:num_requests_running" = some (runningFamily, .value) := by decide +kernel
  have hshort : (Numeral.ofInt 2).render.length ≤ 128 := by decide
  have hfits : decimalFits (Numeral.ofInt 2) = true := by decide
  refine .cons ⟨hname, ⟨[], .none, List.Perm.refl _⟩, ?_, .none⟩ .nil
  refine ⟨Numeral.ofInt_isJson 2, hshort, hfits, ?_, ?_⟩
  · show checkDecimal wholeMachine.toFloatFormat true maxNumber (Numeral.ofInt 2).value = .ok ()
    decide +kernel
  · show keptNumber wholeMachine.toFloatFormat (Numeral.ofInt 2).value = .int 2
    decide +kernel

/-- The snapshot of one gauge is determined. -/
theorem gauge_holds {model : String} {s : Snapshot} {observedAt : Num} {identity : Identity}
    (h : s.Holds observedAt identity (gaugeExposed model)) :
    s = observedSnapshot observedAt identity [gaugeEngine model] [] := by
  have hgauges := h.gauges
  have hcounters : ∀ e ∈ s.engines, e.counters = [] := by
    intro e he
    have hnil := List.flatMap_eq_nil_iff.mp h.counters.eq_nil e he
    exact List.map_eq_nil_iff.mp hnil
  have hhistograms : ∀ e ∈ s.engines, e.histograms = [] := by
    intro e he
    have hnil := List.flatMap_eq_nil_iff.mp h.histograms.eq_nil e he
    exact List.map_eq_nil_iff.mp hnil
  have hone : ∀ e ∈ s.engines, e.gauges ≠ [] := by
    intro e he hnil
    apply h.present e he
    unfold Engine.present
    rw [hnil, hcounters e he, hhistograms e he]
    rfl
  have hlength := hgauges.length_eq
  have hengines : s.engines = [gaugeEngine model] := by
    cases hs : s.engines with
    | nil =>
        rw [hs] at hlength
        cases hlength
    | cons e rest =>
        have he : e ∈ s.engines := hs ▸ List.mem_cons_self
        cases rest with
        | cons e' rest =>
            have he' : e' ∈ s.engines := hs ▸ List.mem_cons_of_mem _ List.mem_cons_self
            have hpos := List.length_pos_of_ne_nil (hone e he)
            have hpos' := List.length_pos_of_ne_nil (hone e' he')
            rw [hs, List.flatMap_cons, List.flatMap_cons, List.length_append, List.length_append,
              List.length_map, List.length_map] at hlength
            have htotal : e.gauges.length + (e'.gauges.length + (rest.flatMap fun e =>
                e.gauges.map (Prod.mk e.key)).length) = 1 := hlength
            omega
        | nil =>
            rw [hs, List.flatMap_singleton] at hgauges
            have hmap : e.gauges.map (Prod.mk e.key) = [((model, "0"), gaugeSeries)] :=
              List.perm_singleton.mp hgauges
            obtain ⟨g, hg, hpair⟩ := List.map_eq_singleton_iff.mp hmap
            have hkey : e.key = (model, "0") := congrArg Prod.fst hpair
            have hseries : g = gaugeSeries := congrArg Prod.snd hpair
            have hreported := h.notReported e he
            have hc := hcounters e he
            have hh := hhistograms e he
            obtain ⟨modelName, engineId, gauges, counters, histograms, notReported⟩ := e
            dsimp only at hg hc hh hreported
            unfold Engine.present at hreported
            rw [hg, hc, hh, hseries] at hreported
            rw [hg, hc, hh, hseries, hreported]
            cases hkey
            rfl
  rw [h.fields, hengines]

theorem gauge_limits {model : String} (hshort : utf8Length (renderText [gaugeLine model]) ≤ maxLineBytes)
    (hsize : 4 * JsonText.size wholeMachine.text
      (observedSnapshot (.int 100) ⟨"s", none, none, none⟩ [gaugeEngine model] []).toJson ≤ maxPayloadBytes) :
    WithinLimits wholeMachine (.int 100) ⟨"s", none, none, none⟩ (gaugeExposed model) [gaugeLine model] := by
  have hlines : utf8Length (gaugeLine model).render ≤ utf8Length (renderText [gaugeLine model]) := by
    unfold renderText utf8Length
    rw [List.map_singleton, List.flatMap_singleton, String.ofList_append, String.utf8ByteSize_append]
    exact Nat.le_add_right _ _
  have hbytes : maxLineBytes ≤ maxPayloadBytes := by decide
  have hfew : 1 ≤ maxLines := by decide
  have hseries : 1 ≤ maxSeries := by decide
  have hengines : 1 ≤ maxEngineGroups := by decide
  refine ⟨hshort.trans hbytes, hfew, ?_, hseries, hengines, ?_⟩
  · intro l hl
    rw [List.mem_singleton.mp hl]
    exact hlines.trans hshort
  · intro s hs
    rw [gauge_holds hs]
    have hlength := JsonText.length_text_le wholeMachine.text
      (observedSnapshot (.int 100) ⟨"s", none, none, none⟩ [gaugeEngine model] []).toJson
    have hbytes := JsonText.utf8ByteSize_ofList_le (JsonText.text wholeMachine.text
      (observedSnapshot (.int 100) ⟨"s", none, none, none⟩ [gaugeEngine model] []).toJson)
    unfold documentSize utf8Length
    omega

end Metrics
end PickleInfra
