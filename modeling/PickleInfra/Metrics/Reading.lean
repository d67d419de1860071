import PickleInfra.Metrics.Kept

/-!
# `Metrics.Reading` — what `parse_snapshot` has read so far, and what it is finished to

`Reading.Ok` says of the dictionaries of the parser that their entries will pass the validator. Every
line keeps it (`addLine_ok`), and a reading that satisfies it is finished to accepted engines.
-/

namespace PickleInfra
namespace Metrics

open Python

/-! ## What has been read -/

/-- The key of a series of the kind. -/
def KeyOk (kind : Kind) (key : SeriesKey) : Prop :=
  ∃ family, definition? key.1 = some family ∧ family.kind = kind ∧ LabelsOk family key.2

variable (M : Machine)

def SampledOk (t : Option Num) : Prop := ∀ x, t = some x → TimeKept M x

structure RawScalar.Ok (kind : Kind) (key : SeriesKey) (s : RawScalar) : Prop where
  keyOk : KeyOk kind key
  value : ∀ family, definition? key.1 = some family →
    checkScalar M.toFloatFormat family s.value = .ok () ∧ s.value.Kept M
  sampleAt : SampledOk M s.sampleAt

/-- What is kept of a bound. -/
def Bound.Kept : Bound → Prop
  | .num x => x.Kept M
  | .inf   => True

structure RawHistogram.Ok (h : RawHistogram) : Prop where
  buckets : ∀ b ∈ h.buckets, b.1.Kept M ∧ b.2.IsInt ∧ b.2.Kept M
  timestamps : ∀ t ∈ h.timestamps, SampledOk M t
  count : ∀ x, h.count = some x → x.IsInt ∧ x.Kept M
  sum : ∀ x, h.sum = some x → x.Kept M

structure Group.Ok (g : Group) : Prop where
  gauges : ∀ e ∈ g.gauges.entries, e.2.Ok M .gauges e.1
  counters : ∀ e ∈ g.counters.entries, e.2.Ok M .counters e.1
  histograms : ∀ e ∈ g.histograms.entries, KeyOk .histograms e.1 ∧ e.2.Ok M

/-- The number of series of a group. -/
def Group.size (g : Group) : Nat := g.gauges.size + g.counters.size + g.histograms.size

structure Reading.Ok (r : Reading) : Prop where
  groups : ∀ e ∈ r.groups.entries, (textOk e.1.1 = true ∧ textOk e.1.2 = true) ∧ e.2.Ok M
  engines : r.groups.size ≤ maxEngineGroups
  created : ∀ e ∈ r.created.entries, TimeKept M e.2
  unknown : NamesOk maxUnknownMetrics isMetricName r.unknown
  seen : r.seen.length ≤ maxSeries
  series : r.groups.total Group.size ≤ r.seen.length

theorem Reading.ok_empty : Reading.Ok M {} := by
  refine ⟨fun _ he => absurd he List.not_mem_nil, Nat.zero_le _, fun _ he => absurd he List.not_mem_nil,
    ⟨Nat.zero_le _, fun _ hn => absurd hn List.not_mem_nil, List.nodup_nil⟩, Nat.zero_le _, Nat.le_refl 0⟩

theorem Group.ok_empty : Group.Ok M {} :=
  ⟨fun _ he => absurd he List.not_mem_nil, fun _ he => absurd he List.not_mem_nil,
    fun _ he => absurd he List.not_mem_nil⟩

/-! ## One sample -/

section Sample

variable {M}

/-- An assignment adds at most one entry. -/
theorem size_set_le {K V : Type} [DecidableEq K] (d : Dict K V) (k : K) (v : V) :
    (d.set k v).size ≤ d.size + 1 := by
  have h := Dict.total_set (fun _ => 1) d k v
  rw [Dict.size_eq_total, Dict.size_eq_total]
  omega

theorem addPart_ok {h h' : RawHistogram} {part : Part} {labels : Labels} {raw : List Char}
    (hok : h.Ok M) (hadd : addPart M.toFloatFormat h part labels raw = .ok h') : h'.Ok M := by
  have hsum : ∀ {x}, numberOfText M.toFloatFormat false maxNumber raw = .ok x → x.Kept M := by
    intro x hx
    obtain ⟨q, hq, rfl⟩ := numberOfText_ok hx
    exact kept_keptNumber hq le_rfl
  cases part with
  | bucket =>
      unfold addPart at hadd
      simp only [bind_eq_ok] at hadd
      obtain ⟨bound, hbound, _, -, x, hx, _, -, hadd⟩ := hadd
      cases hadd
      refine ⟨?_, hok.timestamps, hok.count, hok.sum⟩
      intro b hb
      rcases List.mem_append.mp hb with hb | hb
      · exact hok.buckets b hb
      · rw [List.mem_singleton.mp hb]
        refine ⟨?_, countOfText_ok le_rfl hx⟩
        unfold boundOfText at hbound
        split at hbound
        · cases hbound
          trivial
        · cases hn : numberOfText M.toFloatFormat false maxNumber ((labelOf labels "le").getD "").toList with
          | error e => rw [hn] at hbound; cases hbound
          | ok y =>
              rw [hn] at hbound
              cases hbound
              obtain ⟨q, hq, rfl⟩ := numberOfText_ok hn
              exact kept_keptNumber hq le_rfl
  | count =>
      unfold addPart at hadd
      simp only [bind_eq_ok] at hadd
      obtain ⟨x, hx, hadd⟩ := hadd
      cases hadd
      refine ⟨hok.buckets, hok.timestamps, ?_, hok.sum⟩
      rintro y ⟨⟩
      exact countOfText_ok le_rfl hx
  | value | sum | created =>
      unfold addPart at hadd
      simp only [bind_eq_ok] at hadd
      obtain ⟨x, hx, hadd⟩ := hadd
      cases hadd
      refine ⟨hok.buckets, hok.timestamps, hok.count, ?_⟩
      rintro y ⟨⟩
      exact hsum hx

theorem addValue_ok {g g' : Group} {family : Definition} {part : Part} {s : Sample}
    (hknown : definition? family.name = some family) (hg : g.Ok M) (hshort : Short s.labels)
    (htime : SampledOk M s.sampleAt)
    (hadd : addValue M.toFloatFormat g family part (family.name, otherLabels family s.labels) s = .ok g') :
    g'.Ok M ∧ g'.size ≤ g.size + 1 := by
  have hmem := mem_of_definition? hknown
  have hkey : ∀ {kind}, family.kind = kind → KeyOk kind (family.name, otherLabels family s.labels) :=
    fun hkind => ⟨family, hknown, hkind, otherLabels_ok hmem hshort⟩
  have hscalar : ∀ {kind value}, family.kind = kind → family.kind = .gauges ∨ family.kind = .counters →
      scalarValue M.toFloatFormat family s.rawValue = .ok value →
      RawScalar.Ok M kind (family.name, otherLabels family s.labels) { value, sampleAt := s.sampleAt } := by
    intro kind value hkind hsome hvalue
    refine ⟨hkey hkind, ?_, htime⟩
    intro family' hfamily
    rw [hknown] at hfamily
    cases hfamily
    exact scalarValue_ok hmem hsome hvalue
  unfold addValue at hadd
  cases hkind : family.kind with
  | gauges =>
      rw [hkind] at hadd
      simp only [bind_eq_ok] at hadd
      obtain ⟨value, hvalue, hadd⟩ := hadd
      cases hadd
      refine ⟨⟨?_, hg.counters, hg.histograms⟩, ?_⟩
      · intro e he
        rcases Dict.mem_entries_set he with rfl | he
        · exact hscalar hkind (.inl hkind) hvalue
        · exact hg.gauges e he
      · have := size_set_le g.gauges (family.name, otherLabels family s.labels)
          { value, sampleAt := s.sampleAt }
        unfold Group.size
        dsimp only
        omega
  | counters =>
      rw [hkind] at hadd
      simp only [bind_eq_ok] at hadd
      obtain ⟨value, hvalue, hadd⟩ := hadd
      cases hadd
      refine ⟨⟨hg.gauges, ?_, hg.histograms⟩, ?_⟩
      · intro e he
        rcases Dict.mem_entries_set he with rfl | he
        · exact hscalar hkind (.inr hkind) hvalue
        · exact hg.counters e he
      · have := size_set_le g.counters (family.name, otherLabels family s.labels)
          { value, sampleAt := s.sampleAt }
        unfold Group.size
        dsimp only
        omega
  | histograms =>
      rw [hkind] at hadd
      simp only [bind_eq_ok] at hadd
      obtain ⟨h, hh, hadd⟩ := hadd
      cases hadd
      have hold : ((g.histograms.get? (family.name, otherLabels family s.labels)).getD {}).Ok M := by
        cases hget : g.histograms.get? (family.name, otherLabels family s.labels) with
        | none =>
            exact ⟨fun _ hb => absurd hb List.not_mem_nil, fun _ ht => absurd ht List.not_mem_nil,
              fun _ hx => (nomatch hx), fun _ hx => (nomatch hx)⟩
        | some old => exact (hg.histograms _ (g.histograms.get?_eq_some_iff.mp hget)).2
      refine ⟨⟨hg.gauges, hg.counters, ?_⟩, ?_⟩
      · intro e he
        rcases Dict.mem_entries_set he with rfl | he
        · refine ⟨hkey hkind, addPart_ok ?_ hh⟩
          split
          · exact hold
          · refine ⟨hold.buckets, ?_, hold.count, hold.sum⟩
            intro t ht
            rcases List.mem_append.mp ht with ht | ht
            · exact hold.timestamps t ht
            · rw [List.mem_singleton.mp ht]
              exact htime
        · exact hg.histograms e he
      · have := size_set_le g.histograms (family.name, otherLabels family s.labels) h
        unfold Group.size
        dsimp only
        omega

theorem engineOfLabels_ok {family : Definition} {part : Part} {labels : Labels} {engine : EngineKey}
    (h : engineOfLabels family part labels = .ok engine) :
    textOk engine.1 = true ∧ textOk engine.2 = true := by
  have htext : ∀ {s t : String}, text s = .ok t → textOk t = true := by
    intro s t hs
    unfold text at hs
    simp only [bind_eq_ok, failIf_eq_ok, exists_const] at hs
    obtain ⟨hok, hs⟩ := hs
    cases hs
    rwa [Bool.not_eq_false'] at hok
  unfold engineOfLabels at h
  simp only [bind_eq_ok] at h
  obtain ⟨_, -, h⟩ := h
  split at h
  · simp only [bind_eq_ok] at h
    obtain ⟨_, -, model, hmodel, engine', hengine, h⟩ := h
    cases h
    exact ⟨htext hmodel, htext hengine⟩
  · cases h

theorem groupOf_ok {r : Reading} (hr : r.Ok M) {engine : EngineKey} {g : Group}
    (h : groupOf r engine = .ok g) :
    g.Ok M ∧ g.size = ((r.groups.get? engine).map Group.size).getD 0 ∧
      (r.groups.get? engine = none → r.groups.size < maxEngineGroups) := by
  unfold groupOf at h
  cases hget : r.groups.get? engine with
  | some group =>
      rw [hget] at h
      cases h
      exact ⟨(hr.groups _ (r.groups.get?_eq_some_iff.mp hget)).2, rfl, fun h => by cases h⟩
  | none =>
      rw [hget] at h
      simp only [bind_eq_ok, failIf_eq_ok, exists_const] at h
      obtain ⟨hmax, h⟩ := h
      cases h
      exact ⟨Group.ok_empty M, rfl, fun _ => not_le.mp (of_decide_eq_false hmax)⟩

/-- The groups after a group of an engine was entered. -/
theorem setGroup_ok {r : Reading} (hr : r.Ok M) {engine : EngineKey}
    (hengine : textOk engine.1 = true ∧ textOk engine.2 = true) {g : Group}
    (hget : r.groups.get? engine = none → r.groups.size < maxEngineGroups) (hg : g.Ok M) :
    (∀ e ∈ (r.groups.set engine g).entries, (textOk e.1.1 = true ∧ textOk e.1.2 = true) ∧ e.2.Ok M) ∧
      (r.groups.set engine g).size ≤ maxEngineGroups := by
  refine ⟨?_, ?_⟩
  · intro e he
    rcases Dict.mem_entries_set he with rfl | he
    · exact ⟨hengine, hg⟩
    · exact hr.groups e he
  · have hsize := Dict.total_set (fun _ => 1) r.groups engine g
    rw [← Dict.size_eq_total, ← Dict.size_eq_total] at hsize
    have hengines := hr.engines
    cases hfind : r.groups.get? engine with
    | none =>
        have := hget hfind
        omega
    | some old =>
        rw [hfind, Option.map_some, Option.getD_some] at hsize
        omega

/-- **A sample keeps what has been read.** -/
theorem addSample_ok {r r' : Reading} (hr : r.Ok M) {family : Definition} {part : Part} {s : Sample}
    (hknown : definition? family.name = some family) (hshort : Short s.labels)
    (htime : SampledOk M s.sampleAt) (h : addSample M.toFloatFormat r family part s = .ok r') : r'.Ok M := by
  unfold addSample at h
  simp only [bind_eq_ok, failIf_eq_ok, exists_const] at h
  obtain ⟨engine, hengine, -, hmax, g, hgroup, h⟩ := h
  have hengine' := engineOfLabels_ok hengine
  obtain ⟨hg, hsize, hnew⟩ := groupOf_ok hr hgroup
  have hlength : ((s.name, sortLabels s.labels) :: r.seen).length ≤ maxSeries :=
    not_lt.mp (of_decide_eq_false hmax)
  split at h
  · simp only [bind_eq_ok] at h
    obtain ⟨x, hx, h⟩ := h
    cases h
    obtain ⟨hgroups, hengines⟩ := setGroup_ok hr hengine' hnew hg
    have htotal := Dict.total_set Group.size r.groups engine g
    have hseries := hr.series
    refine ⟨hgroups, hengines, ?_, hr.unknown, hlength, ?_⟩
    · intro e he
      rcases Dict.mem_entries_set he with rfl | he
      · exact timeOfText_ok hx
      · exact hr.created e he
    · show (r.groups.set engine g).total Group.size ≤ r.seen.length + 1
      omega
  · simp only [bind_eq_ok] at h
    obtain ⟨g', hg', h⟩ := h
    cases h
    obtain ⟨hok, hsize'⟩ := addValue_ok hknown hg hshort htime hg'
    obtain ⟨hgroups, hengines⟩ := setGroup_ok hr hengine' hnew hok
    have htotal := Dict.total_set Group.size r.groups engine g'
    have hseries := hr.series
    refine ⟨hgroups, hengines, hr.created, hr.unknown, hlength, ?_⟩
    show (r.groups.set engine g').total Group.size ≤ r.seen.length + 1
    omega

end Sample

/-! ## The lines -/

section Lines

variable {M}

theorem definition?_name : ∀ d ∈ definitions, definition? d.name = some d := by decide +kernel

/-- A sample name belongs to a known family. -/
theorem sample?_known {name : String} {family : Definition} {part : Part}
    (h : sample? name = some (family, part)) : definition? family.name = some family := by
  unfold sample? at h
  rw [Option.map_eq_some_iff] at h
  obtain ⟨⟨n, d, p⟩, hfind, h⟩ := h
  cases h
  have hmem := List.mem_of_find?_eq_some hfind
  unfold samples at hmem
  obtain ⟨d', hd', hmem⟩ := List.mem_flatMap.mp hmem
  obtain ⟨_, -, heq⟩ := List.mem_map.mp hmem
  cases heq
  exact definition?_name _ hd'

/-- The name of a sample line is a metric name. -/
theorem scanName_ok {line name rest : List Char} (h : scanName line = .ok (name, rest)) :
    isMetricName (String.ofList name) = true := by
  unfold scanName matchName at h
  cases line with
  | nil => cases h
  | cons c cs =>
      dsimp only at h
      cases hc : isNameStart c with
      | false => rw [hc] at h; cases h
      | true =>
          rw [hc] at h
          simp only [if_true, bind_eq_ok, failIf_eq_ok, exists_const] at h
          obtain ⟨hlength, h⟩ := h
          have hchar : isNameChar c = true := by
            unfold isNameChar
            rw [hc, Bool.true_or]
          rw [List.takeWhile_cons_of_pos hchar] at h hlength
          cases h
          unfold isMetricName Text.fullmatchFirst
          rw [String.toList_ofList]
          dsimp only
          rw [Bool.and_eq_true, Bool.and_eq_true, decide_eq_true_eq]
          refine ⟨⟨hc, List.all_takeWhile⟩, ?_⟩
          have := of_decide_eq_false hlength
          rw [List.length_cons] at this
          omega

theorem addType_ok {r r' : Reading} (hr : r.Ok M) {declaration : List Char}
    (h : addType r declaration = .ok r') : r'.Ok M := by
  unfold addType at h
  split at h
  · simp only [bind_eq_ok] at h
    obtain ⟨_, -, _, -, h⟩ := h
    cases h
    exact ⟨hr.groups, hr.engines, hr.created, hr.unknown, hr.seen, hr.series⟩
  · cases h

/-- **A line keeps what has been read.** -/
theorem addLine_ok {r r' : Reading} (hr : r.Ok M) {line : List Char}
    (h : addLine M.toFloatFormat r line = .ok r') : r'.Ok M := by
  unfold addLine at h
  split at h
  · cases h
    exact hr
  split at h
  · split at h
    · exact addType_ok hr h
    · cases h
      exact hr
  · simp only [bind_eq_ok] at h
    obtain ⟨⟨name, rest⟩, hname, h⟩ := h
    dsimp only at h
    split at h
    · simp only [bind_eq_ok, failIf_eq_ok, exists_const] at h
      obtain ⟨hmax, h⟩ := h
      cases h
      refine ⟨hr.groups, hr.engines, hr.created, ⟨?_, ?_, ?_⟩, hr.seen, hr.series⟩
      · exact not_lt.mp (of_decide_eq_false hmax)
      · intro n hn
        rcases List.mem_insert_iff.mp hn with rfl | hn
        · exact scanName_ok hname
        · exact hr.unknown.ok n hn
      · exact hr.unknown.nodup.insert
    · next family part hsample =>
      simp only [bind_eq_ok] at h
      obtain ⟨s, hs, h⟩ := h
      obtain ⟨hshort, htime⟩ := sample_ok hs
      exact addSample_ok hr (sample?_known hsample) hshort htime h

theorem addLines_ok {r r' : Reading} (hr : r.Ok M) {lines : List (List Char)}
    (h : addLines M.toFloatFormat r lines = .ok r') : r'.Ok M := by
  induction lines generalizing r with
  | nil =>
      cases h
      exact hr
  | cons line lines ih =>
      unfold addLines at h
      simp only [bind_eq_ok] at h
      obtain ⟨_, -, r'', hline, h⟩ := h
      exact ih (addLine_ok hr hline) h

end Lines

/-! ## The finished snapshot -/

section Finish

variable {M}

/-- What JSON needs of the parts of a series. -/
structure Head.Kept (M : Machine) (h : Head) : Prop where
  sampleAt : ∀ t, h.sampleAt = some t → t.Kept M
  createdAt : ∀ t, h.createdAt = some t → t.Kept M

structure Engine.Kept (M : Machine) (e : Engine) : Prop where
  gauges : ∀ s ∈ e.gauges, s.head.Kept M ∧ s.value.Kept M
  counters : ∀ s ∈ e.counters, s.head.Kept M ∧ s.value.Kept M
  histograms : ∀ s ∈ e.histograms, s.head.Kept M ∧ (∀ b ∈ s.bounds, b.Kept M) ∧
    (∀ c ∈ s.counts, c.Kept M) ∧ s.count.Kept M ∧ s.sum.Kept M

/-- The head of a finished series. -/
theorem finishHead_ok {r : Reading} (hr : r.Ok M) {kind : Kind} {engine : EngineKey} {key : SeriesKey}
    (hkey : KeyOk kind key) {sampleAt : Option Num} (htime : SampledOk M sampleAt) {head : Head}
    (h : finishHead r kind engine key sampleAt = .ok head) :
    head.Accepted M.toFloatFormat kind ∧ head.Kept M ∧ head.key = key ∧
      (kind = .gauges → head.createdAt = none) := by
  obtain ⟨family, hfamily, hkind, hlabels⟩ := hkey
  unfold finishHead at h
  rw [hfamily] at h
  simp only [bind_eq_ok] at h
  obtain ⟨_, -, h⟩ := h
  cases h
  have hname : family.name = key.1 := name_of_definition? hfamily
  have hcreated : ∀ t, (if kind = .gauges then none else r.created.get? (engine, key)) = some t →
      TimeKept M t := by
    intro t ht
    split at ht
    · cases ht
    · exact hr.created _ (r.created.get?_eq_some_iff.mp ht)
  refine ⟨⟨?_, hkind, hlabels, fun t ht => (htime t ht).1, fun t ht => (hcreated t ht).1⟩,
    ⟨fun t ht => (htime t ht).2, fun t ht => (hcreated t ht).2⟩, ?_, fun hg => if_pos hg⟩
  · show definition? family.name = some family
    rw [hname]
    exact hfamily
  · show (family.name, key.2) = key
    rw [hname]

theorem finishScalar_ok {r : Reading} (hr : r.Ok M) {kind : Kind} {engine : EngineKey}
    {entry : SeriesKey × RawScalar} (hentry : entry.2.Ok M kind entry.1) {s : Scalar}
    (h : finishScalar r kind engine entry = .ok s) :
    s.Accepted M.toFloatFormat kind ∧ s.head.Kept M ∧ s.value.Kept M ∧ s.head.key = entry.1 ∧
      (kind = .gauges → s.head.createdAt = none) := by
  unfold finishScalar at h
  simp only [bind_eq_ok] at h
  obtain ⟨head, hhead, h⟩ := h
  cases h
  obtain ⟨haccepted, hkept, hkey, hcreated⟩ := finishHead_ok hr hentry.keyOk hentry.sampleAt hhead
  have hfamily : definition? entry.1.1 = some head.family := by
    rw [← hkey]
    exact haccepted.known
  obtain ⟨hvalue, hvalueKept⟩ := hentry.value _ hfamily
  exact ⟨⟨haccepted, hvalue⟩, hkept, hvalueKept, hkey, hcreated⟩

theorem finishHistogram_ok {r : Reading} (hr : r.Ok M) {engine : EngineKey}
    {entry : SeriesKey × RawHistogram} (hkeyOk : KeyOk .histograms entry.1) (hentry : entry.2.Ok M)
    {s : Histogram} (h : finishHistogram M.toFloatFormat r engine entry = .ok s) :
    s.Accepted M.toFloatFormat ∧ s.head.key = entry.1 ∧ s.head.Kept M ∧ (∀ b ∈ s.bounds, b.Kept M) ∧
      (∀ c ∈ s.counts, c.Kept M) ∧ s.count.Kept M ∧ s.sum.Kept M := by
  unfold finishHistogram at h
  simp only [bind_eq_ok] at h
  obtain ⟨head, hhead, h⟩ := h
  split at h
  next sampleAt htimestamps =>
    simp only [bind_eq_ok] at h
    obtain ⟨_, hhistogram, h⟩ := h
    split at h
    · next count sum hcount hsum =>
      cases h
      have htime : SampledOk M none := fun t ht => (nomatch ht)
      obtain ⟨haccepted, hkept, hkey, -⟩ := finishHead_ok hr hkeyOk htime hhead
      have hsampled : SampledOk M sampleAt :=
        hentry.timestamps _ (by rw [htimestamps]; exact List.mem_singleton_self _)
      have hbucket : ∀ b ∈ entry.2.buckets.insertionSort (fun a b => boundLe a.1 b.1 = true),
          b.1.Kept M ∧ b.2.IsInt ∧ b.2.Kept M :=
        fun b hb => hentry.buckets b ((List.mem_insertionSort _).mp hb)
      rw [hcount, hsum] at hhistogram
      refine ⟨⟨⟨haccepted.known, haccepted.kind, haccepted.labels, fun t ht => (hsampled t ht).1,
        haccepted.createdAt⟩, ?_, (hentry.count _ hcount).1, hhistogram⟩, hkey,
        ⟨fun t ht => (hsampled t ht).2, hkept.createdAt⟩, ?_, ?_, (hentry.count _ hcount).2,
        hentry.sum _ hsum⟩
      · intro c hc
        obtain ⟨b, hb, rfl⟩ := List.mem_map.mp hc
        exact (hbucket b hb).2.1
      · intro c hc
        obtain ⟨b, hb, rfl⟩ := List.mem_map.mp hc
        exact (hbucket b hb).1
      · intro c hc
        obtain ⟨b, hb, rfl⟩ := List.mem_map.mp hc
        exact (hbucket b hb).2.2
    · cases h
  next => cases h

/-- What was computed from every entry: each result comes from an entry, and the keys are the same. -/
theorem mapM_keys {K V S : Type} {f : K × V → Checked S} (key : S → K) {entries : List (K × V)}
    {results : List S} (h : entries.mapM f = .ok results)
    (hkey : ∀ e ∈ entries, ∀ s, f e = .ok s → key s = e.1) :
    results.map key = entries.map Prod.fst ∧ ∀ s ∈ results, ∃ e ∈ entries, f e = .ok s := by
  rw [mapM_eq_ok] at h
  induction h with
  | nil => exact ⟨rfl, fun s hs => absurd hs List.not_mem_nil⟩
  | cons hfirst _ ih =>
      obtain ⟨hkeys, hall⟩ := ih fun e he => hkey e (List.mem_cons_of_mem _ he)
      refine ⟨?_, ?_⟩
      · rw [List.map_cons, List.map_cons, hkeys, hkey _ List.mem_cons_self _ hfirst]
      · intro s hs
        rcases List.mem_cons.mp hs with rfl | hs
        · exact ⟨_, List.mem_cons_self, hfirst⟩
        · obtain ⟨e, he, hes⟩ := hall s hs
          exact ⟨e, List.mem_cons_of_mem _ he, hes⟩

theorem perm_sortedEntries {V : Type} (d : Dict SeriesKey V) : (sortedEntries d).Perm d.entries :=
  List.perm_insertionSort _ _

theorem nodup_sortedEntries {V : Type} (d : Dict SeriesKey V) :
    ((sortedEntries d).map Prod.fst).Nodup :=
  ((perm_sortedEntries d).map Prod.fst).nodup_iff.mpr d.nodup

theorem length_sortedEntries {V : Type} (d : Dict SeriesKey V) : (sortedEntries d).length = d.size :=
  (perm_sortedEntries d).length_eq

theorem namesOk_notReported (present : List String) :
    NamesOk definitions.length definitionNames.contains (notReportedNames present) := by
  have hperm : (notReportedNames present).Perm
      (definitionNames.filter fun name => !present.contains name) := List.perm_insertionSort _ _
  refine ⟨?_, ?_, hperm.nodup_iff.mpr (nodup_definitionNames.filter _)⟩
  · rw [hperm.length_eq]
    exact (List.length_filter_le _ _).trans (le_of_eq (List.length_map _))
  · intro name hname
    exact List.contains_iff_mem.mpr (List.mem_of_mem_filter (hperm.mem_iff.mp hname))

/-- Keys of two kinds differ. -/
theorem keyOk_disjoint {kind kind' : Kind} {key : SeriesKey} (h : KeyOk kind key) (h' : KeyOk kind' key) :
    kind = kind' := by
  obtain ⟨family, hfamily, hkind, -⟩ := h
  obtain ⟨family', hfamily', hkind', -⟩ := h'
  rw [hfamily] at hfamily'
  cases hfamily'
  rw [← hkind, ← hkind']

/-- **A group is finished to an accepted engine.** -/
theorem finishGroup_ok {r : Reading} (hr : r.Ok M) {entry : EngineKey × Group} (hentry : entry ∈ r.groups.entries)
    {e : Engine} (h : finishGroup M.toFloatFormat r entry = .ok e) :
    e.Accepted M.toFloatFormat ∧ e.Kept M ∧ e.key = entry.1 ∧ e.keys.length = entry.2.size := by
  obtain ⟨⟨hmodel, hengine⟩, hgroup⟩ := hr.groups entry hentry
  unfold finishGroup at h
  simp only [bind_eq_ok] at h
  obtain ⟨gauges, hgauges, counters, hcounters, histograms, hhistograms, h⟩ := h
  cases h
  have hg : ∀ e ∈ sortedEntries entry.2.gauges, e.2.Ok M .gauges e.1 :=
    fun e he => hgroup.gauges e ((perm_sortedEntries _).mem_iff.mp he)
  have hc : ∀ e ∈ sortedEntries entry.2.counters, e.2.Ok M .counters e.1 :=
    fun e he => hgroup.counters e ((perm_sortedEntries _).mem_iff.mp he)
  have hh : ∀ e ∈ sortedEntries entry.2.histograms, KeyOk .histograms e.1 ∧ e.2.Ok M :=
    fun e he => hgroup.histograms e ((perm_sortedEntries _).mem_iff.mp he)
  obtain ⟨hgkeys, hgall⟩ := mapM_keys (fun s : Scalar => s.head.key) hgauges
    fun e he s hs => (finishScalar_ok hr (hg e he) hs).2.2.2.1
  obtain ⟨hckeys, hcall⟩ := mapM_keys (fun s : Scalar => s.head.key) hcounters
    fun e he s hs => (finishScalar_ok hr (hc e he) hs).2.2.2.1
  obtain ⟨hhkeys, hhall⟩ := mapM_keys (fun s : Histogram => s.head.key) hhistograms
    fun e he s hs => (finishHistogram_ok hr (hh e he).1 (hh e he).2 hs).2.1
  have hkeys : ∀ (n : List String), Engine.keys
      { modelName := entry.1.1, engineId := entry.1.2, gauges, counters, histograms, notReported := n } =
      (sortedEntries entry.2.gauges).map Prod.fst ++ (sortedEntries entry.2.counters).map Prod.fst
        ++ (sortedEntries entry.2.histograms).map Prod.fst := by
    intro n
    unfold Engine.keys
    rw [← hgkeys, ← hckeys, ← hhkeys]
  refine ⟨⟨hmodel, hengine, namesOk_notReported _, ?_, ?_, ?_, ?_, ?_⟩, ⟨?_, ?_, ?_⟩, rfl, ?_⟩
  · intro s hs
    obtain ⟨e, he, hes⟩ := hgall s hs
    exact (finishScalar_ok hr (hg e he) hes).1
  · intro s hs
    obtain ⟨e, he, hes⟩ := hgall s hs
    exact (finishScalar_ok hr (hg e he) hes).2.2.2.2 rfl
  · intro s hs
    obtain ⟨e, he, hes⟩ := hcall s hs
    exact (finishScalar_ok hr (hc e he) hes).1
  · intro s hs
    obtain ⟨e, he, hes⟩ := hhall s hs
    exact (finishHistogram_ok hr (hh e he).1 (hh e he).2 hes).1
  · rw [hkeys, List.nodup_append, List.nodup_append]
    have hkey : ∀ {kind : Kind} {V : Type} {entries : List (SeriesKey × V)} {k : SeriesKey},
        (∀ e ∈ entries, KeyOk kind e.1) → k ∈ entries.map Prod.fst → KeyOk kind k := by
      intro kind V entries k hall hk
      obtain ⟨e, he, rfl⟩ := List.mem_map.mp hk
      exact hall e he
    have hgk := fun e he => (hg e he).keyOk
    have hck := fun e he => (hc e he).keyOk
    have hhk := fun e he => (hh e he).1
    refine ⟨⟨nodup_sortedEntries _, nodup_sortedEntries _, ?_⟩, nodup_sortedEntries _, ?_⟩
    · rintro a ha b hb rfl
      cases keyOk_disjoint (hkey hgk ha) (hkey hck hb)
    · rintro a ha b hb rfl
      rcases List.mem_append.mp ha with ha | ha
      · cases keyOk_disjoint (hkey hgk ha) (hkey hhk hb)
      · cases keyOk_disjoint (hkey hck ha) (hkey hhk hb)
  · intro s hs
    obtain ⟨e, he, hes⟩ := hgall s hs
    obtain ⟨-, hhead, hvalue, -⟩ := finishScalar_ok hr (hg e he) hes
    exact ⟨hhead, hvalue⟩
  · intro s hs
    obtain ⟨e, he, hes⟩ := hcall s hs
    obtain ⟨-, hhead, hvalue, -⟩ := finishScalar_ok hr (hc e he) hes
    exact ⟨hhead, hvalue⟩
  · intro s hs
    obtain ⟨e, he, hes⟩ := hhall s hs
    exact (finishHistogram_ok hr (hh e he).1 (hh e he).2 hes).2.2
  · rw [hkeys, List.length_append, List.length_append, List.length_map, List.length_map, List.length_map,
      length_sortedEntries, length_sortedEntries, length_sortedEntries]
    rfl

/-- The engines of a finished reading. -/
structure EnginesOk (M : Machine) (engines : List Engine) : Prop where
  length : engines.length ≤ maxEngineGroups
  distinct : (engines.map Engine.key).Nodup
  accepted : ∀ e ∈ engines, e.Accepted M.toFloatFormat
  kept : ∀ e ∈ engines, e.Kept M
  series : seriesCount engines ≤ maxSeries

theorem seriesCount_filter_le (p : Engine → Bool) (engines : List Engine) :
    seriesCount (engines.filter p) ≤ seriesCount engines := by
  unfold seriesCount
  induction engines with
  | nil => exact Nat.le_refl 0
  | cons e engines ih =>
      rw [List.filter_cons]
      split
      · rw [List.map_cons, List.map_cons, List.sum_cons, List.sum_cons]
        omega
      · rw [List.map_cons, List.sum_cons]
        omega

/-- The series of the engines are as many as those of the groups. -/
theorem seriesCount_mapM {f : EngineKey × Group → Checked Engine} {entries : List (EngineKey × Group)}
    {engines : List Engine} (h : entries.mapM f = .ok engines)
    (hsize : ∀ e ∈ entries, ∀ g, f e = .ok g → g.keys.length = e.2.size) :
    seriesCount engines = (entries.map fun e => e.2.size).sum := by
  rw [mapM_eq_ok] at h
  induction h with
  | nil => rfl
  | cons hfirst _ ih =>
      have hrest := ih fun e he => hsize e (List.mem_cons_of_mem _ he)
      unfold seriesCount at hrest ⊢
      rw [List.map_cons, List.map_cons, List.sum_cons, List.sum_cons, hrest,
        hsize _ List.mem_cons_self _ hfirst]

theorem finishGroups_ok {r : Reading} (hr : r.Ok M) {engines : List Engine}
    (h : finishGroups M.toFloatFormat r = .ok engines) : EnginesOk M engines := by
  unfold finishGroups at h
  simp only [bind_eq_ok] at h
  obtain ⟨all, hall, h⟩ := h
  cases h
  have hperm : (r.groups.entries.insertionSort (fun a b => EngineKey.le a.1 b.1 = true)).Perm
      r.groups.entries := List.perm_insertionSort _ _
  have hgroup : ∀ entry ∈ r.groups.entries.insertionSort (fun a b => EngineKey.le a.1 b.1 = true),
      ∀ e, finishGroup M.toFloatFormat r entry = .ok e →
        e.Accepted M.toFloatFormat ∧ e.Kept M ∧ e.key = entry.1 ∧ e.keys.length = entry.2.size :=
    fun entry hentry e he => finishGroup_ok hr (hperm.mem_iff.mp hentry) he
  obtain ⟨hkeys, hmem⟩ := mapM_keys Engine.key hall fun entry hentry e he => (hgroup entry hentry e he).2.2.1
  have hresult : ∀ e ∈ all.filter (fun e => !e.present.isEmpty),
      e.Accepted M.toFloatFormat ∧ e.Kept M := by
    intro e he
    obtain ⟨entry, hentry, hfinish⟩ := hmem e (List.mem_of_mem_filter he)
    obtain ⟨haccepted, hkept, -⟩ := hgroup entry hentry e hfinish
    exact ⟨haccepted, hkept⟩
  have hcount : seriesCount all = r.groups.total Group.size := by
    rw [seriesCount_mapM hall fun entry hentry e he => (hgroup entry hentry e he).2.2.2]
    exact (hperm.map fun e => e.2.size).sum_nat
  refine ⟨?_, ?_, fun e he => (hresult e he).1, fun e he => (hresult e he).2, ?_⟩
  · have hlength : all.length = r.groups.size := by
      have := congrArg List.length hkeys
      rwa [List.length_map, List.length_map, hperm.length_eq] at this
    have hengines := hr.engines
    exact (List.length_filter_le _ _).trans (hlength ▸ hengines)
  · refine List.Nodup.sublist (List.Sublist.map _ List.filter_sublist) ?_
    rw [hkeys]
    exact (hperm.map Prod.fst).nodup_iff.mpr r.groups.nodup
  · have hseries := hr.series
    have hseen := hr.seen
    have hfilter := seriesCount_filter_le (fun e => !e.present.isEmpty) all
    omega

end Finish

end Metrics
end PickleInfra
