import PickleInfra.Metrics.Accepted
import PickleInfra.Metrics.Kept
import PickleInfra.Metrics.Exposition
import Mathlib.Data.List.Dedup

/-!
# `Metrics.Points` — the samples of a text, and what they leave in the dictionaries of `parse_snapshot`

A point is one sample of a series. `Renders` relates a line to the point it writes, and `Entered` says what
the dictionaries hold after the lines of a list of points: the order of the lines does not matter, because
every point has a place of its own.
-/

namespace PickleInfra
namespace Metrics

open Python Python.Text Python.Str

/-- One sample of a series, with the boundary of a bucket and the time in milliseconds. -/
structure Point where
  engine : EngineKey
  family : Definition
  labels : Labels
  part : Part
  bound : Option Bound
  value : Num
  time : Option Num

def Point.key (p : Point) : SeriesKey := (p.family.name, p.labels)

/-- No two samples have one place. -/
def Point.place (p : Point) : EngineKey × SeriesKey × Part × Option (Option ℚ) :=
  (p.engine, p.key, p.part, p.bound.map Bound.value)

/-- Whether the sample is a count. -/
def Point.isCount (p : Point) : Bool :=
  match p.part with
  | .value   => p.family.kind = .counters || p.family.unit = .requests
  | .bucket  => true
  | .count   => true
  | .sum     => false
  | .created => false

def Point.maximum (p : Point) : ℚ := if p.part = .created then maxTime else maxNumber

/-- A point that can be reported: labels within the limits, and a value in the range of its unit. -/
structure Point.Ok (p : Point) : Prop where
  model : textOk p.engine.1 = true
  engine : textOk p.engine.2 = true
  labels : LabelsOk p.family p.labels
  bound : p.bound.isSome = decide (p.part = .bucket)
  ratio : p.part = .value → p.family.unit = .ratio → p.value.value ≤ 1
  state : p.part = .value → p.family.unit = .state → p.value.value = 0 ∨ p.value.value = 1

variable (F : FloatFormat)

/-- The label of a boundary. -/
inductive BoundLabel : Option Bound → Labels → Prop where
  | none : BoundLabel none []
  | inf : BoundLabel (some .inf) [("le", "+Inf")]
  | num {x : Num} {n : Numeral} (h : Written F false maxNumber x n) :
      BoundLabel (some (.num x)) [("le", String.ofList n.render)]

/-- The labels of a line, in any order. -/
def Labelled (p : Point) (found : Labels) : Prop :=
  ∃ le, BoundLabel F p.bound le ∧
    found.Perm (("model_name", p.engine.1) :: ("engine", p.engine.2) :: (p.labels ++ le))

/-- **A line that writes a point.** -/
structure Renders (l : LineText) (p : Point) : Prop where
  name : sample? l.name = some (p.family, p.part)
  labels : Labelled F p (l.labels.map LabelText.label)
  value : Written F p.isCount p.maximum p.value l.value
  time : Timed F l.time p.time

/-! ## The vocabulary -/

theorem samples_vocabulary : ∀ s ∈ samples, isMetricName s.1 = true ∧ s.2.1 ∈ definitions ∧
    (s.2.1.kind = .histograms ↔ s.2.2 ≠ .value ∧ ¬ (s.2.2 = .created ∧ s.2.1.kind = .counters)) ∧
      (s.2.1.kind = .gauges → s.2.2 = .value) := by
  rintro ⟨name, d, part⟩ hs
  obtain ⟨hd, hs⟩ := mem_samples.mp hs
  have hname := familyName_definition d hd
  unfold Definition.samples at hs
  cases hkind : d.kind with
  | histograms =>
      rw [hkind] at hs
      simp only [List.mem_cons, List.not_mem_nil, or_false, Prod.mk.injEq] at hs
      rcases hs with ⟨rfl, rfl⟩ | ⟨rfl, rfl⟩ | ⟨rfl, rfl⟩ | ⟨rfl, rfl⟩ <;>
        exact ⟨hname.append (by decide) (by decide), hd, by simp, by simp⟩
  | counters =>
      rw [hkind] at hs
      simp only [List.mem_cons, List.not_mem_nil, or_false, Prod.mk.injEq] at hs
      rcases hs with ⟨rfl, rfl⟩ | ⟨rfl, rfl⟩
      · exact ⟨hname.metricName, hd, by simp, by simp⟩
      · exact ⟨hname.withoutTotal_append (by decide) (by decide), hd, by simp, by simp⟩
  | gauges =>
      rw [hkind] at hs
      obtain ⟨rfl, rfl⟩ := Prod.mk.inj (List.mem_singleton.mp hs)
      exact ⟨hname.metricName, hd, by simp, by simp⟩

theorem extras_vocabulary : ∀ d ∈ definitions, ∀ e ∈ d.extras,
    isLabelName e = true ∧ e ∉ ["model_name", "engine", "le"] := by
  decide +kernel

variable {F}

theorem Renders.vocabulary {l : LineText} {p : Point} (h : Renders F l p) :
    isMetricName l.name = true ∧ p.family ∈ definitions ∧
      (p.family.kind = .histograms ↔ p.part ≠ .value ∧ ¬ (p.part = .created ∧ p.family.kind = .counters)) ∧
        (p.family.kind = .gauges → p.part = .value) :=
  samples_vocabulary _ (sample?_mem h.name)

/-! ## The labels of a line -/

section Labels

variable {p : Point} {found : Labels}

theorem ascii_size {cs : List Char} (h : cs.all Numeral.isNumeralChar = true) :
    (String.ofList cs).utf8ByteSize = cs.length := by
  induction cs with
  | nil => rfl
  | cons c cs ih =>
      rw [List.all_cons, Bool.and_eq_true] at h
      have hone : (String.ofList [c]).utf8ByteSize = 1 := by
        show (String.singleton c).utf8ByteSize = 1
        rw [String.utf8ByteSize_singleton, Char.utf8Size_eq_one_iff]
        have hchar := h.1
        unfold Numeral.isNumeralChar isDigit at hchar
        rw [Bool.or_eq_true, Bool.and_eq_true, decide_eq_true_eq, decide_eq_true_eq,
          List.contains_iff_mem] at hchar
        rcases hchar with hdigit | hmem
        · have hle : c.toNat ≤ 57 := hdigit.2
          show c.toNat ≤ 127
          omega
        · simp only [List.mem_cons, List.not_mem_nil, or_false] at hmem
          rcases hmem with rfl | rfl | rfl | rfl | rfl <;> decide
      rw [← List.singleton_append, String.ofList_append, String.utf8ByteSize_append, hone, ih h.2,
        List.length_append, List.length_singleton]

theorem boundLabel_mem {b : Option Bound} {le : Labels} (h : BoundLabel F b le) :
    ∀ x ∈ le, x.1 = "le" ∧ x.2.utf8ByteSize ≤ maxLabelBytes := by
  intro x hx
  cases h with
  | none => exact absurd hx List.not_mem_nil
  | inf =>
      rw [List.mem_singleton.mp hx]
      decide
  | num hwritten =>
      rw [List.mem_singleton.mp hx]
      refine ⟨rfl, ?_⟩
      dsimp only
      rw [ascii_size (Numeral.render_chars hwritten.isJson)]
      exact hwritten.short.trans (by decide)

theorem boundLabel_length {b : Option Bound} {le : Labels} (h : BoundLabel F b le) : le.length ≤ 1 := by
  cases h with
  | none => exact Nat.zero_le _
  | inf => exact le_rfl
  | num _ => exact le_rfl

theorem labels_length {family : Definition} (hknown : family ∈ definitions) {labels : Labels}
    (h : LabelsOk family labels) : labels.length ≤ 1 := by
  have hsubset : labels.map Prod.fst ⊆ family.extras := by
    intro name hname
    obtain ⟨l, hl, rfl⟩ := List.mem_map.mp hname
    exact h.permitted l hl
  have hlength := (List.subperm_of_subset h.nodup hsubset).length_le
  rw [List.length_map] at hlength
  exact hlength.trans (extras_length family hknown)

/-- The names of the labels of a line are distinct. -/
theorem labelled_nodup (hknown : p.family ∈ definitions) (hp : p.Ok) (h : Labelled F p found) :
    (found.map Prod.fst).Nodup := by
  obtain ⟨le, hle, hperm⟩ := h
  have hextra : ∀ x ∈ p.labels, x.1 ∉ ["model_name", "engine", "le"] := fun x hx =>
    (extras_vocabulary p.family hknown x.1 (hp.labels.permitted x hx)).2
  have hnames : ∀ name ∈ p.labels.map Prod.fst, name ∉ ["model_name", "engine", "le"] := by
    intro name hname
    obtain ⟨x, hx, rfl⟩ := List.mem_map.mp hname
    exact hextra x hx
  have hles : ∀ name ∈ le.map Prod.fst, name = "le" := by
    intro name hname
    obtain ⟨x, hx, rfl⟩ := List.mem_map.mp hname
    exact (boundLabel_mem hle x hx).1
  have hlenodup : (le.map Prod.fst).Nodup := by
    have hlength := boundLabel_length hle
    match le, hlength with
    | [], _  => exact List.nodup_nil
    | [x], _ => exact List.nodup_singleton _
  rw [(hperm.map Prod.fst).nodup_iff]
  simp only [List.map_cons, List.map_append, List.nodup_cons, List.mem_cons, List.mem_append, not_or]
  refine ⟨⟨by decide, ?_, ?_⟩, ⟨?_, ?_⟩, List.nodup_append.mpr ⟨hp.labels.nodup, hlenodup, ?_⟩⟩
  · exact fun hmem => hnames _ hmem (by decide)
  · exact fun hmem => absurd (hles _ hmem) (by decide)
  · exact fun hmem => hnames _ hmem (by decide)
  · exact fun hmem => absurd (hles _ hmem) (by decide)
  · rintro name hname name' hname' rfl
    rw [hles _ hname'] at hname
    exact hnames _ hname (by decide)

theorem labelled_lookup (hknown : p.family ∈ definitions) (hp : p.Ok) (h : Labelled F p found) {k v : String} :
    labelOf found k = some v ↔ (k, v) ∈ found :=
  Dict.lookup_eq_some_iff (labelled_nodup hknown hp h)

/-- The labels of a line name its engine. -/
theorem labelled_engine (hknown : p.family ∈ definitions) (hp : p.Ok) (h : Labelled F p found) :
    labelOf found "model_name" = some p.engine.1 ∧ labelOf found "engine" = some p.engine.2 := by
  rw [labelled_lookup hknown hp h, labelled_lookup hknown hp h]
  obtain ⟨le, -, hperm⟩ := h
  rw [hperm.mem_iff, hperm.mem_iff]
  exact ⟨List.mem_cons_self, List.mem_cons_of_mem _ List.mem_cons_self⟩

theorem boundLabel_some {b : Bound} {le : Labels} (h : BoundLabel F (some b) le) :
    ∃ s, le = [("le", s)] ∧ boundOfText F s = .ok b := by
  cases h with
  | inf => exact ⟨"+Inf", rfl, rfl⟩
  | @num x n hwritten =>
      refine ⟨String.ofList n.render, rfl, ?_⟩
      have hne : String.ofList n.render ≠ "+Inf" := by
        intro heq
        have hchars := Numeral.render_chars hwritten.isJson
        rw [← String.toList_ofList (l := n.render), heq] at hchars
        exact absurd hchars (by decide)
      unfold boundOfText
      rw [if_neg hne, String.toList_ofList, numberOfText_render hwritten]
      rfl

/-- The label of a boundary is found. -/
theorem labelled_le (hknown : p.family ∈ definitions) (hp : p.Ok) (h : Labelled F p found) {b : Bound}
    (hb : p.bound = some b) : ∃ s, labelOf found "le" = some s ∧ boundOfText F s = .ok b := by
  have hlookup : ∀ v, labelOf found "le" = some v ↔ ("le", v) ∈ found :=
    fun v => labelled_lookup hknown hp h
  obtain ⟨le, hle, hperm⟩ := h
  rw [hb] at hle
  obtain ⟨s, rfl, hs⟩ := boundLabel_some hle
  refine ⟨s, (hlookup s).mpr (hperm.mem_iff.mpr ?_), hs⟩
  apply List.mem_cons_of_mem
  apply List.mem_cons_of_mem
  exact List.mem_append_right _ (List.mem_singleton_self _)

/-- Two short lists with the same members are equal. -/
theorem eq_of_short {α : Type} {xs ys : List α} (hxs : xs.length ≤ 1) (hys : ys.length ≤ 1)
    (h : ∀ a, a ∈ xs ↔ a ∈ ys) : xs = ys := by
  match xs, hxs, ys, hys with
  | [], _, [], _     => rfl
  | [], _, [y], _    => exact absurd ((h y).mpr (List.mem_singleton_self y)) List.not_mem_nil
  | [x], _, [], _    => exact absurd ((h x).mp (List.mem_singleton_self x)) List.not_mem_nil
  | [x], _, [y], _   => rw [List.mem_singleton.mp ((h x).mp (List.mem_singleton_self x))]

/-- The other labels of a line are those of the series. -/
theorem labelled_others (hknown : p.family ∈ definitions) (hp : p.Ok) (h : Labelled F p found) :
    otherLabels p.family found = p.labels := by
  have hmem : ∀ x, x ∈ otherLabels p.family found ↔ x.1 ∈ p.family.extras ∧ x ∈ found := by
    rintro ⟨k, v⟩
    unfold otherLabels
    rw [List.mem_filterMap]
    constructor
    · rintro ⟨name, hname, heq⟩
      rw [Option.map_eq_some_iff] at heq
      obtain ⟨w, hw, heq⟩ := heq
      cases heq
      exact ⟨(List.mem_insertionSort _).mp hname, (labelled_lookup hknown hp h).mp hw⟩
    · rintro ⟨hname, hfound⟩
      refine ⟨k, (List.mem_insertionSort _).mpr hname, ?_⟩
      rw [(labelled_lookup hknown hp h).mpr hfound]
      rfl
  have hlength : (otherLabels p.family found).length ≤ 1 := by
    unfold otherLabels
    refine (List.length_filterMap_le _ _).trans ?_
    rw [List.length_insertionSort]
    exact extras_length _ hknown
  apply eq_of_short hlength (labels_length hknown hp.labels)
  intro x
  rw [hmem]
  obtain ⟨le, hle, hperm⟩ := h
  rw [hperm.mem_iff]
  simp only [List.mem_cons, List.mem_append]
  constructor
  · rintro ⟨hextra, rfl | rfl | hx | hx⟩
    · exact absurd List.mem_cons_self (extras_vocabulary _ hknown _ hextra).2
    · exact absurd (List.mem_cons_of_mem _ List.mem_cons_self) (extras_vocabulary _ hknown _ hextra).2
    · exact hx
    · refine absurd ?_ (extras_vocabulary _ hknown _ hextra).2
      rw [(boundLabel_mem hle x hx).1]
      decide
  · exact fun hx => ⟨hp.labels.permitted x hx, .inr (.inr (.inl hx))⟩

/-- Labels that are the same in some order say the same. -/
theorem labelled_same {q : Point} (hfamily : q.family = p.family) (hpart : q.part = p.part)
    (hknown : p.family ∈ definitions) (hp : p.Ok) (hq : q.Ok) {found' : Labels} (h : Labelled F p found)
    (h' : Labelled F q found') (hperm : found.Perm found') : q.place = p.place := by
  have hknown' : q.family ∈ definitions := hfamily ▸ hknown
  have hlookup : ∀ k, labelOf found k = labelOf found' k := by
    intro k
    apply Option.ext
    intro v
    rw [labelled_lookup hknown hp h, labelled_lookup hknown' hq h', hperm.mem_iff]
  obtain ⟨hmodel, hengine⟩ := labelled_engine hknown hp h
  obtain ⟨hmodel', hengine'⟩ := labelled_engine hknown' hq h'
  rw [hlookup, hmodel'] at hmodel
  rw [hlookup, hengine'] at hengine
  have heng : q.engine = p.engine := Prod.ext (Option.some.inj hmodel) (Option.some.inj hengine)
  have hlabels : q.labels = p.labels := by
    rw [← labelled_others hknown hp h, ← labelled_others hknown' hq h', hfamily]
    unfold otherLabels
    congr 1
    funext k
    rw [hlookup]
  have hbound : q.bound.map Bound.value = p.bound.map Bound.value := by
    cases hb : p.bound with
    | none =>
        have hnone := hp.bound
        rw [hb, ← hpart, ← hq.bound] at hnone
        cases hb' : q.bound with
        | none => rfl
        | some b' =>
            rw [hb'] at hnone
            cases hnone
    | some b =>
        have hsome := hp.bound
        rw [hb, ← hpart, ← hq.bound] at hsome
        cases hb' : q.bound with
        | none =>
            rw [hb'] at hsome
            cases hsome
        | some b' =>
            obtain ⟨s, hs, hlabel⟩ := labelled_le hknown hp h hb
            obtain ⟨s', hs', hlabel'⟩ := labelled_le hknown' hq h' hb'
            rw [hlookup, hs', Option.some.injEq] at hs
            rw [hs, hlabel, Except.ok.injEq] at hlabel'
            rw [hlabel']
  unfold Point.place Point.key
  rw [heng, hfamily, hlabels, hpart, hbound]

theorem textOk_size {s : String} (h : textOk s = true) : s.utf8ByteSize ≤ maxLabelBytes := by
  unfold textOk at h
  rw [Bool.and_eq_true, Bool.and_eq_true, decide_eq_true_eq] at h
  exact h.1.2

/-- The labels of a line are within the limits of `_labels`. -/
theorem labelled_limits (hknown : p.family ∈ definitions) (hp : p.Ok) (h : Labelled F p found) :
    found.length ≤ 8 ∧ (∀ x ∈ found, isLabelName x.1 = true) ∧
      ∀ x ∈ found, x.2.utf8ByteSize ≤ maxLabelBytes := by
  obtain ⟨le, hle, hperm⟩ := h
  refine ⟨?_, ?_, ?_⟩
  · rw [hperm.length_eq]
    simp only [List.length_cons, List.length_append]
    have hlabels := labels_length hknown hp.labels
    have hbound := boundLabel_length hle
    omega
  · intro x hx
    rw [hperm.mem_iff, List.mem_cons, List.mem_cons, List.mem_append] at hx
    rcases hx with rfl | rfl | hx | hx
    · show isLabelName "model_name" = true
      decide
    · show isLabelName "engine" = true
      decide
    · exact (extras_vocabulary _ hknown _ (hp.labels.permitted x hx)).1
    · rw [(boundLabel_mem hle x hx).1]
      decide
  · intro x hx
    rw [hperm.mem_iff, List.mem_cons, List.mem_cons, List.mem_append] at hx
    rcases hx with rfl | rfl | hx | hx
    · exact textOk_size hp.model
    · exact textOk_size hp.engine
    · exact hp.labels.short x hx
    · exact (boundLabel_mem hle x hx).2

/-- The checks of the labels pass. -/
theorem engineOfLabels_labelled (hknown : p.family ∈ definitions) (hp : p.Ok) (h : Labelled F p found) :
    engineOfLabels p.family p.part found = .ok p.engine := by
  have hpermitted : found.any (fun l => !(permitted p.family p.part).contains l.1) = false := by
    rw [List.any_eq_false]
    intro x hx
    rw [Bool.not_eq_true, Bool.not_eq_false', List.contains_iff_mem]
    obtain ⟨le, hle, hperm⟩ := h
    rw [hperm.mem_iff, List.mem_cons, List.mem_cons, List.mem_append] at hx
    unfold permitted
    simp only [List.mem_append, List.mem_cons, List.not_mem_nil, or_false]
    rcases hx with rfl | rfl | hx | hx
    · exact .inl (.inl (.inl rfl))
    · exact .inl (.inl (.inr rfl))
    · exact .inl (.inr (hp.labels.permitted x hx))
    · have hbucket : p.part = .bucket := by
        have hbound := hp.bound
        cases hb : p.bound with
        | none =>
            rw [hb] at hle
            cases hle
            exact absurd hx List.not_mem_nil
        | some b =>
            rw [hb] at hbound
            exact of_decide_eq_true hbound.symm
      rw [if_pos hbucket, (boundLabel_mem hle x hx).1]
      exact .inr (List.mem_singleton_self _)
  have hle : (decide (p.part = .bucket) && (labelOf found "le").isNone) = false := by
    cases hb : p.bound with
    | none =>
        have hbound := hp.bound
        rw [hb] at hbound
        rw [← hbound]
        rfl
    | some b =>
        obtain ⟨s, hs, -⟩ := labelled_le hknown hp h hb
        rw [hs]
        exact Bool.and_false _
  have hnonempty : ∀ s : String, textOk s = true → s.isEmpty = false := by
    intro s hs
    unfold textOk at hs
    rw [Bool.and_eq_true, Bool.and_eq_true, Bool.not_eq_true'] at hs
    exact hs.1.1
  have htext : ∀ s : String, textOk s = true → Metrics.text s = .ok s := by
    intro s hs
    unfold Metrics.text
    rw [hs]
    rfl
  obtain ⟨hmodel, hengine⟩ := labelled_engine hknown hp h
  unfold engineOfLabels
  rw [hpermitted, hmodel, hengine]
  simp only [bind_eq_ok, failIf_eq_ok, exists_const, true_and]
  refine ⟨?_, _, htext _ hp.model, _, htext _ hp.engine, rfl⟩
  rw [hnonempty _ hp.model, hnonempty _ hp.engine, hle]
  rfl

end Labels

/-- **A line that writes a point can be read.** -/
theorem Renders.ok {l : LineText} {p : Point} (h : Renders F l p) (hp : p.Ok) : l.Ok := by
  obtain ⟨hname, hknown, -, -⟩ := h.vocabulary
  have hlabels := h.labels
  obtain ⟨hfew, hnames, hshort⟩ := labelled_limits hknown hp hlabels
  have hnodup := labelled_nodup hknown hp hlabels
  rw [List.length_map] at hfew
  rw [List.map_map] at hnodup
  refine ⟨hname, ?_, hnodup, hfew, ?_, h.value.isJson, ?_⟩
  · exact fun x hx => hnames _ (List.mem_map_of_mem hx)
  · exact fun x hx => hshort _ (List.mem_map_of_mem hx)
  · intro t ht
    have htime := h.time
    rw [ht] at htime
    generalize p.time = time at htime
    cases htime with
    | some hwritten => exact hwritten.isJson

/-! ## What the points leave -/

/-- A gauge or counter among the points. -/
def IsScalar (F : FloatFormat) (kind : Kind) (e : EngineKey) (key : SeriesKey) (raw : RawScalar)
    (p : Point) : Prop :=
  p.engine = e ∧ p.key = key ∧ p.family.kind = kind ∧ p.part = .value ∧
    raw = { value := p.value, sampleAt := p.time.map (seconds F) }

/-- The samples of one histogram. -/
def Point.inHistogram (e : EngineKey) (key : SeriesKey) (p : Point) : Bool :=
  p.engine = e && p.key = key && p.family.kind = .histograms && p.part ≠ .created

def Point.bucket? (p : Point) : Option (Bound × Num) := p.bound.map fun b => (b, p.value)

def Point.valueOf (part : Part) (p : Point) : Option Num := if p.part = part then some p.value else none

def rawOf (F : FloatFormat) (time : Option Num) (ps : List Point) : RawHistogram :=
  { buckets := ps.filterMap Point.bucket?, timestamps := [time.map (seconds F)]
    count := ps.findSome? (Point.valueOf .count), sum := ps.findSome? (Point.valueOf .sum) }

/-- The histogram of its samples. -/
def rawHistogram (F : FloatFormat) (ps : List Point) : Option RawHistogram :=
  match ps with
  | []      => none
  | p :: qs => some (rawOf F p.time (p :: qs))

variable (F)

/-- A group after the points. -/
structure GroupOf (ps : List Point) (e : EngineKey) (g : Group) : Prop where
  gauges : ∀ key raw, g.gauges.get? key = some raw ↔ ∃ p ∈ ps, IsScalar F .gauges e key raw p
  counters : ∀ key raw, g.counters.get? key = some raw ↔ ∃ p ∈ ps, IsScalar F .counters e key raw p
  histograms : ∀ key, g.histograms.get? key = rawHistogram F (ps.filter (Point.inHistogram e key))

/-- **What has been read after the points.** -/
structure Entered (r : Reading) (ps : List Point) : Prop where
  types : r.types = Dict.empty
  unknown : r.unknown = []
  length : r.seen.length = ps.length
  seen : ∀ k ∈ r.seen, ∃ p ∈ ps, ∃ found, k.2 = sortLabels found ∧ Labelled F p found ∧
    sample? k.1 = some (p.family, p.part)
  engines : ∀ e, (r.groups.get? e).isSome = true ↔ ∃ p ∈ ps, p.engine = e
  groups : ∀ e g, r.groups.get? e = some g → GroupOf F ps e g
  created : ∀ e key x, r.created.get? (e, key) = some x ↔
    ∃ p ∈ ps, p.engine = e ∧ p.key = key ∧ p.part = .created ∧ p.value = x

/-- What the next point needs: its place is free, its series has one time, and there is room. -/
structure Room (ps : List Point) (p : Point) : Prop where
  fresh : ∀ q ∈ ps, q.place ≠ p.place
  together : ∀ q ∈ ps, q.engine = p.engine → q.key = p.key → q.time = p.time
  series : ps.length < maxSeries
  engines : ((ps ++ [p]).map Point.engine).dedup.length ≤ maxEngineGroups
  buckets : (((ps ++ [p]).filter (Point.inHistogram p.engine p.key)).filterMap Point.bucket?).length
    ≤ maxBuckets

variable {F}

theorem entered_nil : Entered F {} [] := by
  refine ⟨rfl, rfl, rfl, fun k hk => absurd hk List.not_mem_nil, ?_, ?_, ?_⟩
  · intro e
    exact ⟨fun h => (by cases h), fun ⟨p, hp, _⟩ => absurd hp List.not_mem_nil⟩
  · intro e g hg
    cases hg
  · intro e key x
    exact ⟨fun h => (by cases h), fun ⟨p, hp, _⟩ => absurd hp List.not_mem_nil⟩

/-- A group without points of its engine. -/
theorem groupOf_new {ps : List Point} {e : EngineKey} (h : ¬ ∃ p ∈ ps, p.engine = e) : GroupOf F ps e {} := by
  refine ⟨?_, ?_, ?_⟩
  · intro key raw
    exact ⟨fun hget => (by cases hget), fun ⟨p, hp, hs⟩ => absurd ⟨p, hp, hs.1⟩ h⟩
  · intro key raw
    exact ⟨fun hget => (by cases hget), fun ⟨p, hp, hs⟩ => absurd ⟨p, hp, hs.1⟩ h⟩
  · intro key
    have hfilter : ps.filter (Point.inHistogram e key) = [] := by
      rw [List.filter_eq_nil_iff]
      intro p hp hin
      unfold Point.inHistogram at hin
      simp only [Bool.and_eq_true, decide_eq_true_eq] at hin
      exact h ⟨p, hp, hin.1.1.1⟩
    rw [hfilter]
    rfl

/-- A point of another engine leaves the group. -/
theorem GroupOf.other {ps : List Point} {e : EngineKey} {g : Group} (h : GroupOf F ps e g) {p : Point}
    (hne : p.engine ≠ e) : GroupOf F (ps ++ [p]) e g := by
  have hscalar : ∀ kind key raw, (∃ q ∈ ps ++ [p], IsScalar F kind e key raw q) ↔
      ∃ q ∈ ps, IsScalar F kind e key raw q := by
    intro kind key raw
    simp only [List.mem_append, List.mem_singleton]
    constructor
    · rintro ⟨q, hq | rfl, hs⟩
      · exact ⟨q, hq, hs⟩
      · exact absurd hs.1 hne
    · rintro ⟨q, hq, hs⟩
      exact ⟨q, .inl hq, hs⟩
  refine ⟨fun key raw => (h.gauges key raw).trans (hscalar _ _ _).symm,
    fun key raw => (h.counters key raw).trans (hscalar _ _ _).symm, ?_⟩
  intro key
  have hout : Point.inHistogram e key p = false := by
    unfold Point.inHistogram
    rw [decide_eq_false hne]
    rfl
  rw [h.histograms, List.filter_append, List.filter_cons_of_neg (by rw [hout]; exact Bool.false_ne_true),
    List.filter_nil, List.append_nil]

/-! ## One point more -/

theorem inHistogram_iff {e : EngineKey} {key : SeriesKey} {p : Point} :
    Point.inHistogram e key p = true ↔
      p.engine = e ∧ p.key = key ∧ p.family.kind = .histograms ∧ p.part ≠ .created := by
  unfold Point.inHistogram
  simp only [Bool.and_eq_true, decide_eq_true_eq, and_assoc]

theorem filter_next_in {e : EngineKey} {key : SeriesKey} {p : Point} (h : Point.inHistogram e key p = true)
    (ps : List Point) :
    (ps ++ [p]).filter (Point.inHistogram e key) = ps.filter (Point.inHistogram e key) ++ [p] := by
  rw [List.filter_append, List.filter_cons_of_pos h, List.filter_nil]

theorem filter_next_out {e : EngineKey} {key : SeriesKey} {p : Point} (h : Point.inHistogram e key p = false)
    (ps : List Point) :
    (ps ++ [p]).filter (Point.inHistogram e key) = ps.filter (Point.inHistogram e key) := by
  rw [List.filter_append, List.filter_cons_of_neg (by rw [h]; exact Bool.false_ne_true), List.filter_nil,
    List.append_nil]

/-- A scalar is entered at its place. -/
theorem scalar_next {d : Dict SeriesKey RawScalar} {kind : Kind} {ps : List Point} {p : Point}
    (h : ∀ key raw, d.get? key = some raw ↔ ∃ q ∈ ps, IsScalar F kind p.engine key raw q)
    (hkind : p.family.kind = kind) (hpart : p.part = .value) (hbound : p.bound = none)
    (hbounds : ∀ q ∈ ps, q.part = .value → q.bound = none) (hfresh : ∀ q ∈ ps, q.place ≠ p.place)
    (key : SeriesKey) (raw : RawScalar) :
    (d.set p.key { value := p.value, sampleAt := p.time.map (seconds F) }).get? key = some raw ↔
      ∃ q ∈ ps ++ [p], IsScalar F kind p.engine key raw q := by
  rw [Dict.get?_set]
  by_cases hkey : p.key = key
  · rw [if_pos hkey, Option.some.injEq]
    constructor
    · rintro rfl
      exact ⟨p, List.mem_append_right _ (List.mem_singleton_self p), rfl, hkey, hkind, hpart, rfl⟩
    · rintro ⟨q, hq, hs⟩
      rcases List.mem_append.mp hq with hq | hq
      · have hplace : q.place = p.place := by
          unfold Point.place
          rw [hs.1, hs.2.1, hkey, hs.2.2.2.1, hpart, hbounds q hq hs.2.2.2.1, hbound]
        exact absurd hplace (hfresh q hq)
      · rw [List.mem_singleton.mp hq] at hs
        exact hs.2.2.2.2.symm
  · rw [if_neg hkey, h]
    constructor
    · rintro ⟨q, hq, hs⟩
      exact ⟨q, List.mem_append_left _ hq, hs⟩
    · rintro ⟨q, hq, hs⟩
      rcases List.mem_append.mp hq with hq | hq
      · exact ⟨q, hq, hs⟩
      · rw [List.mem_singleton.mp hq] at hs
        exact absurd hs.2.1 hkey

/-- A point that is no scalar of the kind leaves the scalars. -/
theorem scalar_same {kind : Kind} {ps : List Point} {p : Point} (hne : p.family.kind ≠ kind ∨ p.part ≠ .value)
    (e : EngineKey) (key : SeriesKey) (raw : RawScalar) :
    (∃ q ∈ ps, IsScalar F kind e key raw q) ↔ ∃ q ∈ ps ++ [p], IsScalar F kind e key raw q := by
  constructor
  · rintro ⟨q, hq, hs⟩
    exact ⟨q, List.mem_append_left _ hq, hs⟩
  · rintro ⟨q, hq, hs⟩
    rcases List.mem_append.mp hq with hq | hq
    · exact ⟨q, hq, hs⟩
    · rw [List.mem_singleton.mp hq] at hs
      rcases hne with hne | hne
      · exact absurd hs.2.2.1 hne
      · exact absurd hs.2.2.2.1 hne

/-- **A creation time leaves the group** of its engine. -/
theorem GroupOf.created {ps : List Point} {p : Point} {g : Group} (h : GroupOf F ps p.engine g)
    (hpart : p.part = .created) : GroupOf F (ps ++ [p]) p.engine g := by
  have hvalue : p.part ≠ .value := by
    rw [hpart]
    decide
  refine ⟨fun key raw => (h.gauges key raw).trans (scalar_same (.inr hvalue) _ _ _),
    fun key raw => (h.counters key raw).trans (scalar_same (.inr hvalue) _ _ _), ?_⟩
  intro key
  have hout : Point.inHistogram p.engine key p = false := by
    rw [← Bool.not_eq_true, inHistogram_iff]
    exact fun hin => hin.2.2.2 hpart
  rw [h.histograms, filter_next_out hout]

/-- The checks of a gauge or counter pass. -/
theorem scalarValue_render {l : LineText} {p : Point} (h : Renders F l p) (hp : p.Ok)
    (hpart : p.part = .value) : scalarValue F p.family l.value.render = .ok p.value := by
  have hwritten := h.value
  have hcount : p.isCount = (decide (p.family.kind = .counters) || decide (p.family.unit = .requests)) := by
    unfold Point.isCount
    rw [hpart]
  have hmax : p.maximum = maxNumber := by
    unfold Point.maximum
    rw [hpart, if_neg (by decide)]
  rw [hcount, hmax] at hwritten
  unfold scalarValue
  simp only [bind_eq_ok, failIf_eq_ok, exists_const]
  refine ⟨p.value, numberOfText_render hwritten, ?_, ?_, rfl⟩
  · by_cases hunit : p.family.unit = .ratio
    · rw [decide_eq_false (not_lt.mpr (hp.ratio hpart hunit)), Bool.and_false]
    · rw [decide_eq_false hunit, Bool.false_and]
  · by_cases hunit : p.family.unit = .state
    · rcases hp.state hpart hunit with hzero | hone
      · rw [hzero, decide_eq_true hunit]
        rfl
      · rw [hone, decide_eq_true hunit]
        rfl
    · rw [decide_eq_false hunit, Bool.false_and, Bool.false_and]

/-- The time of a histogram is that of each of its samples. -/
theorem rawHistogram_next {qs : List Point} {p : Point} (h : ∀ q ∈ qs, q.time = p.time) :
    rawHistogram F (qs ++ [p]) = some (rawOf F p.time (qs ++ [p])) := by
  cases qs with
  | nil => rfl
  | cons q qs =>
      show some (rawOf F q.time (q :: (qs ++ [p]))) = _
      rw [h q List.mem_cons_self]
      rfl

/-- `item['_timestamps'].add(sample_at)` -/
theorem timestamps_next {qs : List Point} {p : Point} (h : ∀ q ∈ qs, q.time = p.time) :
    (let item := (rawHistogram F qs).getD {}
     if item.timestamps.contains (p.time.map (seconds F)) then item
     else { item with timestamps := item.timestamps ++ [p.time.map (seconds F)] }) = rawOf F p.time qs := by
  cases qs with
  | nil => rfl
  | cons q qs =>
      have hraw : rawHistogram F (q :: qs) = some (rawOf F p.time (q :: qs)) := by
        show some (rawOf F q.time (q :: qs)) = _
        rw [h q List.mem_cons_self]
      rw [hraw, Option.getD_some]
      have hcontains : (rawOf F p.time (q :: qs)).timestamps.contains (p.time.map (seconds F)) = true :=
        List.contains_iff_mem.mpr (List.mem_singleton_self _)
      dsimp only
      rw [if_pos hcontains]

theorem bound_of_part {p : Point} (hp : p.Ok) (h : p.part ≠ .bucket) : p.bound = none := by
  have hbound := hp.bound
  rw [decide_eq_false h] at hbound
  exact Option.not_isSome_iff_eq_none.mp (by rw [hbound]; exact Bool.false_ne_true)

/-- A part that is there once is new. -/
theorem valueOf_fresh {qs : List Point} {p : Point} {part : Part} (hpart : p.part = part) (hp : p.Ok)
    (hnot : part ≠ .bucket) (hqs : ∀ q ∈ qs, q.Ok ∧ q.engine = p.engine ∧ q.key = p.key ∧ q.place ≠ p.place) :
    qs.findSome? (Point.valueOf part) = none := by
  rw [List.findSome?_eq_none_iff]
  intro q hq
  obtain ⟨hok, hengine, hkey, hplace⟩ := hqs q hq
  unfold Point.valueOf
  apply if_neg
  intro hq'
  apply hplace
  unfold Point.place
  rw [hengine, hkey, hq', hpart, bound_of_part hp (hpart ▸ hnot), bound_of_part hok (hq' ▸ hnot)]

theorem valueOf_other {qs : List Point} {p : Point} {part : Part} (h : p.part ≠ part) :
    (qs ++ [p]).findSome? (Point.valueOf part) = qs.findSome? (Point.valueOf part) := by
  have hnone : [p].findSome? (Point.valueOf part) = none := by
    rw [List.findSome?_singleton]
    exact if_neg h
  rw [List.findSome?_append, hnone, Option.or_none]

theorem bucket_other {qs : List Point} {p : Point} (h : p.bound = none) :
    (qs ++ [p]).filterMap Point.bucket? = qs.filterMap Point.bucket? := by
  have hnone : Point.bucket? p = none := by
    unfold Point.bucket?
    rw [h]
    rfl
  rw [List.filterMap_append, List.filterMap_cons_none hnone, List.filterMap_nil, List.append_nil]

/-- **A part of a histogram is entered** after the other parts. -/
theorem addPart_render {l : LineText} {p : Point} (h : Renders F l p) (hp : p.Ok) {qs : List Point}
    (hpart : p.part = .bucket ∨ p.part = .count ∨ p.part = .sum)
    (hqs : ∀ q ∈ qs, q.Ok ∧ q.engine = p.engine ∧ q.key = p.key ∧ q.place ≠ p.place)
    (hbuckets : ((qs ++ [p]).filterMap Point.bucket?).length ≤ maxBuckets) :
    addPart F (rawOf F p.time qs) p.part (l.labels.map LabelText.label) l.value.render
      = .ok (rawOf F p.time (qs ++ [p])) := by
  obtain ⟨-, hknown, -, -⟩ := h.vocabulary
  have hwritten := h.value
  have hmax : p.part ≠ .created → p.maximum = maxNumber := fun hne => if_neg hne
  rcases hpart with hpart | hpart | hpart
  · have hsome := hp.bound
    rw [decide_eq_true hpart, Option.isSome_iff_exists] at hsome
    obtain ⟨b, hb⟩ := hsome
    obtain ⟨s, hs, hbound⟩ := labelled_le hknown hp h.labels hb
    have hcount : p.isCount = true := by
      unfold Point.isCount
      rw [hpart]
    rw [hcount, hmax (by rw [hpart]; decide)] at hwritten
    have hlast : (qs ++ [p]).filterMap Point.bucket? = qs.filterMap Point.bucket? ++ [(b, p.value)] := by
      have hbucket : Point.bucket? p = some (b, p.value) := by
        unfold Point.bucket?
        rw [hb]
        rfl
      rw [List.filterMap_append, List.filterMap_cons_some hbucket, List.filterMap_nil]
    have hnew : ((rawOf F p.time qs).buckets.map (fun b => b.1.value)).contains b.value = false := by
      rw [← Bool.not_eq_true, List.contains_iff_mem]
      intro hmem
      obtain ⟨⟨b', x⟩, hbucket, hvalue⟩ := List.mem_map.mp hmem
      obtain ⟨q, hq, hq'⟩ := List.mem_filterMap.mp hbucket
      obtain ⟨hok, hengine, hkey, hplace⟩ := hqs q hq
      unfold Point.bucket? at hq'
      rw [Option.map_eq_some_iff] at hq'
      obtain ⟨b'', hb'', heq⟩ := hq'
      cases heq
      have hqpart : q.part = .bucket := by
        have hqbound := hok.bound
        rw [hb''] at hqbound
        exact of_decide_eq_true hqbound.symm
      apply hplace
      unfold Point.place
      rw [hengine, hkey, hqpart, hpart, hb'', hb, Option.map_some, Option.map_some]
      dsimp only at hvalue
      rw [hvalue]
    have hroom : ((rawOf F p.time qs).buckets ++ [(b, p.value)]).length ≤ maxBuckets := by
      show (qs.filterMap Point.bucket? ++ [(b, p.value)]).length ≤ maxBuckets
      rw [← hlast]
      exact hbuckets
    rw [hpart]
    unfold addPart
    simp only [bind_eq_ok, failIf_eq_ok, exists_const]
    refine ⟨b, ?_, hnew, p.value, numberOfText_render hwritten, decide_eq_false (not_lt.mpr hroom), ?_⟩
    · rw [hs]
      exact hbound
    · unfold rawOf
      rw [hlast, valueOf_other (by rw [hpart]; decide), valueOf_other (by rw [hpart]; decide)]
  · have hcount : p.isCount = true := by
      unfold Point.isCount
      rw [hpart]
    rw [hcount, hmax (by rw [hpart]; decide)] at hwritten
    have hbound := bound_of_part hp (by rw [hpart]; decide)
    have hfresh := valueOf_fresh hpart hp (by decide) hqs
    have hlast : (qs ++ [p]).findSome? (Point.valueOf .count) = some p.value := by
      rw [List.findSome?_append, hfresh, List.findSome?_singleton]
      exact if_pos hpart
    rw [hpart]
    unfold addPart
    simp only [bind_eq_ok]
    refine ⟨p.value, numberOfText_render hwritten, ?_⟩
    unfold rawOf
    rw [hlast, bucket_other hbound, valueOf_other (by rw [hpart]; decide)]
  · have hcount : p.isCount = false := by
      unfold Point.isCount
      rw [hpart]
    rw [hcount, hmax (by rw [hpart]; decide)] at hwritten
    have hbound := bound_of_part hp (by rw [hpart]; decide)
    have hfresh := valueOf_fresh hpart hp (by decide) hqs
    have hlast : (qs ++ [p]).findSome? (Point.valueOf .sum) = some p.value := by
      rw [List.findSome?_append, hfresh, List.findSome?_singleton]
      exact if_pos hpart
    rw [hpart]
    unfold addPart
    simp only [bind_eq_ok]
    refine ⟨p.value, numberOfText_render hwritten, ?_⟩
    unfold rawOf
    rw [hlast, bucket_other hbound, valueOf_other (by rw [hpart]; decide)]

/-- The parts of a family of another kind than histograms. -/
theorem Renders.part_value {l : LineText} {p : Point} (h : Renders F l p) (hkind : p.family.kind ≠ .histograms)
    (hcreated : p.part ≠ .created) : p.part = .value := by
  obtain ⟨-, -, hparts, -⟩ := h.vocabulary
  by_contra hvalue
  exact hkind (hparts.mpr ⟨hvalue, fun hboth => hcreated hboth.1⟩)

/-- **The value of a point is entered** in the group of its engine. -/
theorem addValue_render {l : LineText} {p : Point} (h : Renders F l p) (hp : p.Ok) {ps : List Point}
    (hps : ∀ q ∈ ps, q.Ok) (hroom : Room ps p) {g : Group} (hg : GroupOf F ps p.engine g)
    (hcreated : p.part ≠ .created) :
    ∃ g', addValue F g p.family p.part p.key (l.sample F p.time) = .ok g' ∧
      GroupOf F (ps ++ [p]) p.engine g' := by
  have hbounds : ∀ q ∈ ps, q.part = .value → q.bound = none := by
    intro q hq hpart
    exact bound_of_part (hps q hq) (by rw [hpart]; decide)
  have hout : p.family.kind ≠ .histograms → ∀ key,
      rawHistogram F (ps.filter (Point.inHistogram p.engine key))
        = rawHistogram F ((ps ++ [p]).filter (Point.inHistogram p.engine key)) := by
    intro hkind key
    have hnot : Point.inHistogram p.engine key p = false := by
      rw [← Bool.not_eq_true, inHistogram_iff]
      exact fun hin => hkind hin.2.2.1
    rw [filter_next_out hnot]
  cases hkind : p.family.kind with
  | gauges =>
      have hne : p.family.kind ≠ .histograms := by
        rw [hkind]
        decide
      have hpart := h.part_value hne hcreated
      have hbound := bound_of_part hp (by rw [hpart]; decide)
      refine ⟨{ g with gauges := g.gauges.set p.key ⟨p.value, p.time.map (seconds F)⟩ }, ?_, ?_⟩
      · unfold addValue
        rw [hkind]
        show (do
          let value ← scalarValue F p.family l.value.render
          _) = _
        rw [scalarValue_render h hp hpart]
        rfl
      · refine ⟨scalar_next hg.gauges hkind hpart hbound hbounds hroom.fresh, ?_, ?_⟩
        · exact fun key raw => (hg.counters key raw).trans
            (scalar_same (.inl (by rw [hkind]; decide)) _ _ _)
        · exact fun key => (hg.histograms key).trans (hout hne key)
  | counters =>
      have hne : p.family.kind ≠ .histograms := by
        rw [hkind]
        decide
      have hpart := h.part_value hne hcreated
      have hbound := bound_of_part hp (by rw [hpart]; decide)
      refine ⟨{ g with counters := g.counters.set p.key ⟨p.value, p.time.map (seconds F)⟩ }, ?_, ?_⟩
      · unfold addValue
        rw [hkind]
        show (do
          let value ← scalarValue F p.family l.value.render
          _) = _
        rw [scalarValue_render h hp hpart]
        rfl
      · refine ⟨?_, scalar_next hg.counters hkind hpart hbound hbounds hroom.fresh, ?_⟩
        · exact fun key raw => (hg.gauges key raw).trans
            (scalar_same (.inl (by rw [hkind]; decide)) _ _ _)
        · exact fun key => (hg.histograms key).trans (hout hne key)
  | histograms =>
      have hparts : p.part = .bucket ∨ p.part = .count ∨ p.part = .sum := by
        obtain ⟨-, -, hparts, -⟩ := h.vocabulary
        have hvalue := (hparts.mp hkind).1
        cases hpart : p.part with
        | value   => exact absurd hpart hvalue
        | bucket  => exact .inl rfl
        | count   => exact .inr (.inl rfl)
        | sum     => exact .inr (.inr rfl)
        | created => exact absurd hpart hcreated
      have hin : Point.inHistogram p.engine p.key p = true := inHistogram_iff.mpr ⟨rfl, rfl, hkind, hcreated⟩
      have hqs : ∀ q ∈ ps.filter (Point.inHistogram p.engine p.key),
          q.Ok ∧ q.engine = p.engine ∧ q.key = p.key ∧ q.place ≠ p.place := by
        intro q hq
        obtain ⟨hq, hqin⟩ := List.mem_filter.mp hq
        obtain ⟨hengine, hkey, -, -⟩ := inHistogram_iff.mp hqin
        exact ⟨hps q hq, hengine, hkey, hroom.fresh q hq⟩
      have htime : ∀ q ∈ ps.filter (Point.inHistogram p.engine p.key), q.time = p.time := by
        intro q hq
        obtain ⟨-, hengine, hkey, -⟩ := hqs q hq
        exact hroom.together q (List.mem_filter.mp hq).1 hengine hkey
      have hbuckets := hroom.buckets
      rw [filter_next_in hin] at hbuckets
      have hadd := addPart_render h hp hparts hqs hbuckets
      let h' := rawOf F p.time (ps.filter (Point.inHistogram p.engine p.key) ++ [p])
      refine ⟨{ g with histograms := g.histograms.set p.key h' }, ?_, ?_⟩
      · have hitem := timestamps_next (F := F) htime
        rw [← hg.histograms] at hitem
        unfold addValue
        rw [hkind]
        show (do
          let h ← addPart F (let item := (g.histograms.get? p.key).getD {}
            if item.timestamps.contains (p.time.map (seconds F)) then item
            else { item with timestamps := item.timestamps ++ [p.time.map (seconds F)] })
            p.part (l.labels.map LabelText.label) l.value.render
          Except.ok { g with histograms := g.histograms.set p.key h }) = _
        rw [hitem, hadd]
        rfl
      · refine ⟨fun key raw => (hg.gauges key raw).trans (scalar_same (.inl (by rw [hkind]; decide)) _ _ _),
          fun key raw => (hg.counters key raw).trans (scalar_same (.inl (by rw [hkind]; decide)) _ _ _), ?_⟩
        intro key
        dsimp only
        rw [Dict.get?_set]
        by_cases hkey : p.key = key
        · rw [if_pos hkey, ← hkey, filter_next_in hin, rawHistogram_next htime]
        · have hnot : Point.inHistogram p.engine key p = false := by
            rw [← Bool.not_eq_true, inHistogram_iff]
            exact fun hin' => hkey hin'.2.1
          rw [if_neg hkey, hg.histograms, filter_next_out hnot]

/-- The group of the engine of the next point. -/
theorem Entered.groupOf {r : Reading} {ps : List Point} (h : Entered F r ps) {p : Point} (hroom : Room ps p) :
    ∃ g, groupOf r p.engine = .ok g ∧ GroupOf F ps p.engine g := by
  unfold Metrics.groupOf
  cases hget : r.groups.get? p.engine with
  | some g => exact ⟨g, rfl, h.groups _ _ hget⟩
  | none =>
      have hnew : ¬ ∃ q ∈ ps, q.engine = p.engine := by
        rw [← h.engines, hget]
        exact Bool.false_ne_true
      refine ⟨{}, ?_, groupOf_new hnew⟩
      -- The engines so far are distinct, and with the new one they are among those of all points.
      have hsubset : p.engine :: r.groups.keys ⊆ ((ps ++ [p]).map Point.engine).dedup := by
        intro e he
        rw [List.mem_dedup, List.mem_map]
        rcases List.mem_cons.mp he with rfl | he
        · exact ⟨p, List.mem_append_right _ (List.mem_singleton_self p), rfl⟩
        · rw [← Dict.get?_isSome_iff, h.engines] at he
          obtain ⟨q, hq, rfl⟩ := he
          exact ⟨q, List.mem_append_left _ hq, rfl⟩
      have hnodup : (p.engine :: r.groups.keys).Nodup := by
        refine List.nodup_cons.mpr ⟨?_, r.groups.nodup⟩
        rw [← Dict.get?_isSome_iff, hget]
        exact Bool.false_ne_true
      have hlength := (List.subperm_of_subset hnodup hsubset).length_le
      have hengines := hroom.engines
      have hsize : r.groups.keys.length = r.groups.size := List.length_map _
      rw [List.length_cons, hsize] at hlength
      simp only [bind_eq_ok, failIf_eq_ok, exists_const, and_true]
      apply decide_eq_false
      omega

/-- **The next point is entered.** -/
theorem Entered.next {r : Reading} {ps : List Point} (h : Entered F r ps) {l : LineText} {p : Point}
    (hl : Renders F l p) (hp : p.Ok) (hps : ∀ q ∈ ps, q.Ok) (hroom : Room ps p) :
    ∃ r', addSample F r p.family p.part (l.sample F p.time) = .ok r' ∧ Entered F r' (ps ++ [p]) := by
  obtain ⟨-, hknown, -, -⟩ := hl.vocabulary
  obtain ⟨g, hgroup, hg⟩ := h.groupOf hroom
  have hfound : engineOfLabels p.family p.part (l.sample F p.time).labels = .ok p.engine :=
    engineOfLabels_labelled hknown hp hl.labels
  have hothers : otherLabels p.family (l.sample F p.time).labels = p.labels :=
    labelled_others hknown hp hl.labels
  have hseen : r.seen.contains ((l.sample F p.time).name, sortLabels (l.sample F p.time).labels) = false := by
    rw [← Bool.not_eq_true, List.contains_iff_mem]
    intro hmem
    obtain ⟨q, hq, found, hsort, hlabelled, hname⟩ := h.seen _ hmem
    dsimp only at hsort hname
    have hsame : (q.family, q.part) = (p.family, p.part) := by
      have hname' : sample? l.name = some (q.family, q.part) := hname
      rw [hl.name, Option.some.injEq] at hname'
      exact hname'.symm
    cases Prod.mk.inj hsame with
    | intro hfamily hpart =>
        have hperm : (l.labels.map LabelText.label).Perm found := by
          have hl' := List.perm_insertionSort (fun a b : String × String => a.1 ≤ b.1)
            (l.labels.map LabelText.label)
          have hf' := List.perm_insertionSort (fun a b : String × String => a.1 ≤ b.1) found
          unfold sortLabels at hsort
          have hsort' : (l.labels.map LabelText.label).insertionSort (fun a b => a.1 ≤ b.1)
              = found.insertionSort (fun a b => a.1 ≤ b.1) := hsort
          rw [hsort'] at hl'
          exact hl'.symm.trans hf'
        exact hroom.fresh q hq
          (labelled_same hfamily hpart hknown hp (hps q hq) hl.labels hlabelled hperm)
  have hlength : (((l.sample F p.time).name, sortLabels (l.sample F p.time).labels) :: r.seen).length
      ≤ maxSeries := by
    have hseries := hroom.series
    rw [List.length_cons, h.length]
    omega
  have hseen' : ∀ k ∈ ((l.sample F p.time).name, sortLabels (l.sample F p.time).labels) :: r.seen,
      ∃ q ∈ ps ++ [p], ∃ found, k.2 = sortLabels found ∧ Labelled F q found ∧
        sample? k.1 = some (q.family, q.part) := by
    intro k hk
    rcases List.mem_cons.mp hk with rfl | hk
    · exact ⟨p, List.mem_append_right _ (List.mem_singleton_self p), _, rfl, hl.labels, hl.name⟩
    · obtain ⟨q, hq, hrest⟩ := h.seen k hk
      exact ⟨q, List.mem_append_left _ hq, hrest⟩
  have hengines : ∀ (g' : Group) e, ((r.groups.set p.engine g').get? e).isSome = true ↔
      ∃ q ∈ ps ++ [p], q.engine = e := by
    intro g' e
    rw [Dict.get?_set]
    by_cases he : p.engine = e
    · rw [if_pos he]
      exact ⟨fun _ => ⟨p, List.mem_append_right _ (List.mem_singleton_self p), he⟩, fun _ => rfl⟩
    · rw [if_neg he, h.engines]
      constructor
      · rintro ⟨q, hq, hqe⟩
        exact ⟨q, List.mem_append_left _ hq, hqe⟩
      · rintro ⟨q, hq, hqe⟩
        rcases List.mem_append.mp hq with hq | hq
        · exact ⟨q, hq, hqe⟩
        · rw [List.mem_singleton.mp hq] at hqe
          exact absurd hqe he
  have hgroups : ∀ g', GroupOf F (ps ++ [p]) p.engine g' → ∀ e g'',
      (r.groups.set p.engine g').get? e = some g'' → GroupOf F (ps ++ [p]) e g'' := by
    intro g' hg' e g'' hget
    rw [Dict.get?_set] at hget
    by_cases he : p.engine = e
    · rw [if_pos he] at hget
      cases hget
      exact he ▸ hg'
    · rw [if_neg he] at hget
      exact (h.groups e g'' hget).other he
  unfold addSample
  rw [hfound]
  simp only [bind_eq_ok, failIf_eq_ok, exists_const, Except.ok.injEq, exists_eq_left', hseen, true_and,
    decide_eq_false (not_lt.mpr hlength), hgroup, hothers]
  by_cases hcreated : p.part = .created
  · have hwritten := hl.value
    have hcount : p.isCount = false := by
      unfold Point.isCount
      rw [hcreated]
    have hmax : p.maximum = maxTime := if_pos hcreated
    rw [hcount, hmax] at hwritten
    have hvalue : numberOfText F false maxTime (l.sample F p.time).rawValue = .ok p.value :=
      numberOfText_render hwritten
    rw [if_pos hcreated, hvalue]
    refine ⟨_, rfl, h.types, h.unknown, ?_, hseen', hengines g, hgroups g (hg.created hcreated), ?_⟩
    · rw [List.length_cons, h.length, List.length_append, List.length_singleton]
    · intro e key x
      dsimp only
      rw [Dict.get?_set]
      by_cases hkey : (p.engine, (p.family.name, p.labels)) = (e, key)
      · rw [if_pos hkey, Option.some.injEq]
        cases hkey
        constructor
        · intro hx
          exact ⟨p, List.mem_append_right _ (List.mem_singleton_self p), rfl, rfl, hcreated, hx⟩
        · rintro ⟨q, hq, hengine, hqkey, hpart, rfl⟩
          rcases List.mem_append.mp hq with hq | hq
          · refine absurd ?_ (hroom.fresh q hq)
            have hq' := bound_of_part (hps q hq) (by rw [hpart]; decide)
            have hp' := bound_of_part hp (by rw [hcreated]; decide)
            unfold Point.place
            rw [hengine, hqkey, hpart, hcreated, hq', hp']
            rfl
          · rw [List.mem_singleton.mp hq]
      · rw [if_neg hkey, h.created]
        constructor
        · rintro ⟨q, hq, hrest⟩
          exact ⟨q, List.mem_append_left _ hq, hrest⟩
        · rintro ⟨q, hq, hengine, hqkey, hrest⟩
          rcases List.mem_append.mp hq with hq | hq
          · exact ⟨q, hq, hengine, hqkey, hrest⟩
          · rw [List.mem_singleton.mp hq] at hengine hqkey
            exact absurd (Prod.ext hengine hqkey) hkey
  · obtain ⟨g', hadd, hg'⟩ := addValue_render hl hp hps hroom hg hcreated
    have hadd' : addValue F g p.family p.part (p.family.name, p.labels) (l.sample F p.time) = .ok g' := hadd
    rw [if_neg hcreated, hadd']
    refine ⟨_, rfl, h.types, h.unknown, ?_, hseen', hengines g', hgroups g' hg', ?_⟩
    · rw [List.length_cons, h.length, List.length_append, List.length_singleton]
    · intro e key x
      rw [h.created]
      constructor
      · rintro ⟨q, hq, hrest⟩
        exact ⟨q, List.mem_append_left _ hq, hrest⟩
      · rintro ⟨q, hq, hengine, hqkey, hpart, hrest⟩
        rcases List.mem_append.mp hq with hq | hq
        · exact ⟨q, hq, hengine, hqkey, hpart, hrest⟩
        · rw [List.mem_singleton.mp hq] at hpart
          exact absurd hpart hcreated

end Metrics
end PickleInfra
