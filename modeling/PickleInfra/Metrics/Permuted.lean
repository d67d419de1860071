import PickleInfra.Metrics.Closed
import PickleInfra.Metrics.Collected
import PickleInfra.Python.Utf8
import Mathlib.Data.Prod.Lex
import Mathlib.Data.List.Lex
import Mathlib.Order.WithBot

/-!
# `Metrics.Permuted` — a snapshot does not depend on the order of the lines

Two readings of the same events are the same up to the order of their dictionaries, which `parse_snapshot` sorts
when it is done. So a payload and one whose lines are in another order are both refused, or make one snapshot.
-/

namespace PickleInfra
namespace Metrics

open Python Python.Str

/-! ## Readings up to order -/

structure RawHistogram.Same (h h' : RawHistogram) : Prop where
  buckets : h.buckets.Perm h'.buckets
  bounds : (h.buckets.map fun b => b.1.value).Nodup
  timestamps : h.timestamps.Perm h'.timestamps
  count : h.count = h'.count
  sum : h.sum = h'.sum

structure Group.Same (g g' : Group) : Prop where
  gauges : ∀ key, g.gauges.get? key = g'.gauges.get? key
  counters : ∀ key, g.counters.get? key = g'.counters.get? key
  histograms : ∀ key, Option.Rel RawHistogram.Same (g.histograms.get? key) (g'.histograms.get? key)

structure Reading.Same (r r' : Reading) : Prop where
  groups : ∀ engine, Option.Rel Group.Same (r.groups.get? engine) (r'.groups.get? engine)
  types : ∀ family, r.types.get? family = r'.types.get? family
  created : ∀ key, r.created.get? key = r'.created.get? key
  unknown : r.unknown.Perm r'.unknown
  seen : r.seen.Perm r'.seen

theorem option_rel {α : Type} {R : α → α → Prop} {o o' : Option α} (h : o.isSome = true ↔ o'.isSome = true)
    (hrel : ∀ a a', o = some a → o' = some a' → R a a') : Option.Rel R o o' := by
  cases o with
  | none =>
      cases o' with
      | none => exact .none
      | some a' => exact absurd (h.mpr rfl) Bool.false_ne_true
  | some a =>
      cases o' with
      | none => exact absurd (h.mp rfl) Bool.false_ne_true
      | some a' => exact .some (hrel a a' rfl rfl)

section Collected

variable {es : List Event} {engine : EngineKey} {series : SeriesKey}

theorem HistogramCollected.same {h h' : RawHistogram} (hh : HistogramCollected es engine series h)
    (hh' : HistogramCollected es engine series h') : h.Same h' where
  buckets := hh.buckets.trans hh'.buckets.symm
  bounds := hh.bounds
  timestamps := (List.perm_ext_iff_of_nodup hh.times hh'.times).mpr fun t => by
    rw [hh.timestamps, hh'.timestamps]
  count := Option.ext fun x => by rw [hh.count, hh'.count]
  sum := Option.ext fun x => by rw [hh.sum, hh'.sum]

theorem GroupCollected.same {g g' : Group} (hg : GroupCollected es engine g) (hg' : GroupCollected es engine g') :
    g.Same g' where
  gauges series := Option.ext fun v => by rw [hg.gauges series v, hg'.gauges series v]
  counters series := Option.ext fun v => by rw [hg.counters series v, hg'.counters series v]
  histograms series := by
    apply option_rel
    · rw [hg.present, hg'.present]
    · intro h h' hh hh'
      have hcollected := hg.histograms series
      have hcollected' := hg'.histograms series
      rw [hh] at hcollected
      rw [hh'] at hcollected'
      exact hcollected.same hcollected'

/-- **Readings of the same events are the same** up to order. -/
theorem Collected.same {r r' : Reading} (h : Collected es r) (h' : Collected es r') : r.Same r' where
  groups engine := by
    apply option_rel
    · rw [h.engines, h'.engines]
    · intro g g' hg hg'
      have hcollected := h.groups engine
      have hcollected' := h'.groups engine
      rw [hg] at hcollected
      rw [hg'] at hcollected'
      exact hcollected.same hcollected'
  types family := Option.ext fun declared => by rw [h.types, h'.types]
  created key := Option.ext fun x => by rw [h.created, h'.created]
  unknown := (List.perm_ext_iff_of_nodup h.names h'.names).mpr fun name => by rw [h.unknown, h'.unknown]
  seen := h.seen.trans h'.seen.symm

end Collected

/-! ## Orders -/

theorem engineKey_le (a b : EngineKey) : EngineKey.le a b = true ↔ toLex a ≤ toLex b := by
  unfold EngineKey.le
  rw [Prod.Lex.toLex_le_toLex]
  simp

theorem labelLe_iff (a b : String × String) : labelLe a b = true ↔ toLex a ≤ toLex b := by
  unfold labelLe
  rw [Prod.Lex.toLex_le_toLex]
  simp

theorem labelsLe_iff (a b : Labels) : labelsLe a b = true ↔ a.map toLex ≤ b.map toLex := by
  rw [← not_lt]
  induction a generalizing b with
  | nil => simp [labelsLe]
  | cons x xs ih =>
      cases b with
      | nil => simp [labelsLe]
      | cons y ys =>
          rw [labelsLe, List.map_cons, List.map_cons, List.cons_lt_cons_iff, not_or]
          by_cases hxy : x = y
          · subst hxy
            simp [ih]
          · have hne : toLex y ≠ toLex x := fun h => hxy (toLex_inj.mp h).symm
            rw [if_neg hxy, labelLe_iff, not_lt]
            exact ⟨fun hle => ⟨hle, fun heq => hne heq.1⟩, fun h => h.1⟩

/-- The key by which series are sorted. -/
def SeriesKey.lex (key : SeriesKey) : String ×ₗ List (String ×ₗ String) := toLex (key.1, key.2.map toLex)

theorem SeriesKey.lex_injective : Function.Injective SeriesKey.lex := by
  rintro ⟨family, labels⟩ ⟨family', labels'⟩ h
  obtain ⟨hfamily, hlabels⟩ := Prod.mk.inj (toLex_inj.mp h)
  exact Prod.ext hfamily ((List.map_injective_iff.mpr toLex.injective) hlabels)

theorem seriesKey_le (a b : SeriesKey) : SeriesKey.le a b = true ↔ a.lex ≤ b.lex := by
  unfold SeriesKey.le SeriesKey.lex
  rw [Prod.Lex.toLex_le_toLex]
  simp [labelsLe_iff]

/-- The value by which bounds are sorted. -/
def Bound.top (b : Bound) : WithTop ℚ := b.value

theorem boundLe_iff (a b : Bound) : boundLe a b = true ↔ a.top ≤ b.top := by
  cases b with
  | inf =>
      cases a with
      | num x => exact ⟨fun _ => le_top, fun _ => rfl⟩
      | inf => exact ⟨fun _ => le_rfl, fun _ => rfl⟩
  | num y =>
      cases a with
      | num x =>
          show decide (x.value ≤ y.value) = true ↔ ((x.value : ℚ) : WithTop ℚ) ≤ (y.value : ℚ)
          rw [decide_eq_true_eq, WithTop.coe_le_coe]
      | inf => exact ⟨fun h => (by cases h), fun h => absurd h (WithTop.not_top_le_coe _)⟩

/-! ## The end of the reading -/

section Finish

variable {r r' : Reading}

theorem finishHead_same (hr : r.Same r') (kind : Kind) (engine : EngineKey) (key : SeriesKey) (t : Option Num) :
    finishHead r kind engine key t = finishHead r' kind engine key t := by
  unfold finishHead
  simp only [hr.types, hr.created]

theorem finishScalar_same (hr : r.Same r') (kind : Kind) (engine : EngineKey) (entry : SeriesKey × RawScalar) :
    finishScalar r kind engine entry = finishScalar r' kind engine entry := by
  unfold finishScalar
  rw [finishHead_same hr]

theorem sortedBuckets_same {h h' : RawHistogram} (hh : h.Same h') :
    h.buckets.insertionSort (fun a b => boundLe a.1 b.1 = true) =
      h'.buckets.insertionSort (fun a b => boundLe a.1 b.1 = true) :=
  insertionSort_perm (fun b => b.1.top) (fun a b => boundLe_iff a.1 b.1) hh.buckets hh.bounds

variable (F : FloatFormat)

theorem finishHistogram_same (hr : r.Same r') (engine : EngineKey) (key : SeriesKey) {h h' : RawHistogram}
    (hh : h.Same h') : finishHistogram F r engine (key, h) = finishHistogram F r' engine (key, h') := by
  have htimes := hh.timestamps
  unfold finishHistogram
  dsimp only
  rw [finishHead_same hr, sortedBuckets_same hh, hh.count, hh.sum]
  generalize h.timestamps = ts at htimes
  generalize h'.timestamps = ts' at htimes
  match ts, ts', htimes with
  | [], [], _ => rfl
  | [t], [t'], hperm =>
      obtain rfl := List.singleton_perm_singleton.mp hperm
      rfl
  | _ :: _ :: _, _ :: _ :: _, _ => rfl
  | [], _ :: _, hperm => exact absurd hperm.length_eq (by simp)
  | _ :: _, [], hperm => exact absurd hperm.length_eq (by simp)
  | [_], _ :: _ :: _, hperm => exact absurd hperm.length_eq (by simp)
  | _ :: _ :: _, [_], hperm => exact absurd hperm.length_eq (by simp)

theorem sortedEntries_same {V : Type} {d d' : Dict SeriesKey V} (h : ∀ key, d.get? key = d'.get? key) :
    sortedEntries d = sortedEntries d' :=
  sorted_entries_eq SeriesKey.lex SeriesKey.lex_injective seriesKey_le h

/-- **A group is finished to the same engine.** -/
theorem finishGroup_same (hr : r.Same r') (engine : EngineKey) {g g' : Group} (hg : g.Same g') :
    finishGroup F r (engine, g) = finishGroup F r' (engine, g') := by
  have hscalars : ∀ kind (xs : List (SeriesKey × RawScalar)),
      xs.mapM (finishScalar r kind engine) = xs.mapM (finishScalar r' kind engine) :=
    fun kind xs => mapM_congr fun x _ => finishScalar_same hr kind engine x
  have hhistograms : (sortedEntries g.histograms).mapM (finishHistogram F r engine) =
      (sortedEntries g'.histograms).mapM (finishHistogram F r' engine) := by
    apply mapM_forall₂ (sorted_entries SeriesKey.lex SeriesKey.lex_injective seriesKey_le hg.histograms)
    rintro ⟨key, h⟩ ⟨key', h'⟩ ⟨hkey, hh⟩
    obtain rfl : key = key' := hkey
    exact finishHistogram_same F hr engine key hh
  unfold finishGroup
  dsimp only
  rw [sortedEntries_same hg.gauges, sortedEntries_same hg.counters, hhistograms, hscalars, hscalars]

theorem finishGroups_same (hr : r.Same r') : finishGroups F r = finishGroups F r' := by
  have hengines : (r.groups.entries.insertionSort fun a b => EngineKey.le a.1 b.1 = true).mapM (finishGroup F r) =
      (r'.groups.entries.insertionSort fun a b => EngineKey.le a.1 b.1 = true).mapM (finishGroup F r') := by
    apply mapM_forall₂ (sorted_entries (fun key : EngineKey => toLex key) toLex.injective engineKey_le hr.groups)
    rintro ⟨engine, g⟩ ⟨engine', g'⟩ ⟨hengine, hg⟩
    obtain rfl : engine = engine' := hengine
    exact finishGroup_same F hr engine hg
  unfold finishGroups
  dsimp only
  rw [hengines]

theorem createdTypes_same (hr : r.Same r') : createdTypes r = createdTypes r' := by
  unfold createdTypes
  simp only [hr.types]
  rw [hr.seen.any_eq]

end Finish

/-! ## Lines in another order -/

/-- A call that raises, and one that raises too, or returns the same. -/
def Agree {α : Type} (x y : Checked α) : Prop := (∃ a, x = .ok a ∧ y = .ok a) ∨ ∃ e e', x = .error e ∧ y = .error e'

/-- It is enough that what one returns is returned by the other. -/
theorem agree_of {α : Type} {x y : Checked α} (hxy : ∀ a, x = .ok a → y = .ok a) (hyx : ∀ a, y = .ok a → x = .ok a) :
    Agree x y := by
  cases x with
  | ok a => exact .inl ⟨a, rfl, hxy a rfl⟩
  | error e =>
      cases y with
      | ok a => cases hyx a rfl
      | error e' => exact .inr ⟨e, e', rfl, rfl⟩

variable {F : FloatFormat}

/-- **The lines in another order** are read to the same, up to the order of the dictionaries. -/
theorem addLines_perm {lines lines' : List (List Char)} (hperm : lines.Perm lines') {r : Reading}
    (h : addLines F {} lines = .ok r) : ∃ r', addLines F {} lines' = .ok r' ∧ r.Same r' := by
  obtain ⟨events, hevents, hrun⟩ := addLines_eq_ok.mp h
  have hread : ∀ event ∈ events, event.Read := by
    intro event hevent
    obtain ⟨line, -, hline⟩ := forall₂_right (mapM_eq_ok.mp hevents) event hevent
    exact readLine_read hline
  obtain ⟨events', hevents', hperm'⟩ := List.perm_comp_forall₂ hperm.symm (mapM_eq_ok.mp hevents)
  obtain ⟨r', hrun', hcollected, hcollected'⟩ := collects.foldlM_perm hread hperm'.symm collected_nil hrun
  exact ⟨r', addLines_eq_ok.mpr ⟨events', mapM_eq_ok.mpr hevents', hrun'⟩, hcollected.same hcollected'⟩

theorem sortedNames_perm {names names' : List String} (h : names.Perm names') :
    names.insertionSort (· ≤ ·) = names'.insertionSort (· ≤ ·) := by
  have hperm := (List.perm_insertionSort (· ≤ ·) names).trans
    (h.trans (List.perm_insertionSort (· ≤ ·) names').symm)
  exact hperm.eq_of_pairwise' (List.pairwise_insertionSort _ names) (List.pairwise_insertionSort _ names')

theorem readText_perm_ok {texts texts' : List (List Char)} (hperm : texts.Perm texts')
    {read : List Engine × List String}
    (h : readText F (String.ofList (Utf8.closed '\n' texts)) = .ok read) :
    readText F (String.ofList (Utf8.closed '\n' texts')) = .ok read := by
  have hlines : (splitlines (Utf8.closed '\n' texts)).Perm (splitlines (Utf8.closed '\n' texts')) := by
    unfold Utf8.closed
    rw [splitlines_feeds, splitlines_feeds]
    exact hperm.flatMap_right _
  unfold readText at h ⊢
  simp only [String.toList_ofList, bind_eq_ok, failIf_eq_ok, exists_const] at h ⊢
  obtain ⟨hfew, r, hr, created, hcreated, engines, hengines, h⟩ := h
  obtain ⟨r', hr', hsame⟩ := addLines_perm hlines hr
  rw [hlines.length_eq] at hfew
  refine ⟨hfew, r', hr', created, ?_, engines, ?_, ?_⟩
  · rw [← createdTypes_same hsame, hcreated]
  · rw [← finishGroups_same F hsame, hengines]
  · rw [← sortedNames_perm hsame.unknown, h]

/-- A payload that is a sequence of lines, each of them closed by a line feed, and its lines in another order. -/
inductive Permuted : Payload → Payload → Prop where
  | str {lines lines' : List (List Char)} (h : lines.Perm lines') :
      Permuted (.str (String.ofList (Utf8.closed '\n' lines))) (.str (String.ofList (Utf8.closed '\n' lines')))
  | surrogates : Permuted .surrogates .surrogates
  | bytes {lines lines' : List (List UInt8)} (h : lines.Perm lines') :
      Permuted (.bytes (Utf8.closed 10 lines).toByteArray) (.bytes (Utf8.closed 10 lines').toByteArray)

theorem Permuted.symm {p p' : Payload} (h : Permuted p p') : Permuted p' p := by
  cases h with
  | str h => exact .str h.symm
  | surrogates => exact .surrogates
  | bytes h => exact .bytes h.symm

theorem closed_perm {α : Type} {mark : α} {xs ys : List (List α)} (h : xs.Perm ys) :
    (Utf8.closed mark xs).Perm (Utf8.closed mark ys) := h.flatMap_right _

theorem utf8ByteSize_perm {cs cs' : List Char} (h : cs.Perm cs') :
    (String.ofList cs).utf8ByteSize = (String.ofList cs').utf8ByteSize := by
  have hsize : ∀ cs : List Char, (String.ofList cs).utf8ByteSize = (Utf8.encode cs).length := by
    intro cs
    rw [← String.size_toByteArray, String.toByteArray_ofList]
    exact List.size_toByteArray
  rw [hsize, hsize]
  exact (h.flatMap_right _).length_eq

/-- The texts of such payloads. -/
theorem Permuted.decode {p p' : Payload} (h : Permuted p p') {text : String} (hp : p.decode = .ok text) :
    ∃ lines lines', lines.Perm lines' ∧ text = String.ofList (Utf8.closed '\n' lines) ∧
      p'.decode = .ok (String.ofList (Utf8.closed '\n' lines')) := by
  cases h with
  | @str lines lines' h =>
      unfold Payload.decode at hp ⊢
      simp only [bind_eq_ok, failIf_eq_ok, exists_const] at hp ⊢
      obtain ⟨hsize, hp⟩ := hp
      refine ⟨lines, lines', h, (Except.ok.inj hp).symm, ?_, rfl⟩
      rw [← utf8ByteSize_perm (closed_perm h), hsize]
  | surrogates => cases hp
  | @bytes lines lines' h =>
      unfold Payload.decode at hp ⊢
      simp only [bind_eq_ok, failIf_eq_ok, exists_const] at hp ⊢
      obtain ⟨hsize, hp⟩ := hp
      rw [List.size_toByteArray, (closed_perm h).length_eq] at hsize
      rcases Utf8.fromUTF8?_perm h with ⟨texts, texts', htexts, hfirst, hsecond⟩ | ⟨hfirst, -⟩
      · rw [hfirst] at hp
        refine ⟨texts, texts', htexts, (Except.ok.inj hp).symm, ?_, ?_⟩
        · rw [List.size_toByteArray, hsize]
        · rw [hsecond]
      · rw [hfirst] at hp
        cases hp

theorem Permuted.not_absent {p p' : Payload} (h : Permuted p p') : p.isNone = false := by
  cases h <;> rfl

theorem parseSnapshot_perm_ok (M : Machine) {p p' : Payload} (h : Permuted p p') {observedAt identity sourceState : Json}
    {s : Snapshot} (hparse : parseSnapshot M p observedAt identity sourceState = .ok s) :
    parseSnapshot M p' observedAt identity sourceState = .ok s := by
  unfold parseSnapshot at hparse ⊢
  split
  · next hnone =>
    rw [hnone] at hparse
    cases hparse
  · next state hstate =>
    rw [hstate] at hparse
    simp only [bind_eq_ok] at hparse ⊢
    obtain ⟨at', hat, id, hid, hparse⟩ := hparse
    refine ⟨at', hat, id, hid, ?_⟩
    split at hparse
    · -- no payload may come with a source that was not observed
      simp only [bind_eq_ok, failIf_eq_ok, exists_const, h.not_absent, Bool.not_false, Bool.true_eq_false, false_and] at hparse
    · next hobserved =>
      rw [if_neg hobserved]
      simp only [bind_eq_ok] at hparse ⊢
      obtain ⟨text, htext, read, hread, hparse⟩ := hparse
      obtain ⟨lines, lines', hperm, rfl, htext'⟩ := h.decode htext
      exact ⟨_, htext', read, readText_perm_ok hperm hread, hparse⟩

/-- **The order of the lines does not matter**: for a payload of lines that are each closed by a line feed, and for
    any permutation of them, both calls raise, or both return the same snapshot. -/
theorem parse_permuted (M : Machine) {p p' : Payload} (h : Permuted p p') (observedAt identity sourceState : Json) :
    Agree (parseSnapshot M p observedAt identity sourceState)
      (parseSnapshot M p' observedAt identity sourceState) :=
  agree_of (fun _ hs => parseSnapshot_perm_ok M h hs) (fun _ hs => parseSnapshot_perm_ok M h.symm hs)

/-- The lines of the text of one gauge. -/
def oneGaugeType : List Char := "# TYPE vllm:num_requests_running gauge".toList

def oneGaugeSample : List Char := "vllm:num_requests_running\x7bmodel_name=\"m\",engine=\"0\"\x7d 2 5000".toList

/-- The type of the gauge may be declared after its sample. -/
theorem parse_permuted_gauge :
    parseSnapshot wholeMachine (.str (String.ofList (Utf8.closed '\n' [oneGaugeSample, oneGaugeType]))) (.int 100)
      (.dict [("sourceId", .str "s")]) (.str "OBSERVED") = .ok oneGauge := by
  have hswap : [oneGaugeType, oneGaugeSample].Perm [oneGaugeSample, oneGaugeType] := .swap _ _ _
  have htext : String.ofList (Utf8.closed '\n' [oneGaugeType, oneGaugeSample]) = oneGaugeText := by decide +kernel
  have hfirst := oneGauge_parsed
  rw [← htext] at hfirst
  rcases parse_permuted wholeMachine (.str hswap) (.int 100) (.dict [("sourceId", .str "s")]) (.str "OBSERVED")
    with ⟨s, hs, hs'⟩ | ⟨e, _, he, -⟩
  · rw [hfirst] at hs
    rw [hs', ← hs]
  · rw [hfirst] at he
    cases he

end Metrics
end PickleInfra
