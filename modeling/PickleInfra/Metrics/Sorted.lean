import PickleInfra.Metrics.Interval
import PickleInfra.Python.Equality

/-!
# `Metrics.Sorted` — a snapshot is read the same after its keys were sorted

A document that was written with `sort_keys=True` comes back with the keys of every object in order. Nothing that
`_validate_snapshot` reads depends on that order: fields are read by name, lists keep their order, and labels are sorted
when they are read.
-/

namespace PickleInfra
namespace Metrics

open Python Json

/-! ## Values -/

theorem metricsKeys_sorted (keys : List String) (v : Json) : hasKeys keys v.sorted = hasKeys keys v := by
  rw [Bool.eq_iff_iff]
  exact hasKeys_sorted

theorem numOfJson_sorted (v : Json) : Num.ofJson v.sorted = Num.ofJson v := by
  cases v <;> rw [sorted] <;> rfl

theorem numOf_sorted (v : Json) : numOf v.sorted = numOf v := by
  cases v <;> rw [sorted] <;> rfl

theorem textOf_sorted (v : Json) : textOf v.sorted = textOf v := by
  unfold textOf
  rw [asStr?_sorted]

theorem optionalText_sorted (v : Json) : optionalText v.sorted = optionalText v := by
  unfold optionalText
  rw [isNull_sorted, textOf_sorted]

theorem isNumberType_sorted (v : Json) : isNumberType v.sorted = isNumberType v := by
  cases v <;> rw [sorted] <;> rfl

theorem isInt_sorted (v : Json) : isInt v.sorted = isInt v := by
  cases v <;> rw [sorted] <;> rfl

theorem isBoundType_sorted (v : Json) : isBoundType v.sorted = isBoundType v := by
  unfold isBoundType
  rw [isStr_sorted, isNumberType_sorted]

theorem boundOf_sorted (v : Json) : boundOf v.sorted = boundOf v := by
  cases v <;> rw [sorted] <;> rfl

theorem snapshotList_sorted (v : Json) : snapshotList v.sorted = (snapshotList v).map (List.map sorted) := by
  cases v with
  | list xs =>
      rw [sorted_list]
      rfl
  | null | bool | int | float | str | dict => rw [sorted]; rfl

theorem nameList_sorted (maximum : Nat) (ok : String → Bool) (v : Json) :
    nameList maximum ok v.sorted = nameList maximum ok v := by
  cases v with
  | list xs =>
      have hfilter : (xs.map sorted).filterMap asStr? = xs.filterMap asStr? := by
        rw [List.filterMap_map]
        exact List.filterMap_congr fun x _ => asStr?_sorted x
      have hall : ((xs.map sorted).all fun x => x.asStr?.any ok) = xs.all fun x => x.asStr?.any ok := by
        rw [List.all_map]
        exact List.all_congr rfl fun x => by rw [Function.comp_apply, asStr?_sorted]
      rw [sorted_list]
      unfold nameList
      show (if (xs.map sorted).length ≤ maximum ∧ _ ∧ _ then _ else _) = _
      rw [List.length_map, hfilter, hall]
      rfl
  | null | bool | int | float | str => rw [sorted]
  | dict ms => rw [sorted_dict]; rfl

theorem identityOf_sorted (v : Json) : identityOf v.sorted = identityOf v := by
  unfold identityOf
  simp only [getOrNull_sorted, textOf_sorted, optionalText_sorted]
  cases v with
  | dict ms =>
      rw [sorted_dict]
      dsimp only
      rw [(perm_sortMembers _).all_eq, List.all_map]
      rfl
  | null | bool | int | float | str => rw [sorted]
  | list xs => rw [sorted_list]

theorem stampOf_sorted (F : FloatFormat) (v : Json) : stampOf F v.sorted = stampOf F v := by
  unfold stampOf
  rw [isNull_sorted, numOf_sorted]

/-! ## Series -/

/-- Labels are sorted as they are read. -/
theorem labelsOf_sorted {T : FloatText} (family : Definition) {v : Json} (hv : JsonText.Valid T v) :
    labelsOf family v.sorted = labelsOf family v := by
  cases v with
  | dict ms =>
      have hnodup := (JsonText.valid_dict.mp hv).1
      have hperm := perm_sortMembers (ms.map fun m => (m.1, m.2.sorted))
      have hlabels : (ms.map fun m => (m.1, m.2.sorted)).filterMap (fun kv => kv.2.asStr?.map fun s => (kv.1, s))
          = ms.filterMap fun kv => kv.2.asStr?.map fun s => (kv.1, s) := by
        rw [List.filterMap_map]
        exact List.filterMap_congr fun m _ => by rw [Function.comp_apply, asStr?_sorted]
      have hsorted : sortLabels ((sortMembers (ms.map fun m => (m.1, m.2.sorted))).filterMap
          fun kv => kv.2.asStr?.map fun s => (kv.1, s))
            = sortLabels (ms.filterMap fun kv => kv.2.asStr?.map fun s => (kv.1, s)) := by
        rw [← hlabels]
        have hfilter := hperm.filterMap fun kv => kv.2.asStr?.map fun s => (kv.1, s)
        unfold sortLabels
        refine List.Perm.eq_of_pairwise ?_ (List.pairwise_insertionSort _ _) (List.pairwise_insertionSort _ _)
          ((List.perm_insertionSort _ _).trans (hfilter.trans (List.perm_insertionSort _ _).symm))
        -- two labels of one name come from one member
        intro x y hx hy hxy hyx
        have hmember : ∀ z ∈ (ms.map fun m => (m.1, m.2.sorted)).filterMap fun kv => kv.2.asStr?.map fun s => (kv.1, s),
            ∃ m ∈ ms, z.1 = m.1 ∧ m.2.asStr? = some z.2 := by
          intro z hz
          rw [hlabels] at hz
          obtain ⟨m, hm, hz⟩ := List.mem_filterMap.mp hz
          obtain ⟨t, ht, rfl⟩ := Option.map_eq_some_iff.mp hz
          exact ⟨m, hm, rfl, ht⟩
        obtain ⟨m, hm, hname, htext⟩ := hmember x (hfilter.mem_iff.mp ((List.perm_insertionSort _ _).mem_iff.mp hx))
        obtain ⟨m', hm', hname', htext'⟩ := hmember y ((List.perm_insertionSort _ _).mem_iff.mp hy)
        have hsame : m = m' := List.inj_on_of_nodup_map hnodup hm hm'
          (hname.symm.trans ((le_antisymm hxy hyx).trans hname'))
        subst hsame
        exact Prod.ext (le_antisymm hxy hyx) (Option.some.inj (htext.symm.trans htext'))
      rw [sorted_dict]
      unfold labelsOf
      dsimp only
      rw [hperm.all_eq, hperm.all_eq, List.all_map, List.all_map, hsorted]
      simp only [Function.comp_def, asStr?_sorted]
  | null | bool | int | float | str => rw [sorted]
  | list xs => rw [sorted_list]; rfl

section Series

variable {T : FloatText} {F : FloatFormat}

theorem familyOf_sorted (kind : Kind) {v : Json} (hv : JsonText.Valid T v) :
    familyOf kind v.sorted = familyOf kind v := by
  unfold familyOf
  rw [metricsKeys_sorted]
  simp only [getOrNull_sorted, asStr?_sorted, labelsOf_sorted _ (valid_getOrNull hv "labels")]
  cases v.getOrNull "typeDeclared" with
  | list xs => rw [sorted_list]
  | dict ms => rw [sorted_dict]
  | null | bool | int | float | str => rw [sorted]

theorem headOf_sorted (family : Definition) (labels : Labels) (typeDeclared : Bool) (v : Json) :
    headOf F family labels typeDeclared v.sorted = headOf F family labels typeDeclared v := by
  unfold headOf
  simp only [getOrNull_sorted, isStr_sorted, stampOf_sorted]

theorem scalarOf_sorted (head : Head) (v : Json) : scalarOf F head v.sorted = scalarOf F head v := by
  unfold scalarOf
  rw [getOrNull_sorted, numOf_sorted]

theorem mapM_sorted {α : Type} {f : Json → Checked α} (hf : ∀ v, f v.sorted = f v) (xs : List Json) :
    (xs.map sorted).mapM f = xs.mapM f := by
  induction xs with
  | nil => rfl
  | cons x xs ih => rw [List.map_cons, List.mapM_cons, List.mapM_cons, hf, ih]

theorem all_sorted {p : Json → Bool} (hp : ∀ v, p v.sorted = p v) (xs : List Json) :
    (xs.map sorted).all p = xs.all p := by
  rw [List.all_map]
  exact List.all_congr rfl fun x => hp x

theorem valid_items {v : Json} (hv : JsonText.Valid T v) {k : String} {xs : List Json}
    (h : snapshotList (v.getOrNull k) = .ok xs) : ∀ x ∈ xs, JsonText.Valid T x := by
  have hlist := valid_getOrNull hv k
  cases hget : v.getOrNull k with
  | list ys =>
      rw [hget] at h hlist
      cases h
      exact JsonText.valid_list.mp hlist
  | null | bool | int | float | str | dict =>
      rw [hget] at h
      cases h

/-- The lists of an object are read the same, whatever goes on with their elements. -/
theorem snapshotList_bind {α : Type} {v : Json} (hv : JsonText.Valid T v) (k : String) {f g : List Json → Checked α}
    (hfg : ∀ xs, (∀ x ∈ xs, JsonText.Valid T x) → f (xs.map sorted) = g xs) :
    (snapshotList (v.sorted.getOrNull k) >>= f) = snapshotList (v.getOrNull k) >>= g := by
  rw [getOrNull_sorted, snapshotList_sorted]
  cases hlist : snapshotList (v.getOrNull k) with
  | error e => rfl
  | ok xs => exact hfg xs (valid_items hv hlist)

theorem histogramOf_sorted (head : Head) {v : Json} (hv : JsonText.Valid T v) :
    histogramOf F head v.sorted = histogramOf F head v := by
  unfold histogramOf
  refine snapshotList_bind hv "bounds" fun bounds _ => ?_
  refine snapshotList_bind hv "counts" fun counts _ => ?_
  rw [all_sorted isBoundType_sorted, all_sorted isInt_sorted, mapM_sorted boundOf_sorted, mapM_sorted numOf_sorted]
  simp only [getOrNull_sorted, isInt_sorted, isNumberType_sorted, numOf_sorted]

variable {S : Type} {kind : Kind} {rest : Head → Json → Checked S}

theorem seriesList_sorted (hrest : ∀ head v, JsonText.Valid T v → rest head v.sorted = rest head v)
    (engine : EngineKey) (seen : Seen)
    {items : List Json} (hitems : ∀ item ∈ items, JsonText.Valid T item) :
    seriesList F kind rest engine seen (items.map sorted) = seriesList F kind rest engine seen items := by
  induction items generalizing seen with
  | nil => rfl
  | cons item items ih =>
      obtain ⟨hitem, hitems⟩ := List.forall_mem_cons.mp hitems
      have hseries : seriesOf F kind rest engine seen item.sorted = seriesOf F kind rest engine seen item := by
        unfold seriesOf
        simp only [familyOf_sorted kind hitem, headOf_sorted, hrest _ item hitem]
      rw [List.map_cons, seriesList, seriesList, hseries]
      simp only [ih _ hitems]

theorem engineOf_sorted (engines : List EngineKey) (seen : Seen) {v : Json} (hv : JsonText.Valid T v) :
    engineOf F engines seen v.sorted = engineOf F engines seen v := by
  unfold engineOf
  rw [metricsKeys_sorted, getOrNull_sorted "modelName", getOrNull_sorted "engineId",
    getOrNull_sorted "notReportedMetricNames", textOf_sorted, textOf_sorted, nameList_sorted]
  refine bind_congr fun _ => bind_congr fun modelName => bind_congr fun engineId => bind_congr fun _ =>
    bind_congr fun notReported => ?_
  refine snapshotList_bind hv "gauges" fun gauges hgauges => ?_
  rw [seriesList_sorted (fun head v _ => scalarOf_sorted head v) _ _ hgauges]
  refine bind_congr fun gauges => ?_
  refine snapshotList_bind hv "counters" fun counters hcounters => ?_
  rw [seriesList_sorted (fun head v _ => scalarOf_sorted head v) _ _ hcounters]
  refine bind_congr fun counters => ?_
  refine snapshotList_bind hv "histograms" fun histograms hhistograms => ?_
  rw [seriesList_sorted (fun head _ hv => histogramOf_sorted head hv) _ _ hhistograms]

theorem engineList_sorted (engines : List EngineKey) (seen : Seen) {groups : List Json}
    (hgroups : ∀ group ∈ groups, JsonText.Valid T group) :
    engineList F engines seen (groups.map sorted) = engineList F engines seen groups := by
  induction groups generalizing engines seen with
  | nil => rfl
  | cons group groups ih =>
      obtain ⟨hgroup, hgroups⟩ := List.forall_mem_cons.mp hgroups
      rw [List.map_cons, engineList, engineList, engineOf_sorted engines seen hgroup]
      simp only [ih _ _ hgroups]

/-- **A snapshot is read the same after its keys were sorted.** -/
theorem validateSnapshot_sorted {v : Json} (hv : JsonText.Valid T v) :
    validateSnapshot F v.sorted = validateSnapshot F v := by
  unfold validateSnapshot
  rw [getOrNull_sorted "version", getOrNull_sorted "sourceState", getOrNull_sorted "identity",
    getOrNull_sorted "observedAt", getOrNull_sorted "unsupportedMetricNames", getOrNull_sorted "notReportedMetricNames",
    asInt?_sorted, asStr?_sorted, metricsKeys_sorted, identityOf_sorted, numOf_sorted, nameList_sorted, nameList_sorted]
  refine bind_congr fun _ => ?_
  cases ((v.getOrNull "sourceState").asStr?).bind SourceState.ofText with
  | none => rfl
  | some sourceState =>
      refine bind_congr fun _ => bind_congr fun identity => bind_congr fun observedAt => bind_congr fun _ =>
        bind_congr fun unsupported => bind_congr fun notReported => ?_
      refine snapshotList_bind hv "engines" fun groups hgroups => ?_
      rw [List.length_map, List.isEmpty_map, engineList_sorted _ _ hgroups]

theorem interval_sorted {v : Json} (hv : JsonText.Valid T v) (gap : Json) :
    interval F none v.sorted gap = interval F none v gap := by
  unfold interval
  rw [validateSnapshot_sorted hv]

end Series

end Metrics
end PickleInfra
