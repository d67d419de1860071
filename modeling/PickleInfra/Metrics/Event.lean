import PickleInfra.Metrics.Parse
import PickleInfra.Python.Unordered
import Mathlib.Data.String.Basic

/-!
# `Metrics.Event` — what a line says, and what it changes

A line is read without a look at what has been read before, and is refused or says one thing; that thing is then
entered, and may be refused because of what has been entered before. `addLines_eq_ok` separates the two.
-/

namespace PickleInfra
namespace Metrics

open Python Python.Str

/-! ## What a line says -/

/-- The number of a sample, under the name of what it is entered as. -/
inductive Item where
  | created (x : Num)
  | gauge (x : Num)
  | counter (x : Num)
  | bucket (bound : Bound) (x : Num)
  | count (x : Num)
  | sum (x : Num)

/-- The part of its family that a sample is. -/
def Item.part : Item → Part
  | .created _           => .created
  | .gauge _ | .counter _ => .value
  | .bucket _ _          => .bucket
  | .count _             => .count
  | .sum _               => .sum

/-- A sample of a known name. -/
structure Entry where
  key : String × Labels
  engine : EngineKey
  series : SeriesKey
  sampleAt : Option Num
  item : Item

inductive Event where
  | blank
  | type (family declared : String)
  | unknown (name : String)
  | entry (e : Entry)

/-- The sample that an event is. -/
def Event.entry? : Event → Option Entry
  | .entry e => some e
  | _        => none

section Reads

variable (F : FloatFormat)

/-- The number of a part of a histogram. -/
def partOf (part : Part) (labels : Labels) (raw : List Char) : Checked Item :=
  match part with
  | .bucket => do
    let bound ← boundOfText F ((labelOf labels "le").getD "")
    let x ← numberOfText F true maxNumber raw
    .ok (.bucket bound x)
  | .count  => do
    let x ← numberOfText F true maxNumber raw
    .ok (.count x)
  | _       => do
    let x ← numberOfText F false maxNumber raw
    .ok (.sum x)

/-- The number of a sample. -/
def itemOf (family : Definition) (part : Part) (s : Sample) : Checked Item :=
  if part = .created then do
    let x ← numberOfText F false maxTime s.rawValue
    .ok (.created x)
  else match family.kind with
    | .gauges     => do
      let x ← scalarValue F family s.rawValue
      .ok (.gauge x)
    | .counters   => do
      let x ← scalarValue F family s.rawValue
      .ok (.counter x)
    | .histograms => partOf F part s.labels s.rawValue

def entryOf (family : Definition) (part : Part) (s : Sample) : Checked Entry := do
  let engine ← engineOfLabels family part s.labels
  let item ← itemOf F family part s
  .ok { key := (s.name, sortLabels s.labels), engine, series := (family.name, otherLabels family s.labels)
        sampleAt := s.sampleAt, item }

/-- What a declaration says. -/
def typeOf (declaration : List Char) : Checked Event :=
  match words declaration with
  | [family, declared] => do
    failIf (!isMetricName (String.ofList family)) .typeSyntaxInvalid
    .ok (.type (String.ofList family) (String.ofList declared))
  | _                  => .error .typeSyntaxInvalid

/-- What a line says after it was stripped. -/
def eventOf (line : List Char) : Checked Event :=
  if line.isEmpty then .ok .blank
  else if line.head? = some '#' then
    match typeDeclaration? line with
    | some declaration => typeOf declaration
    | none             => .ok .blank
  else do
    let (name, _) ← scanName line
    match sample? (String.ofList name) with
    | none                => .ok (.unknown (String.ofList name))
    | some (family, part) => do
      let s ← sample F line
      let e ← entryOf F family part s
      .ok (.entry e)

/-- What a line says. -/
def readLine (line : List Char) : Checked Event := do
  failIf (maxLineBytes < utf8Length line) .lineLimitExceeded
  eventOf F (strip line)

end Reads

/-! ## What is entered -/

/-- `item['_timestamps'].add(sample_at)` -/
def RawHistogram.timed (h : RawHistogram) (t : Option Num) : RawHistogram :=
  if h.timestamps.contains t then h else { h with timestamps := h.timestamps ++ [t] }

def enterPart (h : RawHistogram) : Item → Checked RawHistogram
  | .bucket bound x => do
    failIf ((h.buckets.map (fun b => b.1.value)).contains bound.value) .duplicateHistogramBoundary
    let buckets := h.buckets ++ [(bound, x)]
    failIf (maxBuckets < buckets.length) .bucketLimitExceeded
    .ok { h with buckets }
  | .count x        => .ok { h with count := some x }
  | .sum x          => .ok { h with sum := some x }
  | _               => .ok h

def enterItem (g : Group) (series : SeriesKey) (sampleAt : Option Num) (item : Item) : Checked Group :=
  match item with
  | .created _ => .ok g
  | .gauge x   => .ok { g with gauges := g.gauges.set series { value := x, sampleAt } }
  | .counter x => .ok { g with counters := g.counters.set series { value := x, sampleAt } }
  | item       => do
    let h ← enterPart (((g.histograms.get? series).getD {}).timed sampleAt) item
    .ok { g with histograms := g.histograms.set series h }

/-- The creation times after a sample. -/
def enterCreated (created : Dict (EngineKey × SeriesKey) Num) (e : Entry) : Dict (EngineKey × SeriesKey) Num :=
  match e.item with
  | .created x => created.set (e.engine, e.series) x
  | _          => created

def enterEntry (r : Reading) (e : Entry) : Checked Reading := do
  failIf (r.seen.contains e.key) .duplicateSeries
  failIf (maxSeries < (e.key :: r.seen).length) .seriesLimitExceeded
  let group ← groupOf r e.engine
  let group ← enterItem group e.series e.sampleAt e.item
  .ok { r with seen := e.key :: r.seen, groups := r.groups.set e.engine group
               created := enterCreated r.created e }

def enter (r : Reading) : Event → Checked Reading
  | .blank                => .ok r
  | .type family declared => do
    failIf ((r.types.get? family).any (· ≠ declared)) .typeMismatch
    .ok { r with types := r.types.set family declared }
  | .unknown name         => do
    let unknown := r.unknown.insert name
    failIf (maxUnknownMetrics < unknown.length) .unknownMetricLimitExceeded
    .ok { r with unknown }
  | .entry e              => enterEntry r e

/-! ## The two together -/

section Together

variable {F : FloatFormat}

theorem addPart_eq_ok {h h' : RawHistogram} {part : Part} {labels : Labels} {raw : List Char} :
    addPart F h part labels raw = .ok h' ↔
      ∃ item, partOf F part labels raw = .ok item ∧ enterPart h item = .ok h' := by
  unfold addPart partOf
  cases part with
  | bucket =>
      simp only [bind_eq_ok, failIf_eq_ok, exists_const]
      constructor
      · rintro ⟨bound, hbound, hnew, x, hx, hmax, h⟩
        refine ⟨.bucket bound x, ⟨bound, hbound, x, hx, rfl⟩, ?_⟩
        unfold enterPart
        simp only [bind_eq_ok, failIf_eq_ok, exists_const]
        exact ⟨hnew, hmax, h⟩
      · rintro ⟨item, ⟨bound, hbound, x, hx, hitem⟩, h⟩
        obtain rfl := Except.ok.inj hitem
        unfold enterPart at h
        simp only [bind_eq_ok, failIf_eq_ok, exists_const] at h
        obtain ⟨hnew, hmax, h⟩ := h
        exact ⟨bound, hbound, hnew, x, hx, hmax, h⟩
  | count | value | sum | created =>
      simp only [bind_eq_ok]
      constructor
      · rintro ⟨x, hx, h⟩
        exact ⟨_, ⟨x, hx, rfl⟩, h⟩
      · rintro ⟨item, ⟨x, hx, hitem⟩, h⟩
        obtain rfl := Except.ok.inj hitem
        exact ⟨x, hx, h⟩

theorem isPart_of_partOf {part : Part} {labels : Labels} {raw : List Char} {item : Item}
    (h : partOf F part labels raw = .ok item) :
    (∃ b x, item = .bucket b x) ∨ (∃ x, item = .count x) ∨ ∃ x, item = .sum x := by
  unfold partOf at h
  cases part with
  | bucket =>
      simp only [bind_eq_ok] at h
      obtain ⟨b, -, x, -, h⟩ := h
      exact .inl ⟨b, x, (Except.ok.inj h).symm⟩
  | count =>
      simp only [bind_eq_ok] at h
      obtain ⟨x, -, h⟩ := h
      exact .inr (.inl ⟨x, (Except.ok.inj h).symm⟩)
  | value | sum | created =>
      simp only [bind_eq_ok] at h
      obtain ⟨x, -, h⟩ := h
      exact .inr (.inr ⟨x, (Except.ok.inj h).symm⟩)

/-- A part of a histogram is entered there. -/
theorem enterItem_part {g g' : Group} {series : SeriesKey} {t : Option Num} {item : Item}
    (h : (∃ b x, item = .bucket b x) ∨ (∃ x, item = .count x) ∨ ∃ x, item = .sum x) :
    enterItem g series t item = .ok g' ↔
      ∃ raw, enterPart (((g.histograms.get? series).getD {}).timed t) item = .ok raw ∧
        g' = { g with histograms := g.histograms.set series raw } := by
  have heq : enterItem g series t item = (do
      let raw ← enterPart (((g.histograms.get? series).getD {}).timed t) item
      .ok { g with histograms := g.histograms.set series raw }) := by
    rcases h with ⟨b, x, rfl⟩ | ⟨x, rfl⟩ | ⟨x, rfl⟩ <;> rfl
  rw [heq, bind_eq_ok]
  constructor
  · rintro ⟨raw, hraw, h⟩
    exact ⟨raw, hraw, (Except.ok.inj h).symm⟩
  · rintro ⟨raw, hraw, rfl⟩
    exact ⟨raw, hraw, rfl⟩

/-- Only a creation time is read as one. -/
theorem itemOf_part {family : Definition} {part : Part} {s : Sample} {item : Item} (hpart : part ≠ .created)
    (h : itemOf F family part s = .ok item) : item.part ≠ .created := by
  unfold itemOf at h
  rw [if_neg hpart] at h
  split at h
  · obtain ⟨x, -, h⟩ := bind_eq_ok.mp h
    obtain rfl := Except.ok.inj h
    exact nofun
  · obtain ⟨x, -, h⟩ := bind_eq_ok.mp h
    obtain rfl := Except.ok.inj h
    exact nofun
  · rcases isPart_of_partOf h with ⟨b, x, rfl⟩ | ⟨x, rfl⟩ | ⟨x, rfl⟩ <;> exact nofun

theorem enterCreated_other {created : Dict (EngineKey × SeriesKey) Num} {e : Entry}
    (h : e.item.part ≠ .created) : enterCreated created e = created := by
  unfold enterCreated
  split
  · next x hx =>
    rw [hx] at h
    exact absurd rfl h
  · rfl

theorem addValue_eq_ok {g g' : Group} {family : Definition} {part : Part} {series : SeriesKey} {s : Sample}
    (hpart : part ≠ .created) : addValue F g family part series s = .ok g' ↔
      ∃ item, itemOf F family part s = .ok item ∧ enterItem g series s.sampleAt item = .ok g' := by
  unfold addValue itemOf
  rw [if_neg hpart]
  cases family.kind with
  | gauges | counters =>
      simp only [bind_eq_ok]
      constructor
      · rintro ⟨x, hx, h⟩
        exact ⟨_, ⟨x, hx, rfl⟩, h⟩
      · rintro ⟨item, ⟨x, hx, hitem⟩, h⟩
        obtain rfl := Except.ok.inj hitem
        exact ⟨x, hx, h⟩
  | histograms =>
      simp only [bind_eq_ok, addPart_eq_ok]
      constructor
      · rintro ⟨raw, ⟨item, hitem, hraw⟩, h⟩
        exact ⟨item, hitem, (enterItem_part (isPart_of_partOf hitem)).mpr
          ⟨raw, hraw, (Except.ok.inj h).symm⟩⟩
      · rintro ⟨item, hitem, h⟩
        obtain ⟨raw, hraw, rfl⟩ := (enterItem_part (isPart_of_partOf hitem)).mp h
        exact ⟨raw, ⟨item, hitem, hraw⟩, rfl⟩

theorem addSample_eq_ok {r r' : Reading} {family : Definition} {part : Part} {s : Sample} :
    addSample F r family part s = .ok r' ↔
      ∃ e, entryOf F family part s = .ok e ∧ enterEntry r e = .ok r' := by
  unfold addSample entryOf enterEntry
  simp only [bind_eq_ok, failIf_eq_ok, exists_const]
  constructor
  · rintro ⟨engine, hengine, hnew, hmax, g, hg, h⟩
    split at h
    · next hpart =>
      simp only [bind_eq_ok] at h
      obtain ⟨x, hx, h⟩ := h
      refine ⟨_, ⟨engine, hengine, .created x, ?_, rfl⟩, hnew, hmax, g, hg, g, rfl, h⟩
      unfold itemOf
      rw [if_pos hpart, bind_eq_ok]
      exact ⟨x, hx, rfl⟩
    · next hpart =>
      simp only [bind_eq_ok, addValue_eq_ok hpart] at h
      obtain ⟨g', ⟨item, hitem, hg'⟩, h⟩ := h
      refine ⟨_, ⟨engine, hengine, item, hitem, rfl⟩, hnew, hmax, g, hg, g', hg', ?_⟩
      rw [enterCreated_other (itemOf_part hpart hitem)]
      exact h
  · rintro ⟨e, ⟨engine, hengine, item, hitem, he⟩, hnew, hmax, g, hg, g', hg', h⟩
    obtain rfl := Except.ok.inj he
    refine ⟨engine, hengine, hnew, hmax, g, hg, ?_⟩
    split
    · next hpart =>
      unfold itemOf at hitem
      rw [if_pos hpart, bind_eq_ok] at hitem
      obtain ⟨x, hx, hitem⟩ := hitem
      obtain rfl := Except.ok.inj hitem
      obtain rfl := Except.ok.inj hg'
      exact bind_eq_ok.mpr ⟨x, hx, h⟩
    · next hpart =>
      rw [enterCreated_other (itemOf_part hpart hitem)] at h
      exact bind_eq_ok.mpr ⟨g', (addValue_eq_ok hpart).mpr ⟨item, hitem, hg'⟩, h⟩

theorem addType_eq_ok {r r' : Reading} {declaration : List Char} :
    addType r declaration = .ok r' ↔ ∃ event, typeOf declaration = .ok event ∧ enter r event = .ok r' := by
  unfold addType typeOf
  generalize words declaration = ws
  match ws with
  | [family, declared] =>
      simp only [bind_eq_ok, failIf_eq_ok, exists_const]
      constructor
      · rintro ⟨hname, hsame, h⟩
        refine ⟨_, ⟨hname, rfl⟩, ?_⟩
        unfold enter
        simp only [bind_eq_ok, failIf_eq_ok, exists_const]
        exact ⟨hsame, h⟩
      · rintro ⟨event, ⟨hname, hevent⟩, h⟩
        obtain rfl := Except.ok.inj hevent
        unfold enter at h
        simp only [bind_eq_ok, failIf_eq_ok, exists_const] at h
        exact ⟨hname, h⟩
  | [] | [_] | _ :: _ :: _ :: _ =>
      constructor
      · intro h
        cases h
      · rintro ⟨event, h, -⟩
        cases h

theorem addLine_eq_ok {r r' : Reading} {line : List Char} :
    addLine F r line = .ok r' ↔ ∃ event, eventOf F line = .ok event ∧ enter r event = .ok r' := by
  have hblank : ∀ {x : Reading}, (Except.ok r : Checked Reading) = .ok x ↔
      ∃ event, (Except.ok .blank : Checked Event) = .ok event ∧ enter r event = .ok x := by
    intro x
    constructor
    · intro h
      exact ⟨.blank, rfl, h⟩
    · rintro ⟨event, hevent, h⟩
      obtain rfl := Except.ok.inj hevent
      exact h
  unfold addLine eventOf
  split
  · exact hblank
  · split
    · cases typeDeclaration? line with
      | some declaration => exact addType_eq_ok
      | none => exact hblank
    · simp only [bind_eq_ok]
      constructor
      · rintro ⟨name, hname, h⟩
        cases hknown : sample? (String.ofList name.1) with
        | none =>
            simp only [hknown] at h
            refine ⟨.unknown (String.ofList name.1), ⟨name, hname, ?_⟩, h⟩
            simp only [hknown]
        | some known =>
            simp only [hknown] at h
            obtain ⟨s, hs, h⟩ := bind_eq_ok.mp h
            obtain ⟨e, he, h⟩ := addSample_eq_ok.mp h
            refine ⟨.entry e, ⟨name, hname, ?_⟩, h⟩
            simp only [hknown]
            exact bind_eq_ok.mpr ⟨s, hs, bind_eq_ok.mpr ⟨e, he, rfl⟩⟩
      · rintro ⟨event, ⟨name, hname, hevent⟩, h⟩
        refine ⟨name, hname, ?_⟩
        cases hknown : sample? (String.ofList name.1) with
        | none =>
            simp only [hknown] at hevent
            obtain rfl := Except.ok.inj hevent
            exact h
        | some known =>
            simp only [hknown] at hevent
            obtain ⟨s, hs, hevent⟩ := bind_eq_ok.mp hevent
            obtain ⟨e, he, hevent⟩ := bind_eq_ok.mp hevent
            obtain rfl := Except.ok.inj hevent
            exact bind_eq_ok.mpr ⟨s, hs, addSample_eq_ok.mpr ⟨e, he, h⟩⟩

/-- **The lines are read, and what they say is entered**, one after the other. -/
theorem addLines_eq_ok {r r' : Reading} {lines : List (List Char)} :
    addLines F r lines = .ok r' ↔
      ∃ events, lines.mapM (readLine F) = .ok events ∧ events.foldlM enter r = .ok r' := by
  induction lines generalizing r with
  | nil =>
      rw [addLines, List.mapM_nil]
      constructor
      · intro h
        exact ⟨[], rfl, h⟩
      · rintro ⟨events, hevents, h⟩
        obtain rfl := Except.ok.inj hevents
        exact h
  | cons line lines ih =>
      rw [addLines, List.mapM_cons]
      unfold readLine
      simp only [bind_eq_ok, failIf_eq_ok, exists_const, addLine_eq_ok, ih]
      constructor
      · rintro ⟨hlength, r₁, ⟨event, hevent, h₁⟩, events, hevents, h⟩
        refine ⟨event :: events, ⟨event, ⟨hlength, hevent⟩, events, hevents, rfl⟩, ?_⟩
        rw [List.foldlM_cons, bind_eq_ok]
        exact ⟨r₁, h₁, h⟩
      · rintro ⟨_, ⟨event, ⟨hlength, hevent⟩, events, hevents, hcons⟩, h⟩
        obtain rfl := Except.ok.inj hcons
        rw [List.foldlM_cons, bind_eq_ok] at h
        obtain ⟨r₁, h₁, h⟩ := h
        exact ⟨hlength, r₁, ⟨event, hevent, h₁⟩, events, hevents, h⟩

end Together

/-! ## The place of a sample -/

section Place

variable {F : FloatFormat}

/-- The names of labels are distinct in every line. -/
theorem labelsFrom_nodup {fuel : Nat} {result found : Labels} {cs : List Char}
    (hresult : (result.map Prod.fst).Nodup) (h : labelsFrom fuel result cs = .ok found) :
    (found.map Prod.fst).Nodup := by
  induction fuel generalizing result cs with
  | zero => cases h
  | succ fuel ih =>
      unfold labelsFrom at h
      dsimp only at h
      split at h
      · cases h
        exact hresult
      · simp only [bind_eq_ok] at h
        obtain ⟨⟨label, rest⟩, hlabel, h⟩ := h
        have hnodup : ((result ++ [label]).map Prod.fst).Nodup := by
          have hnew : label.1 ∉ result.map Prod.fst := by
            unfold scanLabel at hlabel
            split at hlabel
            · cases hlabel
            · simp only [bind_eq_ok, failIf_eq_ok, exists_const] at hlabel
              obtain ⟨_, -, _, -, ⟨value, after⟩, -, hnew, -, hlabel⟩ := hlabel
              cases hlabel
              rwa [← List.contains_iff_mem, Bool.not_eq_true]
          rw [List.map_append, List.map_singleton, List.nodup_append]
          refine ⟨hresult, List.nodup_singleton _, ?_⟩
          rintro name hname _ hlast rfl
          rw [List.mem_singleton.mp hlast] at hname
          exact hnew hname
        split at h
        · cases h
          exact hnodup
        · simp only [bind_eq_ok] at h
          obtain ⟨_, -, h⟩ := h
          exact ih hnodup h

theorem sample_nodup {line : List Char} {s : Sample} (h : sample F line = .ok s) :
    (s.labels.map Prod.fst).Nodup := by
  unfold sample at h
  simp only [bind_eq_ok] at h
  obtain ⟨⟨name, rest⟩, -, ⟨found, after⟩, hfound, _, -, h⟩ := h
  have hnodup : (found.map Prod.fst).Nodup := by
    unfold scanLabels at hfound
    split at hfound
    · cases hfound
      exact List.nodup_nil
    · split at hfound
      · cases hfound
      · next inside cs _ =>
        cases hlabels : labels inside with
        | error e =>
            rw [hlabels] at hfound
            cases hfound
        | ok found' =>
            rw [hlabels] at hfound
            cases hfound
            exact @labelsFrom_nodup _ [] _ _ List.nodup_nil hlabels
  split at h
  · cases h
    exact hnodup
  · obtain ⟨time, -, h⟩ := bind_eq_ok.mp h
    cases h
    exact hnodup
  · cases h

/-- The labels that a series keeps, one by one. -/
theorem lookup_otherLabels (family : Definition) (labels : Labels) (name : String) :
    labelOf (otherLabels family labels) name = if name ∈ family.extras then labelOf labels name else none := by
  have hkeys : ∀ keys : List String,
      labelOf (keys.filterMap fun key => (labelOf labels key).map fun v => (key, v)) name =
        if name ∈ keys then labelOf labels name else none := by
    intro keys
    induction keys with
    | nil => rfl
    | cons key keys ih =>
        rw [List.filterMap_cons]
        cases hkey : labelOf labels key with
        | none =>
            rw [Option.map_none]
            dsimp only
            rw [ih]
            simp only [List.mem_cons]
            by_cases hname : name = key
            · subst hname
              simp [hkey]
            · simp [hname]
        | some v =>
            rw [Option.map_some]
            dsimp only
            show Dict.lookup name ((key, v) :: _) = _
            rw [Dict.lookup]
            simp only [List.mem_cons]
            by_cases hname : key = name
            · subst hname
              simp [hkey]
            · rw [if_neg hname]
              have hih : Dict.lookup name (keys.filterMap fun key => (labelOf labels key).map fun v => (key, v)) = _ := ih
              rw [hih]
              simp [Ne.symm hname]
  unfold otherLabels
  rw [hkeys]
  simp only [List.mem_insertionSort]

/-- What is known of the labels of a line that names its engine. -/
theorem engineOfLabels_eq_ok {family : Definition} {part : Part} {labels : Labels} {engine : EngineKey}
    (h : engineOfLabels family part labels = .ok engine) :
    (∀ l ∈ labels, l.1 ∈ permitted family part) ∧ labelOf labels "model_name" = some engine.1 ∧
      labelOf labels "engine" = some engine.2 := by
  have htext : ∀ {s t : String}, text s = .ok t → t = s := by
    intro s t hs
    unfold text at hs
    simp only [bind_eq_ok] at hs
    obtain ⟨_, -, hs⟩ := hs
    exact (Except.ok.inj hs).symm
  unfold engineOfLabels at h
  simp only [bind_eq_ok, failIf_eq_ok, exists_const] at h
  obtain ⟨hpermitted, h⟩ := h
  split at h
  · next model engine' hmodel hengine =>
    simp only [bind_eq_ok] at h
    obtain ⟨_, -, model', hmodel', engine'', hengine', h⟩ := h
    obtain rfl := Except.ok.inj h
    rw [htext hmodel', htext hengine']
    refine ⟨fun l hl => ?_, hmodel, hengine⟩
    have hl' := List.any_eq_false.mp hpermitted l hl
    rwa [Bool.not_eq_true, Bool.not_eq_false', List.contains_iff_mem] at hl'
  · cases h

/-- What is known of a sample that was read. -/
def Entry.Read (e : Entry) : Prop :=
  ∃ family labels, sample? e.key.1 = some (family, e.item.part) ∧ e.key.2 = sortLabels labels ∧
    (labels.map Prod.fst).Nodup ∧ engineOfLabels family e.item.part labels = .ok e.engine ∧
      e.series = (family.name, otherLabels family labels)

/-- A bucket apart, a sample with the same engine, series and part is the same sample. -/
theorem Entry.Read.key_eq {e e' : Entry} (h : e.Read) (h' : e'.Read) (hengine : e.engine = e'.engine)
    (hseries : e.series = e'.series) (hpart : e.item.part = e'.item.part) (hbucket : e.item.part ≠ .bucket) :
    e.key = e'.key := by
  obtain ⟨family, labels, hsample, hkey, hnodup, hengine₁, hseries₁⟩ := h
  obtain ⟨family', labels', hsample', hkey', hnodup', hengine₂, hseries₂⟩ := h'
  rw [← hpart] at hsample' hengine₂
  obtain ⟨hknown, hname⟩ := mem_samples.mp (sample?_mem hsample)
  obtain ⟨hknown', hname'⟩ := mem_samples.mp (sample?_mem hsample')
  rw [hseries₁, hseries₂] at hseries
  obtain ⟨hfamily, hothers⟩ := Prod.mk.inj hseries
  obtain rfl : family = family' := List.inj_on_of_nodup_map nodup_definitionNames hknown hknown' hfamily
  obtain ⟨hpermitted, hmodel₁, hengine₁⟩ := engineOfLabels_eq_ok hengine₁
  obtain ⟨hpermitted', hmodel₂, hengine₂⟩ := engineOfLabels_eq_ok hengine₂
  -- The labels agree one by one: those of the engine, those of the series, and no others are permitted.
  have hlookup : ∀ name, labelOf labels name = labelOf labels' name := by
    intro name
    by_cases hmodel : name = "model_name"
    · rw [hmodel, hmodel₁, hmodel₂, hengine]
    by_cases hengine' : name = "engine"
    · rw [hengine', hengine₁, hengine₂, hengine]
    by_cases hextra : name ∈ family.extras
    · have hfound := congrArg (labelOf · name) hothers
      simpa only [lookup_otherLabels, if_pos hextra] using hfound
    · have hnone : ∀ {found : Labels}, (∀ l ∈ found, l.1 ∈ permitted family e.item.part) →
          labelOf found name = none := by
        intro found hfound
        by_contra hsome
        obtain ⟨v, hv⟩ := Option.ne_none_iff_exists'.mp hsome
        have hmem := hfound _ (Dict.mem_of_lookup hv)
        unfold permitted at hmem
        rw [if_neg hbucket, List.append_nil, List.mem_append] at hmem
        rcases hmem with hmem | hmem
        · simp [hmodel, hengine'] at hmem
        · exact hextra hmem
      rw [hnone hpermitted, hnone hpermitted']
  have hperm : labels.Perm labels' := by
    rw [List.perm_ext_iff_of_nodup (List.Nodup.of_map _ hnodup) (List.Nodup.of_map _ hnodup')]
    rintro ⟨name, v⟩
    rw [← Dict.lookup_eq_some_iff hnodup, ← Dict.lookup_eq_some_iff hnodup']
    exact Eq.congr_left (hlookup name)
  apply Prod.ext
  · exact sample_unique hname hname'
  · rw [hkey, hkey']
    exact insertionSort_perm Prod.fst (fun _ _ => Iff.rfl) hperm hnodup

/-- The number of a sample is of the part that its name says. -/
theorem part_itemOf {family : Definition} {name : String} {part : Part} {s : Sample} {item : Item}
    (hname : (name, part) ∈ family.samples) (h : itemOf F family part s = .ok item) : item.part = part := by
  obtain ⟨hhistogram, hgauge⟩ := sample_part hname
  unfold itemOf at h
  split at h
  · next hpart =>
    obtain ⟨x, -, h⟩ := bind_eq_ok.mp h
    obtain rfl := Except.ok.inj h
    exact hpart.symm
  · next hpart =>
    have hvalue : family.kind ≠ .histograms → part = .value := by
      intro hkind
      by_contra hne
      exact hkind (hhistogram.mpr ⟨hne, fun hboth => hpart hboth.1⟩)
    split at h
    · next hkind =>
      obtain ⟨x, -, h⟩ := bind_eq_ok.mp h
      obtain rfl := Except.ok.inj h
      exact (hgauge hkind).symm
    · next hkind =>
      obtain ⟨x, -, h⟩ := bind_eq_ok.mp h
      obtain rfl := Except.ok.inj h
      exact (hvalue (by rw [hkind]; exact nofun)).symm
    · next hkind =>
      have hne := (hhistogram.mp hkind).1
      unfold partOf at h
      cases part with
      | bucket =>
          simp only [bind_eq_ok] at h
          obtain ⟨b, -, x, -, h⟩ := h
          obtain rfl := Except.ok.inj h
          rfl
      | count | sum =>
          obtain ⟨x, -, h⟩ := bind_eq_ok.mp h
          obtain rfl := Except.ok.inj h
          rfl
      | value => exact absurd rfl hne
      | created => exact absurd rfl hpart

/-- An event that was read. -/
def Event.Read (event : Event) : Prop := ∀ e, event = .entry e → e.Read

theorem readLine_read {line : List Char} {event : Event} (h : readLine F line = .ok event) : event.Read := by
  rintro e rfl
  unfold readLine eventOf at h
  obtain ⟨_, -, h⟩ := bind_eq_ok.mp h
  split at h
  · cases h
  split at h
  · split at h
    · unfold typeOf at h
      split at h
      · obtain ⟨_, -, h⟩ := bind_eq_ok.mp h
        cases h
      · cases h
    · cases h
  · obtain ⟨⟨name, rest⟩, hscan, h⟩ := bind_eq_ok.mp h
    dsimp only at h
    split at h
    · cases h
    · next family part hsample =>
      obtain ⟨s, hs, h⟩ := bind_eq_ok.mp h
      obtain ⟨e', he, h⟩ := bind_eq_ok.mp h
      cases h
      have hname : s.name = String.ofList name := by
        unfold sample at hs
        rw [hscan] at hs
        obtain ⟨⟨_, _⟩, hscanned, hs⟩ := bind_eq_ok.mp hs
        obtain ⟨rfl, rfl⟩ := Prod.mk.inj (Except.ok.inj hscanned)
        simp only [bind_eq_ok] at hs
        obtain ⟨_, -, _, -, hs⟩ := hs
        split at hs
        · cases hs
          rfl
        · obtain ⟨_, -, hs⟩ := bind_eq_ok.mp hs
          cases hs
          rfl
        · cases hs
      unfold entryOf at he
      simp only [bind_eq_ok] at he
      obtain ⟨engine, hengine, item, hitem, he⟩ := he
      obtain rfl := Except.ok.inj he
      have hpart := part_itemOf (mem_samples.mp (sample?_mem hsample)).2 hitem
      refine ⟨family, s.labels, ?_, rfl, sample_nodup hs, ?_, rfl⟩
      · show sample? s.name = some (family, item.part)
        rw [hname, hpart, hsample]
      · show engineOfLabels family item.part s.labels = .ok engine
        rw [hpart, hengine]

end Place

end Metrics
end PickleInfra
