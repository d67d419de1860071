import PickleInfra.Metrics.Snapshot

/-!
# `Metrics.Interval` — `interval`, the comparison of two cumulative snapshots

A row is computed for every counter and histogram. The reason for refusing one is handed through:
`interval` decides about the pair of snapshots and the engine, `_delta` about the series. `SeriesKind` is
what the two kinds differ in: how a change is computed from two series, once the window is known.
-/

namespace PickleInfra
namespace Metrics

open Python

/-! ## Reasons and rows -/

/-- Why a row or a whole interval is not `VALID`. -/
inductive Reason where
  | source (s : SourceState)
  | identityNotReported
  | firstSample
  | previousNotObserved
  | identityChanged
  | duplicateTimestamp
  | clockMovedBackwards
  | sampleGap
  | newModelOrEngine
  | newSeries
  | seriesNotReported
  | creationEpochChanged
  | sampleTimestampChanged
  | counterDecreased
  | rateNotFinite
  | bucketSchemaChanged
  | histogramDeltaInvalid
  | engineNotReported
  | seriesBaseline
  | noIntervalSeries
deriving DecidableEq, Repr

inductive RowState where
  | baseline
  | valid
  | notReported
deriving DecidableEq, Repr

/-- One row of the output; `change` has what is `None` in a row that is not `VALID`. -/
structure Row (C : Type) where
  family : Definition
  labels : Labels
  createdAt : Option Num
  bounds : Option (List Bound)
  state : RowState
  reason : Option Reason
  elapsedSeconds : Option Num
  fromSampleAt : Option Num
  toSampleAt : Option Num
  change : Option C

def Row.key {C : Type} (r : Row C) : SeriesKey := (r.family.name, r.labels)

structure CounterChange where
  delta : Num
  ratePerSecond : Num

structure HistogramChange where
  counts : List Num
  count : Num
  sum : Num
  mean : Option Num

/-! ## Arithmetic -/

variable (F : FloatFormat)

/-- `a - b` -/
def Num.sub : Num → Num → Num
  | .int a, .int b => .int (a - b)
  | a, b           => .float (F.round (a.value - b.value))

/-- `a / b` -/
def Num.div (a b : Num) : Num := .float (F.round (a.value / b.value))

/-- `math.isfinite(value)`: the quotient did not round beyond the largest float. -/
def Num.isFinite (a : Num) : Bool := |a.value| < 2 ^ 1024

/-- The floats of unlimited precision: numbers are exact rationals. -/
def FloatFormat.exact : FloatFormat where
  round := id
  printed := id
  round_mono := fun h => h
  round_int := fun _ _ => rfl
  printed_int := fun _ _ => rfl
  round_printed := fun _ => rfl

@[simp] theorem Num.sub_exact (a b : Num) : (a.sub .exact b).value = a.value - b.value := by
  cases a <;> cases b <;> first | rfl | exact Int.cast_sub _ _

@[simp] theorem Num.div_exact (a b : Num) : (a.div .exact b).value = a.value / b.value := rfl

/-! ## `_delta` -/

/-- What the series of one kind are, and how they change between two samples `duration` apart. -/
structure SeriesKind (S C : Type) where
  head : S → Head
  bounds : S → Option (List Bound)
  change : S → S → Num → Except Reason C

/-- The counter branch of `_delta`. -/
def counterChange (previous current : Scalar) (duration : Num) : Except Reason CounterChange :=
  let difference := current.value.sub F previous.value
  if difference.value < 0 then .error .counterDecreased
  else
    let rate := difference.div F duration
    if !rate.isFinite then .error .rateNotFinite
    else .ok { delta := difference, ratePerSecond := rate }

/-- The histogram branch of `_delta`. -/
def histogramChange (previous current : Histogram) (_duration : Num) : Except Reason HistogramChange :=
  if current.bounds.map Bound.value ≠ previous.bounds.map Bound.value then .error .bucketSchemaChanged
  else
    let counts := List.zipWith (Num.sub F) current.counts previous.counts
    let count := current.count.sub F previous.count
    let total := current.sum.sub F previous.sum
    match histogram F current.bounds counts (some count) (some total) with
    | .error _ => .error .histogramDeltaInvalid
    | .ok ()   => .ok { counts, count, sum := total
                        mean := if count.value = 0 then none else some (total.div F count) }

def counterKind : SeriesKind Scalar CounterChange where
  head := Scalar.head
  bounds := fun _ => none
  change := counterChange F

def histogramKind : SeriesKind Histogram HistogramChange where
  head := Histogram.head
  bounds := fun h => some h.bounds
  change := histogramChange F

/-- `_series_elapsed` -/
def seriesElapsed (previous current : Head) (elapsed : Num) (maximum : ℚ) : Except Reason Num :=
  let duration : Except Reason Num := match previous.sampleAt, current.sampleAt with
    | none, none         => .ok elapsed
    | some old, some new => .ok (new.sub F old)
    | _, _               => .error .sampleTimestampChanged
  match duration with
  | .error e      => .error e
  | .ok duration  =>
    if duration.value ≤ 0 then
      .error (if duration.value = 0 then .duplicateTimestamp else .clockMovedBackwards)
    else if maximum < duration.value then .error .sampleGap
    else .ok duration

section Delta

variable {F} {S C : Type} (k : SeriesKind S C)

/-- The row of a series before its change is computed. -/
def baseRow (previous : Option S) (current : S) (reason : Option Reason)
    (windowFrom windowTo : Option Num) : Row C where
  family := (k.head current).family
  labels := (k.head current).labels
  createdAt := (k.head current).createdAt
  bounds := k.bounds current
  state := .baseline
  reason
  elapsedSeconds := none
  fromSampleAt := (previous.bind fun p => (k.head p).sampleAt).or windowFrom
  toSampleAt := (k.head current).sampleAt.or windowTo
  change := none

/-- Two creation times differ. -/
def createdDiffers (previous current : Head) : Bool :=
  previous.createdAt.map Num.value ≠ current.createdAt.map Num.value

/-- The window and the change of a series, or the reason there is none. -/
def changeOf (F : FloatFormat) (k : SeriesKind S C) (previous : Option S) (current : S)
    (elapsed : Option Num) (maximum : ℚ) : Except Reason (Num × C) :=
  match previous with
  | none          => .error .newSeries
  | some previous =>
    if createdDiffers (k.head previous) (k.head current) then .error .creationEpochChanged
    else do
      let duration ← seriesElapsed F (k.head previous) (k.head current) (elapsed.getD (.int 0)) maximum
      let change ← k.change previous current duration
      .ok (duration, change)

/-- `_delta` -/
def delta (F : FloatFormat) (k : SeriesKind S C) (previous : Option S) (current : S)
    (elapsed : Option Num) (maximum : ℚ) (reason : Option Reason) (windowFrom windowTo : Option Num) :
    Row C :=
  let row := baseRow k previous current reason windowFrom windowTo
  match reason with
  | some _ => row
  | none   =>
    match changeOf F k previous current elapsed maximum with
    | .error reason           => { row with reason := some reason }
    | .ok (duration, change) =>
      { row with state := .valid, elapsedSeconds := some duration, change := some change }

end Delta

/-! ## `interval` -/

inductive State where
  | valid
  | partly
  | baseline
  | unavailable
deriving DecidableEq, Repr

structure EngineOutput where
  modelName : String
  engineId : String
  gauges : List Scalar
  notReported : List String
  counters : List (Row CounterChange)
  histograms : List (Row HistogramChange)

structure Interval where
  identity : Identity
  fromObservedAt : Option Num
  toObservedAt : Num
  elapsedSeconds : Option Num
  state : State
  reason : Option Reason
  engines : List EngineOutput
  missingEngineKeys : List EngineKey

/-- The reason the two snapshots cannot be compared. -/
def pairReason (previous : Option Snapshot) (current : Snapshot) (elapsed : Option Num) (maximum : ℚ) :
    Option Reason :=
  if current.sourceState ≠ .observed then some (.source current.sourceState)
  else if !current.identity.complete then some .identityNotReported
  else match previous with
    | none          => some .firstSample
    | some previous =>
      if previous.sourceState ≠ .observed then some .previousNotObserved
      else if !previous.identity.complete then some .identityNotReported
      else if previous.identity ≠ current.identity then some .identityChanged
      else
        let elapsed := (elapsed.getD (.int 0)).value
        if elapsed ≤ 0 then some (if elapsed = 0 then .duplicateTimestamp else .clockMovedBackwards)
        else if maximum < elapsed then some .sampleGap
        else none

section Rows

variable {S C : Type} (k : SeriesKind S C)

def keyOf (s : S) : SeriesKey := (k.head s).key

/-- `_index(group, kind).get(key)` -/
def findSeries (items : List S) (key : SeriesKey) : Option S := items.find? (fun s => keyOf k s = key)

/-- A series only the previous snapshot has. -/
def missingRow (old : S) : Row C :=
  { baseRow k none old (some .seriesNotReported) none none with
    state := .notReported, bounds := none, fromSampleAt := none, toSampleAt := none }

/-- The rows of one kind of one engine: the current series, then those that are gone. The order of the
    latter is that of a set difference in the source. -/
def rowsOf (F : FloatFormat) (k : SeriesKind S C) (old new : List S) (elapsed : Option Num)
    (maximum : ℚ) (reason : Option Reason) (windowFrom windowTo : Option Num) : List (Row C) :=
  new.map (fun s => delta F k (findSeries k old (keyOf k s)) s elapsed maximum reason windowFrom windowTo)
    ++ (old.filter (fun s => !(new.map (keyOf k)).contains (keyOf k s))).map (missingRow k)

end Rows

/-- The window of a pair of snapshots, as `interval` hands it to the engines. -/
structure Window where
  elapsed : Option Num
  maximum : ℚ
  reason : Option Reason
  fromObservedAt : Option Num
  toObservedAt : Num

def windowOf (previous : Option Snapshot) (current : Snapshot) (maximum : ℚ) : Window :=
  let elapsed := previous.map (fun p => current.observedAt.sub F p.observedAt)
  { elapsed, maximum, reason := pairReason previous current elapsed maximum
    fromObservedAt := previous.map Snapshot.observedAt, toObservedAt := current.observedAt }

def engineOutput (w : Window) (oldGroup : Option Engine) (group : Engine) : EngineOutput :=
  let reason := w.reason.or (if oldGroup.isNone then some .newModelOrEngine else none)
  { modelName := group.modelName, engineId := group.engineId, gauges := group.gauges
    notReported := group.notReported
    counters := rowsOf F (counterKind F) ((oldGroup.map Engine.counters).getD []) group.counters
      w.elapsed w.maximum reason w.fromObservedAt (some w.toObservedAt)
    histograms := rowsOf F (histogramKind F) ((oldGroup.map Engine.histograms).getD []) group.histograms
      w.elapsed w.maximum reason w.fromObservedAt (some w.toObservedAt) }

/-- The states of the rows, engine by engine. -/
def EngineOutput.states (e : EngineOutput) : List RowState :=
  e.counters.map Row.state ++ e.histograms.map Row.state

def findEngine (engines : List Engine) (key : EngineKey) : Option Engine :=
  engines.find? (fun e => e.key = key)

/-- Lexicographic order of engine keys. -/
def EngineKey.le (a b : EngineKey) : Bool := a.1 < b.1 || (a.1 = b.1 && a.2 ≤ b.2)

/-- The state and the reason of the interval, from those of its parts. -/
def overall (current : Snapshot) (reason : Option Reason) (states : List RowState)
    (missing : List EngineKey) : State × Option Reason :=
  if current.sourceState ≠ .observed then (.unavailable, reason)
  else match reason with
    | some r => (.baseline, some r)
    | none   =>
      if states.isEmpty || !missing.isEmpty || states.any (· ≠ .valid) then
        (if states.contains .valid then .partly else .baseline,
          some (if !missing.isEmpty then .engineNotReported
            else if !states.isEmpty then .seriesBaseline else .noIntervalSeries))
      else (.valid, none)

/-- `interval` on two snapshots that were validated. -/
def compare (previous : Option Snapshot) (current : Snapshot) (maximum : ℚ) : Interval :=
  let w := windowOf F previous current maximum
  let old := (previous.map Snapshot.engines).getD []
  let engines := current.engines.map (fun g => engineOutput F w (findEngine old g.key) g)
  let missing := ((old.map Engine.key).filter (fun key => !(current.engines.map Engine.key).contains key))
    |>.insertionSort (fun a b => EngineKey.le a b = true)
  let (state, reason) := overall current w.reason (engines.flatMap EngineOutput.states) missing
  { identity := current.identity, fromObservedAt := w.fromObservedAt, toObservedAt := w.toObservedAt
    elapsedSeconds := w.elapsed.filter (fun e => decide (0 < e.value))
    state, reason, engines, missingEngineKeys := missing }

/-- The check of `max_gap_seconds`. -/
def gapLimit (gap : Json) : Checked ℚ := do
  let x ← match Num.ofJson gap, gap with
    | some x, _      => .ok x
    | none, .float _ => .error .numberInvalid
    | none, _        => .error .gapLimitInvalid
  let maximum ← numberOf F false maxNumber x
  failIf (maximum.value = 0) .gapLimitInvalid
  .ok maximum.value

/-- `interval` -/
def interval (previous : Option Json) (current gap : Json) : Checked Interval := do
  let current ← validateSnapshot F current
  let maximum ← gapLimit F gap
  match previous with
  | none          => .ok (compare F none current maximum)
  | some previous => do
    let previous ← validateSnapshot F previous
    .ok (compare F (some previous) current maximum)

end Metrics
end PickleInfra
