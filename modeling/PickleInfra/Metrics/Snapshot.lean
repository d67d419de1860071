import PickleInfra.Metrics.Histogram
import PickleInfra.Metrics.Vocabulary
import Mathlib.Data.List.Sort

/-!
# `Metrics.Snapshot` — a snapshot, and `_validate_snapshot`

`validateSnapshot` reads a document as a `Snapshot`: it makes the checks of `_validate_snapshot` in the
source's order, and returns the fields it checked, which are the only ones the code uses afterwards.
-/

namespace PickleInfra
namespace Metrics

open Python

/-! ## The typed snapshot -/

inductive SourceState where
  | observed
  | unknown
  | unsupported
  | notReported
  | sourceFailed
deriving DecidableEq, Repr

def SourceState.text : SourceState → String
  | .observed     => "OBSERVED"
  | .unknown      => "UNKNOWN"
  | .unsupported  => "UNSUPPORTED"
  | .notReported  => "NOT_REPORTED"
  | .sourceFailed => "SOURCE_FAILED"

/-- `SOURCE_STATES` -/
def sourceStates : List SourceState := [.observed, .unknown, .unsupported, .notReported, .sourceFailed]

def SourceState.ofText (s : String) : Option SourceState := sourceStates.find? (fun t => t.text = s)

structure Identity where
  sourceId : String
  bootId : Option String
  processId : Option String
  configId : Option String
deriving DecidableEq, Repr

/-- Every key of `IDENTITY_KEYS` has a value. -/
def Identity.complete (i : Identity) : Bool :=
  i.bootId.isSome && i.processId.isSome && i.configId.isSome

/-- The items of a dictionary of labels, sorted by name. -/
abbrev Labels := List (String × String)

/-- `sorted(labels.items())` -/
def sortLabels (items : Labels) : Labels := items.insertionSort (fun a b => a.1 ≤ b.1)

/-- What all series have. A gauge has no creation time. -/
structure Head where
  family : Definition
  labels : Labels
  sampleAt : Option Num
  createdAt : Option Num
  typeDeclared : Bool
deriving DecidableEq, Repr

/-- A key of `_index`. -/
abbrev SeriesKey := String × Labels

def Head.key (h : Head) : SeriesKey := (h.family.name, h.labels)

/-- A gauge or a counter. -/
structure Scalar where
  head : Head
  value : Num
deriving DecidableEq, Repr

structure Histogram where
  head : Head
  bounds : List Bound
  counts : List Num
  count : Num
  sum : Num
deriving DecidableEq, Repr

abbrev EngineKey := String × String

structure Engine where
  modelName : String
  engineId : String
  gauges : List Scalar
  counters : List Scalar
  histograms : List Histogram
  notReported : List String
deriving DecidableEq, Repr

def Engine.key (e : Engine) : EngineKey := (e.modelName, e.engineId)

structure Snapshot where
  observedAt : Num
  sourceState : SourceState
  identity : Identity
  engines : List Engine
  unsupported : List String
  notReported : List String
deriving DecidableEq, Repr

/-! ## Reading the parts of a document -/

/-- `isinstance(value, dict) and set(value) == keys` -/
def hasKeys (keys : List String) : Json → Bool
  | .dict kvs => kvs.all (fun kv => keys.contains kv.1) && keys.all (kvs.map Prod.fst).contains
  | _         => false

/-- The checks of `_text` on a string. -/
def textOk (s : String) : Bool := !s.isEmpty && s.utf8ByteSize ≤ 256 && s.toList.all (fun c => 32 ≤ c.toNat)

/-- `_text` -/
def text (s : String) : Checked String := do
  failIf (!textOk s) .identityInvalid
  .ok s

/-- `_text` of a value that should be a string. -/
def textOf (v : Json) : Checked String :=
  match v.asStr? with
  | none   => .error .identityInvalid
  | some s => text s

/-- `_text(value, optional=True)` -/
def optionalText (v : Json) : Checked (Option String) :=
  if v.isNull then .ok none else (textOf v).map some

/-- `_identity` -/
def identityOf (v : Json) : Checked Identity := do
  failIf (!(match v with
    | .dict kvs => kvs.all (fun kv => ["sourceId", "bootId", "processId", "configId"].contains kv.1)
    | _         => false)) .identityInvalid
  let sourceId ← textOf (v.getOrNull "sourceId")
  let bootId ← optionalText (v.getOrNull "bootId")
  let processId ← optionalText (v.getOrNull "processId")
  let configId ← optionalText (v.getOrNull "configId")
  .ok { sourceId, bootId, processId, configId }

/-- `type(value) in (int, float)`; the reading of a float that is not finite fails in `_number`. -/
def numOf (v : Json) : Checked Num :=
  match Num.ofJson v, v with
  | some x, _       => .ok x
  | none, .float _  => .error .numberInvalid
  | none, _         => .error .snapshotInvalid

def isNumberType : Json → Bool
  | .int _ | .float _ => true
  | _                 => false

def asList? : Json → Option (List Json)
  | .list xs => some xs
  | _        => none

def snapshotList (v : Json) : Checked (List Json) :=
  match v with
  | .list xs => .ok xs
  | _        => .error .snapshotInvalid

/-- `[a-zA-Z_:][a-zA-Z0-9_:]*`, `NAME` -/
def isNameStart (c : Char) : Bool := Text.isLower c || Text.isUpper c || c = '_' || c = ':'

def isNameChar (c : Char) : Bool := isNameStart c || Text.isDigit c

/-- `NAME.fullmatch(name)` and at most 128 characters. -/
def isMetricName : String → Bool := Text.fullmatchFirst isNameStart isNameChar 127

/-- A metric's name with room for the ending of a sample. -/
def FamilyName (name : String) : Prop :=
  ∃ cs, name.toList = 'v' :: cs ∧ cs.all isNameChar = true ∧ 6 ≤ cs.length ∧ cs.length ≤ 70

/-- A family's name, or its beginning, with an ending. -/
theorem metricName_append {name ending : String} {cs : List Char} (hcs : name.toList = 'v' :: cs)
    (hchars : cs.all isNameChar = true) (hle : cs.length ≤ 70) (hall : ending.toList.all isNameChar = true)
    (hlength : ending.toList.length ≤ 57) : isMetricName (name ++ ending) = true := by
  unfold isMetricName Text.fullmatchFirst
  rw [String.toList_append, hcs, List.cons_append]
  dsimp only
  rw [List.all_append, hchars, hall]
  simp only [List.length_append, Bool.and_true, Bool.and_eq_true, decide_eq_true_eq]
  exact ⟨by decide, by omega⟩

theorem FamilyName.append {name ending : String} (h : FamilyName name) (hall : ending.toList.all isNameChar = true)
    (hlength : ending.toList.length ≤ 57) : isMetricName (name ++ ending) = true := by
  obtain ⟨cs, hcs, hchars, -, hle⟩ := h
  exact metricName_append hcs hchars hle hall hlength

theorem FamilyName.metricName {name : String} (h : FamilyName name) : isMetricName name = true := by
  have := h.append (show "".toList.all isNameChar = true by decide) (by decide)
  rwa [String.append_empty] at this

theorem FamilyName.withoutTotal_append {name ending : String} (h : FamilyName name)
    (hall : ending.toList.all isNameChar = true) (hlength : ending.toList.length ≤ 57) :
    isMetricName (withoutTotal name ++ ending) = true := by
  unfold withoutTotal
  split
  · obtain ⟨cs, hcs, hchars, hmore, hle⟩ := h
    refine @metricName_append _ _ (cs.take (cs.length - 6)) ?_ ?_ ?_ hall hlength
    · rw [String.toList_ofList, hcs, List.length_cons, Nat.sub_add_comm hmore, List.take_succ_cons]
    · rw [List.all_eq_true] at hchars ⊢
      exact fun c hc => hchars c (List.mem_of_mem_take hc)
    · rw [List.length_take]
      omega
  · exact h.append hall hlength

theorem familyName_literal {cs : List Char}
    (h : (cs.all isNameChar && decide (6 ≤ cs.length ∧ cs.length ≤ 70)) = true) :
    FamilyName (String.ofList ('v' :: cs)) := by
  rw [Bool.and_eq_true, decide_eq_true_eq] at h
  exact ⟨cs, String.toList_ofList, h⟩

theorem familyName_plain {cs : List Char}
    (h : (cs.all isNameChar && decide (2 ≤ cs.length ∧ cs.length ≤ 66)) = true) (kind : Kind) (unit : MetricUnit) :
    FamilyName (plain kind unit (String.ofList cs)).name := by
  rw [Bool.and_eq_true, decide_eq_true_eq] at h
  have hlist : (plain kind unit (String.ofList cs)).name.toList = 'v' :: 'l' :: 'l' :: 'm' :: ':' :: cs := by
    show ("vllm:" ++ String.ofList cs).toList = _
    rw [String.toList_append, String.toList_ofList]
    simp
  refine ⟨_, hlist, ?_, ?_, ?_⟩
  · simp only [List.all_cons, h.1]
    decide
  · simp only [List.length_cons]
    omega
  · simp only [List.length_cons]
    omega

set_option maxRecDepth 10000 in
theorem familyName_definition : ∀ d ∈ definitions, FamilyName d.name := by
  unfold definitions
  simp only [List.map_cons, List.map_nil, List.forall_mem_append, List.forall_mem_cons, List.not_mem_nil,
    IsEmpty.forall_iff, implies_true, and_true]
  and_intros
  all_goals first
    | with_reducible exact familyName_plain (by decide) _ _
    | exact familyName_literal (by decide)

/-- A list of distinct strings, each with the given property. -/
def nameList (maximum : Nat) (ok : String → Bool) (v : Json) : Checked (List String) :=
  match asList? v with
  | none    => .error .snapshotInvalid
  | some xs =>
    if xs.length ≤ maximum ∧ (xs.all (fun x => (x.asStr?).any ok)) = true ∧ (xs.filterMap Json.asStr?).Nodup
    then .ok (xs.filterMap Json.asStr?)
    else .error .snapshotInvalid

variable (F : FloatFormat)

/-- `item.get(stamp)`: `None`, or a time. -/
def stampOf (v : Json) : Checked (Option Num) :=
  if v.isNull then .ok none
  else do
    let x ← numOf v
    let _ ← numberOf F false maxTime x
    .ok (some x)

/-! ## Series -/

/-- The keys of an item of each kind. -/
def seriesKeys : Kind → List String
  | .gauges     => ["name", "labels", "unit", "sampleAt", "typeDeclared", "value"]
  | .counters   => ["name", "labels", "unit", "sampleAt", "typeDeclared", "value", "createdAt"]
  | .histograms => ["name", "labels", "unit", "sampleAt", "typeDeclared", "bounds", "counts", "count",
      "sum", "createdAt"]

/-- The labels of an item: strings under the names its family permits. -/
def labelsOf (family : Definition) (v : Json) : Checked Labels :=
  match v with
  | .dict kvs => do
    failIf (!(kvs.all (fun kv => family.extras.contains kv.1))) .snapshotInvalid
    failIf (!(kvs.all (fun kv => (kv.2.asStr?).any (fun s => s.utf8ByteSize ≤ 256)))) .snapshotInvalid
    .ok (sortLabels (kvs.filterMap (fun kv => kv.2.asStr?.map (fun s => (kv.1, s)))))
  | _         => .error .snapshotInvalid

/-- The key and family of an item: the checks before `series_key`. -/
def familyOf (kind : Kind) (item : Json) : Checked (Definition × Labels × Bool) := do
  failIf (!hasKeys (seriesKeys kind) item) .snapshotInvalid
  let typeDeclared ← match item.getOrNull "typeDeclared" with
    | .bool b => .ok b
    | _       => .error .snapshotInvalid
  match ((item.getOrNull "name").asStr?).bind definition? with
  | none        => .error .snapshotInvalid
  | some family => do
    failIf (family.kind ≠ kind) .snapshotInvalid
    let labels ← labelsOf family (item.getOrNull "labels")
    .ok (family, labels, typeDeclared)

/-- What `_validate_snapshot` remembers of the series it has seen. -/
abbrev Seen := List (EngineKey × SeriesKey)

/-- `MAX_SERIES` -/
def maxSeries : Nat := 2048

/-- The unit and the times of an item. -/
def headOf (family : Definition) (labels : Labels) (typeDeclared : Bool) (item : Json) :
    Checked Head := do
  failIf (!(item.getOrNull "unit").isStr family.unit.text) .snapshotInvalid
  let sampleAt ← stampOf F (item.getOrNull "sampleAt")
  let createdAt ← stampOf F (item.getOrNull "createdAt")
  .ok { family, labels, sampleAt, createdAt, typeDeclared }

/-- The checks of the value of a gauge or a counter. -/
def checkScalar (family : Definition) (x : Num) : Checked Unit := do
  let _ ← numberOf F (family.kind = .counters || family.unit = .requests) maxNumber x
  failIf (family.unit = .ratio && 1 < x.value) .ratioOutOfRange
  failIf (family.unit = .state && x.value ≠ 0 && x.value ≠ 1) .stateOutOfRange

def scalarOf (head : Head) (item : Json) : Checked Scalar := do
  let value ← numOf (item.getOrNull "value")
  checkScalar F head.family value
  .ok { head, value }

def boundOf : Json → Checked Bound
  | .str "+Inf" => .ok .inf
  | v           => (numOf v).map .num

def isBoundType (v : Json) : Bool := v.isStr "+Inf" || isNumberType v

def isInt : Json → Bool
  | .int _ => true
  | _      => false

def histogramOf (head : Head) (item : Json) : Checked Histogram := do
  let bounds ← snapshotList (item.getOrNull "bounds")
  let counts ← snapshotList (item.getOrNull "counts")
  failIf (!(bounds.all isBoundType && counts.all isInt && isInt (item.getOrNull "count")
    && isNumberType (item.getOrNull "sum"))) .snapshotInvalid
  let bounds ← bounds.mapM boundOf
  let counts ← counts.mapM numOf
  let count ← numOf (item.getOrNull "count")
  let sum ← numOf (item.getOrNull "sum")
  histogram F bounds counts (some count) (some sum)
  .ok { head, bounds, counts, count, sum }

/-- One item: its family and key, the check that the key is new, and the rest of it. -/
def seriesOf {S : Type} (kind : Kind) (rest : Head → Json → Checked S) (engine : EngineKey)
    (seen : Seen) (item : Json) : Checked (Seen × S) := do
  let (family, labels, typeDeclared) ← familyOf kind item
  let key := (engine, family.name, labels)
  failIf (seen.contains key || maxSeries ≤ seen.length) .snapshotInvalid
  let head ← headOf F family labels typeDeclared item
  let series ← rest head item
  .ok (key :: seen, series)

/-- The items of one kind of one engine. -/
def seriesList {S : Type} (kind : Kind) (rest : Head → Json → Checked S) (engine : EngineKey) :
    Seen → List Json → Checked (Seen × List S)
  | seen, []            => .ok (seen, [])
  | seen, item :: items => do
    let (seen, series) ← seriesOf F kind rest engine seen item
    let (seen, all) ← seriesList kind rest engine seen items
    .ok (seen, series :: all)

/-! ## Engines and the snapshot -/

def engineKeys : List String :=
  ["modelName", "engineId", "gauges", "counters", "histograms", "notReportedMetricNames"]

def engineOf (engines : List EngineKey) (seen : Seen) (group : Json) : Checked (Seen × Engine) := do
  failIf (!hasKeys engineKeys group) .snapshotInvalid
  let modelName ← textOf (group.getOrNull "modelName")
  let engineId ← textOf (group.getOrNull "engineId")
  let key := (modelName, engineId)
  failIf (engines.contains key) .snapshotDuplicateEngine
  let notReported ← nameList definitions.length definitionNames.contains
    (group.getOrNull "notReportedMetricNames")
  let gauges ← snapshotList (group.getOrNull "gauges")
  let (seen, gauges) ← seriesList F .gauges (scalarOf F) key seen gauges
  let counters ← snapshotList (group.getOrNull "counters")
  let (seen, counters) ← seriesList F .counters (scalarOf F) key seen counters
  let histograms ← snapshotList (group.getOrNull "histograms")
  let (seen, histograms) ← seriesList F .histograms (histogramOf F) key seen histograms
  .ok (seen, { modelName, engineId, gauges, counters, histograms, notReported })

def engineList (engines : List EngineKey) (seen : Seen) : List Json → Checked (List Engine)
  | []              => .ok []
  | group :: groups => do
    let (seen, engine) ← engineOf F engines seen group
    let all ← engineList (engine.key :: engines) seen groups
    .ok (engine :: all)

/-- `MAX_UNKNOWN_METRICS` and `MAX_ENGINE_GROUPS` -/
def maxUnknownMetrics : Nat := 128
def maxEngineGroups : Nat := 32

def snapshotKeys : List String :=
  ["version", "observedAt", "sourceState", "identity", "engines", "unsupportedMetricNames",
    "notReportedMetricNames"]

/-- `_validate_snapshot`, with the snapshot it has checked. -/
def validateSnapshot (v : Json) : Checked Snapshot := do
  failIf ((v.getOrNull "version").asInt? ≠ some 1) .snapshotInvalid
  match ((v.getOrNull "sourceState").asStr?).bind SourceState.ofText with
  | none             => .error .snapshotInvalid
  | some sourceState => do
    failIf (!hasKeys snapshotKeys v) .snapshotInvalid
    let identity ← identityOf (v.getOrNull "identity")
    let observedAt ← numOf (v.getOrNull "observedAt")
    let _ ← numberOf F false maxTime observedAt
    let unsupported ← nameList maxUnknownMetrics isMetricName (v.getOrNull "unsupportedMetricNames")
    let notReported ← nameList definitions.length
      (fun name => isMetricName name && definitionNames.contains name)
      (v.getOrNull "notReportedMetricNames")
    let groups ← snapshotList (v.getOrNull "engines")
    failIf (maxEngineGroups < groups.length) .snapshotInvalid
    failIf (sourceState ≠ .observed && !groups.isEmpty) .snapshotInvalid
    let engines ← engineList F [] [] groups
    .ok { observedAt, sourceState, identity, engines, unsupported, notReported }

end Metrics
end PickleInfra
