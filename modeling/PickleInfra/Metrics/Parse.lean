import PickleInfra.Metrics.Document
import PickleInfra.Python.JsonText
import PickleInfra.Python.Str

/-!
# `Metrics.Parse` — `parse_snapshot`, the reader of the Prometheus text format

A text is split into lines, every line of a known name is scanned by `_sample` (name, braces, labels,
value and time), and what it says is entered under its engine and series. At the end the entries are
sorted, and every histogram is checked.
-/

namespace PickleInfra
namespace Metrics

open Python Python.Text Python.Str

/-! ## The machine -/

/-- The floats with their texts: `Decimal(str(x))` is the decimal of what `repr` prints. -/
structure Machine extends FloatFormat where
  repr : ℚ → Numeral
  /-- What `_number` accepts is not rounded to infinity. -/
  round_finite : ∀ x, 0 ≤ x → x ≤ 10 ^ 300 → |round x| < 2 ^ 1024
  repr_isJson : ∀ x, |round x| < 2 ^ 1024 → (repr (round x)).IsJson
  repr_float : ∀ x, |round x| < 2 ^ 1024 → (repr (round x)).isIntegral = false
  printed_repr : ∀ x, |round x| < 2 ^ 1024 → printed (round x) = (repr (round x)).value

/-- The machine's floats in JSON texts. -/
def Machine.text (M : Machine) : FloatText where
  round := M.round
  repr := M.repr
  repr_isJson := M.repr_isJson
  repr_float := M.repr_float
  round_repr x hx := by rw [← M.printed_repr x hx, M.round_printed]

/-! ## Numbers -/

/-- The exponents a `Decimal` can have; the constructor raises `InvalidOperation` for others. -/
def decimalFits (n : Numeral) : Bool :=
  n.coefficient = 0
    || (-1999999999999999997 ≤ n.power
        && n.power + (Nat.toDigits 10 n.coefficient).length - 1 ≤ 999999999999999999)

variable (F : FloatFormat)

/-- `_number` on a text. -/
def numberOfText (count : Bool) (maximum : ℚ) (cs : List Char) : Checked Num := do
  failIf (128 < cs.length) .numberTooLong
  match Numeral.parse cs with
  | none   => .error .numberInvalid
  | some n => do
    failIf (!decimalFits n) .numberInvalid
    numberOfDecimal F count maximum n.value

/-! ## Labels -/

/-- `[a-zA-Z_][a-zA-Z0-9_]*`, `LABEL` -/
def isLabelStart (c : Char) : Bool := isLower c || isUpper c || c = '_'
def isLabelChar (c : Char) : Bool := isLabelStart c || isDigit c

/-- The longest match of a name at the start of the text, and what follows. -/
def matchName (first rest : Char → Bool) (cs : List Char) : Option (List Char × List Char) :=
  match cs with
  | c :: _ => if first c then some (cs.takeWhile rest, cs.dropWhile rest) else none
  | []     => none

def skipSpace (cs : List Char) : List Char := cs.dropWhile isSpace

/-- `{'\\': '\\', '"': '"', 'n': '\n'}` -/
def unescape (c : Char) : Option Char :=
  if c = '\\' then some '\\' else if c = '"' then some '"' else if c = 'n' then some '\n' else none

/-- The characters of a label value up to its closing quote, and what follows it. -/
def scanLabelValue : List Char → Checked (List Char × List Char)
  | []      => .error .labelSyntaxInvalid
  | c :: cs =>
    if c = '"' then .ok ([], cs)
    else if c = '\\' then
      match cs with
      | []      => .error .labelEscapeInvalid
      | e :: cs =>
        match unescape e with
        | none   => .error .labelEscapeInvalid
        | some c => (scanLabelValue cs).map fun (value, cs) => (c :: value, cs)
    else (scanLabelValue cs).map fun (value, cs) => (c :: value, cs)

/-- `if pos == len(text) or text[pos] != c: _fail('LABEL_SYNTAX_INVALID')`, and past it. -/
def expectChar (c : Char) (cs : List Char) : Checked (List Char) :=
  match Numeral.dropChar? c cs with
  | some cs => .ok cs
  | none    => .error .labelSyntaxInvalid

/-- `MAX_LABEL_BYTES` -/
def maxLabelBytes : Nat := 256

/-- The name and value of one label, and what follows the closing quote. -/
def scanLabel (result : Labels) (cs : List Char) : Checked ((String × String) × List Char) := do
  match matchName isLabelStart isLabelChar cs with
  | none             => .error .labelSyntaxInvalid
  | some (name, cs) => do
    let cs ← expectChar '=' (skipSpace cs)
    let cs ← expectChar '"' (skipSpace cs)
    let (value, cs) ← scanLabelValue cs
    let name := String.ofList name
    let value := String.ofList value
    failIf ((result.map Prod.fst).contains name) .duplicateLabel
    failIf (maxLabelBytes < value.utf8ByteSize || 8 ≤ result.length) .labelLimitExceeded
    .ok ((name, value), cs)

/-- The loop of `_labels`. An iteration consumes a label, so the length of the text is enough fuel. -/
def labelsFrom : Nat → Labels → List Char → Checked Labels
  | 0, _, _            => .error .labelSyntaxInvalid
  | fuel + 1, result, cs => do
    let cs := skipSpace cs
    if cs.isEmpty then .ok result
    else do
      let (label, cs) ← scanLabel result cs
      let result := result ++ [label]
      let cs := skipSpace cs
      if cs.isEmpty then .ok result
      else do
        let cs ← expectChar ',' cs
        labelsFrom fuel result cs

/-- `_labels` -/
def labels (cs : List Char) : Checked Labels := labelsFrom (cs.length + 1) [] cs

/-! ## Sample lines -/

/-- The text up to the closing brace, and what follows it. -/
def scanBraces (quoted escaped : Bool) : List Char → Option (List Char × List Char)
  | []      => none
  | c :: cs =>
    if !escaped && c = '}' && !quoted then some ([], cs)
    else
      let quoted' := if !escaped && c = '"' then !quoted else quoted
      let escaped' := !escaped && c = '\\' && quoted
      (scanBraces quoted' escaped' cs).map fun (inside, cs) => (c :: inside, cs)

/-- What a line says, before its numbers are read. -/
structure Sample where
  name : String
  labels : Labels
  rawValue : List Char
  sampleAt : Option Num
deriving DecidableEq, Repr

/-- `NAME.match(line)`, of at most 128 characters. -/
def scanName (line : List Char) : Checked (List Char × List Char) :=
  match matchName isNameStart isNameChar line with
  | none              => .error .sampleSyntaxInvalid
  | some (name, rest) => do
    failIf (128 < name.length) .sampleSyntaxInvalid
    .ok (name, rest)

/-- The labels in braces, if there are braces. -/
def scanLabels (cs : List Char) : Checked (Labels × List Char) :=
  match Numeral.dropChar? '{' cs with
  | none    => .ok ([], cs)
  | some cs =>
    match scanBraces false false cs with
    | none              => .error .sampleSyntaxInvalid
    | some (inside, cs) => (labels inside).map fun found => (found, cs)

/-- The time of a sample: milliseconds in the text, seconds in the snapshot. -/
def sampleTime (cs : List Char) : Checked Num := do
  let x ← numberOfText F false (10 ^ 15) cs
  .ok (.float (F.round (x.value / 1000)))

/-- `_sample` -/
def sample (line : List Char) : Checked Sample := do
  let (name, cs) ← scanName line
  let (found, cs) ← scanLabels cs
  failIf (!(cs.head?.any isSpace)) .sampleSyntaxInvalid
  let name := String.ofList name
  match words cs with
  | [value]       => .ok { name, labels := found, rawValue := value, sampleAt := none }
  | [value, time] => do
    let time ← sampleTime F time
    .ok { name, labels := found, rawValue := value, sampleAt := some time }
  | _             => .error .sampleSyntaxInvalid

/-! ## What has been read so far -/

/-- A histogram before its samples are complete; the times are a set. -/
structure RawHistogram where
  buckets : List (Bound × Num) := []
  timestamps : List (Option Num) := []
  count : Option Num := none
  sum : Option Num := none
deriving DecidableEq, Repr

/-- A gauge or counter, as it was read. -/
structure RawScalar where
  value : Num
  sampleAt : Option Num
deriving DecidableEq, Repr

structure Group where
  gauges : Dict SeriesKey RawScalar := Dict.empty
  counters : Dict SeriesKey RawScalar := Dict.empty
  histograms : Dict SeriesKey RawHistogram := Dict.empty

/-- The dictionaries and sets of `parse_snapshot`. -/
structure Reading where
  groups : Dict EngineKey Group := Dict.empty
  types : Dict String String := Dict.empty
  created : Dict (EngineKey × SeriesKey) Num := Dict.empty
  unknown : List String := []
  seen : List (String × Labels) := []

/-- `labels.get(name)` -/
def labelOf (labels : Labels) (name : String) : Option String := Dict.lookup name labels

/-- The labels a sample of the part may have. -/
def permitted (family : Definition) (part : Part) : List String :=
  ["model_name", "engine"] ++ family.extras ++ (if part = .bucket then ["le"] else [])

/-- The checks of the labels, and the engine they name. -/
def engineOfLabels (family : Definition) (part : Part) (labels : Labels) : Checked EngineKey := do
  failIf (labels.any (fun l => !(permitted family part).contains l.1)) .labelsUnsupported
  match labelOf labels "model_name", labelOf labels "engine" with
  | some model, some engine => do
    failIf (model.isEmpty || engine.isEmpty || (part = .bucket && (labelOf labels "le").isNone))
      .labelsUnsupported
    let model ← Metrics.text model
    let engine ← Metrics.text engine
    .ok (model, engine)
  | _, _                    => .error .labelsUnsupported

/-- `{key: labels[key] for key in sorted(extras) if key in labels}` -/
def otherLabels (family : Definition) (labels : Labels) : Labels :=
  (family.extras.insertionSort (· ≤ ·)).filterMap fun key => (labelOf labels key).map fun v => (key, v)

/-- The group of an engine, which is new if it has not been seen. -/
def groupOf (r : Reading) (engine : EngineKey) : Checked Group :=
  match r.groups.get? engine with
  | some group => .ok group
  | none       => do
    failIf (maxEngineGroups ≤ r.groups.size) .engineLimitExceeded
    .ok {}

/-- The checks of a gauge or a counter, and its value. -/
def scalarValue (family : Definition) (raw : List Char) : Checked Num := do
  let x ← numberOfText F (family.kind = .counters || family.unit = .requests) maxNumber raw
  failIf (family.unit = .ratio && 1 < x.value) .ratioOutOfRange
  failIf (family.unit = .state && x.value ≠ 0 && x.value ≠ 1) .stateOutOfRange
  .ok x

/-- The bound of a bucket. -/
def boundOfText (le : String) : Checked Bound :=
  if le = "+Inf" then .ok .inf else (numberOfText F false maxNumber le.toList).map .num

/-- A part of a histogram is entered. -/
def addPart (h : RawHistogram) (part : Part) (labels : Labels) (raw : List Char) :
    Checked RawHistogram := do
  match part with
  | .bucket => do
    let bound ← boundOfText F ((labelOf labels "le").getD "")
    failIf ((h.buckets.map (fun b => b.1.value)).contains bound.value) .duplicateHistogramBoundary
    let x ← numberOfText F true maxNumber raw
    let buckets := h.buckets ++ [(bound, x)]
    failIf (maxBuckets < buckets.length) .bucketLimitExceeded
    .ok { h with buckets }
  | .count  => do
    let x ← numberOfText F true maxNumber raw
    .ok { h with count := some x }
  | _       => do
    let x ← numberOfText F false maxNumber raw
    .ok { h with sum := some x }

/-- The value of a sample is entered under its series. -/
def addValue (group : Group) (family : Definition) (part : Part) (key : SeriesKey) (s : Sample) :
    Checked Group :=
  match family.kind with
  | .gauges     => do
    let value ← scalarValue F family s.rawValue
    .ok { group with gauges := group.gauges.set key { value, sampleAt := s.sampleAt } }
  | .counters   => do
    let value ← scalarValue F family s.rawValue
    .ok { group with counters := group.counters.set key { value, sampleAt := s.sampleAt } }
  | .histograms => do
    let h := (group.histograms.get? key).getD {}
    let h := if h.timestamps.contains s.sampleAt then h
      else { h with timestamps := h.timestamps ++ [s.sampleAt] }
    let h ← addPart F h part s.labels s.rawValue
    .ok { group with histograms := group.histograms.set key h }

/-- A sample of a known name. -/
def addSample (r : Reading) (family : Definition) (part : Part) (s : Sample) : Checked Reading := do
  let engine ← engineOfLabels family part s.labels
  let key := (s.name, sortLabels s.labels)
  failIf (r.seen.contains key) .duplicateSeries
  let seen := key :: r.seen
  failIf (maxSeries < seen.length) .seriesLimitExceeded
  let group ← groupOf r engine
  let series : SeriesKey := (family.name, otherLabels family s.labels)
  if part = .created then do
    let x ← numberOfText F false maxTime s.rawValue
    .ok { r with seen, groups := r.groups.set engine group, created := r.created.set (engine, series) x }
  else do
    let group ← addValue F group family part series s
    .ok { r with seen, groups := r.groups.set engine group }

/-! ## Lines -/

/-- What follows `#\s*TYPE` in a line, if that is how it starts and white space or the end follows. -/
def typeDeclaration? (line : List Char) : Option (List Char) :=
  match Numeral.dropChar? '#' line with
  | none      => none
  | some rest =>
    match JsonText.dropWord? ['T', 'Y', 'P', 'E'] (skipSpace rest) with
    | none      => none
    | some rest => if rest.head?.all isSpace then some rest else none

/-- A `# TYPE` line. -/
def addType (r : Reading) (declaration : List Char) : Checked Reading :=
  match words declaration with
  | [family, declared] => do
    let family := String.ofList family
    let declared := String.ofList declared
    failIf (!isMetricName family) .typeSyntaxInvalid
    failIf ((r.types.get? family).any (· ≠ declared)) .typeMismatch
    .ok { r with types := r.types.set family declared }
  | _                  => .error .typeSyntaxInvalid

/-- `MAX_LINE_BYTES` -/
def maxLineBytes : Nat := 16384

def utf8Length (cs : List Char) : Nat := (String.ofList cs).utf8ByteSize

/-- A line after it was stripped. -/
def addLine (r : Reading) (line : List Char) : Checked Reading :=
  if line.isEmpty then .ok r
  else if line.head? = some '#' then
    match typeDeclaration? line with
    | some declaration => addType r declaration
    | none             => .ok r
  else do
    let (name, _) ← scanName line
    match sample? (String.ofList name) with
    | none                => do
      let unknown := r.unknown.insert (String.ofList name)
      failIf (maxUnknownMetrics < unknown.length) .unknownMetricLimitExceeded
      .ok { r with unknown }
    | some (family, part) => do
      let s ← sample F line
      addSample F r family part s

/-- The loop over the lines. -/
def addLines (r : Reading) : List (List Char) → Checked Reading
  | []            => .ok r
  | line :: lines => do
    failIf (maxLineBytes < utf8Length line) .lineLimitExceeded
    let r ← addLine F r (strip line)
    addLines r lines

/-! ## The snapshot -/

/-- Lexicographic order of series keys. -/
def labelLe (a b : String × String) : Bool := a.1 < b.1 || (a.1 = b.1 && a.2 ≤ b.2)

def labelsLe : Labels → Labels → Bool
  | [], _           => true
  | _ :: _, []      => false
  | a :: as, b :: bs => if a = b then labelsLe as bs else labelLe a b

def SeriesKey.le (a b : SeriesKey) : Bool := a.1 < b.1 || (a.1 = b.1 && labelsLe a.2 b.2)

def Kind.typeName : Kind → String
  | .gauges     => "gauge"
  | .counters   => "counter"
  | .histograms => "histogram"

/-- The checks and the common fields of a series. -/
def finishHead (r : Reading) (kind : Kind) (engine : EngineKey) (key : SeriesKey) (sampleAt : Option Num) :
    Checked Head :=
  match definition? key.1 with
  | none        => .error .typeMismatch
  | some family => do
    failIf ((r.types.get? family.name).any (· ≠ kind.typeName)) .typeMismatch
    .ok { family, labels := key.2, sampleAt
          createdAt := if kind = .gauges then none else r.created.get? (engine, key)
          typeDeclared := (r.types.get? family.name).isSome }

def finishScalar (r : Reading) (kind : Kind) (engine : EngineKey) (entry : SeriesKey × RawScalar) :
    Checked Scalar := do
  let head ← finishHead r kind engine entry.1 entry.2.sampleAt
  .ok { head, value := entry.2.value }

/-- The buckets in the order of their bounds, `'+Inf'` last. -/
def boundLe (a b : Bound) : Bool :=
  match a, b with
  | _, .inf        => true
  | .inf, .num _   => false
  | .num x, .num y => x.value ≤ y.value

def finishHistogram (r : Reading) (engine : EngineKey) (entry : SeriesKey × RawHistogram) :
    Checked Histogram := do
  let head ← finishHead r .histograms engine entry.1 none
  match entry.2.timestamps with
  | [sampleAt] => do
    let buckets := entry.2.buckets.insertionSort (fun a b => boundLe a.1 b.1 = true)
    let bounds := buckets.map Prod.fst
    let counts := buckets.map Prod.snd
    histogram F bounds counts entry.2.count entry.2.sum
    match entry.2.count, entry.2.sum with
    | some count, some sum => .ok { head := { head with sampleAt }, bounds, counts, count, sum }
    | _, _                 => .error .histogramIncomplete
  | _          => .error .histogramTimestampMismatch

/-- `sorted(values.items())` -/
def sortedEntries {V : Type} (d : Dict SeriesKey V) : List (SeriesKey × V) :=
  d.entries.insertionSort (fun a b => SeriesKey.le a.1 b.1 = true)

/-- `sorted(set(DEFINITIONS) - present)` -/
def notReportedNames (present : List String) : List String :=
  (definitionNames.filter (fun name => !present.contains name)).insertionSort (· ≤ ·)

/-- The families of the series of a group. -/
def Engine.present (e : Engine) : List String :=
  e.gauges.map (fun s => s.head.family.name) ++ e.counters.map (fun s => s.head.family.name)
    ++ e.histograms.map (fun s => s.head.family.name)

def finishGroup (r : Reading) (entry : EngineKey × Group) : Checked Engine := do
  let gauges ← (sortedEntries entry.2.gauges).mapM (finishScalar r .gauges entry.1)
  let counters ← (sortedEntries entry.2.counters).mapM (finishScalar r .counters entry.1)
  let histograms ← (sortedEntries entry.2.histograms).mapM (finishHistogram F r entry.1)
  let e : Engine := { modelName := entry.1.1, engineId := entry.1.2, gauges, counters, histograms
                      notReported := [] }
  .ok { e with notReported := notReportedNames e.present }

/-- `for name, _ in seen`: a `_created` sample is declared a gauge, if at all. -/
def createdTypes (r : Reading) : Checked Unit :=
  failIf (r.seen.any fun s => ((sample? s.1).map Prod.snd) = some .created
    && (r.types.get? s.1).any (· ≠ "gauge")) .typeMismatch

/-- The groups with at least one series, in the order of their keys. -/
def finishGroups (r : Reading) : Checked (List Engine) := do
  let entries := r.groups.entries.insertionSort (fun a b => EngineKey.le a.1 b.1 = true)
  let engines ← entries.mapM (finishGroup F r)
  .ok (engines.filter fun e => !e.present.isEmpty)

/-- What is passed as `payload`: a `str` may have characters that no encoding has. -/
inductive Payload where
  | absent
  | str (s : String)
  | surrogates
  | bytes (b : ByteArray)
  | other

/-- `MAX_PAYLOAD_BYTES` and `MAX_LINES` -/
def maxPayloadBytes : Nat := 512 * 1024
def maxLines : Nat := 16384

/-- The text of a payload. -/
def Payload.decode : Payload → Checked String
  | .str s      => do
    failIf (maxPayloadBytes < s.utf8ByteSize) .payloadTooLarge
    .ok s
  | .bytes b    => do
    failIf (maxPayloadBytes < b.size) .payloadTooLarge
    match String.fromUTF8? b with
    | some s => .ok s
    | none   => .error .payloadEncodingInvalid
  | .surrogates => .error .payloadEncodingInvalid
  | _           => .error .payloadInvalid

def Payload.isNone : Payload → Bool
  | .absent => true
  | _       => false

/-- The engines and the names of unknown metrics in a text. -/
def readText (text : String) : Checked (List Engine × List String) := do
  let lines := splitlines text.toList
  failIf (maxLines < lines.length) .lineLimitExceeded
  let r ← addLines F {} lines
  createdTypes r
  let engines ← finishGroups F r
  .ok (engines, r.unknown.insertionSort (· ≤ ·))

/-- `type(value) in (int, float)`; the text of a float that is not finite is no number. -/
def observationTime (v : Json) : Checked Num :=
  match Num.ofJson v, v with
  | some x, _      => numberOf F false maxTime x
  | none, .float _ => .error .numberInvalid
  | none, _        => .error .observationTimeInvalid

/-- The size of `json.dumps(result, ...)` in UTF-8. -/
def documentSize (M : Machine) (s : Snapshot) : Nat := utf8Length (JsonText.text M.text s.toJson)

/-- `parse_snapshot` -/
def parseSnapshot (M : Machine) (payload : Payload) (observedAt identity sourceState : Json) :
    Checked Snapshot := do
  match (sourceState.asStr?).bind SourceState.ofText with
  | none             => .error .sourceStateInvalid
  | some sourceState => do
    let observedAt ← observationTime M.toFloatFormat observedAt
    let identity ← identityOf identity
    let result : Snapshot := { observedAt, sourceState, identity, engines := [], unsupported := []
                               notReported := notReportedNames [] }
    if sourceState ≠ .observed then do
      failIf (!payload.isNone) .sourceStateValueConflict
      .ok result
    else do
      let text ← payload.decode
      let (engines, unsupported) ← readText M.toFloatFormat text
      let result := { result with engines, unsupported
                                  notReported := notReportedNames (engines.flatMap Engine.present) }
      failIf (maxPayloadBytes < documentSize M result) .snapshotTooLarge
      .ok result

end Metrics
end PickleInfra
