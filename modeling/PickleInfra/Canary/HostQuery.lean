import PickleInfra.Metrics.Number
import PickleInfra.Python.Equality
import PickleInfra.Python.FloatLiteral

/-!
# `Canary.HostQuery` — the host query of `llm-health-probe.py`

A probe asks the engine for its metrics and keeps one number per known name: the sum over all label sets. The next
probe compares the sums. The answers of the host, of the health check and of the metrics endpoint are inputs.
-/

namespace PickleInfra
namespace Canary

open Python
open Metrics (FloatFormat)

/-- The exceptions: `HealthError` with its text, and those of the language. -/
abbrev ProbeExn := Exn String

/-! ## `parse_metrics` -/

/-- `METRICS` -/
def METRICS : List (String × String) :=
  [("vllm:generation_tokens_total", "generation_tokens"), ("vllm:prompt_tokens_total", "prompt_tokens"),
    ("vllm:num_requests_running", "running"), ("vllm:num_requests_waiting", "waiting"),
    ("vllm:kv_cache_usage_perc", "kv_cache_usage")]

/-- A line with a value: the name, what stands between the braces where there are any, and the value. -/
structure SampleLine where
  name : String
  labels : Option (List Char)
  value : List Char
deriving DecidableEq, Repr

def isNameStart (c : Char) : Bool := Text.isLower c || Text.isUpper c || c = '_' || c = ':'

def isNameChar (c : Char) : Bool := isNameStart c || Text.isDigit c

/-- The end of a text without white space, and what precedes the white space before it. -/
def lastWord (cs : List Char) : List Char × List Char :=
  let word := (cs.reverse.takeWhile fun c => !Str.isSpace c).reverse
  (word, ((cs.reverse.dropWhile fun c => !Str.isSpace c).dropWhile Str.isSpace).reverse)

/-- `re.fullmatch(r'([a-zA-Z_:][a-zA-Z0-9_:]*)(?:\{[^\n]*\})?\s+([^\s]+)', line)` -/
def sampleLine (line : List Char) : Option SampleLine :=
  let name := line.takeWhile isNameChar
  let rest := line.dropWhile isNameChar
  let (value, body) := lastWord rest
  if !(name.head?.any isNameStart) || value.isEmpty || value.length = rest.length then none
  else match body with
    | []      => some { name := String.ofList name, labels := none, value }
    | c :: cs =>
      if c = Char.ofNat 123 ∧ cs.getLast? = some (Char.ofNat 125) ∧ '\n' ∉ cs
      then some { name := String.ofList name, labels := some cs.dropLast, value } else none

variable (F : FloatFormat)

/-- The value of a line, which is a finite number that is not negative. -/
def sampleValue (value : List Char) : Except ProbeExn ℚ :=
  match FloatLiteral.float F.round value with
  | some (.finite q) => if q < 0 then .error (.own "METRIC_VALUE_INVALID") else .ok q
  | some _           => .error (.own "METRIC_VALUE_INVALID")
  | none             => .error .valueError

/-- `result[name] = result.get(name, 0) + number` -/
def addSample (result : List (String × ℚ)) (name : String) (number : ℚ) : List (String × ℚ) :=
  Dict.assign name (F.round ((Dict.lookup name result).getD 0 + number)) result

/-- One round of the loop of `parse_metrics`. -/
def readLine (result : List (String × ℚ)) (line : List Char) : Except ProbeExn (List (String × ℚ)) :=
  match sampleLine line with
  | none   => .ok result
  | some s =>
    match Dict.lookup s.name METRICS with
    | none      => .ok result
    | some name => (sampleValue F s.value).map (addSample F result name)

/-- `parse_metrics` -/
def parseMetrics (text : List Char) : Except ProbeExn (List (String × ℚ)) :=
  (Str.splitlines text).foldlM (readLine F) []

/-! ## `counters` -/

/-- What `budget.json` keeps of the metrics. -/
structure Scraped where
  metrics : List (String × ℚ)
  bootId : Json

/-- What `counters` adds to the report. -/
structure Counters where
  counterReset : Bool
  generationCounterDelta : Option ℚ
deriving DecidableEq, Repr

/-- `counters`: the report, and what is kept. -/
def counters (state : Option Scraped) (metrics : List (String × ℚ)) (bootId : Json) : Counters × Scraped :=
  let old := state.bind fun s => Dict.lookup "generation_tokens" s.metrics
  let current := Dict.lookup "generation_tokens" metrics
  let sameBoot := state.any fun s => s.bootId.equal bootId
  (match old, current with
    | some old, some current =>
      if sameBoot && old ≤ current then ⟨false, some (F.round (current - old))⟩ else ⟨true, none⟩
    | _, _                   => ⟨true, none⟩,
   { metrics, bootId })

/-! ## The probe -/

/-- What the worker that asks for the metrics met: a response of status 200, another one, or a failure. -/
inductive MetricsAnswer where
  | page (text : List Char)
  | refused
  | failed (reason : String)

/-- `metrics` and `metrics_status` of `transport`, or the reason there are none. A sum that is infinite cannot be
    printed, so the worker fails. -/
def metricsOf : MetricsAnswer → Except String (List (String × ℚ))
  | .failed reason => .error reason
  | .refused       => .ok []
  | .page text     =>
    match parseMetrics F text with
    | .error _    => .error "UPSTREAM_RESPONSE_INVALID"
    | .ok metrics => if metrics.all fun m => m.2 < 2 ^ 1024 then .ok metrics else .error "HTTP_WORKER_FAILED"

/-- The answers a host query gets. -/
structure HostAnswers where
  host : List (String × Json)
  check : List (String × Json)
  metrics : MetricsAnswer

/-- The report of a host query, its metrics apart. -/
structure HostReport where
  fields : List (String × Json)
  metrics : List (String × ℚ)
  counters : Option Counters

/-- `host.get('boot_id', 'unknown')` -/
def HostAnswers.bootId (a : HostAnswers) : Json := (Json.lookup "boot_id" a.host).getD (.str "unknown")

/-- What `transport` adds about the metrics. They are asked for after a check that succeeded. -/
def metricsFields (a : HostAnswers) : List (String × Json) × List (String × ℚ) :=
  if (Json.dict a.check).getOrNull "status" = .str "HEALTHY" then
    match metricsOf F a.metrics with
    | .ok metrics   => ([("metrics_status", .str (if metrics.isEmpty then "UNSUPPORTED" else "SUPPORTED"))], metrics)
    | .error reason => ([("metrics_status", .str "OBSERVER_ERROR"), ("metrics_reason", .str reason)], [])
  else ([], [])

/-- `probe` of kind `host-query`, at a time that is not before the last one: the report, and what is kept of the
    metrics. -/
def hostQuery (source : String) (state : Option Scraped) (now : ℚ) (a : HostAnswers) :
    HostReport × Option Scraped :=
  let (telemetry, metrics) := metricsFields F a
  let fields := Json.merge (Json.merge
    [("version", .int 1), ("source", .str source), ("kind", .str "host-query"), ("observed_at", .float (.finite now)),
      ("host", .dict a.host)] a.check) telemetry
  let loading := (Json.dict fields).getOrNull "status" = .str "FAILED" &&
    (Json.dict a.host).getOrNull "status" = .str "LOADING"
  let fields := if loading then
    Json.merge fields [("status", .str "LOADING"), ("reason", .str "COLD_LOADING_GRACE")] else fields
  if metrics.isEmpty then ({ fields, metrics, counters := none }, state)
  else
    let (report, kept) := counters F state metrics a.bootId
    ({ fields, metrics, counters := some report }, some kept)

end Canary
end PickleInfra
