import PickleInfra.Health.Heartbeat
import PickleInfra.Python.Fields

/-!
# `Transport.Envelope` — the sanitizers of `lib/health_result_transport.py`

`sanitize_policy` and `sanitize_report` rebuild a document from the fields they know, and `inspect_envelope`
checks the bundle that the reader printed, and sanitizes every part of it at the clock of the importer.
-/

namespace PickleInfra
namespace Transport

open Python Health

/-! ## The vocabulary -/

def SOURCES : List String :=
  ["host-query", "local-generation", "upstream-generation", "public-console", "public-api",
    "public-development", "public-generation", "collector-heartbeat", "public-tls-production",
    "public-tls-development", "public-tls-gateway", "public-staging", "public-tls-staging",
    "public-staging-expiry-warning", "staging-access-policy"]

def KINDS : List String :=
  ["host-query", "generation", "public-http", "public-generation", "observer-report", "tls",
    "tls-expiry-warning", "access-policy"]

/-- `STATES` of `lib/llm_health.py` -/
def STATES : List String := ["HEALTHY", "FAILED", "LOADING", "OBSERVER_ERROR", "BUDGET_LIMIT"]

def NUMBERS : List (String × Int) :=
  [("latency_seconds", 3600), ("certificate_remaining_seconds", 366 * 86400), ("completion_tokens", 128),
    ("prompt_tokens", 4096), ("generation_counter_delta", 10 ^ 15)]

def HOST_NUMBERS : List (String × Int) :=
  [("host_available_bytes", 2 ^ 60), ("host_total_bytes", 2 ^ 60), ("gpu_temperature_c", 200),
    ("gpu_utilization_percent", 100), ("gpu_memory_total_mib", 2 ^ 40)]

def METRICS : List String := ["generation_tokens", "prompt_tokens", "running", "waiting", "kv_cache_usage"]

def POLICY_KIND : String := "selfhost-only-diagnostic-identity-v1"

def POLICY_REASONS : List String :=
  ["POLICY_OBSERVATION_FAILED", "POLICY_MISMATCH", "QUOTA_EXHAUSTED", "GATEWAY_NOT_READY",
    "POLICY_TRANSPORT_UNAVAILABLE"]

def POLICY_PROBE : List (String × Int) :=
  [("maximum_output_tokens", 8), ("maximum_daily_requests", 312), ("minimum_interval_seconds", 300),
    ("total_timeout_seconds", 20)]

/-- The limits of `server_enforced`. -/
def SERVER_LIMITS : List (String × Int) :=
  [("maximum_paid_credits", 0), ("maximum_daily_tokens", 64000), ("requests_per_minute", 1),
    ("maximum_concurrency", 1)]

/-- The last second that a time may name. -/
def maxTime : ℚ := 4102444800

/-- `MAX_JSON` -/
def MAX_JSON : Nat := 65536

/-- `SAFE_REASON.fullmatch` -/
def safeReason : String → Bool :=
  Text.fullmatchFirst Text.isUpper (fun c => Text.isUpper c || Text.isDigit c || c = '_') 63

/-! ## Policy attestations -/

/-- `invalid_policy`, of a clock that `epoch` accepts. -/
def invalidPolicy (now : ℚ) : Json :=
  .dict [("kind", .str POLICY_KIND), ("valid", .bool false), ("reason", .str "POLICY_TRANSPORT_UNAVAILABLE"),
    ("issued_at", time now), ("expires_at", time now)]

/-- `[a-z0-9](?:[a-z0-9-]{0,61}[a-z0-9])?` -/
def isLabel (label : List Char) : Bool :=
  let alnum := fun c => Text.isLower c || Text.isDigit c
  label.all (fun c => alnum c || c = '-') && label.head?.any alnum && label.getLast?.any alnum
    && decide (label.length ≤ 63)

/-- `(?=.{1,253}$)(?:label\.)+[a-z]{2,63}` -/
def isHostname (name : List Char) : Bool :=
  let labels := name.splitOn '.'
  decide (name.length ≤ 253) && decide (2 ≤ labels.length) && labels.dropLast.all isLabel
    && labels.getLast?.any fun top => top.all Text.isLower && decide (2 ≤ top.length) && decide (top.length ≤ 63)

/-- The checks of `gateway_origin`. It has to be `https://` followed by what `urlsplit` returns as its host
    name, and such a text has no port, user, path, query or fragment. -/
def isOrigin (origin : String) : Bool :=
  decide (9 ≤ origin.length) && decide (origin.length ≤ 261)
    && origin.toList.take 8 = "https://".toList && isHostname (origin.toList.drop 8)

/-- `[a-z][a-z0-9-]{0,63}` -/
def isModel : String → Bool :=
  Text.fullmatchFirst Text.isLower (fun c => Text.isLower c || Text.isDigit c || c = '-') 63

/-- `type(value.get(key)) is int and value[key] == expected` -/
def isInt (expected : Int) (value : Json) : Bool := value.asInt? = some expected

/-- `value != [name]` -/
def isSingleton (name : String) : Json → Bool
  | .list [x] => x.isStr name
  | _         => false

/-- Every limit has its one value, else the error. -/
def checkLimits (limits : List (String × Int)) (error : String) (value : Json) : Except HealthExn Unit :=
  rejectIf (!limits.all fun e => isInt e.2 (value.getOrNull e.1)) error

def limitsJson (limits : List (String × Int)) : List (String × Json) := limits.map fun e => (e.1, .int e.2)

/-- `server_enforced` of a valid attestation. -/
def serverEnforced (model : String) (server : Json) (expires : ℚ) : Except HealthExn Json := do
  rejectIf (!(isSingleton "chat" (server.getOrNull "operations")
      && isSingleton model (server.getOrNull "effective_models")
      && (server.get? "fallback").any Json.isNull && (server.getOrNull "route").isStr "SELF_HOSTED"))
    "POLICY_ENFORCEMENT_INVALID"
  checkLimits SERVER_LIMITS "POLICY_SERVER_LIMIT_INVALID" server
  let expiry ← epoch (server.getOrNull "expires_at")
  rejectIf (!(decide (expires ≤ expiry) && decide (expiry ≤ maxTime))) "POLICY_KEY_EXPIRY_INVALID"
  return .dict ([("operations", .list [.str "chat"]), ("effective_models", .list [.str model]),
    ("fallback", .null), ("route", .str "SELF_HOSTED")] ++ limitsJson SERVER_LIMITS
    ++ [("expires_at", time expiry)])

/-- A string that the test accepts. -/
def stringOf (test : String → Bool) (error : String) (value : Json) : Except HealthExn String :=
  match value with
  | .str s => if test s then .ok s else .error (.own error)
  | _      => .error (.own error)

/-- The end of `sanitize_policy`, where `valid` is true. -/
def validPolicy (value : Json) (issued expires now : ℚ) : Except HealthExn Json := do
  rejectIf (!(decide (issued ≤ now) && decide (now ≤ expires) && decide (0 < expires - issued)
    && decide (expires - issued ≤ 180))) "POLICY_EXPIRED"
  let origin ← stringOf isOrigin "POLICY_ORIGIN_INVALID" (value.getOrNull "gateway_origin")
  let model ← stringOf isModel "POLICY_MODEL_INVALID" (value.getOrNull "model")
  let hash := stringOf (Text.fullmatch Text.isHex 64 64) "POLICY_HASH_INVALID"
  let key ← hash (value.getOrNull "key_sha256")
  let serverPolicy ← hash (value.getOrNull "server_policy_sha256")
  rejectIf (match value.getOrNull "student_account" with
    | .bool false => false
    | _           => true) "POLICY_IDENTITY_INVALID"
  let server := value.getOrNull "server_enforced"
  let probe := value.getOrNull "probe_enforced"
  rejectIf (!(server.isDict && probe.isDict)) "POLICY_ENFORCEMENT_INVALID"
  let safeServer ← serverEnforced model server expires
  checkLimits POLICY_PROBE "POLICY_PROBE_LIMIT_INVALID" probe
  return .dict [("kind", .str POLICY_KIND), ("valid", .bool true), ("issued_at", time issued),
    ("expires_at", time expires), ("key_sha256", .str key), ("server_policy_sha256", .str serverPolicy),
    ("gateway_origin", .str origin), ("model", .str model), ("student_account", .bool false),
    ("server_enforced", safeServer), ("probe_enforced", .dict (limitsJson POLICY_PROBE))]

/-- `sanitize_policy` -/
def sanitizePolicy (value : Json) (now : ℚ) : Except HealthExn Json := do
  rejectIf (!(value.isDict && (value.getOrNull "kind").isStr POLICY_KIND)) "POLICY_SCHEMA_INVALID"
  match value.getOrNull "valid" with
  | .bool valid =>
    let issued ← epoch (value.getOrNull "issued_at")
    let expires ← epoch (value.getOrNull "expires_at")
    rejectIf (decide (now + 30 < issued) || decide (maxTime < issued) || decide (maxTime < expires))
      "POLICY_TIME_INVALID"
    if valid then validPolicy value issued expires now
    else do
      let known ← Json.memberOf POLICY_REASONS (value.getOrNull "reason")
      rejectIf (!known || decide (expires ≠ issued)) "POLICY_INVALID_REASON_OR_TIME"
      return .dict [("kind", .str POLICY_KIND), ("valid", .bool false), ("issued_at", time issued),
        ("expires_at", time expires), ("reason", value.getOrNull "reason")]
  | _           => .error (.own "POLICY_SCHEMA_INVALID")

/-! ## Reports -/

/-- `number` -/
def number (maximum : Int) (value : Json) : Except HealthExn Json := do
  let q ← value.finiteNumber (.own "REPORT_NUMBER_INVALID")
  rejectIf (!(decide (0 ≤ q) && decide (q ≤ maximum))) "REPORT_NUMBER_INVALID"
  return value

/-- `None if value is None else number(value, maximum)` -/
def numberOrNull (maximum : Int) (value : Json) : Except HealthExn Json :=
  if value.isNull then .ok .null else number maximum value

/-- A string that the test accepts, or the error. -/
def textThat (test : String → Bool) (error : String) (value : Json) : Except HealthExn Json :=
  (stringOf test error value).map .str

/-- `value in allowed` of a tuple of strings. -/
def oneOf (allowed : List String) (error : String) : Json → Except HealthExn Json :=
  textThat (fun s => allowed.contains s) error

def reasonText (error : String) : Json → Except HealthExn Json := textThat safeReason error

def httpStatus (value : Json) : Except HealthExn Json := do
  rejectIf (!value.asInt?.any fun n => 100 ≤ n && n ≤ 599) "REPORT_HTTP_STATUS_INVALID"
  return value

def boolean : Json → Except HealthExn Json
  | .bool b => .ok (.bool b)
  | _       => .error (.own "REPORT_BOOLEAN_INVALID")

/-- One entry of `metrics`. -/
def metric (entry : String × Json) : Except HealthExn (String × Json) := do
  return (entry.1, ← number (10 ^ 15) entry.2)

def metrics : Json → Except HealthExn Json
  | .dict kvs => do
    rejectIf (!kvs.all fun e => METRICS.contains e.1) "REPORT_METRICS_INVALID"
    let items ← kvs.mapM metric
    return .dict items
  | _         => .error (.own "REPORT_METRICS_INVALID")

/-- `[a-f0-9]{8}-(?:[a-f0-9]{4}-){3}[a-f0-9]{12}` -/
def isBootId (s : String) : Bool :=
  match s.toList.splitOn '-' with
  | [a, b, c, d, e] => [(a, 8), (b, 4), (c, 4), (d, 4), (e, 12)].all fun p =>
      p.1.all Text.isHex && decide (p.1.length = p.2)
  | _               => false

/-- `re.fullmatch` raises `TypeError` for what is no string. -/
def bootId : Json → Except HealthExn Json
  | .str s => textThat isBootId "REPORT_BOOT_ID_INVALID" (.str s)
  | _      => .error .typeError

def hostFields : List (CheckedField String) :=
  [⟨"reason", reasonText "REPORT_HOST_REASON_INVALID"⟩, ⟨"boot_id", bootId⟩]
    ++ HOST_NUMBERS.map (fun e => ⟨e.1, number e.2⟩)
    ++ [⟨"gpu_memory", oneOf ["SUPPORTED", "UNSUPPORTED"] "REPORT_GPU_STATUS_INVALID"⟩,
      ⟨"gpu_query", oneOf ["OBSERVER_ERROR"] "REPORT_GPU_STATUS_INVALID"⟩]

def hostReport (host : Json) : Except HealthExn Json := do
  rejectIf (!host.isDict) "REPORT_HOST_INVALID"
  let known ← Json.memberOf STATES (host.getOrNull "status")
  rejectIf (!known) "REPORT_HOST_INVALID"
  let rest ← project hostFields host
  return .dict (("status", host.getOrNull "status") :: rest)

/-- The fields that a report may have. -/
def reportFields (source : String) : List (CheckedField String) :=
  [⟨"phase", oneOf ["DNS", "TLS", "HTTP", "UNKNOWN"] "REPORT_PHASE_INVALID"⟩,
    ⟨"target", oneOf [source] "REPORT_TARGET_INVALID"⟩, ⟨"reason", reasonText "REPORT_REASON_INVALID"⟩,
    ⟨"metrics_reason", reasonText "REPORT_REASON_INVALID"⟩]
    ++ NUMBERS.map (fun e => ⟨e.1, numberOrNull e.2⟩)
    ++ [⟨"http_status", httpStatus⟩, ⟨"answer_correct", boolean⟩, ⟨"counter_reset", boolean⟩,
      ⟨"metrics_status", oneOf ["SUPPORTED", "UNSUPPORTED", "OBSERVER_ERROR"] "REPORT_METRICS_STATUS_INVALID"⟩,
      ⟨"metrics", metrics⟩, ⟨"host", hostReport⟩]

/-- The fields that every report has. -/
def baseKeys : List String := ["version", "source", "kind", "observed_at", "status"]

def base (value : Json) : List (String × Json) := baseKeys.map fun key => (key, value.getOrNull key)

/-- `severity`: the warning has it, and nothing else. -/
def severityField (value : Json) (source : String) : Except HealthExn (List (String × Json)) :=
  if (value.getOrNull "kind").isStr "tls-expiry-warning" then do
    rejectIf (source ≠ "public-staging-expiry-warning" || !(value.getOrNull "severity").isStr "warning")
      "REPORT_WARNING_INVALID"
    return [("severity", .str "warning")]
  else do
    rejectIf (value.get? "severity").isSome "REPORT_WARNING_INVALID"
    return []

/-- The checks of the fields that every report has. -/
def checkBase (value : Json) (source : String) (now : ℚ) : Except HealthExn Unit := do
  rejectIf (!(value.isDict && SOURCES.contains source)) "REPORT_SOURCE_INVALID"
  let timestamp ← epoch (value.getOrNull "observed_at")
  rejectIf (!(isInt 1 (value.getOrNull "version") && (value.getOrNull "source").isStr source))
    "REPORT_SCHEMA_INVALID"
  let kind ← Json.memberOf KINDS (value.getOrNull "kind")
  rejectIf (!kind) "REPORT_SCHEMA_INVALID"
  let status ← Json.memberOf STATES (value.getOrNull "status")
  rejectIf (!status || decide (now + 30 < timestamp)) "REPORT_SCHEMA_INVALID"
  rejectIf ((value.getOrNull "kind").isStr "access-policy" && source ≠ "staging-access-policy")
    "REPORT_POLICY_SOURCE_INVALID"

/-- `sanitize_report` -/
def sanitizeReport (value : Json) (source : String) (now : ℚ) : Except HealthExn Json := do
  checkBase value source now
  let severity ← severityField value source
  let rest ← project (reportFields source) value
  return .dict (base value ++ severity ++ rest)

/-! ## Envelopes -/

/-- The keys of a dictionary are these. -/
def hasKeys (keys : List String) (kvs : List (String × Json)) : Bool :=
  kvs.all (fun e => keys.contains e.1) && keys.all fun key => (kvs.map Prod.fst).contains key

/-- `value['reports'][name]`, sanitized. -/
def reportOf (reports : List (String × Json)) (now : ℚ) (name : String) : Except HealthExn (String × Json) := do
  let value ← (Json.dict reports).item name
  return (name, ← sanitizeReport value name now)

/-- The keys of an envelope. -/
def envelopeKeys (includePolicy : Bool) : List String :=
  ["version", "generated_at", "reports"] ++ if includePolicy then ["policy_attestation"] else []

/-- `inspect_envelope` of a document that was read. -/
def inspectValue (value : Json) (expected : List String) (now : ℚ) (includePolicy : Bool) :
    Except HealthExn (List (String × Json) × Option Json) :=
  match value, value.getOrNull "reports" with
  | .dict kvs, .dict reports => do
    rejectIf (!(isInt 1 (value.getOrNull "version") && hasKeys (envelopeKeys includePolicy) kvs
      && hasKeys expected reports)) "RESULT_BUNDLE_INVALID"
    let generated ← epoch (value.getOrNull "generated_at")
    rejectIf (!(decide (now - 120 ≤ generated) && decide (generated ≤ now + 30))) "RESULT_BUNDLE_INVALID"
    let sanitized ← expected.mapM (reportOf reports now)
    if includePolicy then do
      let policy ← sanitizePolicy (value.getOrNull "policy_attestation") now
      return (sanitized, some policy)
    else return (sanitized, none)
  | _, _                     => .error (.own "RESULT_BUNDLE_INVALID")

/-- `inspect_envelope`; `json.loads` raises a `ValueError`. -/
def inspectEnvelope (T : FloatText) (document : ByteArray) (expected : List String) (now : ℚ)
    (includePolicy : Bool) : Except HealthExn (List (String × Json) × Option Json) := do
  rejectIf (decide (MAX_JSON < document.size)) "RESULT_BUNDLE_TOO_LARGE"
  match Canonical.parse T document with
  | some value => inspectValue value expected now includePolicy
  | none       => .error .valueError

end Transport
end PickleInfra
