import PickleInfra.Transport.Envelope

/-!
# `Transport.Reader` — `collect` of `health-result-reader.py`

A role has its fixed files. A file that is not read, or whose report is not sanitized, is replaced by a report
that says so, and an attestation by one that is not valid; only the role that asks its container takes the
bundle of another reader.
-/

namespace PickleInfra
namespace Transport

open Python Health

/-! ## What a configuration selects -/

/-- `PATHS` -/
def PATHS : List (String × List (String × String)) :=
  [("model-host", [("host-query", "/var/lib/pickle-llm-host-query/result.json"),
      ("local-generation", "/var/lib/pickle-llm-local-generation/result.json")]),
    ("gateway-container", [("upstream-generation", "/var/lib/pickle-llm-upstream-generation/result.json")]),
    ("public-observer", [("public-console", "/var/lib/pickle-public-console/result.json"),
      ("public-api", "/var/lib/pickle-public-api/result.json"),
      ("public-development", "/var/lib/pickle-public-development/result.json")]),
    ("collector-host", [("collector-heartbeat", "/var/lib/pickle-service-health-monitor/summary.json")])]

/-- `POLICY_PATHS` -/
def POLICY_PATHS : List (String × String) :=
  [("gateway-host", "/var/lib/pickle-public-policy/attestation.json"),
    ("collector-host", "/var/lib/pickle-health-import-gateway/policy-attestation.json")]

def TLS_SOURCES : List String :=
  ["public-tls-production", "public-tls-development", "public-tls-gateway", "public-tls-staging"]

/-- `type(config.get(key, False)) is bool`, and its value. -/
def option (config : Json) (key : String) : Except HealthExn Bool :=
  match config.get? key with
  | none           => .ok false
  | some (.bool b) => .ok b
  | some _         => .error (.own "READER_DEPLOYMENT_INVALID")

/-- The strings of `config.get('tls_sources', [])`; a set of anything unhashable raises `TypeError`. -/
def tlsSources (config : Json) : Except HealthExn (List String) :=
  match (config.get? "tls_sources").getD (.list []) with
  | .list xs => do
    let names ← xs.mapM fun
      | .str s            => .ok s
      | .list _ | .dict _ => .error .typeError
      | _                 => .error (.own "READER_DEPLOYMENT_INVALID")
    rejectIf (!decide names.Nodup || !names.all TLS_SOURCES.contains) "READER_DEPLOYMENT_INVALID"
    return names
  | _        => .error (.own "READER_DEPLOYMENT_INVALID")

/-- What a configuration that `collect` accepts selects. -/
structure Selection where
  role : String
  publicGeneration : Bool
  collectorHeartbeat : Bool
  policyAttestation : Bool
  staging : Bool
  tls : List String

/-- The checks of the configuration. -/
def select (hostname : String) (config : Json) : Except HealthExn Selection := do
  let error := "READER_DEPLOYMENT_INVALID"
  let role ← stringOf (fun s => (PATHS.map Prod.fst ++ ["gateway-host"]).contains s) error
    (config.getOrNull "role")
  rejectIf (!(config.getOrNull "expected_hostname").isStr hostname) error
  let publicGeneration ← option config "include_public_generation"
  let collectorHeartbeat ← option config "include_collector_heartbeat"
  let policyAttestation ← option config "include_policy_attestation"
  let staging ← option config "include_staging"
  rejectIf (staging && role ≠ "public-observer") error
  rejectIf (policyAttestation && !(POLICY_PATHS.map Prod.fst).contains role) error
  let tls ← tlsSources config
  rejectIf (!tls.isEmpty && role ≠ "public-observer") error
  return ⟨role, publicGeneration, collectorHeartbeat, policyAttestation, staging, tls⟩

/-- The file of a TLS source: `source.removeprefix('public-')` names its directory. -/
def tlsPath (source : String) : String × String :=
  (source, "/var/lib/pickle-public-" ++ String.ofList (source.toList.drop "public-".length) ++ "/result.json")

/-- The sources of a role and their files. -/
def Selection.paths (s : Selection) : List (String × String) :=
  (Dict.lookup s.role PATHS).getD []
    ++ (if s.role = "public-observer" then
      (if s.publicGeneration then [("public-generation", "/var/lib/pickle-public-generation/result.json")] else [])
      ++ (if s.collectorHeartbeat then
        [("collector-heartbeat", "/var/lib/pickle-service-health-monitor/summary.json")] else [])
      ++ (if s.staging then [("public-staging", "/var/lib/pickle-public-staging/result.json"),
        ("public-staging-expiry-warning", "/var/lib/pickle-public-staging-expiry-warning/result.json")] else [])
      ++ s.tls.map tlsPath
    else [])

/-! ## `collect` -/

/-- The report of a source that was not read or not accepted. -/
def unavailable (source : String) (now : ℚ) : Json :=
  .dict [("version", .int 1), ("source", .str source), ("kind", .str "observer-report"),
    ("observed_at", time now), ("status", .str "OBSERVER_ERROR"), ("reason", .str "REMOTE_RESULT_UNAVAILABLE")]

/-- The report of a document, as the reader sanitizes it. -/
def readReport (source : String) (document : Json) (now : ℚ) : Except HealthExn Json :=
  if source = "collector-heartbeat" then heartbeat document now else sanitizeReport document source now

/-- `try: …; except (HealthError, OSError, ValueError, TypeError, KeyError): …` -/
def orElse {α : Type} (value : Except HealthExn α) (fallback : α) : Except HealthExn α :=
  match value with
  | .ok a    => .ok a
  | .error e => if e.caught then .ok fallback else .error e

/-- The entry of one source. -/
def sourceReport (reader : String → Except HealthExn Json) (now : ℚ) (entry : String × String) :
    Except HealthExn (String × Json) := do
  let report ← orElse (reader entry.2 >>= fun document => readReport entry.1 document now)
    (unavailable entry.1 now)
  return (entry.1, report)

/-- The attestation of a role. -/
def policyReport (reader : String → Except HealthExn Json) (now : ℚ) (role : String) : Except HealthExn Json :=
  orElse (reader ((Dict.lookup role POLICY_PATHS).getD "") >>= fun document => sanitizePolicy document now)
    (invalidPolicy now)

/-- The reports of a selection: the gateway host asks its container. -/
def Selection.reports (T : FloatText) (s : Selection) (now : ℚ) (reader : String → Except HealthExn Json)
    (runner : Except HealthExn ByteArray) : Except HealthExn (List (String × Json)) :=
  if s.role = "gateway-host" then do
    let document ← runner
    let (reports, _) ← inspectEnvelope T document ["upstream-generation"] now false
    return reports
  else s.paths.mapM (sourceReport reader now)

/-- The document that is printed. -/
def envelope (now : ℚ) (reports : List (String × Json)) (policy : Option Json) : Json :=
  .dict ([("version", .int 1), ("generated_at", time now), ("reports", .dict reports)]
    ++ (policy.map fun p => ("policy_attestation", p)).toList)

/-- What `collect` emits at the clock `now`: the reports, and the attestation if it is included. -/
def emitted (T : FloatText) (hostname : String) (config : Json) (now : ℚ)
    (reader : String → Except HealthExn Json) (runner : Except HealthExn ByteArray) :
    Except HealthExn (List (String × Json) × Option Json) := do
  rejectIf (decide (now < 0)) "INVALID_EPOCH"
  let s ← select hostname config
  let reports ← s.reports T now reader runner
  if s.policyAttestation then do
    let policy ← policyReport reader now s.role
    return (reports, some policy)
  else return (reports, none)

/-- `collect` -/
def collect (T : FloatText) (hostname : String) (config : Json) (now : ℚ)
    (reader : String → Except HealthExn Json) (runner : Except HealthExn ByteArray) : Except HealthExn Json := do
  let (reports, policy) ← emitted T hostname config now reader runner
  return envelope now reports policy

end Transport
end PickleInfra
