import PickleInfra.Python.Text
import PickleInfra.Health.Machine

/-!
# `Health.Collect` — one collection of `service-health-monitor.py`, from reports to summary

`collect` reads every configured report once, classifies each (`sampled`), advances the incident
machine of every source and of its observer, and reserves or cancels notifications. The state
dictionary is changed in place, so `collect` here returns the dictionary together with what the call
returned or raised.

Configuration values are typed: the checks of `validate` on the type of a field are the types below.
-/

namespace PickleInfra
namespace Health

open Python

abbrev HealthExn := Exn String

/-- One entry of `config['sources']`; an optional key is an `Option`. -/
structure Source where
  name : String
  path : String
  component : Option String := none
  expectedKind : Option String := none
  severity : Option String := none
  freshnessSeconds : Int
  failureCount : Int
  observerParent : Option String := none
  reportSource : Option String := none
deriving DecidableEq, Repr

structure Config where
  sources : List Source
  notificationsEnabled : Bool := false
deriving DecidableEq, Repr

/-! ## `validate` -/

namespace Source

def criticalTls (s : Source) : Bool :=
  s.component = some "critical-tls" && s.expectedKind = some "tls"

def policy (s : Source) : Bool :=
  s.component = some "access-policy" && s.expectedKind = some "access-policy"

def warning (s : Source) : Bool :=
  s.severity = some "warning" && s.expectedKind = some "tls-expiry-warning"

/-- `source.get('component', 'query')` -/
def componentOrQuery (s : Source) : String := s.component.getD "query"

/-- The disjunction that makes `validate` raise `SOURCE_INVALID`, for an unseen name. -/
def invalid (s : Source) : Bool :=
  let path := Text.Path.ofString s.path
  !Text.isName s.name || !path.isAbsolute || path.climbs
    || !(["query", "host", "critical-tls", "access-policy"].contains s.componentOrQuery)
    || !(60 ≤ s.freshnessSeconds && s.freshnessSeconds ≤ 3600)
    || (if s.criticalTls || s.policy || s.warning then s.failureCount ≠ 1
        else !(2 ≤ s.failureCount && s.failureCount ≤ 5))
    || (s.component = some "critical-tls" && !s.criticalTls)
    || (s.component = some "access-policy" && !s.policy)
    || (s.severity.isSome && !s.warning)
    || (s.warning && s.componentOrQuery ≠ "query")
    || (s.expectedKind = some "tls-expiry-warning" && !s.warning)

end Source

/-- The first loop of `validate`: every source is well formed and no name occurs twice. -/
def validateSources : List String → List Source → Except HealthExn Unit
  | _, []               => .ok ()
  | seen, source :: rest =>
    if source.invalid || seen.contains source.name then .error (.own "SOURCE_INVALID")
    else validateSources (source.name :: seen) rest

/-- The observer parent of a source is another source, an import report without a parent. -/
def parentInvalid (sources : List Source) (source : Source) : Bool :=
  match source.observerParent with
  | none        => false
  | some parent =>
    match sources.find? (fun s => s.name = parent) with
    | none   => true
    | some p => parent = source.name || p.observerParent.isSome
        || p.expectedKind ≠ some "observer-report" || p.componentOrQuery ≠ "query"

def validate (config : Config) : Except HealthExn Unit :=
  if config.sources = [] ∨ 32 < config.sources.length then .error (.own "SOURCES_INVALID")
  else match validateSources [] config.sources with
    | .error e => .error e
    | .ok ()   =>
      if config.sources.any (parentInvalid config.sources) then
        .error (.own "OBSERVER_PARENT_INVALID")
      else .ok ()

/-! ## `epoch`, `result_snapshot` and `sampled` -/

def epoch (v : Json) : Except HealthExn ℚ :=
  match v.finiteNumber (.own "INVALID_EPOCH") with
  | .error e => .error e
  | .ok q    => if q < 0 then .error (.own "INVALID_EPOCH") else .ok q

/-- What reading a report file came to. `escaped` is an exception `result_snapshot` lets through. -/
inductive ReadResult where
  | document (value : Json)
  | missing
  | failed
  | escaped

inductive UnknownReason where
  | resultInvalid
  | resultMissing
  | resultReadFailed
  | resultFuture
  | resultStale
deriving DecidableEq, Repr

def UnknownReason.text : UnknownReason → String
  | .resultInvalid    => "RESULT_INVALID"
  | .resultMissing    => "RESULT_MISSING"
  | .resultReadFailed => "RESULT_READ_FAILED"
  | .resultFuture     => "RESULT_FUTURE"
  | .resultStale      => "RESULT_STALE"

/-- The dictionary `sampled` returns. A `raw_status` of `UNKNOWN` is `none`. -/
structure Observation where
  status : Status
  sampleAt : ℚ
  reason : String
  rawStatus : Option Status
  sourceSampleAt : Option ℚ
  sourceReason : Option String
  unknownReason : Option UnknownReason
  severity : Option String
deriving DecidableEq, Repr

/-- `CRITICAL_TLS_FAILURES` -/
def criticalTlsFailures : List String :=
  ["TLS_CERTIFICATE_VALIDATION_FAILED", "TLS_CERTIFICATE_EXPIRING"]

/-- `POLICY_FAILURES` -/
def policyFailures : List String := criticalTlsFailures ++ ["ACCESS_POLICY_VIOLATION"]

/-- `WARNING_REASONS` -/
def warningReason : String → Option String
  | "FAILED"  => some "TLS_CERTIFICATE_EXPIRY_WARNING"
  | "HEALTHY" => some "TLS_EXPIRY_WARNING_CLEAR"
  | _         => none

/-- `status in ('HEALTHY', 'FAILED', 'OBSERVER_ERROR')` -/
def isPlainStatus (status : String) : Bool :=
  ["HEALTHY", "FAILED", "OBSERVER_ERROR"].contains status

/-- The evidence checks of `sampled` on the selected component, in the source's order. -/
def evidenceError (source : Source) (value : Json) (status : String) : Option String :=
  let kind := (value.getOrNull "kind").asStr?
  let reason := (value.getOrNull "reason").asStr?
  let severity := (value.getOrNull "severity").asStr?
  if (kind = some "tls-expiry-warning" || (value.get? "severity").isSome)
      && source.severity ≠ some "warning" then some "WARNING_SOURCE_SELECTION_REQUIRED"
  else if source.severity = some "warning" && (kind ≠ some "tls-expiry-warning"
      || severity ≠ some "warning" || !isPlainStatus status
      || ((warningReason status).isSome && reason ≠ warningReason status)) then
    some "TLS_WARNING_EVIDENCE_INVALID"
  else if source.component = some "access-policy" && (kind ≠ some "access-policy"
      || !isPlainStatus status
      || (status = "HEALTHY" && (reason ≠ some "ACCESS_POLICY_VERIFIED"
          || !(value.getOrNull "http_status").isNumber 403))
      || (status = "FAILED" && !reason.any policyFailures.contains)) then
    some "ACCESS_POLICY_EVIDENCE_INVALID"
  else if source.component = some "critical-tls" && (kind ≠ some "tls"
      || (status = "FAILED" && !reason.any criticalTlsFailures.contains)
      || (status = "HEALTHY" && reason ≠ some "TLS_CERTIFICATE_VERIFIED")
      || !isPlainStatus status) then some "TLS_SECURITY_EVIDENCE_INVALID"
  else if source.expectedKind = some "observer-report" && (kind ≠ some "observer-report"
      || !((status = "HEALTHY" && reason = some "RESULT_IMPORT_VERIFIED")
          || (status = "OBSERVER_ERROR" && reason = some "RESULT_IMPORT_UNAVAILABLE"))) then
    some "IMPORT_OBSERVER_EVIDENCE_INVALID"
  else none

/-- The identity and evidence part of `sampled`: the reported status, or the exception. -/
def evidence (source : Source) (value : Json) : Except HealthExn Status :=
  if !(value.getOrNull "version").isNumber 1
      || !(value.getOrNull "source").isStr (source.reportSource.getD source.name) then
    .error (.own "RESULT_IDENTITY_INVALID")
  else do
    let value ← if source.component = some "host" then value.item "host" else .ok value
    let status ← value.item "status"
    match status.asStr? with
    | none      => .error .typeError
    | some text =>
      match evidenceError source value text with
      | some code => .error (.own code)
      | none      =>
        match Status.ofText text with
        | none        => .error (.own "RESULT_STATUS_INVALID")
        | some status => .ok status

/-- `source_reason`: the report's own reason, if it is `[A-Z][A-Z0-9_]{0,95}`. -/
def sourceReason (value : Json) : Option String :=
  (value.getOrNull "reason").asStr?.filter
    (Text.fullmatchFirst Text.isUpper (fun c => Text.isUpper c || Text.isDigit c || c = '_') 95)

/-- The initial `result` of `sampled`. -/
def Observation.unavailable (source : Source) (now : ℚ) (why : UnknownReason) : Observation where
  status := .observerError
  sampleAt := now
  reason := "RESULT_UNAVAILABLE"
  rawStatus := none
  sourceSampleAt := none
  sourceReason := none
  unknownReason := some why
  severity := source.severity.filter (fun s => s = "warning")

/-- A fresh report with valid evidence. -/
def Observation.accept (o : Observation) (status : Status) (timestamp : ℚ) : Observation :=
  let o := { o with rawStatus := some status, sampleAt := timestamp, unknownReason := none }
  if status = .observerError ∨ status = .budgetLimit then
    { o with status := .observerError, reason := "PROBE_OBSERVER_ERROR" }
  else { o with status, reason := "SOURCE_OBSERVED" }

/-- `sampled` on a report that could be read. -/
def sampledDocument (source : Source) (now : ℚ) (value : Json) : Except HealthExn Observation :=
  let result := Observation.unavailable source now .resultInvalid
  match (value.item "observed_at" : Except HealthExn Json) >>= epoch with
  | .error e      => if e.caught then .ok result else .error e
  | .ok timestamp =>
    let result := { result with
      sourceSampleAt := some timestamp, sourceReason := sourceReason value }
    match evidence source value with
    | .error e   => if e.caught then .ok result else .error e
    | .ok status =>
      -- staleness correlates transport loss only after the component has valid evidence
      if now + 30 < timestamp then .ok { result with unknownReason := some .resultFuture }
      else if (source.freshnessSeconds : ℚ) < now - timestamp then
        .ok { result with unknownReason := some .resultStale }
      else .ok (result.accept status timestamp)

def sampled (source : Source) (now : ℚ) : ReadResult → Except HealthExn Observation
  | .missing        => .ok (.unavailable source now .resultMissing)
  | .failed         => .ok (.unavailable source now .resultReadFailed)
  | .escaped        => .error .overflowError
  | .document value => sampledDocument source now value

/-- A reader answers for each path; `result_snapshot` asks it once per distinct path. -/
abbrev Reader := Text.Path → ReadResult

def sampledAll (now : ℚ) (reader : Reader) :
    List Source → Except HealthExn (List (Source × Observation))
  | []             => .ok []
  | source :: rest => do
    let o ← sampled source now (reader (.ofString source.path))
    let os ← sampledAll now reader rest
    .ok ((source, o) :: os)

/-! ## `collect` -/

/-- One entry of `state['sources']`: the machine of the source and that of its observer. -/
structure Entry where
  own : Machine := {}
  observer : Machine := {}
deriving DecidableEq, Repr

/-- `state.json` -/
structure State where
  lastCollection : Option ℚ := none
  sources : Dict String Entry := .empty

/-- One row of `summary['sources']`. -/
structure Row where
  observation : Observation
  incident : Option Nat
  observerIncident : Option Nat
  event : Transition
  observerStatus : Status
  observerEvent : Transition
  suppressedBy : Option String
  parentStatus : Option Status
  recoveryCandidateSince : Option ℚ
deriving DecidableEq, Repr

/-- `summary.json`; its `version` is `1`. -/
structure Summary where
  observedAt : ℚ
  sources : Dict String Row

namespace Machine

/-- Renewed evidence cancels what was never submitted: a recovery when the target is not healthy, a
    failure when the target has just recovered. -/
def cancel (s : Machine) (status : Status) (transition : Transition) : Machine :=
  let s := if status ≠ .healthy then s.supersede .recovered else s
  if transition = .recovered then s.supersede .failed else s

/-- The reservation step of `collect` for one target. -/
def notify (s : Machine) (target : String) (transition : Transition) (now : ℚ)
    (severity : Option String) : Machine :=
  match transition with
  | .failed    => s.reserveEvent target .failed now severity
  | .recovered => s.reserveEvent target .recovered now severity
  | _          =>
    -- an incident opened while notifications were off is announced late
    if s.incident.isSome ∧ (s.failedMail.bind Delivery.incident) ≠ s.incident then
      s.reserveEvent target .failed now severity
    else s

end Machine

/-- A missing or stale result whose parent import is itself in error. -/
def suppressedBy (source : Source) (o : Observation) (parentStatus : Option Status) :
    Option String :=
  if (o.unknownReason = some .resultMissing ∨ o.unknownReason = some .resultStale)
      ∧ parentStatus = some .observerError then source.observerParent else none

def observerStatus (suppressed : Option String) (status : Status) : Status :=
  if suppressed.isSome then .observerError
  else if status = .observerError then .failed else .healthy

/-- The body of the loop of `collect` for one source. -/
def collectSource (now : ℚ) (notifications : Bool) (source : Source) (o : Observation)
    (parentStatus : Option Status) (entry : Entry) : Entry × Row :=
  let suppressed := suppressedBy source o parentStatus
  let (own, event) := entry.own.observe o.status o.sampleAt source.failureCount source.freshnessSeconds
  -- unknown evidence interrupts the stable window even if its timestamp was consumed before
  let own := if o.status = .observerError then own.interrupt else own
  let observerStatus := observerStatus suppressed o.status
  let (observer, observerEvent) := entry.observer.observe observerStatus now 3 180
  let observer := if suppressed.isSome then observer.interrupt else observer
  let own := own.cancel o.status event
  let observer := observer.cancel observerStatus observerEvent
  let own := if notifications then
    own.notify source.name event now (source.severity.filter (fun s => s = "warning")) else own
  let observer := if notifications && suppressed.isNone then
    observer.notify ("observer-" ++ source.name) observerEvent now none else observer
  ({ own, observer },
   { observation := o, incident := own.incident, observerIncident := observer.incident, event
     observerStatus, observerEvent, suppressedBy := suppressed, parentStatus
     recoveryCandidateSince := own.healthySince })

/-- `samples[parent]['status']` -/
def parentStatus (samples : List (Source × Observation)) (source : Source) : Option Status :=
  source.observerParent.bind fun parent =>
    (samples.find? (fun p => p.1.name = parent)).map (fun p => p.2.status)

/-- The loop of `collect` over the configured sources. -/
def collectLoop (now : ℚ) (notifications : Bool) (samples : List (Source × Observation)) :
    List (Source × Observation) → Dict String Entry → Dict String Row →
      Dict String Entry × Dict String Row
  | [], entries, rows                  => (entries, rows)
  | (source, o) :: rest, entries, rows =>
    let (entry, row) := collectSource now notifications source o (parentStatus samples source)
      ((entries.get? source.name).getD {})
    collectLoop now notifications samples rest (entries.set source.name entry)
      (rows.set source.name row)

/-- `collect`: the state dictionary afterwards, and the summary or the exception. -/
def collect (config : Config) (state : State) (now : ℚ) (reader : Reader) (notifications : Bool) :
    State × Except HealthExn Summary :=
  match validate config with
  | .error e => (state, .error e)
  | .ok ()   =>
    if now < 0 then (state, .error (.own "INVALID_EPOCH"))
    else if now < state.lastCollection.getD 0 then (state, .error (.own "CLOCK_MOVED_BACKWARDS"))
    else
      let state := { state with lastCollection := some now }
      match sampledAll now reader config.sources with
      | .error e    => (state, .error e)
      | .ok samples =>
        let (entries, rows) := collectLoop now notifications samples samples state.sources .empty
        ({ state with sources := entries }, .ok { observedAt := now, sources := rows })

end Health
end PickleInfra
