import PickleInfra.Metrics.Closed
import PickleInfra.Observation.Operations
import PickleInfra.Python.Calendar

/-!
# `Observation.Sample` — the documents of a sample

`validate_sample`, `make_sample` and `for_reporter` of `inference_observation.py`. A sample is a dictionary with fixed
keys; the inference part is a snapshot of the metrics, and is accepted as `interval` accepts it.
-/

namespace PickleInfra
namespace Observation

open Python Metrics

/-! ## Exceptions -/

/-- The reasons of an `ObservationError`. -/
inductive ObservationReason where
  | documentInvalid
  | identityInvalid
  | observationTimeInvalid
  | hostInvalid
  | hostMeasurementInvalid
  | sampleInvalid
  | sequenceInvalid
  | inferenceInvalid
  | inferenceLabelUnsupported
  | sampleIdentityOrTimeMismatch
  | sampleTooLarge
  | producerStateInvalid
  | producerStateLost
  | clockMovedBackwards
  | sequenceExhausted
  | sampleNotReady
  | reporterStateInvalid
  | reporterStateLost
  | ackInvalid
  | ackMismatch
  | outboxRecordInvalid
  | quarantinedContentChanged
  | quarantineLimit
  | contentConflict
  | replayRejected
  | deliveryFailed
  | checkpointLimit
  | checkpointConflict
  | remoteSampleInvalid
  | remoteSourceMismatch
  | sourceSequenceRollbackOrConflict
deriving DecidableEq, Repr

def ObservationReason.text : ObservationReason → String
  | .documentInvalid                  => "DOCUMENT_INVALID"
  | .identityInvalid                  => "IDENTITY_INVALID"
  | .observationTimeInvalid           => "OBSERVATION_TIME_INVALID"
  | .hostInvalid                      => "HOST_INVALID"
  | .hostMeasurementInvalid           => "HOST_MEASUREMENT_INVALID"
  | .sampleInvalid                    => "SAMPLE_INVALID"
  | .sequenceInvalid                  => "SEQUENCE_INVALID"
  | .inferenceInvalid                 => "INFERENCE_INVALID"
  | .inferenceLabelUnsupported        => "INFERENCE_LABEL_UNSUPPORTED"
  | .sampleIdentityOrTimeMismatch     => "SAMPLE_IDENTITY_OR_TIME_MISMATCH"
  | .sampleTooLarge                   => "SAMPLE_TOO_LARGE"
  | .producerStateInvalid             => "PRODUCER_STATE_INVALID"
  | .producerStateLost                => "PRODUCER_STATE_LOST"
  | .clockMovedBackwards              => "CLOCK_MOVED_BACKWARDS"
  | .sequenceExhausted                => "SEQUENCE_EXHAUSTED"
  | .sampleNotReady                   => "SAMPLE_NOT_READY"
  | .reporterStateInvalid             => "REPORTER_STATE_INVALID"
  | .reporterStateLost                => "REPORTER_STATE_LOST"
  | .ackInvalid                       => "ACK_INVALID"
  | .ackMismatch                      => "ACK_MISMATCH"
  | .outboxRecordInvalid              => "OUTBOX_RECORD_INVALID"
  | .quarantinedContentChanged        => "QUARANTINED_CONTENT_CHANGED"
  | .quarantineLimit                  => "QUARANTINE_LIMIT"
  | .contentConflict                  => "CONTENT_CONFLICT"
  | .replayRejected                   => "REPLAY_REJECTED"
  | .deliveryFailed                   => "DELIVERY_FAILED"
  | .checkpointLimit                  => "CHECKPOINT_LIMIT"
  | .checkpointConflict               => "CHECKPOINT_CONFLICT"
  | .remoteSampleInvalid              => "REMOTE_SAMPLE_INVALID"
  | .remoteSourceMismatch             => "REMOTE_SOURCE_MISMATCH"
  | .sourceSequenceRollbackOrConflict => "SOURCE_SEQUENCE_ROLLBACK_OR_CONFLICT"

def StoreReason.text : StoreReason → String
  | .documentInvalid    => "DOCUMENT_INVALID"
  | .recordKeyInvalid   => "RECORD_KEY_INVALID"
  | .storeLimitInvalid  => "STORE_LIMIT_INVALID"
  | .storeReadOnly      => "STORE_READ_ONLY"
  | .fileNotPrivate     => "FILE_NOT_PRIVATE"
  | .fileTooLarge       => "FILE_TOO_LARGE"
  | .writeFailed        => "WRITE_FAILED"
  | .storeEntryInvalid  => "STORE_ENTRY_INVALID"
  | .storeFull          => "STORE_FULL"
  | .sampleTooLarge     => "SAMPLE_TOO_LARGE"
  | .contentConflict    => "CONTENT_CONFLICT"
  | .contentChanged     => "CONTENT_CHANGED"
  | .batchLimitInvalid  => "BATCH_LIMIT_INVALID"
  | .controlNameInvalid => "CONTROL_NAME_INVALID"
  | .controlTooLarge    => "CONTROL_TOO_LARGE"

abbrev Observed (α : Type) := Except ObservationReason α

/-! ## Hosts -/

/-- `HOST_STATES` -/
def HOST_STATES : List String := ["OBSERVED", "NOT_REPORTED", "UNSUPPORTED", "SOURCE_FAILED"]

/-- The names of `HOST_UNITS`, in order. -/
def HOST_UNITS : List String :=
  ["cpu_load1", "memory_total_bytes", "memory_available_bytes", "swap_used_bytes", "gpu_utilization_percent",
    "gpu_temperature_celsius", "gpu_memory_total_bytes", "gpu_power_watts", "gpu_power_limit_watts"]

/-- `isinstance(value, str) and value in HOST_STATES` -/
def isHostState (v : Json) : Bool := v.asStr?.any HOST_STATES.contains

/-- The number of an observed measurement. -/
def isMeasured (name : String) (v : Json) : Bool :=
  match Metrics.Num.ofJson v with
  | none   => false
  | some x => decide (0 ≤ x.value) && decide (x.value ≤ MAX_SEQUENCE)
      && !(name = "gpu_utilization_percent" && decide (100 < x.value))

/-- One round of the loop of `normalize_host`. -/
def hostMeasurement (metrics : Json) (name : String) : Observed (String × Json) := do
  let item := (metrics.get? name).getD (.dict [("state", .str "NOT_REPORTED"), ("value", .null)])
  raiseIf (!(hasKeys ["state", "value"] item && isHostState (item.getOrNull "state"))) .hostMeasurementInvalid
  let number := item.getOrNull "value"
  raiseIf (!(if (item.getOrNull "state").isStr "OBSERVED" then isMeasured name number else number.isNull))
    .hostMeasurementInvalid
  .ok (name, .dict [("state", item.getOrNull "state"), ("value", number)])

/-- `isinstance(value, dict) and not set(value) - keys` -/
def keysWithin (keys : List String) : Json → Bool
  | .dict kvs => kvs.all (fun kv => keys.contains kv.1)
  | _         => false

/-- `normalize_host` -/
def normalizeHost (v : Json) : Observed Json := do
  raiseIf (!(hasKeys ["state", "metrics"] v && isHostState (v.getOrNull "state")
    && keysWithin HOST_UNITS (v.getOrNull "metrics"))) .hostInvalid
  let metrics ← HOST_UNITS.mapM (hostMeasurement (v.getOrNull "metrics"))
  .ok (.dict [("state", v.getOrNull "state"), ("metrics", .dict metrics)])

/-! ## Samples -/

/-- `CORE_FIELDS` -/
def CORE_FIELDS : List String := ["version", "sourceId", "epoch", "sequence", "observedAt", "host", "inference"]

/-- `MAX_SAMPLE_BYTES` -/
def MAX_SAMPLE_BYTES : Nat := 512 * 1024

/-- `canonical_uuid` -/
def canonicalUuid (v : Json) : Observed String :=
  match v with
  | .str s => if isUuid s then .ok s else .error .identityInvalid
  | _      => .error .identityInvalid

/-- `instant` -/
def instant (milliseconds : Int) : Observed String :=
  match Calendar.instant milliseconds with
  | some s => .ok s
  | none   => .error .observationTimeInvalid

/-- `instant_millis` -/
def instantMillis (v : Json) : Observed Int :=
  match v.asStr?.bind Calendar.instantMillis with
  | some ms => .ok ms
  | none    => .error .observationTimeInvalid

variable (M : Machine)

/-- `canonical_bytes` -/
def canonicalBytes (v : Json) : Observed ByteArray :=
  match Canonical.dumps M.text v with
  | some payload => .ok payload
  | none         => .error .documentInvalid

/-- The inference part, as `interval(None, value, max_gap_seconds=180)` accepts it. -/
def inferenceOf (v : Json) : Observed Snapshot :=
  match interval M.toFloatFormat none v (.int 180), validateSnapshot M.toFloatFormat v with
  | .ok _, .ok s => .ok s
  | _, _         => .error .inferenceInvalid

/-- The labels of all series of an engine. -/
def Engine.labels (e : Metrics.Engine) : List Labels :=
  e.gauges.map (fun s => s.head.labels) ++ e.counters.map (fun s => s.head.labels)
    ++ e.histograms.map (fun h => h.head.labels)

/-- Some label holds a zero character. -/
def hasZeroLabel (s : Snapshot) : Bool :=
  s.engines.any fun e => (Engine.labels e).any fun labels => labels.any fun l => l.2.toList.contains (Char.ofNat 0)

/-- `milliseconds / 1000` -/
def secondsOf (milliseconds : Int) : Metrics.Num := Metrics.Num.div M.toFloatFormat (.int milliseconds) (.int 1000)

/-- `CORE_FIELDS`, and one more of a reporter. -/
def sampleKeys (reporter : Bool) : List String := CORE_FIELDS ++ if reporter then ["reporterReceivedAt"] else []

/-- The sequence of a sample: an integer in its range. -/
def sequenceOf (v : Json) : Observed Nat :=
  match v with
  | .int n => if 0 ≤ n ∧ n ≤ MAX_SEQUENCE then .ok n.toNat else .error .sequenceInvalid
  | _      => .error .sequenceInvalid

/-- `validate_sample`, which returns its argument. -/
def validateSample (reporter : Bool) (v : Json) : Observed Json := do
  raiseIf (!(hasKeys (sampleKeys reporter) v && (v.getOrNull "version").asInt? = some 1)) .sampleInvalid
  let sourceId ← canonicalUuid (v.getOrNull "sourceId")
  let _ ← canonicalUuid (v.getOrNull "epoch")
  let _ ← sequenceOf (v.getOrNull "sequence")
  let milliseconds ← instantMillis (v.getOrNull "observedAt")
  let _ ← normalizeHost (v.getOrNull "host")
  let inference ← inferenceOf M (v.getOrNull "inference")
  raiseIf (hasZeroLabel inference) .inferenceLabelUnsupported
  raiseIf (inference.identity.sourceId ≠ sourceId || inference.observedAt.value ≠ (secondsOf M milliseconds).value)
    .sampleIdentityOrTimeMismatch
  let _ ← if reporter then instantMillis (v.getOrNull "reporterReceivedAt") else .ok 0
  let payload ← canonicalBytes M v
  raiseIf (MAX_SAMPLE_BYTES < payload.size) .sampleTooLarge
  .ok v

/-- The fields of the identity that the host reader reports. -/
def identityKeys : List String := ["bootId", "processId", "configId"]

/-- `{'sourceId': source_id, **identity}` -/
def withSource (sourceId : String) : Json → Json
  | .dict kvs => .dict (("sourceId", .str sourceId) :: kvs)
  | v         => v

/-- The document that `make_sample` builds. -/
def sampleJson (sourceId epoch : String) (sequence : Nat) (observed : String) (host : Json) (s : Snapshot) : Json :=
  .dict [("version", .int 1), ("sourceId", .str sourceId), ("epoch", .str epoch), ("sequence", .int sequence),
    ("observedAt", .str observed), ("host", host), ("inference", s.toJson)]

/-- `make_sample` -/
def makeSample (payload : Payload) (sourceId epoch : String) (sequence : Nat) (observedAtMillis : Int)
    (host identity : Json) (sourceState : String) : Observed Json := do
  let _ ← canonicalUuid (.str sourceId)
  let _ ← canonicalUuid (.str epoch)
  raiseIf (!keysWithin identityKeys identity) .identityInvalid
  let observed ← instant observedAtMillis
  match parseSnapshot M payload (secondsOf M observedAtMillis).toJson (withSource sourceId identity)
      (.str sourceState) with
  | .error _     => .error .inferenceInvalid
  | .ok snapshot => do
    let host ← normalizeHost host
    validateSample M false (sampleJson sourceId epoch sequence observed host snapshot)

/-- `value['reporterReceivedAt'] = received`, of a sample without it. -/
def withReceived (received : String) : Json → Json
  | .dict kvs => .dict (kvs ++ [("reporterReceivedAt", .str received)])
  | v         => v

/-- `for_reporter` -/
def forReporter (sample : Json) (receivedAtMillis : Int) : Observed Json := do
  let value ← validateSample M false sample
  let received ← instant receivedAtMillis
  validateSample M true (withReceived received value)

end Observation
end PickleInfra
