import PickleInfra.Observation.Spool
import PickleInfra.Python.Equality

/-!
# `Observation.Reporter` — `report`, the delivery of samples

A run loads the reporter's state, sends what is pending, imports the latest sample of the source, and sends again.
The state in memory is written after every change, so it may be ahead of the file when a write fails; an exception
that `drain` catches ends the deliveries of the run, and whatever else is raised ends the run.
-/

namespace PickleInfra
namespace Observation

open Python Metrics Durable

/-! ## Configuration and state -/

/-- The configuration of a reporter, as far as `report` itself reads it. -/
structure ReportConfig where
  sourceId : String
  maxPendingSamples : Nat
  maxPendingBytes : Nat
  maxExportsPerRun : Nat
  source_ok : isUuid sourceId = true
  samples_ok : 1 ≤ maxPendingSamples ∧ maxPendingSamples ≤ 200000
  bytes_ok : 1 ≤ maxPendingBytes ∧ maxPendingBytes ≤ 16 * 1024 ^ 3
  exports_ok : 1 ≤ maxExportsPerRun ∧ maxExportsPerRun ≤ 4

/-- The locked store of a run. -/
def ReportConfig.session (c : ReportConfig) : Session where
  limits :=
    { maxSamples := c.maxPendingSamples, maxBytes := c.maxPendingBytes, maxSampleBytes := MAX_SAMPLE_BYTES
      samples_ok := c.samples_ok, bytes_ok := c.bytes_ok, sampleBytes_ok := by decide }
  readOnly := false

/-- The last delivery of an epoch. -/
structure Checkpoint where
  sequence : Nat
  bodySha256 : String
  producerSha256 : String
  receivedAt : String
  observedAt : String
deriving DecidableEq, Repr

/-- A delivery that the server refused for good. -/
structure Blocked where
  bodySha256 : String
  reason : String
deriving DecidableEq, Repr

/-- The reporter's state: the checkpoints by epoch, and the blocked records by `epoch:sequence`. -/
structure ReporterState where
  checkpoints : Dict String Checkpoint
  blocked : Dict String Blocked

def ReporterState.new : ReporterState := ⟨Dict.empty, Dict.empty⟩

def Checkpoint.toJson (c : Checkpoint) : Json :=
  .dict [("sequence", .int c.sequence), ("bodySha256", .str c.bodySha256), ("producerSha256", .str c.producerSha256),
    ("receivedAt", .str c.receivedAt), ("observedAt", .str c.observedAt)]

def Blocked.toJson (b : Blocked) : Json := .dict [("bodySha256", .str b.bodySha256), ("reason", .str b.reason)]

def ReporterState.toJson (sourceId : String) (s : ReporterState) : Json :=
  .dict [("version", .int 1), ("kind", .str "reporter"), ("sourceId", .str sourceId),
    ("checkpoints", .dict (s.checkpoints.entries.map fun e => (e.1, e.2.toJson))),
    ("blocked", .dict (s.blocked.entries.map fun e => (e.1, e.2.toJson)))]

/-- `MAX_CHECKPOINTS` -/
def MAX_CHECKPOINTS : Nat := 64

/-- The most records that are blocked. -/
def MAX_BLOCKED : Nat := 64

/-! ## `reporter_state` -/

/-- `[a-f0-9]{64}` -/
def isSha256 (s : String) : Bool := s.toList.length = 64 && s.toList.all Text.isHex

/-- `isinstance(value, str) and re.fullmatch(r'[a-f0-9]{64}', value)` -/
def sha256Of (v : Json) : Observed String :=
  match v with
  | .str s => if isSha256 s then .ok s else .error .reporterStateInvalid
  | _      => .error .reporterStateInvalid

/-- `ack_instant`, which returns nothing. -/
def ackInstant (v : Json) : Observed String :=
  match v with
  | .str s => if (Calendar.ackMillis s).isSome then .ok s else .error .ackInvalid
  | _      => .error .ackInvalid

/-- `instant_millis`, where only the text is kept. -/
def instantText (v : Json) : Observed String := do
  let _ ← instantMillis v
  .ok (v.asStr?.getD "")

/-- An entry of `checkpoints`. -/
def checkpointOf (epoch : String) (v : Json) : Observed Checkpoint := do
  let _ ← canonicalUuid (.str epoch)
  raiseIf (!v.hasKeys ["sequence", "bodySha256", "producerSha256", "receivedAt", "observedAt"]) .reporterStateInvalid
  let sequence ← (match v.getOrNull "sequence" with
    | .int n => if 0 ≤ n ∧ n ≤ MAX_SEQUENCE then .ok n.toNat else .error .reporterStateInvalid
    | _      => .error .reporterStateInvalid)
  let bodySha256 ← sha256Of (v.getOrNull "bodySha256")
  let producerSha256 ← sha256Of (v.getOrNull "producerSha256")
  let receivedAt ← ackInstant (v.getOrNull "receivedAt")
  let observedAt ← instantText (v.getOrNull "observedAt")
  .ok { sequence, bodySha256, producerSha256, receivedAt, observedAt }

/-- `key.split(':')`, of a key with one colon: the epoch and the digits of the sequence. -/
def splitKey (key : String) : List Char × List Char :=
  (key.toList.takeWhile (· ≠ ':'), (key.toList.dropWhile (· ≠ ':')).drop 1)

/-- `[a-f0-9-]{36}:[0-9]{1,16}` -/
def isBlockedKey (key : String) : Bool :=
  let (epoch, digits) := splitKey key
  key.toList.contains ':' && epoch.length = 36 && epoch.all (fun c => Text.isHex c || c = '-')
    && 1 ≤ digits.length && digits.length ≤ 16 && digits.all Text.isDigit

/-- An entry of `blocked`. -/
def blockedOf (key : String) (v : Json) : Observed Blocked := do
  raiseIf (!(isBlockedKey key && v.hasKeys ["bodySha256", "reason"])) .reporterStateInvalid
  let bodySha256 ← sha256Of (v.getOrNull "bodySha256")
  let reason ← (match v.getOrNull "reason" with
    | .str r => if ["CONTENT_CONFLICT", "REPLAY_REJECTED"].contains r then .ok r else .error .reporterStateInvalid
    | _      => .error .reporterStateInvalid)
  let _ ← canonicalUuid (.str (String.ofList (splitKey key).1))
  raiseIf (MAX_SEQUENCE < digitsValue (splitKey key).2) .reporterStateInvalid
  .ok { bodySha256, reason }

/-- The entries of a dictionary, each read with its key. -/
def entriesOf {V : Type} (read : String → Json → Observed V) (v : Json) : Observed (Dict String V) :=
  match v with
  | .dict ms => ms.foldlM (fun d m => do
      let x ← read m.1 m.2
      .ok (d.set m.1 x)) Dict.empty
  | _        => .error .reporterStateInvalid

def fewEntries (maximum : Nat) : Json → Bool
  | .dict ms => ms.length ≤ maximum
  | _        => false

/-- `reporter_state` -/
def reporterState (v : Json) (sourceId : String) : Observed ReporterState := do
  raiseIf (!(v.hasKeys ["version", "kind", "sourceId", "checkpoints", "blocked"]
    && (v.getOrNull "version").asInt? = some 1 && (v.getOrNull "kind").isStr "reporter"
    && (v.getOrNull "sourceId").isStr sourceId && fewEntries MAX_CHECKPOINTS (v.getOrNull "checkpoints")
    && fewEntries MAX_BLOCKED (v.getOrNull "blocked"))) .reporterStateInvalid
  let checkpoints ← entriesOf checkpointOf (v.getOrNull "checkpoints")
  let blocked ← entriesOf blockedOf (v.getOrNull "blocked")
  .ok { checkpoints, blocked }

/-! ## Answers of the server -/

/-- `verify_ack`, and the time of the acknowledgement. -/
def verifyAck (v : Json) (record : Record) (sourceId : String) : Observed String := do
  raiseIf (!v.hasKeys ["sourceId", "epoch", "sequence", "status", "contentSha256", "receivedAt"]) .ackInvalid
  raiseIf (!((v.getOrNull "sourceId").isStr sourceId && (v.getOrNull "epoch").isStr record.epoch
    && (v.getOrNull "sequence").asInt? = some record.sequence
    && ((v.getOrNull "status").isStr "ACCEPTED" || (v.getOrNull "status").isStr "DUPLICATE")
    && (v.getOrNull "contentSha256").isStr record.sha256)) .ackMismatch
  ackInstant (v.getOrNull "receivedAt")

/-- What an answer means for a record. -/
inductive Verdict where
  | acknowledged (receivedAt : String)
  | quarantined (reason : ObservationReason)
  | failed (reason : ObservationReason)
deriving DecidableEq, Repr

def verdict (response : Json) (record : Record) (sourceId : String) : Verdict :=
  let status := response.getOrNull "status"
  if response.isDict && status.isNumber 200 && response.hasKeys ["status", "ack"] then
    match verifyAck (response.getOrNull "ack") record sourceId with
    | .ok receivedAt => .acknowledged receivedAt
    | .error e       => .failed e
  else if status.isNumber 409 then .quarantined .contentConflict
  else if status.isNumber 422 then .quarantined .replayRejected
  else .failed .deliveryFailed

/-- `{key: value for key, value in document.items() if key != 'reporterReceivedAt'}` -/
def producerPart : Json → Json
  | .dict ms => .dict (ms.filter fun m => m.1 ≠ "reporterReceivedAt")
  | v        => v

/-! ## The program -/

/-- What a run asks the world. -/
inductive Outside where
  | token
  | send (body : ByteArray)
  | source

/-- An answer of the world: what is raised, what the server answered, and the bytes of the source, if they are bytes. -/
structure Reply where
  failure : Option Failure
  response : Json
  payload : Option ByteArray

abbrev Reporting (α : Type) := Spooling Outside Reply α

def askOutside {α : Type} (q : Outside) (read : Reply → α) : Reporting α :=
  ask (fun a => match a.reply.failure with
    | some e => .error e
    | none   => .ok (read a.reply)) (.outside q)

/-- The exceptions that `drain` catches. -/
def Failure.caughtByDrain : Failure → Bool
  | .value | .other => false
  | _               => true

/-- The exceptions that the import catches. -/
def Failure.caughtByImport : Failure → Bool
  | .other => false
  | _      => true

/-- `try: x except caught as error: …`, with the exception as a value. -/
def captured {α : Type} (caught : Failure → Bool) (x : Reporting α) : Reporting (Except Failure α) :=
  rescue caught (do
    let a ← x
    pure (.ok a)) fun e => pure (.error e)

/-- The variables of a run. -/
structure Tally where
  state : ReporterState
  delivered : Nat
  attempts : Nat
  reason : Option String

/-- `reason = str(error) if … else 'DELIVERY_FAILED'` -/
def Tally.failed (t : Tally) (e : Failure) : Tally := { t with reason := some (e.reason.getD "DELIVERY_FAILED") }

/-- `epoch + ':' + str(sequence)` -/
def keyText (record : Record) : String :=
  record.epoch ++ ":" ++ String.ofList (Numeral.ofInt record.sequence).render

/-- The keys of the blocked records. -/
def excluded (s : ReporterState) : List (String × Int) :=
  s.blocked.keys.map fun key => (String.ofList (splitKey key).1, (digitsValue (splitKey key).2 : Int))

variable (M : Machine) (c : ReportConfig)

/-- The checks of a pending record. -/
def checkRecord (record : Record) : Observed Unit := do
  let _ ← validateSample M true record.document
  let payload ← canonicalBytes M record.document
  raiseIf (!((record.document.getOrNull "sourceId").isStr c.sourceId
    && (record.document.getOrNull "epoch").isStr record.epoch
    && (record.document.getOrNull "sequence").asInt? = some record.sequence && payload = record.payload))
    .outboxRecordInvalid

/-- The state after an acknowledgement. -/
def checkpointed (s : ReporterState) (record : Record) (receivedAt : String) : Observed ReporterState := do
  let previous := s.checkpoints.get? record.epoch
  raiseIf (previous.isNone && MAX_CHECKPOINTS ≤ s.checkpoints.size) .checkpointLimit
  if previous.all fun p => p.sequence ≤ record.sequence then do
    raiseIf (previous.any fun p => p.sequence = record.sequence && p.bodySha256 ≠ record.sha256) .checkpointConflict
    let payload ← canonicalBytes M (producerPart record.document)
    let checkpoint : Checkpoint :=
      { sequence := record.sequence.toNat, bodySha256 := record.sha256, producerSha256 := Sha256.hexdigest payload
        receivedAt, observedAt := ((record.document.getOrNull "observedAt").asStr?).getD "" }
    .ok { s with checkpoints := s.checkpoints.set record.epoch checkpoint }
  else .ok s

/-- `box.save_control('state.json', state)` -/
def saveState (s : ReporterState) : Reporting Unit :=
  perform fun dir => saveControl M.text c.session dir "state.json" (s.toJson c.sourceId)

/-- A refused record is blocked, and the deliveries of the run end. -/
def quarantine (t : Tally) (record : Record) (reason : ObservationReason) : Reporting Tally := do
  if MAX_BLOCKED ≤ t.state.blocked.size then pure (t.failed (.observation .quarantineLimit))
  else do
    let entry : Blocked := { bodySha256 := record.sha256, reason := reason.text }
    let t := { t with state := { t.state with blocked := t.state.blocked.set (keyText record) entry } }
    match ← captured Failure.caughtByDrain (saveState M c t.state) with
    | .error e => pure (t.failed e)
    | .ok _    => pure (t.failed (.observation reason))

/-- An acknowledged record is checkpointed, and removed. -/
def settle (t : Tally) (record : Record) (receivedAt : String) : Reporting Tally := do
  match checkpointed M t.state record receivedAt with
  | .error e => pure (t.failed (.observation e))
  | .ok state => do
    let t := { t with state }
    match ← captured Failure.caughtByDrain (saveState M c t.state) with
    | .error e => pure (t.failed e)
    | .ok _    => do
      match ← captured Failure.caughtByDrain (perform fun dir => ack c.session dir record) with
      | .error e => pure (t.failed e)
      | .ok _    => pure { t with delivered := t.delivered + 1 }

/-- One attempt at a record. -/
def deliver (t : Tally) (record : Record) : Reporting Tally := do
  let t := { t with attempts := t.attempts + 1 }
  match ← captured Failure.caughtByDrain (askOutside (.send record.payload) Reply.response) with
  | .error e     => pure (t.failed e)
  | .ok response =>
    match verdict response record c.sourceId with
    | .failed e                => pure (t.failed (.observation e))
    | .quarantined reason      => quarantine M c t record reason
    | .acknowledged receivedAt => settle M c t record receivedAt

/-- The loop of `drain`. -/
def deliverAll (t : Tally) : List Record → Reporting Tally
  | []             => pure t
  | record :: rest =>
    if c.maxExportsPerRun ≤ t.attempts || t.reason.isSome then pure t
    else do
      lifted (checkRecord M c record).lift
      match t.state.blocked.get? (keyText record) with
      | some b =>
        if b.bodySha256 ≠ record.sha256 then throw (.observation .quarantinedContentChanged)
        else deliverAll t rest
      | none   => do
        let t ← deliver M c t record
        deliverAll t rest

/-- `drain` -/
def drain (t : Tally) : Reporting Tally := do
  let records ← look fun dir => pending M.text c.session dir c.maxExportsPerRun (excluded t.state)
  deliverAll M c t records

/-- The latest sample of the source. -/
def readSource : Reporting Json := do
  match ← askOutside .source Reply.payload with
  | none         => throw (.observation .remoteSampleInvalid)
  | some payload =>
    if MAX_SAMPLE_BYTES < payload.size then throw (.observation .remoteSampleInvalid)
    else do
      let candidate ← lifted (decoded M.text payload).lift
      let _ ← lifted (validateSample M false candidate).lift
      if (candidate.getOrNull "sourceId").isStr c.sourceId then pure candidate
      else throw (.observation .remoteSourceMismatch)

/-- The import of the latest sample: whether it was new. -/
def importLatest (now : Int) (state : ReporterState) (latest : Json) : Reporting Bool := do
  let core ← lifted (canonicalBytes M latest).lift
  let epoch := latest.getOrNull "epoch"
  let sequence := latest.getOrNull "sequence"
  match (epoch.asStr?.bind state.checkpoints.get?).filter fun p => (sequence.asInt?).any (· ≤ p.sequence) with
  | some p =>
    if !sequence.isNumber p.sequence || Sha256.hexdigest core ≠ p.producerSha256 then
      throw (.observation .sourceSequenceRollbackOrConflict)
    else pure false
  | none   => do
    match ← look fun dir => get M.text c.session dir epoch sequence with
    | some existing =>
      if (producerPart existing.document).equal latest then pure false
      else throw (.observation .contentConflict)
    | none          => do
      let request ← lifted (forReporter M latest now).lift
      let _ ← perform fun dir => put M.text c.session dir epoch sequence request
      pure true

/-- The state of the run, from the file, or new. -/
def loadState : Reporting ReporterState := do
  match ← look fun dir => loadControl M.text c.session dir "state.json" with
  | some v => lifted (reporterState v c.sourceId).lift
  | none   => do
    let found ← look fun dir => stats c.session dir
    if 0 < found.1 then throw (.observation .reporterStateLost)
    else do
      saveState M c .new
      pure .new

/-! ### The result -/

/-- `ack_millis` of a time that was read before. -/
def ackTime (s : String) : Int := (Calendar.ackMillis s).getD 0

/-- `instant_millis` of a time that was read before. -/
def observedTime (s : String) : Int := (Calendar.instantMillis s).getD 0

/-- `max(values, key=…)`: the first of the newest. -/
def newestCheckpoint : List Checkpoint → Option Checkpoint
  | []         => none
  | x :: rest => some (rest.foldl (fun best y => if ackTime best.receivedAt < ackTime y.receivedAt then y else best) x)

/-- A duration in seconds, unless it is negative. -/
def elapsed (later earlier : Int) : Json :=
  if earlier ≤ later then (secondsOf M (later - earlier)).toJson else .null

def orNull (s : Option String) : Json := (s.map Json.str).getD .null

/-- The result of a run. -/
def reportResult (now : Int) (t : Tally) (imported : Nat) (latest : Option Json) (samples bytes : Nat) : Json :=
  let reason := t.reason.orElse fun _ => if t.state.blocked.isEmpty then none else some "SAMPLES_QUARANTINED"
  let acknowledged := newestCheckpoint t.state.checkpoints.values
  .dict [("status", .str (if reason.isNone then "OK" else "OBSERVATION_ERROR")), ("reason", orNull reason),
    ("imported", .int imported), ("delivered", .int t.delivered), ("pending", .int samples),
    ("pendingBytes", .int bytes),
    ("latestSourceObservedAt", (latest.map fun v => v.getOrNull "observedAt").getD .null),
    ("quarantined", .int t.state.blocked.size),
    ("latestAcknowledgedObservedAt", orNull (acknowledged.map Checkpoint.observedAt)),
    ("acknowledgedAgeSeconds", (acknowledged.map fun a => elapsed M now (observedTime a.observedAt)).getD .null),
    ("deliveryLagSeconds",
      (acknowledged.map fun a => elapsed M (ackTime a.receivedAt) (observedTime a.observedAt)).getD .null)]

/-- `reason = str(error) if … else 'ACQUISITION_FAILED'`, unless there is a reason. -/
def Tally.acquisitionFailed (t : Tally) (e : Failure) : Tally :=
  { t with reason := t.reason.orElse fun _ => some (e.reason.getD "ACQUISITION_FAILED") }

/-- What the source and the import come to: the variables, what was imported, and the latest sample. -/
def acquire (now : Int) (t : Tally) : Reporting (Tally × Nat × Option Json) := do
  match ← captured Failure.caughtByImport (readSource M c) with
  | .error e   => pure (t.acquisitionFailed e, 0, none)
  | .ok latest => do
    match ← captured Failure.caughtByImport (importLatest M c now t.state latest) with
    | .error e  => pure (t.acquisitionFailed e, 0, some latest)
    | .ok isNew => pure (t, if isNew then 1 else 0, some latest)

/-- `report` -/
def report (now : Int) : Reporting Json := do
  let _ ← lifted (instant now).lift
  askOutside .token fun _ => ()
  call .lock
  let state ← loadState M c
  let t ← drain M c { state, delivered := 0, attempts := 0, reason := none }
  let (t, imported, latest) ← acquire M c now t
  let t ← drain M c t
  let (samples, bytes) ← look fun dir => stats c.session dir
  let result := reportResult M now t imported latest samples bytes
  perform fun dir => saveControl M.text c.session dir "status.json" result
  pure result

end Observation
end PickleInfra
