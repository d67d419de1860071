import PickleInfra.Python.Clock
import PickleInfra.Python.Dict
import PickleInfra.Python.Text

/-!
# `Discord.Outbox` — the state of `discord-ops-alerts.py`, and how events are queued

The state is a dictionary of cursors, one per source and dimension, and an outbox of items. `enqueue`
queues the transitions of a plain source; `enqueueServiceHealth` reads the durable incident
identities of the health collector, supersedes what has become obsolete, and queues an alarm per
incident and a recovery per handed alarm.

Names are subtypes (`NAME` is checked by `load_config`), so the keys and item ids that the source
builds by joining strings are pairs here; `ItemId.text` is the joined string.
-/

namespace PickleInfra
namespace Discord

open Python

/-- A string `NAME` accepts. -/
abbrev Name := {s : String // Text.isName s = true}

inductive Dimension where
  | condition
  | freshness
  | observer
deriving DecidableEq, Repr

def Dimension.text : Dimension → String
  | .condition => "condition"
  | .freshness => "freshness"
  | .observer  => "observer"

/-- `source['name'] + ':' + dimension` -/
abbrev Key := Name × Dimension

/-- The `id` of an item: `'connection-test'`, or `key + ':' + str(sequence)`. -/
inductive ItemId where
  | connectionTest
  | event (key : Key) (sequence : Nat)
deriving DecidableEq

def ItemId.text : ItemId → String
  | .connectionTest     => "connection-test"
  | .event key sequence => key.1.val ++ ":" ++ key.2.text ++ ":" ++ toString sequence

/-- A plain classification; `UNKNOWN` is a case of its own. -/
inductive Signal where
  | alarm
  | normal
  | unknown
deriving DecidableEq, Repr

inductive SourceKind where
  | systemd
  | cronMarkers
  | monitorState
  | dbCache
  | serviceHealth (sourceName : Name) (warning : Bool)
deriving DecidableEq

def SourceKind.isService : SourceKind → Bool
  | .serviceHealth .. => true
  | _                 => false

structure Source where
  name : Name
  label : String
  kind : SourceKind
  maxAge : Int
deriving DecidableEq

/-- What `load_config` accepts, as far as a run reads it. -/
structure Config where
  hostLabel : String
  sources : List Source
  nodup : (sources.map Source.name).Nodup

/-! ## Reports of the health collector -/

/-- The dictionary `collect_service_health` returns for a dimension, when it has a source sequence.
    An `ALARM` has an open incident and a `NORMAL` has none. -/
structure ServiceReport where
  status : Signal
  incident : Option Nat
  sourceSequence : Nat
  closedIncident : Option Nat
  openedAt : Option ℚ
  closedAt : Option ℚ
  sampleAt : ℚ
  observedAt : ℚ
  alarm : status = .alarm → incident.isSome
  normal : status = .normal → incident = none
deriving DecidableEq

/-- `alarm_incident`, `alarm_opened_at` and `alarm_delivery` of a cursor. -/
structure Receipt where
  incident : Nat
  openedAt : Option ℚ
  uncertain : Bool
deriving DecidableEq

/-- One entry of `observations`. Its status is `ALARM` or `NORMAL`; a plain source has no report. -/
structure Cursor where
  status : Signal
  sequence : Nat
  report : Option ServiceReport := none
  receipt : Option Receipt := none
deriving DecidableEq

/-! ## Items -/

inductive Delivery where
  | pending
  | attempted
  | sent
  | uncertain
  | failed
  | superseded
deriving DecidableEq, Repr

/-- The text of an item, by its parts. -/
inductive Message where
  | test (host : String)
  | event (signal : Signal) (title host label stamp : String) (backupNote : Bool)
deriving DecidableEq

def Message.text : Message → String
  | .test host => "[Pickle 운영 알림 시험] 연결 확인\n대상: " ++ host
  | .event _ title host label stamp backupNote =>
    "[Pickle 운영 알림] " ++ title ++ "\n대상: " ++ host ++ " / " ++ label
      ++ "\n확인 시각: " ++ stamp ++ " 한국 표준시"
      ++ if backupNote then "\n마지막으로 정상 확인한 백업 기록이에요. 최근 백업 결과를 확인해 주세요." else ""

/-- Which transition a message is about; the test message is about none. -/
def Message.signal : Message → Option Signal
  | .test _               => none
  | .event signal _ _ _ _ _ => some signal

/-- The `source_*` fields of an item of a `service_health` source. Its `source` and `dimension` are
    those of the item's key. -/
structure ServiceTag where
  event : Signal
  incident : Option Nat
  openedAt : Option ℚ
  closedAt : Option ℚ
deriving DecidableEq

structure Item where
  id : ItemId
  content : Message
  delivery : Delivery
  attempts : Nat
  nextAttempt : ℚ
  code : Option String := none
  messageId : Option String := none
  rateLimitCount : Nat := 0
  service : Option ServiceTag := none
deriving DecidableEq

/-- The key of an event item. -/
def ItemId.key? : ItemId → Option Key
  | .connectionTest => none
  | .event key _    => some key

/-- `state.json` -/
structure State where
  observations : Dict Key Cursor := .empty
  outbox : List Item := []
  lastRun : Option ℚ := none
  webhookRetryAfter : Option ℚ := none
  testEnqueued : Bool := false

def maxAttempts : Nat := 3
def maxOutbox : Nat := 1000

/-- `AlertError`, or an exception of `message_content`. -/
inductive AlertExn where
  | alert (text : String)
  | clock
deriving DecidableEq, Repr

/-! ## `validate_state` and `message_content` -/

/-- `validate_state`: what is not in the type of a state. -/
def validateState (s : State) : Except AlertExn State :=
  if maxOutbox < s.outbox.length then .error (.alert "알림 대기열이 가득 찼어요.")
  else if s.outbox.any (fun item => maxAttempts < item.attempts) then
    .error (.alert "알림 전송 기록을 확인하세요.")
  else .ok s

/-- The label `message_content` chooses. -/
def messageTitle (source : Source) (dimension : Dimension) (recovered : Bool) : String :=
  if dimension = .freshness then
    if recovered then "감시 결과 갱신 복구" else "감시 결과 갱신 지연"
  else if source.kind.isService && dimension = .observer then
    if recovered then "감시 관측 복구" else "감시 관측 장애"
  else match source.kind with
    | .serviceHealth _ true => if recovered then "주의 해소" else "주의"
    | .dbCache              => if recovered then "정상 확인 복구" else "정상 확인 지연"
    | _                     => if recovered then "정상 복구" else "장애 감지"

/-- `message_content`; it raises for a clock `datetime` has no year for. -/
def messageContent (config : Config) (source : Source) (dimension : Dimension) (current : Signal)
    (now : ℚ) : Except AlertExn Message :=
  match Clock.stamp now with
  | none       => .error .clock
  | some stamp => .ok (.event current (messageTitle source dimension (current = .normal))
      config.hostLabel source.label stamp (source.kind = .dbCache))

/-! ## `enqueue` -/

/-- A new item of an event. -/
def newItem (key : Key) (sequence : Nat) (content : Message) (now : ℚ)
    (service : Option ServiceTag) : Item where
  id := .event key sequence
  content := content
  delivery := .pending
  attempts := 0
  nextAttempt := now
  service := service

/-- `enqueue`, for a plain source. -/
def enqueue (s : State) (config : Config) (source : Source) (dimension : Dimension)
    (current : Signal) (now : ℚ) : Except AlertExn State :=
  let key := (source.name, dimension)
  let old := s.observations.get? key
  if current = .unknown ∨ old.map Cursor.status = some current then .ok s
  else
    let sequence := (old.map Cursor.sequence).getD 0 + 1
    let s := { s with observations := s.observations.set key { status := current, sequence } }
    if old.isNone ∧ current = .normal then .ok s
    else match messageContent config source dimension current now with
      | .error e     => .error e
      | .ok content => .ok { s with outbox := s.outbox ++ [newItem key sequence content now none] }

/-! ## `enqueue_service_health` -/

/-- `service_matches` -/
def serviceMatches (tag : ServiceTag) (report : ServiceReport) : Bool :=
  match report.status with
  | .unknown => false
  | status   =>
    if tag.event = .alarm then
      status = .alarm && tag.incident = report.incident && tag.openedAt = report.openedAt
    else
      status = .normal && report.incident.isNone && tag.incident = report.closedIncident
        && tag.closedAt = report.closedAt

/-- The report is not older than the cursor, and agrees with it on what both identify. -/
def accepts (old : Option Cursor) (report : ServiceReport) : Bool :=
  match old.bind Cursor.report with
  | none   =>
    -- a cursor of a plain source: every field reads as missing, or as 0
    old.isNone || (0 ≤ report.sampleAt && 0 ≤ report.observedAt
      && (report.closedIncident.isSome || report.closedAt.isNone))
  | some o =>
    o.sourceSequence ≤ report.sourceSequence && o.sampleAt ≤ report.sampleAt
      && o.observedAt ≤ report.observedAt
      && !(report.sourceSequence = o.sourceSequence && report.openedAt ≠ o.openedAt)
      && !(report.closedIncident = o.closedIncident && report.closedAt ≠ o.closedAt)

/-- The item belongs to a `service_health` source, under this key. -/
def Item.isServiceOf (key : Key) (item : Item) : Bool :=
  item.service.isSome && item.id.key? = some key

/-- The producer's rule on one item: renewed evidence supersedes an unsent recovery that no longer
    matches, and a closed incident supersedes its unsent alarm. -/
def Item.superseded (report : ServiceReport) (item : Item) : Item :=
  match item.delivery, item.service with
  | .pending, some tag =>
    if tag.event = .normal && !serviceMatches tag report then
      { item with delivery := .superseded, code := some "RECOVERY_INTERRUPTED" }
    else if tag.event = .alarm && tag.incident.getD 0 ≤ report.closedIncident.getD 0
        && tag.incident ≠ report.incident then
      { item with delivery := .superseded, code := some "INCIDENT_CLOSED" }
    else item
  | _, _ => item

def State.supersede (s : State) (key : Key) (report : ServiceReport) : State :=
  { s with outbox := s.outbox.map (fun item =>
      if item.isServiceOf key then item.superseded report else item) }

/-- The receipt that survives: that of the open or of the last closed incident. -/
def keptReceipt (old : Option Cursor) (report : ServiceReport) : Option Receipt :=
  (old.bind Cursor.receipt).filter (fun r =>
    some r.incident = report.incident || some r.incident = report.closedIncident)

/-- An alarm of this incident that was handed to the webhook. -/
def Item.wasHanded (incident : Option Nat) (item : Item) : Bool :=
  (match item.service with
    | some tag => tag.event = .alarm && tag.incident = incident
    | none     => false)
  && (item.delivery = .sent || item.delivery = .uncertain || item.delivery = .attempted)

/-- Whether the accepted report is an event. `matching` are the items of its key. -/
def isEvent (old : Option Cursor) (receipt : Option Receipt) (matching : List Item)
    (report : ServiceReport) : Bool :=
  let oldStatus := old.map Cursor.status
  let oldIncident := (old.bind Cursor.report).bind ServiceReport.incident
  match report.status with
  | .alarm   => oldStatus ≠ some .alarm || oldIncident ≠ report.incident
  | .normal  => oldStatus = some .alarm && oldIncident = report.closedIncident
      && (receipt.any (fun r =>
            some r.incident = report.closedIncident && r.openedAt = report.openedAt)
          || matching.any (Item.wasHanded report.closedIncident))
  | .unknown => false

/-- The tag of the item of an event. -/
def ServiceTag.ofReport (report : ServiceReport) : ServiceTag where
  event := report.status
  incident := if report.status = .alarm then report.incident else report.closedIncident
  openedAt := report.openedAt
  closedAt := report.closedAt

/-- `enqueue_service_health`, with the `bool` it returns. A report without a source sequence is
    `none`. -/
def enqueueServiceHealth (s : State) (config : Config) (source : Source) (dimension : Dimension)
    (report : Option ServiceReport) (now : ℚ) : Except AlertExn (State × Bool) :=
  let key := (source.name, dimension)
  let old := s.observations.get? key
  match report with
  | none        => .ok (s, false)
  | some report =>
    if !accepts old report then .ok (s, false)
    else
      let s := s.supersede key report
      if report.status = .unknown then .ok (s, false)
      else
        let receipt := keptReceipt old report
        let event := isEvent old receipt (s.outbox.filter (Item.isServiceOf key)) report
        let sequence := (old.map Cursor.sequence).getD 0 + if event then 1 else 0
        let cursor : Cursor := { status := report.status, sequence, report := some report, receipt }
        let s := { s with observations := s.observations.set key cursor }
        if !event then .ok (s, true)
        else match messageContent config source dimension report.status now with
          | .error e    => .error e
          | .ok content => .ok ({ s with outbox := s.outbox ++
              [newItem key sequence content now (some (.ofReport report))] }, true)

end Discord
end PickleInfra
