import PickleInfra.Durable.Notices
import PickleInfra.Python.Calendar
import PickleInfra.Python.Value

/-!
# `Backup.Core` — one run of `core-pbs-monitor.py`

`inspect` judges a list of archives, `record_observation` keeps what was observed apart from the
notification, and `run` saves both and calls the mail sender. The store is the state file; the questions
are the calls of the sender. `ZoneInfo('Asia/Seoul')` is a parameter: nothing depends on its offsets. A
float is a rational number here.
-/

namespace PickleInfra
namespace Backup
namespace Core

open Python Durable

/-! ## `VOLID` and `strptime` -/

/-- The digits zero of Unicode: `\d` matches them and the nine characters after each. -/
def decimalZeros : List Nat :=
  [0x30, 0x660, 0x6f0, 0x7c0, 0x966, 0x9e6, 0xa66, 0xae6, 0xb66, 0xbe6, 0xc66, 0xce6, 0xd66, 0xde6, 0xe50,
   0xed0, 0xf20, 0x1040, 0x1090, 0x17e0, 0x1810, 0x1946, 0x19d0, 0x1a80, 0x1a90, 0x1b50, 0x1bb0, 0x1c40,
   0x1c50, 0xa620, 0xa8d0, 0xa900, 0xa9d0, 0xa9f0, 0xaa50, 0xabf0, 0xff10, 0x104a0, 0x10d30, 0x11066,
   0x110f0, 0x11136, 0x111d0, 0x112f0, 0x11450, 0x114d0, 0x11650, 0x116c0, 0x11730, 0x118e0, 0x11950,
   0x11c50, 0x11d50, 0x11da0, 0x16a60, 0x16ac0, 0x16b50, 0x1d7ce, 0x1d7d8, 0x1d7e2, 0x1d7ec, 0x1d7f6,
   0x1e140, 0x1e2f0, 0x1e950, 0x1fbf0]

/-- The value of a character that `\d` matches. -/
def decimal (c : Char) : Option Nat :=
  (decimalZeros.find? fun z => z ≤ c.toNat && c.toNat < z + 10).map fun z => c.toNat - z

/-- The value of an ASCII digit between two others. -/
def ascii (lo hi : Char) (c : Char) : Option Nat := if lo ≤ c && c ≤ hi then some (c.toNat - 48) else none

/-- A field of two digits: one alternative of a `strptime` group. -/
def pair (first second : Char → Option Nat) (a b : Char) : Option Nat := do
  let x ← first a
  let y ← second b
  some (10 * x + y)

/-- `%m` -/
def monthField (a b : Char) : Option Nat :=
  (pair (ascii '1' '1') (ascii '0' '2') a b).or (pair (ascii '0' '0') (ascii '1' '9') a b)

/-- `%d` -/
def dayField (a b : Char) : Option Nat :=
  ((pair (ascii '3' '3') (ascii '0' '1') a b).or (pair (ascii '1' '2') decimal a b)).or
    (pair (ascii '0' '0') (ascii '1' '9') a b)

/-- `%H` -/
def hourField (a b : Char) : Option Nat :=
  (pair (ascii '2' '2') (ascii '0' '3') a b).or (pair (ascii '0' '1') decimal a b)

/-- `%M`, and `%S`: the leap seconds that `%S` admits are no seconds of a `datetime`. -/
def sexagesimal (a b : Char) : Option Nat := pair (ascii '0' '5') decimal a b

/-- `int(datetime.strptime(text, '%Y-%m-%dT%H:%M:%SZ').replace(tzinfo=utc).timestamp())` of a text that
    has the form of `VOLID`; `none` is a `ValueError`. -/
def stampEpoch : List Char → Option Int
  | [y3, y2, y1, y0, '-', m1, m0, '-', d1, d0, 'T', h1, h0, ':', i1, i0, ':', s1, s0, 'Z'] => do
    let year := 1000 * (← decimal y3) + 100 * (← decimal y2) + 10 * (← decimal y1) + (← decimal y0)
    let month ← monthField m1 m0
    let day ← dayField d1 d0
    let hour ← hourField h1 h0
    let minute ← sexagesimal i1 i0
    let second ← sexagesimal s1 s0
    let days := Calendar.dayNumber year month day
    if year ≠ 0 ∧ Clock.civil days = (↑year, ↑month, ↑day) then
      some (days * 86400 + hour * 3600 + minute * 60 + second)
    else none
  | _ => none

def CTIDS : List Nat := [1200, 1201, 1202, 1203, 1204]

/-- `VOLID.fullmatch(volid)` with the container of the first group, and the epoch of the second. -/
def volidEpoch (volid : String) (ctid : Nat) : Option Int :=
  let start := ("pbs-example-core-read:backup/ct/" ++ toString ctid ++ "/").toList
  if start.isPrefixOf volid.toList then stampEpoch (volid.toList.drop start.length) else none

/-- `MANUAL.get(ctid)` -/
def manual : Nat → Option String
  | 1200 => some "pbs-example-core-read:backup/ct/1200/2025-01-01T12:43:02Z"
  | 1201 => some "pbs-example-core-read:backup/ct/1201/2025-01-01T11:55:44Z"
  | 1202 => some "pbs-example-core-read:backup/ct/1202/2025-01-01T12:46:30Z"
  | 1204 => some "pbs-example-core-read:backup/ct/1204/2025-01-01T12:50:42Z"
  | _    => none

def FINGERPRINT : String :=
  "aa:aa:aa:aa:aa:aa:aa:aa:aa:aa:aa:aa:aa:aa:aa:aa:aa:aa:aa:aa:aa:aa:aa:aa:aa:aa:aa:aa:aa:aa:aa:aa"

/-! ## `inspect` -/

inductive Verdict where
  | healthy
  | failed
  | pending
deriving DecidableEq, Repr

def Verdict.text : Verdict → String
  | .healthy => "HEALTHY"
  | .failed  => "FAILED"
  | .pending => "PENDING"

/-- One entry of `last_valid_points`. -/
structure Point where
  ctime : Option Int := none
  volid : Json := .null
  age : Option ℚ := none

/-- The report of `inspect`, or of a failed query. -/
structure Report where
  status : Verdict
  date : String
  reason : String
  latest : List (String × Int)

/-- A date and time of day in `KST`: the day counted from 1970-01-01, and its seconds. -/
structure Local where
  day : Int
  seconds : ℚ

/-- What `ZoneInfo('Asia/Seoul')` does: the local time of an instant, and the instant of a local time. -/
structure Zone where
  toLocal : ℚ → Local
  timestamp : Local → ℚ

/-- The arguments of a run: its zone, its deadline in seconds of the day, and its first due date. -/
structure Schedule where
  zone : Zone
  deadline : ℚ
  firstDueDate : Int

/-- `date.isoformat()` -/
def isoDate (day : Int) : String :=
  let (y, m, d) := Clock.civil day
  Clock.padded 4 y ++ "-" ++ Clock.padded 2 m ++ "-" ++ Clock.padded 2 d

/-- `row.get('ctime')`, if it is an integer. -/
def ctime? (row : Json) : Option Int := (row.getOrNull "ctime").asInt?

/-- `valid(row, ctid)` -/
def valid (now : ℚ) (ctid : Nat) (row : Json) : Bool :=
  match (row.getOrNull "volid").asStr?.bind fun volid => volidEpoch volid ctid with
  | none       => false
  | some epoch =>
    (row.getOrNull "ctime").isNumber epoch && (row.getOrNull "format").isStr "pbs-ct"
      && (row.getOrNull "subtype").isStr "lxc" && (row.getOrNull "content").isStr "backup"
      && (row.getOrNull "encrypted").isStr FINGERPRINT
      && ((row.getOrNull "size").asInt?.any fun size => 0 < size)
      && ((ctime? row).any fun (ctime : Int) => (ctime : ℚ) ≤ now)

/-- `max(rows, key=lambda item: item['ctime'])`, of rows whose `ctime` is an integer: the first of the
    largest. -/
def newest (rows : List (Int × Json)) : Option (Int × Json) :=
  rows.foldl (fun best row => match best with
    | none   => some row
    | some b => if b.1 < row.1 then some row else some b) none

/-- The rows with their times, where these are integers. -/
def timed (rows : List Json) : List (Int × Json) := rows.filterMap fun row => (ctime? row).map (·, row)

/-- `[row for row in content if isinstance(row, dict) and row.get('vmid') == ctid]` -/
def rowsOf (content : List Json) (ctid : Nat) : List Json :=
  content.filter fun row => row.isDict && (row.getOrNull "vmid").isNumber ctid

/-- `valid_rows` -/
def validRows (now : ℚ) (content : List Json) (ctid : Nat) : List Json :=
  (rowsOf content ctid).filter (valid now ctid)

/-- The entry of a container in `last_valid_points`. -/
def lastValidPoint (now : ℚ) (content : List Json) (ctid : Nat) : Point :=
  match newest (timed (validRows now content ctid)) with
  | none              => {}
  | some (ctime, row) => ⟨some ctime, row.getOrNull "volid", some (now - ctime)⟩

/-- The protected manual archive of the container is not there. -/
def baselineMissing (now : ℚ) (content : List Json) (ctid : Nat) : Bool :=
  match manual ctid with
  | none       => false
  | some volid => !(rowsOf content ctid).any fun row =>
      (row.getOrNull "volid").isStr volid && (row.getOrNull "protected").isNumber 1 && valid now ctid row

/-- What today's archive of the container is: its time, or what is wrong with it. -/
def today (now window : ℚ) (content : List Json) (ctid : Nat) : Except String Int :=
  let rows := (rowsOf content ctid).filter fun row =>
    (manual ctid).all fun volid => !(row.getOrNull "volid").isStr volid
  match newest (timed rows) with
  | none              => .error "MISSING"
  | some (ctime, row) =>
    if !valid now ctid row then .error "INVALID_METADATA"
    else if (ctime : ℚ) < window then .error "STALE"
    else .ok ctime

/-- What is wrong with today's archive of a container. -/
def failure? (result : Nat × Except String Int) : Option String :=
  match result.2 with
  | .error text => some ("CT" ++ toString result.1 ++ ":" ++ text)
  | .ok _       => none

/-- `baseline_failures` -/
def baselineFailures (now : ℚ) (content : List Json) : List String :=
  (CTIDS.filter (baselineMissing now content)).map fun ctid =>
    "CT" ++ toString ctid ++ ":PROTECTED_BASELINE_MISSING"

/-- Today's archives, from the first due date on. -/
def todays (s : Schedule) (content : List Json) (now : ℚ) : List (Nat × Except String Int) :=
  let day := (s.zone.toLocal now).day
  let window := s.zone.timestamp ⟨day, 3 * 3600 + 17 * 60⟩
  if day < s.firstDueDate then [] else CTIDS.map fun ctid => (ctid, today now window content ctid)

/-- The status: today's archives may be late until the deadline. -/
def verdict (baselineFailures failures : List String) (late : Bool) : Verdict :=
  if baselineFailures ≠ [] ∨ (failures ≠ [] ∧ late = true) then .failed
  else if failures ≠ [] then .pending
  else .healthy

/-- `inspect`: the report, and its last valid points. -/
def inspect (s : Schedule) (content : List Json) (now : ℚ) : Report × List (String × Point) :=
  let here := s.zone.toLocal now
  let failures := (todays s content now).filterMap failure?
  let reasons := baselineFailures now content ++ failures
  ({ status := verdict (baselineFailures now content) failures (s.deadline ≤ here.seconds)
     date := isoDate here.day
     reason := if reasons ≠ [] then ",".intercalate reasons else "ALL_CORE_ARCHIVES_PRESENT"
     latest := (todays s content now).filterMap fun r => r.2.toOption.map (toString r.1, ·) },
   CTIDS.map fun ctid => (toString ctid, lastValidPoint now content ctid))

/-! ## The state -/

inductive Evidence where
  | observed
  | cached
  | unavailable
deriving DecidableEq, Repr

def Evidence.text : Evidence → String
  | .observed    => "OBSERVED"
  | .cached      => "CACHED"
  | .unavailable => "UNAVAILABLE"

/-- A report with the fields of `record_observation`. -/
structure Observation where
  report : Report
  points : List (String × Point)
  observedAt : ℚ
  queryOk : Bool
  inventoryAt : Option ℚ
  evidence : Evidence

inductive MailEvent where
  | baseline
  | failed
  | recovered
deriving DecidableEq, Repr

def MailEvent.text : MailEvent → String
  | .baseline  => "BASELINE"
  | .failed    => "FAILED"
  | .recovered => "RECOVERED"

inductive Delivery where
  | baseline
  | attempted
  | sent
  | notSent
  | uncertain
  | retriesExhausted
deriving DecidableEq, Repr

def Delivery.text : Delivery → String
  | .baseline         => "BASELINE"
  | .attempted        => "ATTEMPTED"
  | .sent             => "SENT"
  | .notSent          => "NOT_SENT"
  | .uncertain        => "UNCERTAIN"
  | .retriesExhausted => "RETRIES_EXHAUSTED"

/-- The fields of a notification, which `transition` sets together. -/
structure Notice where
  status : Verdict
  sequence : Nat
  event : MailEvent
  delivery : Delivery
  attempts : Nat
  retryAfter : Option ℚ
  report : Observation

inductive Provenance where
  | observedEpisode
  | legacyActiveIncident
deriving DecidableEq, Repr

def Provenance.text : Provenance → String
  | .observedEpisode      => "OBSERVED_EPISODE"
  | .legacyActiveIncident => "LEGACY_ACTIVE_INCIDENT"

/-- `state['incident']` -/
structure Incident where
  sequence : Nat
  provenance : Provenance
  firstReport : Option Observation := none
  recoveryReport : Option Observation := none

/-- The state file. A key that is missing is `none`. -/
structure State where
  schemaVersion : Option Int := none
  notice : Option Notice := none
  previousNotification : Option Notice := none
  incident : Option Incident := none
  legacyReport : Option Observation := none
  lastObservation : Option Observation := none
  lastCheckEpoch : Option ℚ := none

/-! ## The state file -/

/-- A float, or `None`. -/
def floatOrNull : Option ℚ → Json
  | some q => .float (.finite q)
  | none   => .null

def Point.toJson (p : Point) : Json :=
  .dict [("ctime", (p.ctime.map Json.int).getD .null), ("volid", p.volid), ("age_seconds", floatOrNull p.age)]

/-- A dictionary of points. -/
def pointsJson (points : List (String × Point)) : Json := .dict (points.map fun e => (e.1, e.2.toJson))

def Observation.toJson (o : Observation) : Json :=
  .dict [("status", .str o.report.status.text), ("date", .str o.report.date), ("reason", .str o.report.reason),
    ("latest", .dict (o.report.latest.map fun e => (e.1, .int e.2))),
    ("last_valid_points", pointsJson o.points), ("observed_at_epoch", .float (.finite o.observedAt)),
    ("query_status", .str (if o.queryOk then "OK" else "UNAVAILABLE")),
    ("inventory_observed_at_epoch", floatOrNull o.inventoryAt), ("point_evidence", .str o.evidence.text)]

/-- The fields of a notification. -/
def Notice.entries (n : Notice) : List (String × Json) :=
  [("status", .str n.status.text), ("sequence", .int n.sequence), ("event", .str n.event.text),
    ("delivery", .str n.delivery.text), ("attempts", .int n.attempts), ("report", n.report.toJson)]
    ++ n.retryAfter.toList.map fun t => ("retry_after", .float (.finite t))

def Incident.toJson (i : Incident) : Json :=
  .dict ([("sequence", .int i.sequence), ("provenance", .str i.provenance.text)]
    ++ i.firstReport.toList.map (fun o => ("first_report", o.toJson))
    ++ i.recoveryReport.toList.map fun o => ("recovery_report", o.toJson))

/-- The state as it is written. -/
def State.toJson (s : State) : Json :=
  .dict (s.schemaVersion.toList.map (fun n => ("observation_schema_version", .int n))
    ++ s.lastObservation.toList.map (fun o => ("last_observation", o.toJson))
    ++ s.lastCheckEpoch.toList.map (fun t => ("last_check_epoch", .float (.finite t)))
    ++ (s.notice.map Notice.entries).getD []
    ++ s.previousNotification.toList.map (fun n => ("previous_notification", .dict n.entries))
    ++ s.incident.toList.map (fun i => ("incident", i.toJson))
    ++ s.legacyReport.toList.map fun o => ("legacy_available_report",
        .dict [("provenance", .str "LEGACY_AVAILABLE_REPORT"), ("report", o.toJson)]))

/-! ## `record_observation` -/

/-- The cached point of a container, aged to now. -/
def cachedPoint (now : ℚ) (points : List (String × Point)) (ctid : String) : Point :=
  match (points.find? fun e => e.1 = ctid).bind fun e => e.2.ctime.map (·, e.2.volid) with
  | none                => {}
  | some (ctime, volid) =>
    if 0 ≤ ctime ∧ (ctime : ℚ) ≤ now then ⟨some ctime, volid, some (now - ctime)⟩ else {}

/-- The inventory time that an observation without a query inherits. -/
def inherited (previous : Option Observation) (now : ℚ) : Option ℚ :=
  (previous.bind Observation.inventoryAt).filter fun t => 0 ≤ t && t ≤ now

/-- The report with the fields of an observation: of a query that returned, with its points, or of one
    that failed. -/
def observe (previous : Option Observation) (report : Report) (points? : Option (List (String × Point)))
    (now : ℚ) : Observation :=
  match points? with
  | some points => ⟨report, points, now, true, some now, .observed⟩
  | none        =>
    let inventory := inherited previous now
    let cached := if inventory.isSome then (previous.map Observation.points).getD [] else []
    ⟨report, CTIDS.map fun ctid => (toString ctid, cachedPoint now cached (toString ctid)), now, false,
      inventory, if inventory.isSome then .cached else .unavailable⟩

/-- `record_observation`, of a state whose schema is known. -/
def recordObservation (state : State) (observation : Observation) : State :=
  let state := match state.schemaVersion, state.notice with
    | none, some notice =>
      { state with
        legacyReport := state.legacyReport.or (some notice.report)
        incident := if notice.status = Verdict.failed then
            state.incident.or (some ⟨notice.sequence, .legacyActiveIncident, none, none⟩)
          else state.incident }
    | _, _              => state
  { state with schemaVersion := some 1, lastObservation := some observation }

/-! ## `transition` and `run` -/

/-- `transition` -/
def transition (state : State) (observation : Observation) : State × Option MailEvent :=
  let current := observation.report.status
  let previous := state.notice.map Notice.status
  if previous = some current then (state, none)
  else
    let sequence := (state.notice.map Notice.sequence).getD 0 + 1
    let event : MailEvent :=
      if previous = none ∧ current = .healthy then .baseline
      else if current = .failed then .failed
      else .recovered
    let incident := match event with
      | .failed    => some ⟨sequence, .observedEpisode, some observation, none⟩
      | .recovered => state.incident.map fun i => { i with recoveryReport := some observation }
      | .baseline  => state.incident
    ({ state with
       notice := some ⟨current, sequence, event, if event = .baseline then .baseline else .attempted, 0,
         state.notice.bind Notice.retryAfter, observation⟩
       previousNotification := state.notice.or state.previousNotification
       incident := incident }, some event)

/-- A call of the sender, with the number of the notification whose claim was saved. -/
structure Mailing where
  report : Observation
  event : MailEvent
  sequence : Nat

/-- How a call of the sender ends: it returns, or raises `MailNotSent`, one of `MailUncertain`, `OSError`
    and `SMTPException`, or something else. -/
inductive MailAnswer where
  | returned
  | notSent
  | uncertain
  | raised
deriving DecidableEq, Repr

/-- The notification with its next attempt claimed. -/
def Notice.claim (n : Notice) : Notice :=
  { n with attempts := n.attempts + 1, delivery := .attempted, retryAfter := none }

/-- The notification after the sender was called. -/
def Notice.outcome (now : ℚ) (n : Notice) : MailAnswer → Option Notice
  | .returned  => some { n with delivery := .sent }
  | .notSent   =>
    if 3 ≤ n.attempts then some { n with delivery := .retriesExhausted }
    else some { n with delivery := .notSent, retryAfter := some (now + if n.attempts = 1 then 60 else 300) }
  | .uncertain => some { n with delivery := .uncertain }
  | .raised    => none

/-- What the query comes to: a list, a `MonitorError`, or another exception. -/
inductive Fetched where
  | content (rows : List Json)
  | unavailable
  | raised

structure RunInput where
  schedule : Schedule
  now : ℚ
  fetched : Fetched

/-- The report of a failed query. -/
def unavailableReport (s : Schedule) (now : ℚ) : Report :=
  ⟨.failed, isoDate (s.zone.toLocal now).day, "PBS_QUERY_UNAVAILABLE", []⟩

/-- What the run observes, after the observation before; `none` if the query raises. -/
def observed (x : RunInput) (previous : Option Observation) : Option Observation :=
  match x.fetched with
  | .content rows =>
    let (report, points) := inspect x.schedule rows x.now
    some (observe previous report (some points) x.now)
  | .unavailable  => some (observe previous (unavailableReport x.schedule x.now) none x.now)
  | .raised       => none

inductive Result where
  | clockBackwards
  | unsupportedSchema
  | raised
  | pending (observation : Observation)
  | unchanged (observation : Observation)
  | told (observation : Observation) (event : MailEvent)
  | notTold (answer : MailAnswer)

abbrev CoreProg := Prog (Option State) Mailing MailAnswer
abbrev CoreWorld := World (Option State) Mailing MailAnswer

/-- The retry of a notification is due. -/
def Notice.due (now : ℚ) (n : Notice) : Bool :=
  n.delivery = .notSent && n.attempts < 3 && n.retryAfter.getD 0 ≤ now

/-- Save the claim of a notification, call the sender, and save the outcome. -/
def notify (now : ℚ) (state : State) (notice : Notice) (observation : Observation) : CoreProg Result :=
  tell (some { state with notice := some notice.claim }) ⟨observation, notice.event, notice.sequence⟩
    (fun answer => (notice.claim.outcome now answer).map fun n => some { state with notice := some n })
    (fun answer => if answer = .returned then .told observation notice.event else .notTold answer)

/-- The part of `run` after the observation is recorded, unless it is pending: `transition`, and the retry
    of what was not sent. -/
def announce (now : ℚ) (state : State) (observation : Observation) : CoreProg Result :=
  match transition state observation with
  | (_, none)       =>
    match state.notice with
    | some notice =>
      if notice.due now then notify now state { notice with report := observation } observation
      else .write (fun _ => some state) (.ret (.unchanged observation))
    | none        => .write (fun _ => some state) (.ret (.unchanged observation))
  | (updated, some event) =>
    match event, updated.notice with
    | .baseline, _        => .write (fun _ => some updated) (.ret (.told observation .baseline))
    | _, some notice      => notify now updated notice observation
    | _, none             => .ret .raised

/-- `run`, under its lock. -/
def run (x : RunInput) : CoreProg Result :=
  .look fun file =>
    let state := file.getD {}
    if x.now + 1 < state.lastCheckEpoch.getD 0 then .ret .clockBackwards
    else match observed x state.lastObservation with
      | none             => .ret .raised
      | some observation =>
        if state.schemaVersion.getD 1 ≠ 1 then .ret .unsupportedSchema
        else
          let state := { recordObservation state observation with lastCheckEpoch := some x.now }
          if observation.report.status = .pending then
            .write (fun _ => some state) (.ret (.pending observation))
          else announce x.now state observation

/-- The worlds that sequences of runs reach whose clocks satisfy `clock`, each with its own schedule and
    archives, and killed anywhere. -/
inductive Reachable (clock : ℚ → Prop) : CoreWorld → Prop
  | start : Reachable clock ⟨none, []⟩
  | run {w w' : CoreWorld} {r} (x : RunInput) (h : Reachable clock w) (hclock : clock x.now)
      (hrun : Runs (run x) w w' r) : Reachable clock w'

end Core
end Backup
end PickleInfra
