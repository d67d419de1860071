import PickleInfra.Durable.Notices
import PickleInfra.Python.Value

/-!
# `Backup.Capacity` — one run of `pbs-capacity-monitor.py`

`run` loads the state receipt, reads the status of the datastore, and decides between a new alert, a
retry and nothing (`transition` and the retry of `run` in `decide`). A claim is saved before the mail
sender is called, and its outcome after. The store is the receipt, if there is one; the questions are the
calls of the sender. A float is a rational number here: the last bits of a sum of clocks are not modelled.
-/

namespace PickleInfra
namespace Backup
namespace Capacity

open Python Durable

/-! ## Statuses and receipts -/

inductive Status where
  | ok
  | warning
  | critical
  | error
deriving DecidableEq, Repr

def Status.text : Status → String
  | .ok       => "OK"
  | .warning  => "WARNING"
  | .critical => "CRITICAL"
  | .error    => "ERROR"

/-- `levels[status]` -/
def Status.level : Status → Nat
  | .ok       => 0
  | .warning  => 1
  | .critical => 2
  | .error    => 3

inductive Delivery where
  | baseline
  | noAlert
  | attempted
  | sent
  | notSent
  | uncertain
  | retriesExhausted
deriving DecidableEq, Repr

def Delivery.text : Delivery → String
  | .baseline         => "BASELINE"
  | .noAlert          => "NO_ALERT"
  | .attempted        => "ATTEMPTED"
  | .sent             => "SENT"
  | .notSent          => "NOT_SENT"
  | .uncertain        => "UNCERTAIN"
  | .retriesExhausted => "RETRIES_EXHAUSTED"

/-- What a receipt says happened: an abnormal status, a recovery, or nothing that is told. -/
inductive MailEvent where
  | baseline
  | statusChanged
  | recovered
  | abnormal (status : Status)
deriving DecidableEq, Repr

def MailEvent.text : MailEvent → String
  | .baseline        => "BASELINE"
  | .statusChanged   => "STATUS_CHANGED"
  | .recovered       => "RECOVERED"
  | .abnormal status => status.text

/-- What the status reader returns: a status, and what it measured. -/
structure Report where
  status : Status
  rest : List (String × Json) := []

def Report.toJson (r : Report) : Json := .dict (("status", .str r.status.text) :: r.rest)

/-- The state receipt. A key that is missing is `none`. -/
structure State where
  status : Status
  sequence : Nat
  delivery : Delivery
  attempts : Nat
  event : MailEvent
  report : Report
  lastCheckEpoch : Option ℚ := none
  retryAfter : Option ℚ := none

/-- The entry of an optional epoch. -/
def epochEntry (key : String) (epoch : Option ℚ) : List (String × Json) :=
  epoch.toList.map fun q => (key, .float (.finite q))

/-- The receipt as it is written. -/
def State.toJson (s : State) : Json :=
  .dict ([("status", .str s.status.text), ("sequence", .int s.sequence),
      ("delivery", .str s.delivery.text), ("attempts", .int s.attempts),
      ("event", .str s.event.text), ("report", s.report.toJson)]
    ++ epochEntry "last_check_epoch" s.lastCheckEpoch ++ epochEntry "retry_after" s.retryAfter)

/-! ## `validate_state` -/

def MAX_ATTEMPTS : Nat := 3

/-- `RETRY_SECONDS` -/
def retrySeconds : List ℚ := [60, 300]

def statuses : List String := ["OK", "WARNING", "CRITICAL", "ERROR"]

def deliveries : List String :=
  ["BASELINE", "NO_ALERT", "ATTEMPTED", "SENT", "NOT_SENT", "UNCERTAIN", "RETRIES_EXHAUSTED"]

abbrev MonitorExn := Exn String

/-- `value in allowed`, a set of strings: a list or a dictionary has no hash. -/
def memberOf (allowed : List String) : Json → Except MonitorExn Bool
  | .str s             => .ok (allowed.contains s)
  | .list _ | .dict _  => .error .typeError
  | _                  => .ok false

/-- `if not good: raise MonitorFailure(text)` -/
def require (good : Bool) (text : String) : Except MonitorExn Unit :=
  if good then .ok () else .error (.own text)

/-- An epoch, where there is one, is a finite number. -/
def validEpoch (value : Json) (key text : String) : Except MonitorExn Unit :=
  match value.get? key with
  | none   => .ok ()
  | some v => (v.finiteNumber (.own text)).map fun _ => ()

/-- `validate_state` -/
def validateState (value : Json) : Except MonitorExn Unit :=
  match value with
  | .dict []      => .ok ()
  | .dict (_ :: _) => do
    require (← memberOf statuses (value.getOrNull "status")) "State receipt has an invalid status"
    require ((value.getOrNull "sequence").asInt?.any fun n => 1 ≤ n)
      "State receipt has an invalid sequence"
    require (← memberOf deliveries (value.getOrNull "delivery"))
      "State receipt has an invalid delivery state"
    require ((value.getOrNull "attempts").asInt?.any fun n => 0 ≤ n && n ≤ (MAX_ATTEMPTS : Int))
      "State receipt has an invalid attempt count"
    validEpoch value "last_check_epoch" "State receipt has an invalid last_check_epoch value"
    validEpoch value "retry_after" "State receipt has an invalid retry_after value"
  | _             => .error (.own "State receipt must be an object")

/-- `load_state`: a missing file is an empty dictionary. -/
def loadState (file : Option State) : Except MonitorExn (Option State) :=
  match file with
  | none   => .ok none
  | some s => (validateState s.toJson).map fun _ => some s

/-! ## `transition` -/

/-- A worse status, or a first measurement after an error. -/
def escalates (old new : Status) : Bool :=
  old.level < new.level || (old = .error && (new = .warning || new = .critical))

/-- `transition` -/
def transition (previous : Option State) (current : Report) : State × Option MailEvent :=
  match previous with
  | none =>
    if current.status = .ok then
      ({ status := .ok, sequence := 1, delivery := .baseline, attempts := 0, event := .baseline,
         report := current }, none)
    else
      ({ status := current.status, sequence := 1, delivery := .attempted, attempts := 0,
         event := .abnormal current.status, report := current }, some (.abnormal current.status))
  | some previous =>
    if previous.status = current.status then ({ previous with report := current }, none)
    else
      let event :=
        if current.status = .ok then some .recovered
        else if escalates previous.status current.status then some (.abnormal current.status)
        else none
      ({ status := current.status, sequence := previous.sequence + 1,
         delivery := if event.isSome then .attempted else .noAlert, attempts := 0,
         event := event.getD .statusChanged, report := current }, event)

/-! ## `run` -/

/-- The receipt to save and the event to tell: the transition's, or the retry of what was not sent. -/
def decide (now : ℚ) (previous : Option State) (report : Report) : State × Option MailEvent :=
  let (updated, event) := transition previous report
  let updated := { updated with lastCheckEpoch := some now }
  match event, previous with
  | none, some p =>
    if p.delivery = .notSent ∧ p.attempts < MAX_ATTEMPTS ∧ p.retryAfter.getD 0 ≤ now then
      ({ p with report := report, lastCheckEpoch := some now }, some p.event)
    else (updated, none)
  | event, _     => (updated, event)

/-- A call of the sender. -/
structure Mailing where
  event : MailEvent
  report : Report
  sequence : Nat

/-- How a call of the sender ends: it returns, or raises `SubmissionRejected`, `SubmissionUnknown` or
    something else. -/
inductive MailAnswer where
  | returned
  | rejected
  | unknown
  | raised
deriving DecidableEq, Repr

/-- `RETRY_SECONDS[min(attempts - 1, len(RETRY_SECONDS) - 1)]` -/
def retryDelay (attempts : Nat) : ℚ := retrySeconds.getD (min (attempts - 1) (retrySeconds.length - 1)) 0

/-- The receipt after the sender was called. An exception of another class leaves the claim. -/
def outcome (now : ℚ) (claimed : State) : MailAnswer → Option State
  | .returned => some { claimed with delivery := .sent }
  | .rejected =>
    if MAX_ATTEMPTS ≤ claimed.attempts then some { claimed with delivery := .retriesExhausted }
    else some { claimed with delivery := .notSent, retryAfter := some (now + retryDelay claimed.attempts) }
  | .unknown  => some { claimed with delivery := .uncertain }
  | .raised   => none

/-- What a run comes to. -/
inductive Result where
  | failed (e : MonitorExn)
  | unchanged (report : Report)
  | told (report : Report) (event : MailEvent)
  | notTold (answer : MailAnswer)

abbrev CapacityProg := Prog (Option State) Mailing MailAnswer
abbrev CapacityWorld := World (Option State) Mailing MailAnswer

/-- What one run reads: the clock, and what the status reader returns unless it raises. -/
structure RunInput where
  now : ℚ
  read : Option Report

/-- The receipt the run claims the alert in. -/
def claim (updated : State) : State :=
  { updated with attempts := updated.attempts + 1, delivery := .attempted }

/-- `run`, under its lock. -/
def run (x : RunInput) : CapacityProg Result :=
  .look fun file =>
    match loadState file with
    | .error e     => .ret (.failed e)
    | .ok previous =>
      if x.now + 1 < (previous.bind State.lastCheckEpoch).getD 0 then
        .ret (.failed (.own "System clock moved backwards"))
      else match x.read with
        | none        => .ret (.notTold .raised)
        | some report =>
          match decide x.now previous report with
          | (updated, none)       => .write (fun _ => some updated) (.ret (.unchanged report))
          | (updated, some event) =>
            tell (some (claim updated)) ⟨event, report, updated.sequence⟩
              (fun answer => (outcome x.now (claim updated) answer).map some)
              (fun answer => if answer = .returned then .told report event else .notTold answer)

/-- The worlds that sequences of runs reach, each with its own clock and report, and killed anywhere. -/
inductive Reachable : CapacityWorld → Prop
  | start : Reachable ⟨none, []⟩
  | run {w w' : CapacityWorld} {r} (x : RunInput) (h : Reachable w) (hrun : Runs (run x) w w' r) :
      Reachable w'

end Capacity
end Backup
end PickleInfra
