import PickleInfra.Durable.Log
import PickleInfra.Durable.Notices
import PickleInfra.Python.Value

/-!
# `Backup.DatabaseNotice` — `notify` of `db_pbs_backup.py`

`notify` keeps one receipt for the status of the database backup and one for the test message. It
decides from the receipt (`weigh`): return it, refuse, open a baseline, or record an attempt, call the
sender and record what came of it. The store is the two receipts; the questions are the calls of the
sender. An exception of `atomic_json` ends a call as a kill does, before or after the write.
-/

namespace PickleInfra
namespace Backup
namespace Database

open Python Durable

/-! ## Receipts -/

inductive Delivery where
  | baseline
  | attempted
  | sent
  | disabled
  | notSent
  | retriesExhausted
  | uncertain
deriving DecidableEq, Repr

structure Receipt where
  key : String
  delivery : Delivery
  time : Int
  attempts : Nat
  retryAfter : Option Int := none
deriving DecidableEq, Repr

/-- `notification.json` and `mail-test.json` -/
structure Files where
  notification : Option Receipt := none
  mailTest : Option Receipt := none
deriving DecidableEq, Repr

def Files.read (files : Files) (test : Bool) : Option Receipt :=
  if test then files.mailTest else files.notification

def Files.save (files : Files) (test : Bool) (receipt : Receipt) : Files :=
  if test then { files with mailTest := some receipt } else { files with notification := some receipt }

@[simp] theorem read_save (files : Files) (test : Bool) (receipt : Receipt) :
    (files.save test receipt).read test = some receipt := by
  cases test <;> rfl

@[simp] theorem notification_save (files : Files) (receipt : Receipt) :
    (files.save false receipt).notification = some receipt := rfl

@[simp] theorem notification_save_test (files : Files) (receipt : Receipt) :
    (files.save true receipt).notification = files.notification := rfl

@[simp] theorem mailTest_save (files : Files) (receipt : Receipt) :
    (files.save false receipt).mailTest = files.mailTest := rfl

@[simp] theorem mailTest_save_test (files : Files) (receipt : Receipt) :
    (files.save true receipt).mailTest = some receipt := rfl

/-! ## A call -/

/-- How the sender ended: it returned, or raised `MailNotSent`, or one of `MailUncertain`, `OSError` and
    `SMTPException`, or something else. -/
inductive Outcome where
  | delivered (accepted : Bool)
  | notSent
  | uncertain
  | raised
deriving DecidableEq, Repr

/-- How the sender ended, and the clock of the receipt and of the retry. -/
structure Answer where
  outcome : Outcome
  time : Int
  retryTime : Int

structure Mailing where
  report : Json
  test : Bool

/-- What a call is given and reads. `settings` is the mail configuration: there is none, it cannot be
    read, or it is a JSON value. -/
structure NotifyInput where
  report : Json
  test : Bool
  stateReady : Bool
  settings : Option (Option Json)
  locked : Bool
  now : Int

/-- What a call returns: the fixed `DISABLED` reply, or a receipt. -/
inductive Reply where
  | disabled
  | receipt (receipt : Receipt)
deriving DecidableEq, Repr

/-- Why a call raises: its state, settings or lock, a report without its texts, a `BackupError`, or what
    the sender raised. -/
inductive Stop where
  | unready
  | report
  | backup (message : String)
  | sender
deriving DecidableEq, Repr

/-- `report['status'] + ':' + report['reason']` -/
def statusKey (report : Json) : Option String :=
  match report.get? "status", report.get? "reason" with
  | some (.str status), some (.str reason) => some (status ++ ":" ++ reason)
  | _, _ => none

def NotifyInput.key (x : NotifyInput) : Option String :=
  if x.test then some "one-test" else statusKey x.report

/-- `settings.get('enabled') is True` -/
def enabled (settings : Json) : Bool :=
  match settings.get? "enabled" with
  | some (.bool b) => b
  | _              => false

/-- `not test and report.get('status') == 'HEALTHY'` -/
def NotifyInput.healthy (x : NotifyInput) : Bool :=
  !x.test && (x.report.getOrNull "status").isStr "HEALTHY"

/-- What a call decides from the receipt of its file. -/
inductive Decision where
  | reply (prior : Receipt)
  | stop (message : String)
  | baseline
  | send (attempts : Nat)
deriving DecidableEq, Repr

def needsReview : Decision := .stop "Notification needs operator review; no automatic duplicate send"

def weigh (x : NotifyInput) (key : String) : Option Receipt → Decision
  | none => if x.healthy then .baseline else .send 0
  | some prior =>
      if x.healthy ∧ prior.delivery = .baseline ∧ prior.key = key then .reply prior
      else if x.healthy ∧ prior.delivery = .baseline then .baseline
      else if prior.key = key then
        if prior.delivery = .baseline ∨ prior.delivery = .sent then .reply prior
        else if x.test ∨ prior.delivery = .attempted ∨ prior.delivery = .uncertain ∨
            prior.delivery = .retriesExhausted then needsReview
        else if prior.delivery = .notSent ∧ x.now < prior.retryAfter.getD 0 then
          .stop "Notification was not sent; a bounded retry is pending"
        else .send prior.attempts
      else .send 0

/-- The receipt before the sender is called. -/
def claim (x : NotifyInput) (key : String) (attempts : Nat) : Receipt where
  key := key
  delivery := .attempted
  time := x.now
  attempts := attempts + 1

/-- The receipt after it, unless the sender raised what nobody catches. -/
def settle (test : Bool) (claimed : Receipt) (a : Answer) : Option Receipt :=
  match a.outcome with
  | .delivered accepted =>
      some { claimed with delivery := if accepted then .sent else .disabled, time := a.time }
  | .notSent =>
      if test ∨ 3 ≤ claimed.attempts then
        some { claimed with delivery := .retriesExhausted, time := a.time }
      else
        some { claimed with
          delivery := .notSent, time := a.time
          retryAfter := some (a.retryTime + if claimed.attempts = 1 then 60 else 300) }
  | .uncertain => some { claimed with delivery := .uncertain, time := a.time }
  | .raised => none

/-- What the caller sees of it. -/
def told (claimed : Receipt) (a : Answer) : Except Stop Reply :=
  match a.outcome with
  | .delivered accepted =>
      .ok (.receipt { claimed with delivery := if accepted then .sent else .disabled, time := a.time })
  | .notSent => .error (.backup "Notification was not sent; inspect delivery state and bounded retry status")
  | .uncertain =>
      .error (.backup "Mail delivery is uncertain; operator review is required before another send")
  | .raised => .error .sender

def notify (x : NotifyInput) : Prog Files Mailing Answer (Except Stop Reply) :=
  if !x.stateReady then .ret (.error .unready)
  else match x.settings with
  | none => .ret (.ok .disabled)
  | some none => .ret (.error .unready)
  | some (some settings) =>
      if !settings.isDict then .ret (.error .unready)
      else if !enabled settings then .ret (.ok .disabled)
      else match x.key with
      | none => .ret (.error .report)
      | some key =>
          if !x.locked then .ret (.error .unready)
          else .look fun files =>
            match weigh x key (files.read x.test) with
            | .reply prior => .ret (.ok (.receipt prior))
            | .stop message => .ret (.error (.backup message))
            | .baseline =>
                let receipt : Receipt := ⟨key, .baseline, x.now, 0, none⟩
                .write (fun _ => files.save x.test receipt) (.ret (.ok (.receipt receipt)))
            | .send attempts =>
                let claimed := claim x key attempts
                tell (files.save x.test claimed) ⟨x.report, x.test⟩
                  (fun a => (settle x.test claimed a).map (files.save x.test)) (told claimed)

end Database
end Backup
end PickleInfra
