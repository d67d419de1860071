import PickleInfra.Python.Value

/-!
# `Health.Machine` — the incident machine and the mail deliveries of one target (`llm_health.py`)

A target (a source, or the observer of a source) is a small dictionary that `observe` advances by
one sample at a time. A key that is missing and a key that is `None` are read alike everywhere, so
both are `none` here; a missing counter reads as `0`.

`observe` and `reserve_event` are pure; the durable part of `deliver` is in `Health.Monitor`.
-/

namespace PickleInfra
namespace Health

open Python

/-- `STATES` -/
inductive Status where
  | healthy
  | failed
  | loading
  | observerError
  | budgetLimit
deriving DecidableEq, Repr

def Status.text : Status → String
  | .healthy       => "HEALTHY"
  | .failed        => "FAILED"
  | .loading       => "LOADING"
  | .observerError => "OBSERVER_ERROR"
  | .budgetLimit   => "BUDGET_LIMIT"

/-- `status in STATES`, for a string. -/
def Status.ofText (s : String) : Option Status :=
  [Status.healthy, .failed, .loading, .observerError, .budgetLimit].find? (fun t => t.text = s)

/-- The return value of `observe`. -/
inductive Transition where
  | duplicate
  | failed
  | recovered
  | unchanged
deriving DecidableEq, Repr

def Transition.text : Transition → String
  | .duplicate => "DUPLICATE"
  | .failed    => "FAILED"
  | .recovered => "RECOVERED"
  | .unchanged => "UNCHANGED"

/-- The two keys of `deliveries`. -/
inductive MailEvent where
  | failed
  | recovered
deriving DecidableEq, Repr

inductive MailStatus where
  | new
  | attempted
  | notSent
  | exhausted
  | uncertain
  | sent
  | superseded
deriving DecidableEq, Repr

/-- `status in ('NEW', 'NOT_SENT')` -/
def MailStatus.isOpen : MailStatus → Bool
  | .new | .notSent => true
  | _               => false

/-- One reserved notification. -/
structure Delivery where
  target : String
  event : MailEvent
  incident : Option Nat
  attempts : Nat
  status : MailStatus
  createdAt : ℚ
  retryAfter : Option ℚ
  severity : Option String
deriving DecidableEq, Repr

/-- The state dictionary of one target. `deliveries` has the two keys `FAILED` and `RECOVERED`; at
    most one of the two is ever open, so the order in which they are tried does not matter. -/
structure Machine where
  sampleAt : Option ℚ := none
  latestStatus : Option Status := none
  failures : Nat := 0
  healthySince : Option ℚ := none
  healthySamples : Nat := 0
  lastFailure : Option ℚ := none
  sequence : Nat := 0
  incident : Option Nat := none
  openedAt : Option ℚ := none
  closedIncident : Option Nat := none
  closedAt : Option ℚ := none
  failedMail : Option Delivery := none
  recoveredMail : Option Delivery := none
deriving DecidableEq, Repr

def recoverySamples : Nat := 2
def recoverySeconds : ℚ := 3600

namespace Machine

/-- `observed <= previous` for a previous sample. -/
def isStale (s : Machine) (observed : ℚ) : Bool :=
  match s.sampleAt with
  | none          => false
  | some previous => observed ≤ previous

/-- `observed - previous > freshness` for a previous sample. -/
def isGap (s : Machine) (observed freshness : ℚ) : Bool :=
  match s.sampleAt with
  | none          => false
  | some previous => freshness < observed - previous

/-- `healthy_since=None, healthy_samples=0, failures=0` -/
def interrupt (s : Machine) : Machine :=
  { s with healthySince := none, healthySamples := 0, failures := 0 }

/-- The new sample on record, its streaks interrupted by a gap or by a status that is neither
    `HEALTHY` nor `FAILED`. -/
def advance (s : Machine) (status : Status) (observed freshness : ℚ) : Machine :=
  let s' := { s with sampleAt := some observed, latestStatus := some status }
  if s.isGap observed freshness || !(status = .healthy || status = .failed) then s'.interrupt else s'

/-- The `FAILED` branch: count the failure, and open an incident at the threshold. -/
def fail (s : Machine) (observed : ℚ) (failureCount : Int) : Machine × Transition :=
  let s := { s with
    healthySince := none, healthySamples := 0,
    failures := s.failures + 1, lastFailure := some observed }
  if s.incident = none ∧ failureCount ≤ s.failures then
    ({ s with sequence := s.sequence + 1, incident := some (s.sequence + 1),
              openedAt := some observed }, .failed)
  else (s, .unchanged)

theorem fail_of_threshold {s : Machine} {observed : ℚ} {failureCount : Int}
    (h : s.incident = none ∧ failureCount ≤ ((s.failures + 1 : Nat) : Int)) :
    s.fail observed failureCount =
      ({ s with healthySince := none, healthySamples := 0, failures := s.failures + 1,
                lastFailure := some observed, sequence := s.sequence + 1,
                incident := some (s.sequence + 1), openedAt := some observed }, .failed) :=
  if_pos h

theorem fail_of_below {s : Machine} {observed : ℚ} {failureCount : Int}
    (h : ¬ (s.incident = none ∧ failureCount ≤ ((s.failures + 1 : Nat) : Int))) :
    s.fail observed failureCount =
      ({ s with healthySince := none, healthySamples := 0, failures := s.failures + 1,
                lastFailure := some observed }, .unchanged) :=
  if_neg h

/-- The `HEALTHY` branch: while an incident is open, count the sample towards recovery. -/
def heal (s : Machine) (observed : ℚ) : Machine × Transition :=
  let s := { s with failures := 0 }
  match s.incident with
  | none   => (s, .unchanged)
  | some n =>
    let since := s.healthySince.getD observed
    let s := { s with healthySince := some since, healthySamples := s.healthySamples + 1 }
    if recoverySamples ≤ s.healthySamples ∧ recoverySeconds ≤ observed - since then
      ({ s with incident := none, closedIncident := some n, closedAt := some observed,
                healthySince := none }, .recovered)
    else (s, .unchanged)

theorem heal_of_none {s : Machine} {observed : ℚ} (h : s.incident = none) :
    s.heal observed = ({ s with failures := 0 }, .unchanged) := by
  simp only [heal, h]

/-- The window is long enough to close the open incident `n`. -/
theorem heal_of_window {s : Machine} {observed : ℚ} {n : Nat} (hn : s.incident = some n)
    (h : recoverySamples ≤ s.healthySamples + 1 ∧
      recoverySeconds ≤ observed - s.healthySince.getD observed) :
    s.heal observed =
      ({ s with failures := 0, healthySince := none, healthySamples := s.healthySamples + 1,
                incident := none, closedIncident := some n, closedAt := some observed },
        .recovered) := by
  simp only [heal, hn, if_pos h]

theorem heal_of_short {s : Machine} {observed : ℚ} {n : Nat} (hn : s.incident = some n)
    (h : ¬ (recoverySamples ≤ s.healthySamples + 1 ∧
      recoverySeconds ≤ observed - s.healthySince.getD observed)) :
    s.heal observed =
      ({ s with failures := 0, healthySince := some (s.healthySince.getD observed),
                healthySamples := s.healthySamples + 1 }, .unchanged) := by
  simp only [heal, hn, if_neg h]

/-- `observe`: only a new source sample advances a streak; gaps invalidate recovery. The caller has
    passed `status` and `observed` through `STATES` and `epoch`. -/
def observe (s : Machine) (status : Status) (observed : ℚ) (failureCount : Int) (freshness : ℚ) :
    Machine × Transition :=
  if s.isStale observed then (s, .duplicate)
  else
    let s := s.advance status observed freshness
    match status with
    | .failed  => s.fail observed failureCount
    | .healthy => s.heal observed
    | _        => (s, .unchanged)

/-! ## Notifications -/

def mail (s : Machine) : MailEvent → Option Delivery
  | .failed    => s.failedMail
  | .recovered => s.recoveredMail

/-- `deliveries[event] = delivery` -/
def setMail (s : Machine) (event : MailEvent) (d : Delivery) : Machine :=
  match event with
  | .failed    => { s with failedMail := some d }
  | .recovered => { s with recoveredMail := some d }

/-- `reserve_event`, with the `severity` that `collect` adds to a warning. -/
def reserveEvent (s : Machine) (target : String) (event : MailEvent) (now : ℚ)
    (severity : Option String) : Machine :=
  s.setMail event
    { target, event, severity
      incident := match event with
        | .failed    => s.incident
        | .recovered => s.closedIncident
      attempts := 0, status := .new, createdAt := now, retryAfter := none }

/-- Cancel a notification that was never submitted. -/
def supersede (s : Machine) (event : MailEvent) : Machine :=
  match s.mail event with
  | some d => if d.status.isOpen then s.setMail event { d with status := .superseded } else s
  | none   => s

@[simp] theorem mail_setMail_self (s : Machine) (event d) :
    (s.setMail event d).mail event = some d := by cases event <;> rfl

theorem mail_setMail_ne (s : Machine) {e e' : MailEvent} (d) (h : e ≠ e') :
    (s.setMail e d).mail e' = s.mail e' := by
  cases e <;> cases e' <;> first | exact absurd rfl h | rfl

end Machine

/-! ## What a mail attempt does to a delivery (`deliver`) -/

/-- What the sender did: it returned, raised `MailNotSent`, or raised any other exception. -/
inductive MailAnswer where
  | sent
  | notSent
  | uncertain
deriving DecidableEq, Repr

namespace Delivery

/-- `deliver` goes on: the status is open and the retry time has come. -/
def isDue (d : Delivery) (now : ℚ) : Bool := d.status.isOpen && decide (d.retryAfter.getD 0 ≤ now)

/-- The claim `deliver` persists before it calls the sender. -/
def claim (d : Delivery) : Delivery := { d with attempts := d.attempts + 1, status := .attempted }

/-- The claimed delivery after the sender ended. -/
def record (d : Delivery) (now : ℚ) : MailAnswer → Delivery
  | .sent      => { d with status := .sent }
  | .uncertain => { d with status := .uncertain }
  | .notSent   =>
    { d with status := if 3 ≤ d.attempts then .exhausted else .notSent
             retryAfter := some (now + if d.attempts = 1 then 60 else 300) }

end Delivery

end Health
end PickleInfra
