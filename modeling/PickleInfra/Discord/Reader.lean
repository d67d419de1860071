import PickleInfra.Discord.Outbox
import PickleInfra.Python.Value

/-!
# `Discord.Reader` — `collect_service_health`, the reader of the collector's two files

The reader trusts neither file: it re-validates the incident history of the state, and every relation
between the state and the summary. There are three ways out: two reports, the early `return unknown`
for a probe that is too old (`.ok none`), and an exception, which the `except` clause turns into the
same two bare `UNKNOWN`s.
-/

namespace PickleInfra
namespace Discord

open Python

abbrev ReadExn := Exn String

/-- `if not c: raise ValueError(…)` -/
def ensure (c : Bool) : Except ReadExn Unit := if c then .ok () else .error .valueError

@[simp] theorem ensure_eq_ok {c : Bool} {u : Unit} : ensure c = .ok u ↔ c = true := by
  cases c <;> simp [ensure]

/-- `number` -/
def number (v : Json) : Except ReadExn ℚ := v.finiteNumber .valueError

/-- A non-negative `int`. -/
def natural : Json → Except ReadExn Nat
  | .int n => if n < 0 then .error .valueError else .ok n.toNat
  | _      => .error .valueError

/-- `None`, or a non-negative `int`. -/
def optionalNatural : Json → Except ReadExn (Option Nat)
  | .null => .ok none
  | v     => (natural v).map some

/-- `number(entry[key]) if present else None` -/
def numberIf (present : Bool) (entry : Json) (key : String) : Except ReadExn (Option ℚ) :=
  if present then do .ok (some (← number (← entry.item key))) else .ok none

/-- `value == expected` for an incident number or `None`. -/
def sameIncident (v : Json) : Option Nat → Bool
  | none   => v.isNull
  | some n => v.isNumber n

/-- The dictionary `service_entry` returns, but for its status. -/
structure Identity where
  incident : Option Nat
  sourceSequence : Nat
  closedIncident : Option Nat
  openedAt : Option ℚ
  closedAt : Option ℚ
  sampleAt : ℚ
  observedAt : ℚ
deriving DecidableEq

/-- The checks of `service_entry` on the incident history. -/
def Identity.historyOk (e : Identity) : Bool :=
  e.incident.all (fun n => n = e.sourceSequence && 1 ≤ n)
    && e.closedIncident.all (fun c => 1 ≤ c && c ≤ e.sourceSequence && e.incident.all (c < ·))
    && e.openedAt.all (fun t => 0 ≤ t && t ≤ e.sampleAt)
    && e.closedAt.all (fun t => 0 ≤ t && t ≤ e.sampleAt)
    && !(e.sourceSequence ≠ 0 && e.incident.isNone && e.closedIncident ≠ some e.sourceSequence)

/-- `service_entry` -/
def serviceEntry (entry : Json) (expectedStatus : String) (sampleAt observedAt : ℚ) :
    Except ReadExn Identity := do
  ensure ((entry.getOrNull "latest_status").isStr expectedStatus)
  let sample ← number (← entry.item "sample_at")
  ensure (sample = sampleAt)
  let sequence ← natural ((entry.get? "sequence").getD (.int 0))
  let incident ← optionalNatural (entry.getOrNull "incident")
  let closed ← optionalNatural (entry.getOrNull "closed_incident")
  let openedAt ← numberIf (sequence ≠ 0) entry "opened_at"
  let closedAt ← numberIf closed.isSome entry "closed_at"
  let e : Identity :=
    { incident, sourceSequence := sequence, closedIncident := closed, openedAt, closedAt, sampleAt
      observedAt }
  ensure e.historyOk
  .ok e

/-- The report of an identity. `evidence` says whether the probe may decide, and `healthy` what it
    says when no incident is open. -/
def Identity.report (e : Identity) (evidence healthy : Bool) : ServiceReport where
  status := if !evidence then .unknown else if e.incident.isSome then .alarm
    else if healthy then .normal else .unknown
  incident := e.incident
  sourceSequence := e.sourceSequence
  closedIncident := e.closedIncident
  openedAt := e.openedAt
  closedAt := e.closedAt
  sampleAt := e.sampleAt
  observedAt := e.observedAt
  alarm := by
    intro h
    by_contra hn
    cases evidence <;> cases healthy <;> simp [hn] at h
  normal := by
    intro h
    by_contra hn
    have hs : e.incident.isSome = true := Option.isSome_iff_ne_none.mpr hn
    cases evidence <;> simp [hs] at h

/-- The check of a row that says its observer is suppressed by another source. -/
def checkSuppression (summary report : Json) (status observerStatus : String) :
    Except ReadExn Unit := do
  let suppressedBy := report.getOrNull "suppressed_by"
  if suppressedBy.isNull then .ok ()
  else match suppressedBy.asStr? with
    | none        => .error .typeError
    | some parent => do
      let row ← (← summary.item "sources").item parent
      let parentStatus ← row.item "status"
      ensure (Text.isName parent && parentStatus.isStr "OBSERVER_ERROR"
        && (report.getOrNull "parent_status").isStr "OBSERVER_ERROR"
        && ((report.getOrNull "unknown_reason").isStr "RESULT_MISSING"
          || (report.getOrNull "unknown_reason").isStr "RESULT_STALE")
        && status = "OBSERVER_ERROR" && observerStatus = "OBSERVER_ERROR")

/-- A string of the given ones. -/
def oneOf (allowed : List String) (v : Json) : Except ReadExn String :=
  match v.asStr? with
  | none   => .error .valueError
  | some s => if allowed.contains s then .ok s else .error .valueError

/-- What `collect_service_health` has of a source once both files agree about it. -/
structure Validated where
  report : Json
  status : String
  sampleAt : ℚ
  condition : Identity
  observerStatus : String
  observer : Identity

/-- `collect_service_health` up to `invalid correlation`: the two files agree. -/
def validated (sourceName : Name) (warning : Bool) (now : ℚ) (state summary : Json) :
    Except ReadExn Validated := do
  let observedAt ← number (← summary.item "observed_at")
  ensure ((summary.getOrNull "version").isNumber 1)
  let last ← number (← state.item "last_collection")
  ensure (last = observedAt && -5 ≤ now - observedAt && now - observedAt ≤ 180)
  let entry ← (← state.item "sources").item sourceName
  let report ← (← summary.item "sources").item sourceName
  let statusJson ← report.item "status"
  ensure (if warning then (report.getOrNull "severity").isStr "warning"
    else (report.getOrNull "severity").isNull)
  let status ← oneOf ["HEALTHY", "FAILED", "LOADING", "OBSERVER_ERROR"] statusJson
  let sampleAt ← number (← report.item "sample_at")
  ensure (0 ≤ sampleAt && sampleAt ≤ observedAt + 30)
  let condition ← serviceEntry entry status sampleAt observedAt
  let observerStatus ← oneOf ["HEALTHY", "FAILED", "OBSERVER_ERROR"] (← report.item "observer_status")
  let observer ← serviceEntry (← entry.item "observer") observerStatus observedAt observedAt
  ensure (sameIncident (report.getOrNull "incident") condition.incident
    && sameIncident (report.getOrNull "observer_incident") observer.incident)
  checkSuppression summary report status observerStatus
  .ok { report, status, sampleAt, condition, observerStatus, observer }

/-- The rest of it: the probe decides the condition, unless it is too old. -/
def Validated.classify (v : Validated) (maxAge : Int) (now : ℚ) :
    Except ReadExn (Option (ServiceReport × ServiceReport)) := do
  let raw ← v.report.item "raw_status"
  let observer := v.observer.report (v.report.getOrNull "suppressed_by").isNull
    (v.observerStatus = "HEALTHY")
  if (v.report.getOrNull "unknown_reason").isNull then do
    let original ← number (← v.report.item "source_sample_at")
    ensure (original = v.sampleAt)
    let raw ← oneOf ["HEALTHY", "FAILED", "LOADING", "OBSERVER_ERROR", "BUDGET_LIMIT"] raw
    ensure (v.status =
      if raw = "OBSERVER_ERROR" || raw = "BUDGET_LIMIT" then "OBSERVER_ERROR" else raw)
    -- a fresh collector cannot refresh an original probe timestamp
    if !(-5 ≤ now - original && now - original ≤ (maxAge : ℚ)) then .ok none
    else .ok (some (v.condition.report (raw = "HEALTHY" || raw = "FAILED") (raw = "HEALTHY"),
      observer))
  else do
    ensure (raw.isStr "UNKNOWN" && v.status = "OBSERVER_ERROR")
    .ok (some (v.condition.report false false, observer))

/-- The body of the `try` of `collect_service_health`: the reports of the two dimensions, or `none`
    for `return unknown`. -/
def serviceReports (sourceName : Name) (warning : Bool) (maxAge : Int) (now : ℚ)
    (state summary : Json) : Except ReadExn (Option (ServiceReport × ServiceReport)) := do
  let v ← validated sourceName warning now state summary
  v.classify maxAge now

/-- `collect_service_health`: the reports of the condition and of the observer. A bare `UNKNOWN` is
    `none`. -/
def collectServiceHealth (sourceName : Name) (warning : Bool) (maxAge : Int) (now : ℚ)
    (snapshot : Option (Json × Json)) :
    Except ReadExn (Option ServiceReport × Option ServiceReport) :=
  match snapshot with
  | none                  => .ok (none, none)
  | some (state, summary) =>
    match serviceReports sourceName warning maxAge now state summary with
    | .ok none                    => .ok (none, none)
    | .ok (some (report, observer)) => .ok (some report, some observer)
    | .error e                    => if e.caught then .ok (none, none) else .error e

end Discord
end PickleInfra
