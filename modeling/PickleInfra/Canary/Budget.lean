import PickleInfra.Durable.Always
import PickleInfra.Health.Collect
import PickleInfra.Python.Clock
import PickleInfra.Python.Equality
import PickleInfra.Python.Str

/-!
# `Canary.Budget` — the paid requests of `llm-health-probe.py` and `public-service-health-probe.py`

Both probes count their requests in `budget.json`, which is written before the request is made, and skip a run that comes
too early or exceeds what a day may have. The store is the two files of the state directory; the questions are the system
calls, the request and the report of the host, each of which may raise. What is read of a clock belongs to the run.
-/

namespace PickleInfra
namespace Canary

open Python Durable
open Health (epoch)

abbrev CanaryExn := Exn String

/-! ## The state directory -/

/-- `budget.json`: `last_check`; `day` with `attempts` (`submissions`), which are written together; and `last_request`
    (`last_submission`). -/
structure Budget where
  lastCheck : Option ℚ := none
  today : Option (String × Nat) := none
  last : Option ℚ := none
deriving DecidableEq, Repr

abbrev Report := List (String × Json)

inductive StateFile where
  | budget
  | result
deriving DecidableEq, Repr

/-- The files, as far as they exist. -/
structure StateDirectory where
  budget : Option Budget
  result : Option Report

inductive Ask where
  | validate
  | hostname
  | lock
  | stateFile
  | credential
  | saving (file : StateFile)
  | saved (file : StateFile)
  | request (now : ℚ) (token : String)
  | host (now : ℚ)
deriving DecidableEq, Repr

/-- What is returned or raised. -/
abbrev Answer := Except CanaryExn Json

abbrev Probe (α : Type) := Raising CanaryExn StateDirectory Ask Answer α

def Answer.done (a : Answer) : Except CanaryExn Unit := a.map fun _ => ()

def Answer.text : Answer → Except CanaryExn String
  | .ok (.str s) => .ok s
  | .ok _        => .error .typeError
  | .error e     => .error e

def Answer.document : Answer → Except CanaryExn Report
  | .ok (.dict ms) => .ok ms
  | .ok _          => .error .typeError
  | .error e       => .error e

/-- `atomic_json`: a temporary file is written, renamed, and the directory synchronised. -/
def atomicJson (file : StateFile) (write : StateDirectory → StateDirectory) : Probe Unit := do
  ask Answer.done (.saving file)
  modify write
  ask Answer.done (.saved file)

def saveBudget (b : Budget) : Probe Unit := atomicJson .budget fun d => { d with budget := some b }

def saveResult (report : Report) : Probe Unit := atomicJson .result fun d => { d with result := some report }

/-- `read_json(path) if path.exists() else {}` -/
def readBudget : Probe Budget := do
  ask Answer.done .stateFile
  let d ← readStore
  return d.budget.getD {}

/-- `private_read(Path(config['credential_file']), 4096).decode().strip()` -/
def readToken : Probe String := do
  let text ← ask Answer.text .credential
  return String.ofList (Str.strip text.toList)

/-! ## The budget -/

/-- The shortest time between two requests, and how many a day may have. -/
structure Limits where
  period : ℚ
  maximum : Nat
deriving DecidableEq, Repr

/-- `datetime.fromtimestamp(now, timezone.utc).strftime('%Y-%m-%d')`. The two exceptions of `fromtimestamp` are one
    here. -/
def utcDay (now : ℚ) : Except CanaryExn String :=
  let seconds := Clock.wholeSeconds now
  if Clock.inRange seconds then
    let (year, month, day) := Clock.civil (seconds / 86400)
    .ok (Clock.padded 4 year ++ "-" ++ Clock.padded 2 month ++ "-" ++ Clock.padded 2 day)
  else .error .valueError

example : utcDay 86399 = .ok "1970-01-01" := by decide +kernel
example : utcDay 86400 = .ok "1970-01-02" := by decide +kernel

namespace Budget

/-- `if state.get('day') != day: state.update(day=day, attempts=0)` -/
def onDay (b : Budget) (day : String) : Budget :=
  if b.today.map Prod.fst = some day then b else { b with today := some (day, 0) }

/-- `state['attempts']` -/
def count (b : Budget) : Nat := (b.today.map Prod.snd).getD 0

/-- `now - state.get('last_request', -period) < period or state['attempts'] >= maximum` -/
def refuses (b : Budget) (limits : Limits) (now : ℚ) : Bool :=
  now - b.last.getD (-limits.period) < limits.period || limits.maximum ≤ b.count

/-- The request of this run is counted. -/
def spend (b : Budget) (now : ℚ) : Budget := { b with today := b.today.map fun t => (t.1, t.2 + 1), last := some now }

end Budget

/-- The budget of this run, unless the clock went back. -/
def checked (now : ℚ) (b : Budget) : Except CanaryExn Budget :=
  if now < b.lastCheck.getD 0 then .error (.own "CLOCK_MOVED_BACKWARDS") else .ok { b with lastCheck := some now }

/-! ## `llm-health-probe.py`, kind `generation` -/

inductive Profile where
  | local
  | upstream
deriving DecidableEq, Repr

/-- `(900, 120) if config['profile'] == 'local' else (300, 312)` -/
def Profile.limits : Profile → Limits
  | .local    => { period := 900, maximum := 120 }
  | .upstream => { period := 300, maximum := 312 }

/-- A run: the configuration, and what the clock reads. -/
structure LlmRun where
  source : String
  profile : Profile
  clock : Json

/-- A local request that failed while the host loads its model. -/
def hostReport (now : ℚ) (report : Report) : Probe Report := do
  let status ← reply ((Json.dict report).item "status")
  if status = .str "FAILED" then do
    let host ← ask Answer.document (.host now)
    let report := Json.merge report [("host", .dict host)]
    let loading ← reply ((Json.dict host).item "status")
    return if loading = .str "LOADING" then
      Json.merge report [("status", .str "LOADING"), ("reason", .str "COLD_LOADING_GRACE")] else report
  else return report

/-- What becomes of the answer. -/
def finalReport (profile : Profile) (now : ℚ) (report : Report) : Probe Report :=
  match profile with
  | .local    => hostReport now report
  | .upstream => return report

/-- A run that the budget admits. -/
def llmRequest (run : LlmRun) (now : ℚ) (state : Budget) (report : Report) : Probe Report := do
  let token ← readToken
  saveBudget (state.spend now)
  let answer ← ask Answer.document (.request now token)
  let report ← finalReport run.profile now (Json.merge report answer)
  saveResult report
  return report

/-- `probe` -/
def llmProbe (run : LlmRun) : Probe Report := do
  ask Answer.done .validate
  let now ← reply (epoch run.clock)
  ask Answer.done .lock
  let state ← readBudget
  let state ← reply (checked now state)
  let report : Report := [("version", .int 1), ("source", .str run.source), ("kind", .str "generation"),
    ("observed_at", .float (.finite now))]
  let day ← reply (utcDay now)
  let state := state.onDay day
  if state.refuses run.profile.limits now then do
    saveBudget state
    return Json.merge report [("status", .str "BUDGET_LIMIT"), ("reason", .str "REQUEST_RATE_OR_DAILY_LIMIT")]
  else llmRequest run now state report

/-! ## `public-service-health-probe.py`, kind `public-generation` -/

def MINIMUM_INTERVAL_SECONDS : ℚ := 300

def MAXIMUM_DAILY_REQUESTS : Nat := 312

def publicLimits : Limits := { period := MINIMUM_INTERVAL_SECONDS, maximum := MAXIMUM_DAILY_REQUESTS }

structure PublicRun where
  source : String
  expectedHostname : Json
  canaryEnabled : Json
  clock : Json

/-- The check of `expected_hostname`. -/
def checkHostname (expected : Json) (hostname : String) : Except CanaryExn Unit :=
  if expected = .str hostname then .ok () else .error (.own "PUBLIC_OBSERVER_HOST_MISMATCH")

def checkToken (token : String) : Except CanaryExn Unit :=
  if token = "" ∨ '\r' ∈ token.toList ∨ '\n' ∈ token.toList then .error (.own "PUBLIC_CREDENTIAL_INVALID") else .ok ()

/-- A run that the budget admits. -/
def publicRequest (now : ℚ) (token : String) (state : Budget) (report : Report) : Probe Report := do
  saveBudget (state.spend now)
  let answer ← ask Answer.document (.request now token)
  let report := Json.merge report answer
  saveResult report
  return report

/-- A run of an enabled canary. -/
def publicCanary (now : ℚ) (state : Budget) (report : Report) : Probe Report := do
  let token ← readToken
  reply (checkToken token)
  let day ← reply (utcDay now)
  let state := state.onDay day
  if state.refuses publicLimits now then do
    saveBudget state
    return Json.merge report [("status", .str "BUDGET_LIMIT"), ("reason", .str "PUBLIC_CANARY_REQUEST_LIMIT")]
  else publicRequest now token state report

/-- `probe` -/
def publicProbe (run : PublicRun) : Probe Report := do
  ask Answer.done .validate
  let now ← reply (epoch run.clock)
  let hostname ← ask Answer.text .hostname
  reply (checkHostname run.expectedHostname hostname)
  ask Answer.done .lock
  let state ← readBudget
  let state ← reply (checked now state)
  let report : Report := [("version", .int 1), ("source", .str run.source), ("kind", .str "public-generation"),
    ("observed_at", .float (.finite now))]
  if run.canaryEnabled = .bool true then publicCanary now state report
  else return Json.merge report [("status", .str "OBSERVER_ERROR"), ("reason", .str "PUBLIC_CANARY_DISABLED")]

end Canary
end PickleInfra
