import PickleInfra.Durable.Crash
import PickleInfra.Transport.Envelope

/-!
# `Transport.Importer` — `run` of `health-result-importer.py`

The store is the directory of the importer. Every `atomic_json` may raise, before or after it has replaced its
file, and the process may be killed between any two of them.
-/

namespace PickleInfra
namespace Transport
namespace Import

open Python Health Durable

/-! ## The files -/

/-- What a run is given: its clock, its configuration, and what the checks of the connection and the transport
    come to. -/
structure ImportInput where
  now : ℚ
  hostname : String
  config : Json
  connection : Except HealthExn Unit
  output : Except HealthExn ByteArray

/-- The files of the importer. `lastRun` is no file: it names the run that wrote its revocation last. -/
structure Disk where
  policy : Option Json
  state : Option Json
  reports : Dict String Json
  result : Option Json
  lastRun : Option ImportInput

/-- What is asked of the system. -/
inductive Call where
  | lock
  | readState
  | directory
  | write

/-- A call returns, or raises; a replacement may have happened. -/
inductive Reply where
  | done
  | raised (e : HealthExn) (acted : Bool)

abbrev Importing := Raising HealthExn Disk Call Reply

/-! ## Calls -/

/-- A value, or its exception. -/
def lift {α : Type} (value : Except HealthExn α) : Importing α := ExceptT.mk (.ret value)

/-- A call that leaves the files as they are, and reads them. -/
def ask {α : Type} (q : Call) (value : Disk → α) : Importing α :=
  ExceptT.mk (.call q fun
    | .done       => .look fun d => .ret (.ok (value d))
    | .raised e _ => .ret (.error e))

/-- `atomic_json` -/
def atomicJson (f : Disk → Disk) : Importing Unit :=
  ExceptT.mk (.call .write fun
    | .done           => .write f (.ret (.ok ()))
    | .raised e true  => .write f (.ret (.error e))
    | .raised e false => .ret (.error e))

/-- `try: body; except selected: handler` -/
def tryExcept {α : Type} (selected : HealthExn → Bool) (body : Importing α) (handler : HealthExn → Importing α) :
    Importing α :=
  ExceptT.mk (body.run.bind fun
    | .ok a    => .ret (.ok a)
    | .error e => if selected e then (handler e).run else .ret (.error e))

/-! ## Files -/

/-- The first revocation of a run. -/
def revoke (x : ImportInput) (d : Disk) : Disk :=
  { d with policy := some (invalidPolicy x.now), lastRun := some x }

def setPolicy (policy : Json) (d : Disk) : Disk := { d with policy := some policy }

def setState (state : Json) (d : Disk) : Disk := { d with state := some state }

def setReport (entry : String × Json) (d : Disk) : Disk :=
  { d with reports := d.reports.set entry.1 entry.2 }

def setResult (result : Json) (d : Disk) : Disk := { d with result := some result }

/-! ## `ssh_command` and the transport -/

/-- The check of `expected_sources`. -/
def expectedSources (config : Json) : Except HealthExn (List String) :=
  match config.getOrNull "expected_sources" with
  | .list xs => do
    let names ← xs.mapM fun
      | .str s            => .ok s
      | .list _ | .dict _ => .error .typeError
      | _                 => .error (.own "IMPORT_SOURCES_INVALID")
    rejectIf (names.isEmpty || decide (12 < names.length) || !decide names.Nodup || !names.all SOURCES.contains)
      "IMPORT_SOURCES_INVALID"
    return names
  | _        => .error (.own "IMPORT_SOURCES_INVALID")

/-- `config.get('include_policy_attestation') is True` -/
def includePolicy (config : Json) : Bool :=
  match config.get? "include_policy_attestation" with
  | some (.bool b) => b
  | _              => false

/-- `type(config.get('include_policy_attestation', False)) is bool` -/
def checkSetting (config : Json) : Except HealthExn Unit :=
  match config.get? "include_policy_attestation" with
  | none | some (.bool _) => .ok ()
  | some _                => .error (.own "IMPORT_POLICY_SETTING_INVALID")

/-- `inspect_envelope(runner(ssh_command(config), timeout=15), …)` -/
def validated (T : FloatText) (x : ImportInput) : Except HealthExn (List (String × Json) × Option Json) := do
  checkSetting x.config
  x.connection
  let expected ← expectedSources x.config
  let document ← x.output
  inspectEnvelope T document expected x.now (includePolicy x.config)

/-! ## `run` -/

/-- `now < state.get('last_check', 0)` -/
def isBefore (now : ℚ) (state : Json) : Except HealthExn Bool :=
  match (state.get? "last_check").getD (.int 0) with
  | .float .inf                    => .ok true
  | .float .negInf | .float .nan   => .ok false
  | v                              => match v.numeric with
    | some q => .ok (decide (now < q))
    | none   => .error .typeError

/-- `state['last_check'] = now` -/
def checkedAt (now : ℚ) : Json → Json
  | .dict kvs => .dict (Dict.assign "last_check" (time now) kvs)
  | v         => v

/-- The replacement of the reports, in the order of the envelope. -/
def publishReports : List (String × Json) → Importing Unit
  | []           => pure ()
  | e :: entries => do
    atomicJson (setReport e)
    publishReports entries

/-- The body of the `try` statement. -/
def importEnvelope (T : FloatText) (x : ImportInput) : Importing (String × String) := do
  let (reports, policy) ← lift (validated T x)
  ask .directory fun _ => ()
  publishReports reports
  match policy with
  | some p => atomicJson (setPolicy p)
  | none   => pure ()
  return ("HEALTHY", "RESULT_IMPORT_VERIFIED")

/-- `if include_policy: atomic_json(policy_path, invalid_policy(now))` in the `except` clauses. -/
def revokeAgain (x : ImportInput) : Importing Unit :=
  if includePolicy x.config then atomicJson (setPolicy (invalidPolicy x.now)) else pure ()

/-- The `try` statement around the envelope. -/
def importOutcome (T : FloatText) (x : ImportInput) : Importing (String × String) :=
  tryExcept Exn.caught (importEnvelope T x) fun _ => do
    revokeAgain x
    return ("OBSERVER_ERROR", "RESULT_IMPORT_UNAVAILABLE")

/-- The exceptions that are caught around `result.json`. -/
def caughtWriting (e : HealthExn) : Bool := e.caught && e ≠ .keyError

def resultJson (source : Json) (now : ℚ) (outcome : String × String) : Json :=
  .dict [("version", .int 1), ("source", source), ("kind", .str "observer-report"), ("observed_at", time now),
    ("status", .str outcome.1), ("reason", .str outcome.2)]

/-- The `try` statement around `result.json`. -/
def writeResult (x : ImportInput) (result : Json) : Importing Unit :=
  tryExcept caughtWriting (atomicJson (setResult result)) fun e => do
    revokeAgain x
    throw e

/-- The check of the last clock, and the state that is written. -/
def writeState (x : ImportInput) : Importing Unit := do
  let state ← ask .readState fun d => d.state.getD (.dict [])
  let back ← lift (isBefore x.now state)
  lift (rejectIf back "CLOCK_MOVED_BACKWARDS")
  atomicJson (setState (checkedAt x.now state))

/-- `run` -/
def run (T : FloatText) (x : ImportInput) : Importing Json := do
  lift (rejectIf (decide (x.now < 0)) "INVALID_EPOCH")
  lift (rejectIf (!(x.config.getOrNull "expected_hostname").isStr x.hostname) "IMPORT_OBSERVER_HOST_MISMATCH")
  ask .lock fun _ => ()
  if includePolicy x.config then atomicJson (revoke x)
  writeState x
  let source ← lift (x.config.item "source")
  let outcome ← importOutcome T x
  writeResult x (resultJson source x.now outcome)
  return resultJson source x.now outcome

end Import
end Transport
end PickleInfra
