import PickleInfra.Backup.CoreNotices

/-!
# `Backup.Summary` — `core_summary` of `backup-health-summary.py`

The reader of the core monitor's state file: what it refuses (`readObservation`), and the verdict it
publishes for the rest.
-/

namespace PickleInfra
namespace Backup
namespace Summary

open Python

/-- `HealthError`, and what the `except` clause catches with it. -/
abbrev SummaryExn := Exn String

/-- `CTIDS` of the summary. -/
def CTIDS : List String := ["1200", "1201", "1202", "1203", "1204"]

def CORE_FRESHNESS : ℚ := 720

def TOLERANCE : ℚ := 2

/-- The default `maximum` of `numeric`. -/
def maximum : ℚ := 4102444800

/-- `if bad: raise HealthError(code)` -/
def refuse (bad : Bool) (code : String) : Except SummaryExn Unit :=
  if bad then .error (.own code) else .ok ()

/-- `numeric` -/
def numeric : Json → Except SummaryExn ℚ
  | .int n             => if 0 ≤ (n : ℚ) ∧ (n : ℚ) ≤ maximum then .ok n else .error (.own "TIMESTAMP_INVALID")
  | .float (.finite q) => if 0 ≤ q ∧ q ≤ maximum then .ok q else .error (.own "TIMESTAMP_INVALID")
  | _                  => .error (.own "TIMESTAMP_INVALID")

/-- `None if value is None else numeric(value)` -/
def numericOrNull (value : Json) : Except SummaryExn (Option ℚ) :=
  if value.isNull then .ok none else (numeric value).map some

/-- An entry of `projected`. -/
structure Projected where
  ctime : Option ℚ := none
  currentAge : Option ℚ := none

/-- One point of the loop over `CTIDS`. -/
def project (now stamp : ℚ) (inventory : Option ℚ) (point : Json) : Except SummaryExn Projected := do
  refuse (!point.isDict) "CORE_POINT_INVALID"
  let ctime := point.getOrNull "ctime"
  let cachedAge := point.getOrNull "age_seconds"
  if ctime.isNull then
    refuse (!cachedAge.isNull) "CORE_POINT_AGE_INVALID"
    return {}
  refuse ctime.asInt?.isNone "CORE_POINT_TIMESTAMP_TYPE_INVALID"
  let ctime ← numeric ctime
  let cachedAge ← numeric cachedAge
  refuse (!inventory.any (fun t => ctime ≤ t) || TOLERANCE < |stamp - ctime - cachedAge|)
    "CORE_POINT_TIME_INVALID"
  return ⟨some ctime, some (now - ctime)⟩

/-- What the summary takes from an observation. -/
structure Reading where
  stamp : ℚ
  inventory : Option ℚ
  status : Json
  query : Json
  evidence : Json
  points : List (String × Projected)

/-- The dictionary has exactly the keys of `CTIDS`. -/
def hasMembers : Json → Bool
  | .dict kvs => CTIDS.all (fun ctid => (kvs.map Prod.fst).contains ctid)
      && (kvs.map Prod.fst).all fun key => CTIDS.contains key
  | _         => false

/-- `value in names`, a tuple of strings. -/
def oneOf (names : List String) (value : Json) : Bool := names.any fun name => value.isStr name

/-- The body of the `try` of `core_summary`, before it fills its output. -/
def readObservation (state : Json) (now : ℚ) : Except SummaryExn Reading := do
  refuse (!state.isDict || (state.getOrNull "observation_schema_version").asInt? ≠ some 1)
    "CORE_SCHEMA_UNSUPPORTED"
  let observation ← state.item "last_observation"
  refuse (!observation.isDict) "CORE_OBSERVATION_INVALID"
  let stamp ← numeric (← observation.item "observed_at_epoch")
  let inventory ← numericOrNull (observation.getOrNull "inventory_observed_at_epoch")
  refuse (decide (now < stamp) || inventory.any (fun t => stamp < t)) "CORE_FUTURE_EVIDENCE"
  let status ← observation.item "status"
  let query ← observation.item "query_status"
  let evidence ← observation.item "point_evidence"
  refuse (!oneOf ["HEALTHY", "FAILED", "PENDING"] status || !oneOf ["OK", "UNAVAILABLE"] query
    || !oneOf ["OBSERVED", "CACHED", "UNAVAILABLE"] evidence) "CORE_CLASSIFICATION_INVALID"
  refuse (query.isStr "OK" && (!evidence.isStr "OBSERVED" || inventory ≠ some stamp))
    "CORE_INVENTORY_TIME_INVALID"
  refuse (query.isStr "UNAVAILABLE" && (evidence.isStr "OBSERVED"
    || (evidence.isStr "CACHED" && inventory.isNone)
    || (evidence.isStr "UNAVAILABLE" && inventory.isSome))) "CORE_CACHED_PROVENANCE_INVALID"
  let points ← observation.item "last_valid_points"
  refuse (!hasMembers points) "CORE_MEMBERS_INVALID"
  let projected ← CTIDS.mapM fun ctid => do
    let point ← points.item ctid
    return (ctid, ← project now stamp inventory point)
  refuse (status.isStr "HEALTHY" && projected.any fun e => e.2.ctime.isNone) "CORE_HEALTHY_POINT_MISSING"
  return ⟨stamp, inventory, status, query, evidence, projected⟩

/-- The output of `core_summary`. -/
structure Output where
  currentVerdict : Json := .str "UNKNOWN"
  reason : String := "CORE_OBSERVATION_UNAVAILABLE"
  reading : Option Reading := none
  observationAge : Option ℚ := none

/-- `core_summary` -/
def coreSummary (state : Json) (now : ℚ) (clockSafe : Bool) : Output :=
  match readObservation state now with
  | .error _  => {}
  | .ok r     =>
    let output : Output := { reading := some r, observationAge := some (now - r.stamp) }
    if !clockSafe then { output with reason := "CLOCK_UNSAFE" }
    else if CORE_FRESHNESS < now - r.stamp then { output with reason := "CORE_OBSERVATION_STALE" }
    else if !r.query.isStr "OK" then { output with reason := "CORE_QUERY_UNAVAILABLE" }
    else { output with currentVerdict := r.status, reason := "CORE_CURRENT_OBSERVATION" }

end Summary
end Backup
end PickleInfra
