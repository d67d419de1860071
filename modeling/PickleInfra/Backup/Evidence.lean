import PickleInfra.Backup.Stamp
import PickleInfra.Backup.Summary
import PickleInfra.Python.Equality
import PickleInfra.Python.Fields

/-!
# `Backup.Evidence` — `cache_evidence` and `database_summary` of `backup-health-summary.py`

The summary restates the schema of the cache. What it stores of a cache it accepts again later, as a cache of its own
making.
-/

namespace PickleInfra
namespace Backup
namespace Summary

open Python

def DB_FRESHNESS : ℚ := 180

def PROBE : String := "current PBS groups, encrypted verification receipt and data manifest"

/-! ## The cache -/

/-- What the summary stores of a cache. -/
structure Evidence where
  recoveryPointEpoch : Int
  lastReadbackEpoch : Int
  cachedAgeSeconds : Int
  currentPointAge : ℚ
  evidenceAge : ℚ
  snapshot : String
  provenance : String

def Evidence.asOf (e : Evidence) : Int := e.recoveryPointEpoch + e.cachedAgeSeconds

def Evidence.json (e : Evidence) : Json :=
  .dict [("recovery_point_epoch", .int e.recoveryPointEpoch), ("last_readback_epoch", .int e.lastReadbackEpoch),
    ("evidence_as_of_epoch", .int e.asOf), ("cached_age_seconds", .int e.cachedAgeSeconds),
    ("current_point_age_seconds", .float (.finite e.currentPointAge)),
    ("evidence_age_seconds", .float (.finite e.evidenceAge)), ("snapshot", .str e.snapshot),
    ("provenance", .str e.provenance)]

/-- `type(cache[key]) is int` -/
def integer (v : Json) : Except SummaryExn Int :=
  match v with
  | .int n => .ok n
  | _      => .error (.own "DB_CACHE_TIMESTAMP_TYPE_INVALID")

/-- `cache_evidence`. The numbers are within the integers that a float holds exactly. -/
def cacheEvidence (cache : Json) (now : ℚ) : Except SummaryExn Evidence := do
  refuse (!cache.isDict || !(cache.getOrNull "probe").isStr PROBE) "DB_CACHE_UNAVAILABLE"
  let pointValue ← cache.item "recovery_point_epoch"
  let _ ← numeric pointValue
  let readbackValue ← cache.item "last_readback_epoch"
  let _ ← numeric readbackValue
  let ageValue ← cache.item "age_seconds"
  let _ ← numeric ageValue
  let point ← integer pointValue
  let readback ← integer readbackValue
  let age ← integer ageValue
  refuse (!(0 < point && point ≤ readback && readback ≤ point + age && decide (((point + age : Int) : ℚ) ≤ now)))
    "DB_CACHE_TIME_INVALID"
  match cache.getOrNull "snapshot" with
  | .str snapshot => do
    refuse (!Stamp.isSnapshot snapshot) "DB_CACHE_SNAPSHOT_INVALID"
    match Stamp.strptime (Stamp.rest snapshot.toList) with
    | none         => .error .valueError
    | some seconds => do
      refuse (decide (seconds ≠ point)) "DB_CACHE_SNAPSHOT_TIME_INVALID"
      return { recoveryPointEpoch := point, lastReadbackEpoch := readback, cachedAgeSeconds := age,
               currentPointAge := now - point, evidenceAge := now - (point + age : Int), snapshot,
               provenance := "NATIVE_HEALTHY_ONLY_CACHE" }
  | _             => .error (.own "DB_CACHE_SNAPSHOT_INVALID")

/-! ## The unit -/

def UNIT_FIELDS : List String :=
  ["ActiveState", "SubState", "Result", "ExecMainStatus", "ExecMainStartTimestampMonotonic",
    "ExecMainExitTimestampMonotonic", "InvocationID"]

structure Native where
  activeState : String
  subState : String
  result : String
  exitStatus : Nat
  invocationId : String
  startMonotonic : Nat
  finishMonotonic : Nat
  startEpoch : Option ℚ := none
  finishEpoch : Option ℚ := none

/-- `re.fullmatch(…, value)` of a field: the value must be a string. -/
def field (values : Json) (key : String) (test : String → Bool) (code : String) : Except SummaryExn String := do
  match ← values.item key with
  | .str s => if test s then .ok s else .error (.own code)
  | _      => .error .typeError

/-- `value in names`, where any other value is none of them. -/
def choice (values : Json) (key : String) (names : List String) : Except SummaryExn String := do
  match ← values.item key with
  | .str s => if names.contains s then .ok s else .error (.own "DB_UNIT_FIELDS_INVALID")
  | _      => .error (.own "DB_UNIT_FIELDS_INVALID")

def unitNumber (values : Json) (key : String) : Except SummaryExn Nat := do
  let digits ← field values key (Text.fullmatch Text.isDigit 1 20) "DB_UNIT_NUMBER_INVALID"
  return digitsValue digits.toList

/-- `parse_unit` -/
def parseUnit (values : Json) : Except SummaryExn Native := do
  refuse (!values.hasKeys UNIT_FIELDS) "DB_UNIT_UNAVAILABLE"
  let activeState ← choice values "ActiveState"
    ["active", "inactive", "activating", "deactivating", "failed", "reloading"]
  let subState ← field values "SubState"
    (Text.fullmatchFirst Text.isLower (fun c => Text.isLower c || Text.isDigit c || c = '-') 31) "DB_UNIT_FIELDS_INVALID"
  let result ← choice values "Result"
    ["success", "exit-code", "signal", "timeout", "watchdog", "start-limit-hit", "resources", "protocol", "oom-kill"]
  let invocationId ← field values "InvocationID" (Text.fullmatch Text.isHex 32 32) "DB_UNIT_FIELDS_INVALID"
  let code ← unitNumber values "ExecMainStatus"
  let start ← unitNumber values "ExecMainStartTimestampMonotonic"
  let finish ← unitNumber values "ExecMainExitTimestampMonotonic"
  refuse (decide (255 < code) || decide (2 ^ 63 - 1 < start) || decide (2 ^ 63 - 1 < finish)) "DB_UNIT_NUMBER_INVALID"
  return { activeState, subState, result, exitStatus := code, invocationId, startMonotonic := start,
           finishMonotonic := finish }

/-! ## The summary of the database -/

/-- The output of `database_summary`. -/
structure Database where
  currentVerdict : String := "UNKNOWN"
  reason : String := "DB_EVIDENCE_UNAVAILABLE"
  lastHealthyEvidence : Option Evidence := none
  nativeInvocation : Option Native := none

/-- The previous evidence, as a cache: `previous_evidence or {}`, by its keys. -/
def asCache (previous : Json) : Except SummaryExn Json := do
  let previous := if previous.truthy then previous else .dict []
  return .dict [("recovery_point_epoch", ← previous.item "recovery_point_epoch"),
    ("last_readback_epoch", ← previous.item "last_readback_epoch"),
    ("age_seconds", ← previous.item "cached_age_seconds"), ("snapshot", ← previous.item "snapshot"),
    ("probe", .str PROBE)]

/-- The evidence of an earlier summary, where it is accepted again. -/
def historical (previous : Json) (now : ℚ) : Option Evidence :=
  match asCache previous with
  | .error _   => none
  | .ok cache  => match cacheEvidence cache now with
    | .error _ => none
    | .ok e    => some { e with provenance := "PREVIOUS_SUMMARY_HEALTHY_CACHE" }

/-- The verdict on a current cache: the reason, after the verdict. -/
def judge (e : Evidence) (native : Native) (now mono : ℚ) (clockSafe : Bool) : String × String :=
  let start : ℚ := native.startMonotonic / 1000000
  let finish : ℚ := native.finishMonotonic / 1000000
  if !clockSafe then ("UNKNOWN", "CLOCK_UNSAFE")
  else if native.activeState ≠ "inactive" ∨ native.subState ≠ "dead" then ("UNKNOWN", "DB_NATIVE_NOT_COMPLETED")
  else if native.result ≠ "success" ∨ native.exitStatus ≠ 0 then ("UNKNOWN", "DB_NATIVE_NOT_SUCCESSFUL")
  else if ¬ (0 < start ∧ start ≤ finish) then ("UNKNOWN", "DB_NATIVE_TIMESTAMPS_INVALID")
  else if DB_FRESHNESS < mono - finish ∨ DB_FRESHNESS < e.evidenceAge then ("UNKNOWN", "DB_EVIDENCE_STALE")
  else if ¬ (now - (mono - start) - TOLERANCE ≤ e.asOf ∧ (e.asOf : ℚ) ≤ now - (mono - finish) + TOLERANCE) then
    ("UNKNOWN", "DB_CACHE_NOT_CURRENT_INVOCATION")
  else ("HEALTHY", "DB_CURRENT_NATIVE_AND_CACHE_MATCH")

/-- The second half of `database_summary`, on a cache that was accepted. -/
def current (e : Evidence) (native : Option Native) (now mono : ℚ) (clockSafe : Bool) : Database :=
  match native with
  | none        => { reason := "DB_NATIVE_UNAVAILABLE_OR_UNSAFE", lastHealthyEvidence := some e }
  | some native =>
    let start : ℚ := native.startMonotonic / 1000000
    let finish : ℚ := native.finishMonotonic / 1000000
    if start ≤ 0 ∨ mono < start ∨ mono < finish ∨ finish < 0 then
      { reason := "DB_NATIVE_UNAVAILABLE_OR_UNSAFE", lastHealthyEvidence := some e, nativeInvocation := some native }
    else
      let finishEpoch := if finish = 0 then none else some (now - (mono - finish))
      let native := { native with startEpoch := some (now - (mono - start)), finishEpoch }
      if now - (mono - start) < 0 ∨ finishEpoch.any (· < 0) then
        { reason := "DB_NATIVE_UNAVAILABLE_OR_UNSAFE", lastHealthyEvidence := some e, nativeInvocation := some native }
      else
        let (verdict, reason) := judge e native now mono clockSafe
        { currentVerdict := verdict, reason, lastHealthyEvidence := some e, nativeInvocation := some native }

/-- `database_summary` -/
def databaseSummary (cache unit : Json) (now mono : ℚ) (clockSafe : Bool) (previousEvidence : Json) : Database :=
  let native := (parseUnit unit).toOption
  match cacheEvidence cache now with
  | .ok e    => current e native now mono clockSafe
  | .error _ => { lastHealthyEvidence := historical previousEvidence now, nativeInvocation := native }

/-- `old_evidence` of `build` -/
def oldEvidence (previous : Json) : Json :=
  let oldDatabase := if previous.isDict then (previous.get? "database").getD (.dict []) else .dict []
  if oldDatabase.isDict then oldDatabase.getOrNull "last_healthy_evidence" else .null

/-! ## What is accepted -/

/-- **Sound evidence**: the point is named by its snapshot, and was read back since and before the probe. -/
structure Evidence.Sound (e : Evidence) : Prop where
  positive : 0 < e.recoveryPointEpoch
  order : e.recoveryPointEpoch ≤ e.lastReadbackEpoch ∧ e.lastReadbackEpoch ≤ e.asOf
  readbackMax : (e.lastReadbackEpoch : ℚ) ≤ maximum
  ageMax : (e.cachedAgeSeconds : ℚ) ≤ maximum
  name : Stamp.isSnapshot e.snapshot = true
  parsed : Stamp.strptime (Stamp.rest e.snapshot.toList) = some e.recoveryPointEpoch

/-- The same evidence, as another summary sees it. -/
def Evidence.seen (e : Evidence) (now : ℚ) (provenance : String) : Evidence :=
  { e with currentPointAge := now - e.recoveryPointEpoch, evidenceAge := now - e.asOf, provenance }

theorem Evidence.Sound.seen {e : Evidence} (h : e.Sound) (now : ℚ) (provenance : String) :
    (e.seen now provenance).Sound :=
  ⟨h.positive, h.order, h.readbackMax, h.ageMax, h.name, h.parsed⟩

theorem refuse_eq_ok {bad : Bool} {code : String} {u : Unit} : refuse bad code = .ok u ↔ bad = false := by
  cases bad <;> simp [refuse]

theorem numeric_int_eq_ok {n : Int} {q : ℚ} :
    numeric (.int n) = .ok q ↔ (0 ≤ (n : ℚ) ∧ (n : ℚ) ≤ maximum) ∧ (n : ℚ) = q := by
  unfold numeric
  dsimp only
  split
  · next h => simp only [h, and_self, true_and, Except.ok.injEq]
  · next h => simp only [h, false_and, reduceCtorEq]

theorem integer_eq_ok {v : Json} {n : Int} : integer v = .ok n ↔ v = .int n := by
  cases v with
  | int m => simp only [integer, Except.ok.injEq, Json.int.injEq]
  | null | bool | float | str | list | dict => simp only [integer, reduceCtorEq]

/-- **What is accepted is sound**, and not of the future. -/
theorem sound_of_accepted {cache : Json} {now : ℚ} {e : Evidence} (h : cacheEvidence cache now = .ok e) :
    e.Sound ∧ (e.asOf : ℚ) ≤ now := by
  unfold cacheEvidence at h
  obtain ⟨_, -, h⟩ := bind_eq_ok.mp h
  obtain ⟨pointValue, -, h⟩ := bind_eq_ok.mp h
  obtain ⟨pointNumber, -, h⟩ := bind_eq_ok.mp h
  obtain ⟨readbackValue, -, h⟩ := bind_eq_ok.mp h
  obtain ⟨readbackNumber, hreadback, h⟩ := bind_eq_ok.mp h
  obtain ⟨ageValue, -, h⟩ := bind_eq_ok.mp h
  obtain ⟨ageNumber, hage, h⟩ := bind_eq_ok.mp h
  obtain ⟨point, -, h⟩ := bind_eq_ok.mp h
  obtain ⟨readback, hreadbackInt, h⟩ := bind_eq_ok.mp h
  obtain ⟨age, hageInt, h⟩ := bind_eq_ok.mp h
  obtain ⟨_, htimes, h⟩ := bind_eq_ok.mp h
  rw [integer_eq_ok.mp hreadbackInt, numeric_int_eq_ok] at hreadback
  rw [integer_eq_ok.mp hageInt, numeric_int_eq_ok] at hage
  simp only [refuse_eq_ok, Bool.not_eq_false', Bool.and_eq_true, decide_eq_true_eq] at htimes
  obtain ⟨⟨⟨hpositive, horder⟩, hread⟩, hnow⟩ := htimes
  cases hsnapshot : cache.getOrNull "snapshot" with
  | str snapshot =>
    rw [hsnapshot] at h
    obtain ⟨_, hname, h⟩ := bind_eq_ok.mp h
    rw [refuse_eq_ok, Bool.not_eq_false'] at hname
    cases hparsed : Stamp.strptime (Stamp.rest snapshot.toList) with
    | none         =>
      rw [hparsed] at h
      cases h
    | some seconds =>
      rw [hparsed] at h
      obtain ⟨_, hsame, h⟩ := bind_eq_ok.mp h
      rw [refuse_eq_ok, decide_eq_false_iff_not, not_not] at hsame
      cases h
      exact ⟨⟨hpositive, ⟨horder, hread⟩, hreadback.1.2, hage.1.2, hname, hsame ▸ hparsed⟩, hnow⟩
  | null | bool | int | float | list | dict =>
    rw [hsnapshot] at h
    cases h

/-- The entries of a cache that `cache_evidence` reads. -/
structure Evidence.In (e : Evidence) (cache : Json) : Prop where
  probe : cache.get? "probe" = some (.str PROBE)
  point : cache.get? "recovery_point_epoch" = some (.int e.recoveryPointEpoch)
  readback : cache.get? "last_readback_epoch" = some (.int e.lastReadbackEpoch)
  age : cache.get? "age_seconds" = some (.int e.cachedAgeSeconds)
  snapshot : cache.get? "snapshot" = some (.str e.snapshot)

/-- **Sound evidence is accepted** at every clock since. -/
theorem accepted_of_sound {e : Evidence} {cache : Json} {now : ℚ} (h : e.Sound) (hin : e.In cache)
    (hnow : (e.asOf : ℚ) ≤ now) : cacheEvidence cache now = .ok (e.seen now "NATIVE_HEALTHY_ONLY_CACHE") := by
  have hdict : cache.isDict = true := by
    cases cache with
    | dict kvs => rfl
    | null | bool | int | float | str | list => cases hin.probe
  have hasOf : e.recoveryPointEpoch + e.cachedAgeSeconds = e.asOf := rfl
  have hnonneg : 0 ≤ e.cachedAgeSeconds := by
    have horder := h.order
    omega
  have hreadback : (0 : ℚ) ≤ e.lastReadbackEpoch := Int.cast_nonneg (h.positive.le.trans h.order.1)
  have hpoint : (e.recoveryPointEpoch : ℚ) ≤ maximum := (Int.cast_le.mpr h.order.1).trans h.readbackMax
  have hprobe : (cache.getOrNull "probe").isStr PROBE = true := by
    rw [Json.getOrNull_of_get? hin.probe]
    exact decide_eq_true (rfl : PROBE = PROBE)
  have htimes : (!(0 < e.recoveryPointEpoch && e.recoveryPointEpoch ≤ e.lastReadbackEpoch &&
      e.lastReadbackEpoch ≤ e.asOf && decide ((e.asOf : ℚ) ≤ now))) = false := by
    rw [decide_eq_true h.positive, decide_eq_true h.order.1, decide_eq_true h.order.2, decide_eq_true hnow]
    rfl
  unfold cacheEvidence
  rw [hdict, hprobe, Json.item_of_get? hin.point, Json.item_of_get? hin.readback, Json.item_of_get? hin.age,
    Json.getOrNull_of_get? hin.snapshot]
  simp only [bind, Except.bind, Bool.not_true, Bool.or_self, refuse, Bool.false_eq_true, if_false, integer,
    numeric_int_eq_ok.mpr ⟨⟨Int.cast_nonneg h.positive.le, hpoint⟩, rfl⟩,
    numeric_int_eq_ok.mpr ⟨⟨hreadback, h.readbackMax⟩, rfl⟩,
    numeric_int_eq_ok.mpr ⟨⟨Int.cast_nonneg hnonneg, h.ageMax⟩, rfl⟩, hasOf, htimes, h.name, h.parsed, ne_eq,
    not_true_eq_false, decide_false, pure, Except.pure]
  rfl

/-- **Evidence that was stored** is accepted again. -/
theorem historical_json {e : Evidence} {now : ℚ} (h : e.Sound) (hnow : (e.asOf : ℚ) ≤ now) :
    historical e.json now = some (e.seen now "PREVIOUS_SUMMARY_HEALTHY_CACHE") := by
  have hcache : asCache e.json = .ok (.dict [("recovery_point_epoch", .int e.recoveryPointEpoch),
      ("last_readback_epoch", .int e.lastReadbackEpoch), ("age_seconds", .int e.cachedAgeSeconds),
      ("snapshot", .str e.snapshot), ("probe", .str PROBE)]) := rfl
  unfold historical
  rw [hcache]
  dsimp only
  rw [accepted_of_sound h ⟨rfl, rfl, rfl, rfl, rfl⟩ hnow]
  rfl

end Summary
end Backup
end PickleInfra
