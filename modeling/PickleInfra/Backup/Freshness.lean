import Mathlib.Data.List.Sort
import Mathlib.Data.Rat.Floor
import PickleInfra.Backup.Snapshots
import PickleInfra.Python.Fields

/-!
# `Backup.Freshness` — `freshness` of the database backup

Every report is reconstructed of what the remote client returns: the inventories, the verification receipt and the two
manifests. A healthy one leaves a local cache, which other programs read.
-/

namespace PickleInfra
namespace Backup

open Python

/-- The calls of the client that `freshness` makes, and what each returns or raises. -/
structure Remote where
  inventory : Bool → Except BackupExn Json
  index : String → Except BackupExn Json
  receipt : String → Except BackupExn Json

def WARNING_AGE : Int := 600

def FAILED_AGE : Int := 900

/-! ## The inventory -/

/-- The file name of an entry of `files`. -/
def filenameOf (entry : Json) : Except BackupExn String :=
  match if entry.isDict then entry.getOrNull "filename" else entry with
  | .str s => .ok s
  | _      => .error (.own "PBS snapshot filename is invalid")

/-- One round of the loop of `Client.snapshots`: the time of a snapshot with the archive. -/
def snapshotRow (c : Config) (proofs : Bool) (row : Json) : Except BackupExn (Option Int) := do
  let time := (row.getOrNull "backup-time").asInt?
  refuseIf (!((row.getOrNull "backup-type").isStr "host" && (row.getOrNull "backup-id").isStr (groupId c proofs)
    && time.isSome)) "PBS snapshot inventory crosses the configured group"
  match row.getOrNull "files" with
  | .list contents => do
    let names ← contents.mapM filenameOf
    let archive := if proofs then PROOF_ARCHIVE else ARCHIVE
    return if names.contains archive || names.contains (archive ++ ".didx") then time else none
  | _              => .error (.own "PBS snapshot file list is invalid")

/-- `Client.snapshots`: the times, the latest first. -/
def snapshots (c : Config) (proofs : Bool) (rows : Json) : Except BackupExn (List Int) :=
  match rows with
  | .list rows => do
    refuseIf (!rows.all Json.isDict) "Invalid PBS snapshot inventory"
    let epochs ← rows.mapM (snapshotRow c proofs)
    return (epochs.filterMap id).dedup.insertionSort (· ≥ ·)
  | _          => .error (.own "Invalid PBS snapshot inventory")

/-! ## The report -/

/-- What the complete remote probe found. -/
structure Probed where
  recoveryPointEpoch : Int
  lastReadbackEpoch : Int
  snapshot : String
  now : Int

def Probed.age (p : Probed) : Int := p.now - p.recoveryPointEpoch

/-- The entries of `result`. -/
def Probed.entries (p : Probed) : List (String × Json) :=
  [("recovery_point_epoch", .int p.recoveryPointEpoch), ("last_readback_epoch", .int p.lastReadbackEpoch),
    ("snapshot", .str p.snapshot), ("age_seconds", .int p.age),
    ("probe", .str "current PBS groups, encrypted verification receipt and data manifest")]

/-- The cache. -/
def Probed.cache (p : Probed) : Json := .dict p.entries

/-- `dict(result, status=…, reason=…)` -/
def Probed.report (p : Probed) (status reason : String) : Json :=
  .dict (p.entries ++ [("status", .str status), ("reason", .str reason)])

/-- A report without a result. -/
def failed (reason : String) (epoch : Json) : Json :=
  .dict [("status", .str "FAILED"), ("reason", .str reason), ("recovery_point_epoch", epoch)]

/-- `int(x)` of a float. -/
def truncate (x : ℚ) : Int := if x < 0 then -⌊-x⌋ else ⌊x⌋

/-- A field that was validated as a string. -/
def stringField (v : Json) : Except BackupExn String :=
  match v with
  | .str s => .ok s
  | _      => .error .typeError

/-- A field that was validated as an integer. -/
def intField (v : Json) : Except BackupExn Int :=
  match v with
  | .int n => .ok n
  | _      => .error .typeError

/-- What the `try` of `freshness` ends with: a report, or the result of the probe. -/
inductive Checked where
  | reported (report : Json)
  | probed (p : Probed)

/-- The `try` of `freshness`. The clock is read after the last call. -/
def check (T : FloatText) (c : Config) (r : Remote) (clock : ℚ) : Except BackupExn Checked := do
  let proofEpochs ← snapshots c true (← r.inventory true)
  let dataEpochs ← snapshots c false (← r.inventory false)
  match proofEpochs with
  | []         => return .reported (failed "NO_VERIFIED_CHECKPOINT" .null)
  | epoch :: _ =>
    if !dataEpochs.contains epoch then return .reported (failed "PBS_DATA_SNAPSHOT_MISSING" (.int epoch))
    else do
      let proofSnapshot ← snapshotName c epoch true
      let _ ← manifestFingerprint T c (← r.index proofSnapshot) epoch true
      let checkpoint ← r.receipt proofSnapshot
      validateReceipt c checkpoint epoch
      let snapshot ← stringField (← checkpoint.item "snapshot")
      let fingerprint ← manifestFingerprint T c (← r.index snapshot) epoch false
      let readback ← intField (← checkpoint.item "verified_epoch")
      let p : Probed := { recoveryPointEpoch := epoch, lastReadbackEpoch := readback, snapshot, now := truncate clock }
      if p.now < epoch ∨ p.now < readback then return .reported (p.report "FAILED" "CLOCK_MOVED_BACKWARDS")
      else do
        let recorded ← checkpoint.item "manifest_fingerprint"
        if !recorded.isStr fingerprint then return .reported (p.report "FAILED" "REMOTE_MANIFEST_CHANGED")
        else return .probed p

/-- `freshness`, on a host and a state directory that were accepted: the report, and the cache if it is written. -/
def freshness (T : FloatText) (c : Config) (r : Remote) (clock : ℚ) : Json × Option Json :=
  match check T c r clock with
  | .error _            => (failed "PBS_SNAPSHOT_UNAVAILABLE" .null, none)
  | .ok (.reported doc) => (doc, none)
  | .ok (.probed p)     =>
    if FAILED_AGE ≤ p.age then (p.report "FAILED" "RECOVERY_POINT_TOO_OLD", none)
    else if WARNING_AGE ≤ p.age then (p.report "WARNING" "RECOVERY_POINT_AGING", none)
    else (p.report "HEALTHY" "VERIFIED_AND_REMOTE_AVAILABLE", some p.cache)

/-! ## What a cache is written of -/

theorem eq_of_asInt? {v : Json} {n : Int} (h : v.asInt? = some n) : v = .int n := by
  cases v with
  | int m => cases h; rfl
  | null | bool | float | str | list | dict => cases h

/-- **A receipt that is accepted** names the snapshot of its point, and was read back since. -/
theorem snapshot_of_receipt {c : Config} {record : Json} {epoch : Int} {u : Unit}
    (h : validateReceipt c record epoch = .ok u) :
    ∃ data n, snapshotName c epoch false = .ok data ∧ record.getOrNull "snapshot" = .str data ∧
      record.getOrNull "verified_epoch" = .int n ∧ epoch ≤ n := by
  unfold validateReceipt at h
  simp only [bind_eq_ok, refuseIf_eq_ok, Bool.not_eq_false', Bool.and_eq_true] at h
  obtain ⟨_, -, data, hname, _, hsnapshot, proof, -, ⟨⟨-, hverified⟩, -⟩, -⟩ := h
  cases hn : (record.getOrNull "verified_epoch").asInt? with
  | none   =>
    rw [hn] at hverified
    cases hverified
  | some n =>
    rw [hn] at hverified
    exact ⟨data, n, hname, Json.eq_of_isStr hsnapshot, eq_of_asInt? hn, of_decide_eq_true hverified⟩

/-- **A cache** is of a point that is named by its snapshot, was read back since, and is younger than the warning age. -/
structure Probed.Cached (c : Config) (clock : ℚ) (p : Probed) : Prop where
  now : p.now = truncate clock
  name : snapshotName c p.recoveryPointEpoch false = .ok p.snapshot
  order : p.recoveryPointEpoch ≤ p.lastReadbackEpoch ∧ p.lastReadbackEpoch ≤ p.now
  age : p.age < WARNING_AGE

theorem cached_of_check {T : FloatText} {c : Config} {r : Remote} {clock : ℚ} {p : Probed}
    (h : check T c r clock = .ok (.probed p)) (hage : p.age < WARNING_AGE) : p.Cached c clock := by
  unfold check at h
  obtain ⟨_, -, h⟩ := bind_eq_ok.mp h
  obtain ⟨proofEpochs, -, h⟩ := bind_eq_ok.mp h
  obtain ⟨_, -, h⟩ := bind_eq_ok.mp h
  obtain ⟨dataEpochs, -, h⟩ := bind_eq_ok.mp h
  cases proofEpochs with
  | nil            => cases h
  | cons epoch _   =>
    dsimp only at h
    split at h
    · cases h
    · obtain ⟨proofSnapshot, -, h⟩ := bind_eq_ok.mp h
      obtain ⟨_, -, h⟩ := bind_eq_ok.mp h
      obtain ⟨_, -, h⟩ := bind_eq_ok.mp h
      obtain ⟨checkpoint, -, h⟩ := bind_eq_ok.mp h
      obtain ⟨_, hreceipt, h⟩ := bind_eq_ok.mp h
      obtain ⟨data, n, hname, hdata, hn, horder⟩ := snapshot_of_receipt hreceipt
      obtain ⟨snapshotValue, hvalue, h⟩ := bind_eq_ok.mp h
      obtain ⟨snapshot, hsnapshot, h⟩ := bind_eq_ok.mp h
      obtain ⟨_, -, h⟩ := bind_eq_ok.mp h
      obtain ⟨fingerprint, -, h⟩ := bind_eq_ok.mp h
      obtain ⟨readbackValue, hreadbackValue, h⟩ := bind_eq_ok.mp h
      obtain ⟨readback, hreadback, h⟩ := bind_eq_ok.mp h
      -- the two fields that are copied are those that were validated
      rw [Json.getOrNull_of_get? (Json.get?_of_item hvalue)] at hdata
      rw [Json.getOrNull_of_get? (Json.get?_of_item hreadbackValue)] at hn
      subst hdata hn
      obtain rfl := Except.ok.inj hsnapshot
      obtain rfl := Except.ok.inj hreadback
      split at h
      · cases h
      · next hclock =>
        obtain ⟨_, -, h⟩ := bind_eq_ok.mp h
        split at h
        · cases h
        · cases h
          rw [not_or, Int.not_lt, Int.not_lt] at hclock
          exact ⟨rfl, hname, ⟨horder, hclock.2⟩, hage⟩

/-- **A healthy report** is the one that leaves a cache. -/
theorem cached_of_freshness {T : FloatText} {c : Config} {r : Remote} {clock : ℚ} {report cache : Json}
    (h : freshness T c r clock = (report, some cache)) :
    ∃ p : Probed, p.Cached c clock ∧ cache = p.cache ∧ report = p.report "HEALTHY" "VERIFIED_AND_REMOTE_AVAILABLE" := by
  unfold freshness at h
  split at h
  · cases h
  · cases h
  · next p hcheck =>
    split at h
    · cases h
    · split at h
      · cases h
      · next hage =>
        cases h
        exact ⟨p, cached_of_check hcheck (Int.not_le.mp hage), rfl, rfl⟩

end Backup
end PickleInfra
