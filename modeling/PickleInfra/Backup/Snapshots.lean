import PickleInfra.Python.Calendar
import PickleInfra.Python.Canonical
import PickleInfra.Python.Sha256

/-!
# `Backup.Snapshots` — names, manifests and receipts of the database backup

`snapshot_name`, `manifest_fingerprint` and `validate_receipt` of `lib/db_pbs_backup.py`. Names of
snapshots are injective: the group is followed by `/` or by `-verified/`, and the second is read back from
its text.
-/

namespace PickleInfra
namespace Backup

open Python

/-- `BackupError`, or another exception. -/
abbrev BackupExn := Exn String

/-- What the modelled functions use of the configuration. -/
structure Config where
  instanceId : String
  database : String
  systemIdentifier : String
  backupId : String

/-- `if bad: raise BackupError(text)` -/
def refuseIf (bad : Bool) (text : String) : Except BackupExn Unit :=
  if bad then .error (.own text) else .ok ()

@[simp] theorem refuseIf_false (text : String) : refuseIf false text = .ok () := rfl

theorem refuseIf_eq_ok {bad : Bool} {text : String} {u : Unit} : refuseIf bad text = .ok u ↔ bad = false := by
  cases bad <;> simp [refuseIf]

/-! ## Names -/

/-- `group_id`: proofs have a group of their own. -/
def groupId (c : Config) (proofs : Bool) : String := c.backupId ++ if proofs then "-verified" else ""

/-- `snapshot_name`; `ValueError` and `OverflowError` of `fromtimestamp` are one here. -/
def snapshotName (c : Config) (epoch : Int) (proofs : Bool) : Except BackupExn String :=
  match Calendar.utcStamp epoch with
  | some stamp => .ok ("host/" ++ groupId c proofs ++ "/" ++ stamp)
  | none       => .error .valueError

/-- **Names are injective** in the second and in the group. -/
theorem snapshotName_inj {c : Config} {a b : Int} {p q : Bool} {name : String}
    (ha : snapshotName c a p = .ok name) (hb : snapshotName c b q = .ok name) : a = b ∧ p = q := by
  unfold snapshotName at ha hb
  split at ha
  · next sa hsa =>
    split at hb
    · next sb hsb =>
      cases ha
      have htext := congrArg String.toList (Except.ok.inj hb)
      unfold groupId at htext
      simp only [String.toList_append, List.append_assoc, List.append_cancel_left_eq] at htext
      -- after the backup id comes `/` in one group and `-` in the other
      cases p <;> cases q
      · simp only [Bool.false_eq_true, if_false, List.append_cancel_left_eq] at htext
        exact ⟨Calendar.utcStamp_inj hsa (String.toList_injective htext ▸ hsb), rfl⟩
      · exact absurd (congrArg List.head? htext) (by simp)
      · exact absurd (congrArg List.head? htext) (by simp)
      · simp only [if_true, List.append_cancel_left_eq] at htext
        exact ⟨Calendar.utcStamp_inj hsa (String.toList_injective htext ▸ hsb), rfl⟩
    · cases hb
  · cases ha

/-! ## Manifests -/

/-- `is_sha256` -/
def isSha256 (value : Json) : Bool := value.asStr?.any (Text.fullmatch Text.isHex 64 64)

def ARCHIVE : String := "platform-db.pxar"

def PROOF_ARCHIVE : String := "verification.pxar"

/-- A character of `json.dumps` with `ensure_ascii`, where it is none of `' '` to `'~'`: one escape, or a
    pair of surrogates. -/
def asciiEscape (c : Char) : List Char :=
  let hex (n : Nat) : List Char :=
    ['\\', 'u', Nat.digitChar (n / 4096), Nat.digitChar (n / 256 % 16), Nat.digitChar (n / 16 % 16),
      Nat.digitChar (n % 16)]
  if ' ' ≤ c && c ≤ '~' then [c]
  else if c.toNat < 0x10000 then hex c.toNat
  else hex (0xd800 + (c.toNat - 0x10000) / 1024) ++ hex (0xdc00 + (c.toNat - 0x10000) % 1024)

section Manifest

variable (T : FloatText)

/-- `hashlib.sha256(json.dumps(value, sort_keys=True, separators=(',', ':')).encode()).hexdigest()` -/
def jsonDigest (value : Json) : String :=
  Sha256.hexdigest (String.ofList ((JsonText.text T value.sorted).flatMap asciiEscape)).toUTF8

/-- `str(value).lower() == 'failed'`, of a value that is a string. -/
def saysFailed (value : Json) : Bool := value.asStr?.any fun s => s.toLower = "failed"

/-- The manifest without `unprotected`, and with the fingerprint of its key. -/
def protectedPart (kvs : List (String × Json)) (unprotected : Json) : Json :=
  .dict (Dict.assign "key-fingerprint" (unprotected.getOrNull "key-fingerprint")
    (kvs.filter fun e => e.1 ≠ "unprotected"))

/-- `manifest_fingerprint` -/
def manifestFingerprint (c : Config) (index : Json) (epoch : Int) (proofs : Bool) :
    Except BackupExn String := do
  let archive := (if proofs then PROOF_ARCHIVE else ARCHIVE) ++ ".didx"
  let identity := index.isDict && (index.getOrNull "backup-type").isStr "host"
    && (index.getOrNull "backup-id").isStr (groupId c proofs)
    && (index.getOrNull "backup-time").isNumber epoch && isSha256 (index.getOrNull "signature")
  refuseIf (!identity) "PBS manifest identity or signature is missing or inconsistent"
  match index, index.getOrNull "files" with
  | .dict kvs, .list files =>
    refuseIf (!files.all Json.isDict) "PBS manifest file inventory is invalid"
    let entries := files.filter fun entry => (entry.getOrNull "filename").isStr archive
    let encrypted := match entries with
      | [entry] => (entry.getOrNull "crypt-mode").isStr "encrypt" && isSha256 (entry.getOrNull "csum")
      | _       => false
    refuseIf (!encrypted) "PBS manifest does not identify one encrypted database archive"
    let unprotected := (index.get? "unprotected").getD (.dict [])
    refuseIf (!unprotected.isDict) "PBS manifest metadata is invalid"
    refuseIf (saysFailed ((unprotected.getOrNull "verify_state").getOrNull "state"))
      "PBS currently reports failed verification"
    return jsonDigest T (protectedPart kvs unprotected)
  | _, _                   => .error (.own "PBS manifest file inventory is invalid")

end Manifest

/-! ## Receipts -/

/-- The names in `payload_sha256`. -/
def payloadNames : List String := ["database.dump", "roles.sql", "manifest.json"]

/-- `payload_sha256` has a digest for each of its names. -/
def validPayload : Json → Bool
  | .dict kvs => payloadNames.all (fun name => (kvs.map Prod.fst).contains name)
      && kvs.all fun e => payloadNames.contains e.1 && isSha256 e.2
  | _         => false

/-- `validate_receipt` -/
def validateReceipt (c : Config) (record : Json) (epoch : Int) : Except BackupExn Unit := do
  let text := "Verification receipt does not identify this database recovery point"
  let identity := record.isDict && (record.getOrNull "instance_id").isStr c.instanceId
    && (record.getOrNull "database").isStr c.database
    && (record.getOrNull "system_identifier").asStr?.any (Text.fullmatch Text.isDigit 1 24)
    && (record.getOrNull "status").isStr "VERIFIED"
    && (record.getOrNull "recovery_point_epoch").isNumber epoch
  refuseIf (!identity) text
  let data ← snapshotName c epoch false
  refuseIf (!(record.getOrNull "snapshot").isStr data) text
  let proof ← snapshotName c epoch true
  refuseIf (!((record.getOrNull "receipt_snapshot").isStr proof
    && (record.getOrNull "verified_epoch").asInt?.any (fun n => epoch ≤ n)
    && isSha256 (record.getOrNull "manifest_fingerprint")
    && validPayload (record.getOrNull "payload_sha256"))) text

end Backup
end PickleInfra
