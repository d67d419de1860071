import PickleInfra.Backup.Snapshots
import PickleInfra.Durable.Crash

/-!
# `Backup.Retention` — `Client.prune` of `lib/db_pbs_backup.py`

The store is the server: the seconds of its data and its verification snapshots, and what each holds. A
call of the client may fail, and a `forget` that fails may have removed its snapshot.
-/

namespace PickleInfra
namespace Backup
namespace Retention

open Python Durable

/-! ## The server -/

/-- The snapshots on the server, and what is restored from a name. -/
structure Server where
  data : List Int
  proofs : List Int
  receipt : String → Except BackupExn Json
  index : String → Except BackupExn Json

/-- The snapshot has the name. -/
def named (c : Config) (proofs : Bool) (name : String) (epoch : Int) : Bool :=
  match snapshotName c epoch proofs with
  | .ok other => other = name
  | .error _  => false

/-- A snapshot of the name is on the server. -/
def Server.holds (c : Config) (name : String) (s : Server) : Bool :=
  s.data.any (named c false name) || s.proofs.any (named c true name)

/-- The server without the snapshot of a name. -/
def Server.forget (c : Config) (name : String) (s : Server) : Server :=
  { s with data := s.data.filter fun e => !named c false name e
           proofs := s.proofs.filter fun e => !named c true name e }

/-- The snapshots of a group. -/
def Server.group (s : Server) (proofs : Bool) : List Int := if proofs then s.proofs else s.data

/-- The name of the archive in a group. -/
def archiveOf (proofs : Bool) : String := if proofs then PROOF_ARCHIVE else ARCHIVE

/-- The inventory of a group, as `snapshot list` prints it. -/
def Server.inventory (c : Config) (proofs : Bool) (s : Server) : Json :=
  .list ((s.group proofs).map fun epoch => .dict [("backup-type", .str "host"),
    ("backup-id", .str (groupId c proofs)), ("backup-time", .int epoch),
    ("files", .list [.dict [("filename", .str "index.json.blob")],
      .dict [("filename", .str (archiveOf proofs ++ ".didx"))]])])

/-- What the client asks of the server. -/
inductive Call where
  | preview
  | list (proofs : Bool)
  | receipt (name : String)
  | index (name : String)
  | forget (name : String)

/-- A call returns, or raises `BackupError` or something else; a removal may have happened. -/
inductive Reply where
  | done
  | failed (acted : Bool)
  | raised (acted : Bool)
deriving DecidableEq, Repr

abbrev Client := Raising BackupExn Server Call Reply

/-! ## Calls -/

/-- A call that reads the server. -/
def read {α : Type} (q : Call) (value : Server → Except BackupExn α) : Client α :=
  ExceptT.mk (.call q fun
    | .done     => .look fun s => .ret (value s)
    | .failed _ => .ret (.error (.own "command failed"))
    | .raised _ => .ret (.error .osError))

/-- `Client.call` of `snapshot forget`. -/
def callForget (c : Config) (name : String) : Client Unit :=
  ExceptT.mk (.call (.forget name) fun
    | .done         => .write (Server.forget c name) (.ret (.ok ()))
    | .failed true  => .write (Server.forget c name) (.ret (.error (.own "paired retention removal failed")))
    | .failed false => .ret (.error (.own "paired retention removal failed"))
    | .raised true  => .write (Server.forget c name) (.ret (.error .osError))
    | .raised false => .ret (.error .osError))

/-- What is restored from a snapshot that is there. -/
def restored (c : Config) (name : String) (held : Server → String → Except BackupExn Json) (s : Server) :
    Except BackupExn Json :=
  if s.holds c name then held s name else .error (.own "command failed")

/-- `Client.receipt` -/
def receipt (c : Config) (name : String) : Client Json :=
  read (.receipt name) (restored c name Server.receipt)

/-- `Client.index` -/
def index (c : Config) (name : String) : Client Json := read (.index name) (restored c name Server.index)

/-- The file names of one row of an inventory. -/
def fileNames (files : List Json) : Except BackupExn (List String) :=
  files.mapM fun entry =>
    match (if entry.isDict then entry.getOrNull "filename" else entry).asStr? with
    | some name => .ok name
    | none      => .error (.own "PBS snapshot filename is invalid")

/-- One row of an inventory: its second, if it holds the archive. -/
def inventoryRow (c : Config) (proofs : Bool) (row : Json) : Except BackupExn (Option Int) :=
  match (row.getOrNull "backup-time").asInt? with
  | none       => .error (.own "PBS snapshot inventory crosses the configured group")
  | some epoch => do
    refuseIf (!((row.getOrNull "backup-type").isStr "host"
      && (row.getOrNull "backup-id").isStr (groupId c proofs)))
      "PBS snapshot inventory crosses the configured group"
    match row.getOrNull "files" with
    | .list files => do
      let names ← fileNames files
      return if names.contains (archiveOf proofs) || names.contains (archiveOf proofs ++ ".didx") then some epoch
        else none
    | _           => .error (.own "PBS snapshot file list is invalid")

/-- The body of `Client.snapshots`, newest first. -/
def readInventory (c : Config) (proofs : Bool) (rows : Json) : Except BackupExn (List Int) :=
  match rows with
  | .list rows => do
    refuseIf (!rows.all Json.isDict) "Invalid PBS snapshot inventory"
    let epochs ← rows.mapM (inventoryRow c proofs)
    return (epochs.filterMap id).dedup.insertionSort fun a b => b ≤ a
  | _          => .error (.own "Invalid PBS snapshot inventory")

/-- `Client.snapshots` -/
def snapshots (c : Config) (proofs : Bool) : Client (List Int) :=
  read (.list proofs) fun s => readInventory c proofs (s.inventory c proofs)

/-- The name of a snapshot, or its exception. -/
def name (c : Config) (epoch : Int) (proofs : Bool) : Client String :=
  ExceptT.mk (.ret (snapshotName c epoch proofs))

/-- `if bad: raise BackupError(text)` -/
def refuse (bad : Bool) (text : String) : Client Unit := ExceptT.mk (.ret (refuseIf bad text))

/-- The end of `forget_confirmed`. -/
def confirmGone (c : Config) (epoch : Int) (proofs : Bool) : Client Unit := do
  let left ← snapshots c proofs
  refuse (left.contains epoch) "PBS still lists the retention removal target"

/-- The `except BackupError` clause of `forget_confirmed`. -/
def reconsider (c : Config) (epoch : Int) (proofs : Bool) (text : String) : Client Unit := do
  let left ← snapshots c proofs
  refuse (left.contains epoch) text

/-- The `try` statement of `forget_confirmed`. -/
def tryForget (c : Config) (epoch : Int) (proofs : Bool) (snapshot : String) : Client Unit :=
  ExceptT.mk ((callForget c snapshot).run.bind fun
    | .ok ()             => .ret (.ok ())
    | .error (.own text) => (reconsider c epoch proofs text).run
    | .error e           => .ret (.error e))

/-- `Client.forget_confirmed` -/
def forgetConfirmed (c : Config) (epoch : Int) (proofs : Bool) : Client Unit := do
  let snapshot ← name c epoch proofs
  tryForget c epoch proofs snapshot
  confirmGone c epoch proofs

/-! ## `Client.prune` -/

/-- The data manifest is the one that the receipt verified. -/
def compareManifest (T : FloatText) (c : Config) (record : Json) (epoch : Int) : Client Unit := do
  let manifest ← index c ((record.getOrNull "snapshot").asStr?.getD "")
  let actual ← ExceptT.mk (.ret (manifestFingerprint T c manifest epoch false))
  refuse (!(record.getOrNull "manifest_fingerprint").isStr actual)
    "Retention target differs from its verified data manifest"

/-- The removal of one pair. -/
def prunePair (T : FloatText) (c : Config) (dataEpochs : List Int) (epoch : Int) : Client Unit := do
  let proof ← name c epoch true
  let record ← receipt c proof
  ExceptT.mk (.ret (validateReceipt c record epoch))
  if dataEpochs.contains epoch then
    compareManifest T c record epoch
    forgetConfirmed c epoch false
  forgetConfirmed c epoch true

/-- `row.get('keep') is value` -/
def keeps (value : Bool) (row : Json) : Bool :=
  match row.getOrNull "keep" with
  | .bool b => b = value
  | _       => false

/-- The loop over the rows of the preview. -/
def pruneRows (T : FloatText) (c : Config) (dataEpochs : List Int) : List Json → Client Unit
  | []          => pure ()
  | row :: rows =>
    if keeps true row then pruneRows T c dataEpochs rows
    else match keeps false row, (row.getOrNull "backup-time").asInt? with
      | true, some epoch => do
        prunePair T c dataEpochs epoch
        pruneRows T c dataEpochs rows
      | _, _             => throw (.own "Invalid PBS retention decision")

/-- The checks of a preview, and its rows. -/
def checkPreview (c : Config) (verifiedEpoch : Int) (preview : Json) : Except BackupExn (List Json) :=
  match preview with
  | .list rows => do
    refuseIf (!rows.all Json.isDict) "PBS retention preview is not a snapshot list"
    refuseIf (rows.any fun row => !((row.getOrNull "backup-type").isStr "host"
      && (row.getOrNull "backup-id").isStr (groupId c true)))
      "PBS retention preview crosses the configured backup group"
    let current := rows.filter fun row => (row.getOrNull "backup-time").isNumber verifiedEpoch
    refuseIf (!(current.length = 1 && current.all (keeps true)))
      "PBS retention would not preserve the newly verified recovery point"
    return rows
  | _          => .error (.own "PBS retention preview is not a snapshot list")

/-- `Client.prune`, of the preview that the server gives. -/
def prune (T : FloatText) (c : Config) (preview : Json) (verifiedEpoch : Int) : Client Unit := do
  let rows ← read .preview fun _ => checkPreview c verifiedEpoch preview
  let dataEpochs ← snapshots c false
  pruneRows T c dataEpochs rows

end Retention
end Backup
end PickleInfra
