import PickleInfra.Backup.Snapshots
import PickleInfra.Durable.Crash
import PickleInfra.Python.Text

/-!
# `Backup.Spool` — the local copies of the database backup

`clean_owned_failed_spool` and `run_backup` of `lib/db_pbs_backup.py`, as far as they touch the state
directory: every directory that is made, file that is renamed into place and entry that `rmtree` unlinks
is a write of its own. The commands around them are questions, which may fail.
-/

namespace PickleInfra
namespace Backup
namespace Spool

open Python Durable

/-! ## Names of attempts -/

/-- `text.replace(word, '')`; the number counts the characters of an occurrence that are still to drop. -/
def removeAll (word : List Char) : Nat → List Char → List Char
  | _, []          => []
  | n + 1, _ :: cs => removeAll word n cs
  | 0, c :: cs     =>
    if word.isPrefixOf (c :: cs) then removeAll word (word.length - 1) cs else c :: removeAll word 0 cs

/-- A hexadecimal digit of either case. -/
def isHexDigit (c : Char) : Bool := Text.isHex c || ('A' ≤ c && c ≤ 'F')

/-- `uuid.UUID(name)` does not raise. -/
def acceptsUuid (name : String) : Bool :=
  let hex := removeAll "uuid:".toList 0 (removeAll "urn:".toList 0 name.toList)
  let brace (c : Char) : Bool := c = '\x7b' || c = '\x7d'
  let hex := removeAll ['-'] 0 ((hex.dropWhile brace).reverse.dropWhile brace).reverse
  hex.length = 32 && hex.all isHexDigit

/-- `str(uuid.uuid4())` -/
structure RunId where
  text : String
  accepted : acceptsUuid text = true

/-! ## The state directory -/

/-- The directory of an attempt: what `attempt.json` holds, if it is there, and the other paths below. -/
structure Attempt where
  record : Option Json := none
  files : List String := []

/-- An entry of the spool. -/
inductive Entry where
  | directory (a : Attempt)
  | other

/-- The state directory. -/
structure Disk where
  spool : Dict String Entry
  records : Dict String Json
  checkpoint : Option Json
  maintenance : Option Json

def Disk.initial : Disk := ⟨.empty, .empty, none, none⟩

/-- A change inside the directory of an attempt. -/
def onAttempt (name : String) (f : Attempt → Attempt) (d : Disk) : Disk :=
  match d.spool.get? name with
  | some (.directory a) => { d with spool := d.spool.set name (.directory (f a)) }
  | _                   => d

/-- `run.mkdir(mode=0o700)`, of a name that is not there. -/
def mkdir (name : String) (d : Disk) : Disk := { d with spool := d.spool.set name (.directory {}) }

/-- A new path below an attempt. -/
def create (path name : String) (d : Disk) : Disk :=
  onAttempt name (fun a => { a with files := path :: a.files }) d

/-- `os.replace` of a temporary file. -/
def rename (temporary path name : String) (d : Disk) : Disk :=
  onAttempt name (fun a => { a with files := path :: a.files.erase temporary }) d

/-- `os.replace` of a temporary file over `attempt.json`. -/
def publish (temporary : String) (record : Json) (name : String) (d : Disk) : Disk :=
  onAttempt name (fun a => ⟨some record, a.files.erase temporary⟩) d

/-- `os.unlink` and `os.rmdir` below an attempt. -/
def unlink (path name : String) (d : Disk) : Disk :=
  onAttempt name (fun a => if path = "attempt.json" then { a with record := none }
    else { a with files := a.files.erase path }) d

/-- The last `os.rmdir` of an attempt. -/
def rmdir (name : String) (d : Disk) : Disk := { d with spool := d.spool.erase name }

/-! ## Questions -/

/-- What `run_backup` asks of other programs, in order. -/
inductive Command where
  | source
  | client
  | headroom
  | dump
  | roles
  | upload
  | manifest
  | restore
  | readback
  | uploadReceipt
  | receiptManifest
  | receipt
  | prune
deriving DecidableEq, Repr

/-- A command returns, or raises `BackupError` or something else. -/
inductive Answer where
  | done
  | failed
  | raised
deriving DecidableEq, Repr

/-- The exceptions of the cleaner. -/
inductive SpoolExn where
  | backup (text : String)
  | bootstrap (text : String)
  | attributeError
deriving DecidableEq, Repr

/-- How a run ends. -/
inductive Outcome where
  | done
  | refused (command : Command)
  | unclean (e : SpoolExn)
  | exists
  | failed
deriving DecidableEq, Repr

/-- What a run finds: the new name, the clock in the years of `datetime`, and the order in which the
    directories are listed. -/
structure RunInput where
  run : RunId
  epoch : Int
  inRange : Clock.inRange epoch = true
  temporary : String
  verified : List (String × Json)
  iterdir : List String
  scandir : String → List String

abbrev BackupProg := Prog Disk Command Answer
abbrev BackupWorld := World Disk Command Answer

/-! ## `shutil.rmtree` -/

/-- The members of a list in the order of another; those it does not name come last. -/
def arrange (order names : List String) : List String :=
  (order.filter (names.contains ·)).dedup ++ names.filter fun name => !order.contains name

/-- Everything below an attempt. -/
def Attempt.paths (a : Attempt) : List String :=
  (if a.record.isSome then ["attempt.json"] else []) ++ a.files

/-- Unlink the paths one by one, and then the directory. -/
def unlinkAll (name : String) : List String → BackupProg Unit
  | []            => .write (rmdir name) (.ret ())
  | path :: paths => .write (unlink path name) (unlinkAll name paths)

/-- `shutil.rmtree(directory)`, in any order: the real ones have the children of a directory before it. -/
def rmtree (x : RunInput) (name : String) : BackupProg Unit :=
  .look fun d => match d.spool.get? name with
    | some (.directory a) => unlinkAll name (arrange (x.scandir name) a.paths)
    | _                   => .ret ()

/-! ## `clean_owned_failed_spool` -/

/-- The checks of the record of an attempt, and its `recovery_point_epoch`. -/
def checkRecord (c : Config) (name : String) (record : Json) : Except SpoolExn Int :=
  if !record.isDict then .error .attributeError
  else if !((record.getOrNull "instance_id").isStr c.instanceId && (record.getOrNull "run_id").isStr name) then
    .error (.backup "Spool ownership mismatch; automatic cleanup refused")
  else if !(["STARTED", "FAILED_OR_UNCONFIRMED", "VERIFIED"].any
      fun status => (record.getOrNull "status").isStr status) then
    .error (.backup "Spool attempt state is unrecognized; automatic cleanup refused")
  else match (record.getOrNull "recovery_point_epoch").asInt? with
    | some epoch => .ok epoch
    | none       => .error (.backup "Spool attempt state is unrecognized; automatic cleanup refused")

/-- An entry of `candidates`. -/
structure Candidate where
  epoch : Int
  name : String
  record : Json

/-- The checks of an entry of the spool. -/
def candidate (c : Config) (d : Disk) (name : String) : Except SpoolExn Candidate :=
  if !acceptsUuid name then
    .error (.backup "Unrecognized spool entry; inspect it without automatic cleanup")
  else match d.spool.get? name with
    | some (.directory ⟨some record, _⟩) =>
      (checkRecord c name record).map fun epoch => ⟨epoch, name, record⟩
    | some (.directory ⟨none, _⟩)        =>
      .error (.bootstrap "Credential input must be readable and must not be a symlink")
    | _                                  => .error (.backup "Unsafe spool entry; automatic cleanup refused")

/-- `sorted(candidates, key=lambda item: item[0], reverse=True)` -/
def newestFirst (candidates : List Candidate) : List Candidate :=
  candidates.insertionSort fun a b => b.epoch ≤ a.epoch

/-- The record that is kept of a removed copy. -/
def removedRecord (record : Json) : Json :=
  match record with
  | .dict kvs => .dict (Dict.assign "local_copy_removed" (.bool true) kvs)
  | v         => v

/-- The loop that removes all but the newest. -/
def removeCopies (x : RunInput) : List Candidate → BackupProg Unit
  | []        => .ret ()
  | e :: rest =>
    .write (fun d => { d with
        records := d.records.set ("local-spool-" ++ e.name ++ ".json") (removedRecord e.record) })
      ((rmtree x e.name).bind fun _ => removeCopies x rest)

/-- `clean_owned_failed_spool` -/
def cleanOwnedFailedSpool (c : Config) (x : RunInput) : BackupProg (Except SpoolExn Unit) :=
  .look fun d => match (arrange x.iterdir d.spool.keys).mapM (candidate c d) with
    | .error e       => .ret (.error e)
    | .ok candidates => (removeCopies x (newestFirst candidates).tail).bind fun _ => .ret (.ok ())

/-! ## `run_backup` -/

/-- `record`, with the fields that verification adds. -/
def attemptRecord (c : Config) (x : RunInput) (snapshot status : String) (verified : List (String × Json)) :
    Json :=
  .dict ([("instance_id", .str c.instanceId), ("run_id", .str x.run.text), ("snapshot", .str snapshot),
    ("recovery_point_epoch", .int x.epoch), ("status", .str status)] ++ verified)

/-- The `except` clause: the attempt is recorded as failed. -/
def recordFailure (c : Config) (x : RunInput) (snapshot : String) (verified : List (String × Json)) :
    BackupProg Outcome :=
  .write (create x.temporary x.run.text)
    (.write (publish x.temporary (attemptRecord c x snapshot "FAILED_OR_UNCONFIRMED" verified) x.run.text)
      (.ret .failed))

/-- The steps up to the readback of the payload. -/
def dumpSteps (x : RunInput) : List (Step Disk Command) :=
  [.write (create "payload/database.dump" x.run.text), .command .dump,
    .write (create "payload/roles.sql" x.run.text), .command .roles,
    .write (create x.temporary x.run.text), .write (rename x.temporary "payload/manifest.json" x.run.text),
    .command .upload, .command .manifest, .write (create "readback" x.run.text),
    .write (create "readback/database.dump" x.run.text), .write (create "readback/manifest.json" x.run.text),
    .write (create "readback/roles.sql" x.run.text), .command .restore, .command .readback]

/-- The previous checkpoint is older. -/
def advances (epoch : Int) (d : Disk) : Bool :=
  match d.checkpoint with
  | none        => true
  | some record => ((record.getOrNull "recovery_point_epoch").numeric.getD 0) < epoch

/-- The steps from the proof to the record of a verified attempt. -/
def proofSteps (x : RunInput) (record : Json) : List (Step Disk Command) :=
  [.write (create "proof" x.run.text), .write (create x.temporary x.run.text),
    .write (rename x.temporary "proof/receipt.json" x.run.text), .command .uploadReceipt,
    .command .receiptManifest, .command .receipt, .check (advances x.epoch),
    .write (fun d => { d with checkpoint := some record }),
    .write (fun d => { d with records := d.records.set (x.run.text ++ ".json") record })]

/-- The end of a verified run: retention, `maintenance.json`, and the removal of the local copy. -/
def finish (c : Config) (x : RunInput) (snapshot : String) : BackupProg Outcome :=
  .call .prune fun a =>
    if a = .raised then recordFailure c x snapshot x.verified
    else .write (fun d => { d with maintenance := some (.dict [("error",
        if a = .done then .null else .str "RETENTION_FAILED")]) })
      ((rmtree x x.run.text).bind fun _ => .ret .done)

/-- The `try` block. -/
def attempt (c : Config) (x : RunInput) (snapshot : String) : BackupProg Outcome :=
  perform (· = .done) (recordFailure c x snapshot []) (dumpSteps x)
    (perform (· = .done) (recordFailure c x snapshot x.verified)
      (proofSteps x (attemptRecord c x snapshot "VERIFIED" x.verified)) (finish c x snapshot))

/-- From the directory of the attempt to its record. -/
def begin (c : Config) (x : RunInput) : BackupProg Outcome :=
  .look fun d => if (d.spool.get? x.run.text).isSome then .ret .exists
    else .write (mkdir x.run.text) (.write (create "payload" x.run.text)
      (match snapshotName c x.epoch false with
      | .error _     => .ret .failed
      | .ok snapshot => .write (create x.temporary x.run.text)
          (.write (publish x.temporary (attemptRecord c x snapshot "STARTED" []) x.run.text)
            (attempt c x snapshot))))

/-- `run_backup`, under its lock. -/
def runBackup (c : Config) (x : RunInput) : BackupProg Outcome :=
  perform (· = .done) (.ret (.refused .source)) [.command .source, .command .client]
    ((cleanOwnedFailedSpool c x).bind fun
      | .error e => .ret (.unclean e)
      | .ok ()   => perform (· = .done) (.ret (.refused .headroom)) [.command .headroom] (begin c x))

/-- The worlds that runs reach, with kills only where `killable` allows them. -/
inductive Reachable (c : Config) (killable : Disk → Prop) : BackupWorld → Prop
  | start : Reachable c killable ⟨.initial, []⟩
  | finished {w w' : BackupWorld} {r} (x : RunInput) (h : Reachable c killable w)
      (hrun : Runs (runBackup c x) w w' (some r)) : Reachable c killable w'
  | killed {w w' : BackupWorld} (x : RunInput) (h : Reachable c killable w)
      (hrun : Runs (runBackup c x) w w' none) (hkill : killable w'.disk) : Reachable c killable w'

end Spool
end Backup
end PickleInfra
