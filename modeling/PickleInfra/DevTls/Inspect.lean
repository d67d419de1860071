import Mathlib.Data.List.Sort
import Mathlib.Data.String.Basic
import PickleInfra.DevTls.Export
import PickleInfra.Python.Ascii
import PickleInfra.Python.Sha256
import PickleInfra.Python.Str
import PickleInfra.Python.Utf8

/-!
# `DevTls.Inspect` — `inspect_archive` of `dev-tls-backup.py`

The members of a restored archive are checked by their names and kinds, then digested in the order of their
names; the certificate and the key are handed to `openssl`, which is a parameter.
-/

namespace PickleInfra
namespace DevTls

open Python

inductive InspectError where
  | tooLarge
  | tarError
  | unexpectedMembers
  | renewalMissing
  | keyError
  | unexpectedLink
  | unexpectedFile
  | unexpectedType
  | commandFailed
  | keyMismatch
deriving DecidableEq, Repr

def InspectError.message : InspectError → Option String
  | .tooLarge          => some "Archive too large"
  | .unexpectedMembers => some "Unexpected archive members"
  | .renewalMissing    => some "Renewal config missing"
  | .unexpectedLink    => some "Unexpected live link"
  | .unexpectedFile    => some "Unexpected archive file"
  | .unexpectedType    => some "Unexpected member type"
  | .keyMismatch       => some "Certificate key mismatch"
  -- from `tarfile` and from `subprocess`
  | .tarError          => none
  | .keyError          => none
  | .commandFailed     => none

/-! ## The members -/

/-- `tar.getmember(name)`: the last one of the name. -/
def getmember (members : List Member) (name : String) : Except InspectError Member :=
  match members.reverse.find? (fun m => m.name = name) with
  | some m => .ok m
  | none   => .error .keyError

def Member.isReg (m : Member) : Bool :=
  match m.content with
  | .file _ => true
  | _       => false

/-- What is before the number in the text of a live link. -/
def linkPrefix (lineage : String) (stem : Stem) : List Char :=
  ("../../archive/" ++ lineage ++ "/" ++ stem.text).toList

/-- What is left of a link text without its prefix and `.pem`. -/
def linkSuffix (lineage : String) (stem : Stem) (text : String) : List Char :=
  Str.removesuffix ".pem".toList (Str.removeprefix (linkPrefix lineage stem) text.toList)

/-- The name of the archive file with this number. -/
def archiveName (lineage : String) (stem : Stem) (suffix : List Char) : String :=
  "archive/" ++ lineage ++ "/" ++ (stem.text ++ String.ofList suffix ++ ".pem")

/-- The bytes of the file one live link names. -/
def linked (members : List Member) (lineage : String) (stem : Stem) : Except InspectError (List UInt8) := do
  let link ← getmember members (liveName lineage stem)
  match link.content with
  | .link text =>
    let suffix := linkSuffix lineage stem text
    refuseIf (!(linkPrefix lineage stem).isPrefixOf text.toList || !Str.isdigit suffix) .unexpectedLink
    let item ← getmember members (archiveName lineage stem suffix)
    match item.content with
    | .file data =>
      refuseIf (!(0 < data.length && data.length ≤ 1024 * 1024)) .unexpectedFile
      .ok data
    | _ => .error .unexpectedFile
  | _ => .error .unexpectedLink

/-- `material` -/
structure Material where
  cert : List UInt8
  chain : List UInt8
  fullchain : List UInt8
  privkey : List UInt8

def Material.get (m : Material) : Stem → List UInt8
  | .cert      => m.cert
  | .chain     => m.chain
  | .fullchain => m.fullchain
  | .privkey   => m.privkey

/-! ## The digest -/

variable (T : FloatText)

def sha256 (data : List UInt8) : String := Sha256.hexdigest ⟨data.toArray⟩

/-- One entry of `records`. -/
def record (m : Member) : Except InspectError Json :=
  match m.content with
  | .link target => .ok (.list [.str m.name, .str "link", .str target])
  | .file data   => .ok (.list [.str m.name, .str "file", .str (sha256 data)])
  | .other       => .error .unexpectedType

/-- `sorted(members, key=lambda entry: entry.name)` -/
def byName (members : List Member) : List Member := members.insertionSort (fun a b => a.name ≤ b.name)

/-- The bytes that are digested. -/
def recordsBytes (records : List Json) : List UInt8 :=
  Utf8.encode (JsonText.dumpsAscii T (.list records))

def archiveDigest (members : List Member) : Except InspectError String := do
  let records ← (byName members).mapM record
  .ok (sha256 (recordsBytes T records))

/-! ## `inspect_archive` -/

structure Inspected where
  certificateSha256 : String
  archiveSha256 : String
deriving DecidableEq, Repr

section Inspect

variable {Raw : Type} (tar : Tarfile Raw)

/-- The checks of `inspect_archive` before the first command. -/
def inspectMembers (raw : Raw) (lineage : String) : Except InspectError (Material × String) := do
  refuseIf (2 * 1024 * 1024 < tar.size raw) .tooLarge
  match tar.read raw with
  | none         => .error .tarError
  | some members => do
    refuseIf (members.length ≠ 9 || !(members.map Member.name).Nodup) .unexpectedMembers
    refuseIf (!members.any fun m => m.name = renewalName lineage) .renewalMissing
    let renewal ← getmember members (renewalName lineage)
    refuseIf (!renewal.isReg) .renewalMissing
    let cert ← linked members lineage .cert
    let chain ← linked members lineage .chain
    let fullchain ← linked members lineage .fullchain
    let privkey ← linked members lineage .privkey
    let digest ← archiveDigest T members
    .ok ({ cert, chain, fullchain, privkey }, digest)

variable (run : List String → List UInt8 → Option (List UInt8))

/-- `run(argv, payload)` -/
def command (argv : List String) (payload : List UInt8) : Except InspectError (List UInt8) :=
  match run argv payload with
  | some output => .ok output
  | none        => .error .commandFailed

/-- `inspect_archive` -/
def inspectArchive (raw : Raw) (lineage : String) : Except InspectError Inspected := do
  let (material, digest) ← inspectMembers T tar raw lineage
  let certPub ← command run ["openssl", "x509", "-pubkey", "-noout"] material.cert
  let keyPub ← command run ["openssl", "pkey", "-pubout"] material.privkey
  refuseIf (certPub ≠ keyPub) .keyMismatch
  let _ ← command run ["openssl", "x509", "-checkhost", lineage, "-noout"] material.cert
  let _ ← command run ["openssl", "x509", "-checkend", "86400", "-noout"] material.cert
  .ok { certificateSha256 := sha256 material.cert, archiveSha256 := digest }

end Inspect

end DevTls
end PickleInfra
