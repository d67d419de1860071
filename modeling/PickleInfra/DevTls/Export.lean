import PickleInfra.Posix.Tree
import PickleInfra.Python.Value

/-!
# `DevTls.Export` — `archive` of `dev-tls-export.py`

The export of one Certbot lineage: its renewal file, and for every live link the link itself and the file
it resolves to. `tarfile` is a parameter: what it writes it reads back.
-/

namespace PickleInfra
namespace DevTls

open Python Posix

/-! ## Members of an archive -/

/-- The files of a lineage, without `.pem`. -/
inductive Stem where
  | cert
  | chain
  | fullchain
  | privkey
deriving DecidableEq, Repr

def Stem.text : Stem → String
  | .cert      => "cert"
  | .chain     => "chain"
  | .fullchain => "fullchain"
  | .privkey   => "privkey"

def stems : List Stem := [.cert, .chain, .fullchain, .privkey]

theorem mem_stems (s : Stem) : s ∈ stems := by cases s <;> decide

/-- The kind of a member, with its link target or its bytes. -/
inductive Content where
  | link (target : String)
  | file (data : List UInt8)
  | other
deriving DecidableEq, Repr

structure Member where
  name : String
  content : Content
deriving DecidableEq, Repr

/-- `tarfile`: archives, their members and their length in bytes. Reading fails on what is no archive. -/
structure Tarfile (Raw : Type) where
  write : List Member → Raw
  read : Raw → Option (List Member)
  size : Raw → Nat
  read_write : ∀ members, read (write members) = some members

/-- The name of the renewal file of a lineage. -/
def renewalName (lineage : String) : String := "renewal/" ++ lineage ++ ".conf"

/-- The name of a live link. -/
def liveName (lineage : String) (stem : Stem) : String := "live/" ++ lineage ++ "/" ++ stem.text ++ ".pem"

/-! ## `archive` -/

/-- `MAXIMUM` -/
def maximum : Nat := 2 * 1024 * 1024

inductive ExportError where
  | osError
  | invalidLineage
  | liveLinkRequired
  | crossLineage
  | outsideRoot
  | regularFileRequired
  | fileSizeRefused
  | archiveSizeRefused
deriving DecidableEq, Repr

def ExportError.message : ExportError → Option String
  | .invalidLineage      => some "Invalid lineage"
  | .liveLinkRequired    => some "Certbot live link required"
  | .crossLineage        => some "Cross-lineage link refused"
  | .regularFileRequired => some "Regular lineage file required"
  | .fileSizeRefused     => some "Lineage file size refused"
  | .archiveSizeRefused  => some "Lineage archive size refused"
  -- from `resolve` and from `relative_to`
  | .osError             => none
  | .outsideRoot         => none

/-- `if c: raise ...` -/
def refuseIf {E : Type} (c : Bool) (error : E) : Except E Unit := if c then .error error else .ok ()

@[simp] theorem refuseIf_eq_ok {E : Type} {c : Bool} {error : E} {u : Unit} :
    refuseIf c error = .ok u ↔ c = false := by
  cases c <;> simp [refuseIf]

/-- `abcdefghijklmnopqrstuvwxyz0123456789.-` -/
def lineageChar (c : Char) : Bool := Text.isLower c || Text.isDigit c || c = '.' || c = '-'

section Archive

variable {Raw : Type} (tar : Tarfile Raw) (links : Nat) (t : Tree)

/-- `path.resolve(strict=True)` -/
def resolve (path : List String) : Except ExportError (List String) :=
  match walk t links [] path with
  | some path => .ok path
  | none      => .error .osError

/-- `path.is_symlink()` -/
def isSymlink (path : List String) : Bool :=
  match lstat t links path with
  | some (.link _) => true
  | _              => false

/-- `str(path.relative_to(root))` -/
def relativeTo (root path : List String) : Except ExportError String :=
  if root.isPrefixOf path then .ok ("/".intercalate (path.drop root.length)) else .error .outsideRoot

/-- The two files of one live link, with whether they are links. -/
def liveFiles (root : List String) (lineage : String) (stem : Stem) : Except ExportError (List (String × Bool)) := do
  let path := root ++ "live" :: (Text.parts lineage ++ [stem.text ++ ".pem"])
  refuseIf (!isSymlink links t path) .liveLinkRequired
  let target ← resolve links t path
  let dir ← resolve links t (root ++ "archive" :: Text.parts lineage)
  refuseIf (target.dropLast ≠ dir) .crossLineage
  let relative ← relativeTo root target
  .ok [(relative, false), (liveName lineage stem, true)]

/-- The member of one file. -/
def memberOf (root : List String) (file : String × Bool) : Except ExportError Member :=
  match lstat t links (root ++ Text.parts file.1), file.2 with
  | some (.link text), true  => .ok ⟨file.1, .link text⟩
  | _, true                  => .error .osError
  | some (.file data), false => do
    refuseIf (data.isEmpty || maximum < data.length) .fileSizeRefused
    .ok ⟨file.1, .file data⟩
  | _, false                 => .error .regularFileRequired

/-- `archive` -/
def archive (path : List String) (lineage : String) : Except ExportError Raw := do
  let root ← resolve links t path
  refuseIf (lineage = "" || !lineage.toList.all lineageChar) .invalidLineage
  let live ← stems.mapM (liveFiles links t root lineage)
  let members ← ((renewalName lineage, false) :: live.flatten).mapM (memberOf links t root)
  refuseIf (maximum < tar.size (tar.write members)) .archiveSizeRefused
  .ok (tar.write members)

end Archive

end DevTls
end PickleInfra
