import PickleInfra.Durable.Effects
import PickleInfra.Python.Dict

/-!
# `Receiver.Receive` — `receive` of `dev-deploy-receiver.py`

The receiver copies a stream into a temporary file, checks its length, its end and its digest, and links
it to the output path, or compares what is there already. The store is the staging tree and the rest of
the stream; the questions are the calls that may fail, and what they measure. A read returns some of the
bytes that are left, and none only at the end. Directories are not kept: only files count.
-/

namespace PickleInfra
namespace Receiver

open Python Durable

/-! ## The staging tree -/

/-- What is at a path that is no directory: a regular file, or something else. -/
inductive Node where
  | file (content : List UInt8)
  | other
deriving DecidableEq, Repr

/-- What a node counts in the budget. -/
def Node.size : Node → Nat
  | .file content => content.length
  | .other        => 0

structure Disk where
  tree : Dict String Node
  stream : List UInt8

/-- A write at the end of a file. -/
def Disk.append (path : String) (chunk : List UInt8) (d : Disk) : Disk :=
  match d.tree.get? path with
  | some (.file content) => { d with tree := d.tree.set path (.file (content ++ chunk)) }
  | _                    => d

/-- `os.link(path, output)` -/
def Disk.link (path output : String) (d : Disk) : Disk :=
  match d.tree.get? path with
  | some node => { d with tree := d.tree.set output node }
  | none      => d

/-! ## Questions -/

/-- The calls about the temporary file itself: its identity, and its removal. -/
inductive OwnCall where
  | fstat
  | exists
  | lstat
  | unlink
deriving DecidableEq, Repr

inductive Ask where
  | step (name : String)
  | diskUsage
  | mkstemp
  | read
  | own (call : OwnCall)
deriving DecidableEq, Repr

/-- What comes back; each question reads its own part. -/
structure Answer where
  raised : Bool := false
  free : Int := 0
  name : String := ""
  chunk : Nat := 0
  inode : Nat := 0

inductive Stop where
  | refusal (message : String)
  | os
deriving DecidableEq, Repr

structure Config where
  stagingRoot : String
  maximumStagingBytes : Int
  minimumFreeBytes : Int

structure Request where
  target : String
  commit : String
  sha256 : String
  size : Nat

abbrev Receiving (α : Type) := Raising Stop Disk Ask Answer α

def reply {α : Type} (get : Answer → α) (a : Answer) : Except Stop α :=
  if a.raised then .error .os else .ok (get a)

def step (name : String) : Receiving Unit := ask (reply fun _ => ()) (.step name)

def refuseIf (bad : Bool) (message : String) : Receiving Unit :=
  if bad then throw (.refusal message) else pure ()

/-! ## `receive` -/

def folder (c : Config) (r : Request) : String :=
  c.stagingRoot ++ "/" ++ r.target ++ "/" ++ r.commit ++ "/" ++ r.sha256

def output (c : Config) (r : Request) : String :=
  folder c r ++ "/" ++ if r.target = "api" then "artifact.jar" else "artifact.tar.gz"

def EXHAUSTED : String := "development receiver staging budget or disk headroom is exhausted"

/-- The staging budget, and then the free space. -/
def budget (c : Config) (r : Request) : Receiving Unit := do
  step "scan"
  let d ← readStore
  refuseIf (c.maximumStagingBytes < d.tree.total Node.size + r.size) EXHAUSTED
  let free ← ask (reply Answer.free) .diskUsage
  refuseIf (free < r.size + c.minimumFreeBytes) EXHAUSTED

/-- `tempfile.mkstemp(prefix='.incoming-', dir=folder)`: a name that is not there. -/
def makeTemporary (folder : String) : Receiving String := do
  let name ← ask (reply Answer.name) .mkstemp
  let path := folder ++ "/.incoming-" ++ name
  let d ← readStore
  if (d.tree.get? path).isSome then throw .os
  else
    modify fun d => { d with tree := d.tree.set path (.file []) }
    pure path

/-- `stream.read(n)`: at least one byte, unless the stream has ended. -/
def readStream (n : Nat) : Receiving (List UInt8) := do
  let chunk ← ask (reply Answer.chunk) .read
  let d ← readStore
  let bytes := d.stream.take (max 1 (min chunk n))
  modify fun d => { d with stream := d.stream.drop bytes.length }
  pure bytes

/-- The loop: at most as many rounds as bytes; what was received so far is carried for the checksum. -/
def copy (path : String) : Nat → Nat → List UInt8 → Receiving (List UInt8)
  | 0, _, received               => pure received
  | rounds + 1, remaining, received =>
    if remaining = 0 then pure received
    else do
      let chunk ← readStream (min 65536 remaining)
      refuseIf chunk.isEmpty "artifact stream ended before its declared size"
      step "write"
      modify (Disk.append path chunk)
      copy path rounds (remaining - chunk.length) (received ++ chunk)

/-- What is at the output path is compared, and never overwritten. -/
def compareExisting (digest : List UInt8 → String) (r : Request) : Node → Receiving Unit
  | .other        => throw (.refusal "receiver input is not root-owned and protected")
  | .file content => do
    step "stat output"
    step "digest output"
    refuseIf (content.length ≠ r.size || digest content ≠ r.sha256)
      "existing protected artifact differs; never overwrite it"

/-- Everything between the temporary file and its removal. -/
def fill (digest : List UInt8 → String) (c : Config) (r : Request) (path : String) : Receiving String := do
  step "fdopen"
  let received ← copy path r.size r.size []
  let extra ← readStream 1
  refuseIf (!extra.isEmpty) "artifact stream contains trailing bytes or another request"
  refuseIf (digest received ≠ r.sha256) "artifact stream SHA-256 differs from its header"
  step "flush"
  step "fsync"
  step "close"
  step "output exists"
  let d ← readStore
  match d.tree.get? (output c r) with
  | some node =>
    step "protected output"
    compareExisting digest r node
    pure (output c r)
  | none =>
    step "link"
    modify (Disk.link path (output c r))
    pure (output c r)

/-- The `finally` block. -/
def cleanUp (path : String) (owned : Nat) : Receiving Unit := do
  ask (reply fun _ => ()) (.own .exists)
  let d ← readStore
  if (d.tree.get? path).isNone then pure ()
  else
    let current ← ask (reply Answer.inode) (.own .lstat)
    refuseIf (current ≠ owned) "owned incoming temporary identity changed; cleanup refused"
    ask (reply fun _ => ()) (.own .unlink)
    modify fun d => { d with tree := d.tree.erase path }

/-- `try: x finally: last`; what `last` raises replaces what `x` did. -/
def ensure {α : Type} (x : Receiving α) (last : Receiving Unit) : Receiving α :=
  ExceptT.mk (x.run.bind fun r => last.run.bind fun
    | .ok _    => .ret r
    | .error e => .ret (.error e))

/-- Everything before the temporary file, and the file. -/
def prepare (c : Config) (r : Request) : Receiving String := do
  step "protected root"
  step "mkdir"
  step "protected folder"
  budget c r
  makeTemporary (folder c r)

def receive (digest : List UInt8 → String) (c : Config) (r : Request) : Receiving String := do
  let path ← prepare c r
  let owned ← ask (reply Answer.inode) (.own .fstat)
  ensure (fill digest c r path) (cleanUp path owned)

end Receiver
end PickleInfra
