import Mathlib.Algebra.Order.Ring.Rat
import PickleInfra.Durable.Effects
import PickleInfra.Python.Str

/-!
# `SyntheticLogin.Trial` — `apply-candidate-synthetic-login.py`

`apply` replaces the vhost of the health check by a trial one, and `recover` puts it back; both go through
`atomic`, which writes a temporary file of a fixed name and renames it. The store is the five files; the
questions are the system calls, the commands, the probes and the clock, each of which may raise. What a
file holds is any type, with a digest.
-/

namespace PickleInfra
namespace SyntheticLogin

open Python Durable

def BASE_SHA : String := "4a457f2d58fe16f8d11af4b6be6f3a4c8e8c73ac52b8d9010eb8152964c3346c"
def TRIAL_SHA : String := "81c3205d89587ed8538243a6996f32cbd2631bb446cbf81d15a4cec65d68b185"
def MATRIX_DEADLINE_SECONDS : ℚ := 10

/-! ## Files -/

/-- A file: what it holds, its mode, and whether it is a regular file of root with one link. -/
structure File (Bytes : Type) where
  content : Bytes
  mode : Nat
  plain : Bool := true
deriving DecidableEq, Repr

/-- A temporary file of this program; nothing is written to it at first. -/
structure Temporary (Bytes : Type) where
  content : Option Bytes
  mode : Nat
deriving DecidableEq, Repr

/-- `SOURCE`, `TARGET` and `BACKUP` -/
inductive Place where
  | source
  | target
  | backup
deriving DecidableEq, Repr

def Place.path : Place → String
  | .source => "/root/pickle-synthetic-login-ingress/candidate-synthetic-login.conf"
  | .target => "/etc/nginx/conf.d/pickle-interim-tls.conf"
  | .backup => "/root/pickle-synthetic-login-ingress/ct1200-inner-health.before.conf"

/-- The three files, and the temporary files beside them. -/
structure Files (Bytes : Type) where
  file : Place → Option (File Bytes)
  temporary : Place → Option (Temporary Bytes)

namespace Files

variable {Bytes : Type}

def setFile (d : Files Bytes) (place : Place) (f : File Bytes) : Files Bytes :=
  { d with file := fun p => if p = place then some f else d.file p }

def setTemporary (d : Files Bytes) (place : Place) (t : Option (Temporary Bytes)) : Files Bytes :=
  { d with temporary := fun p => if p = place then t else d.temporary p }

/-- `os.replace(temporary, path)` -/
def replace (d : Files Bytes) (place : Place) : Files Bytes :=
  match d.temporary place with
  | some ⟨some content, mode⟩ => (d.setFile place ⟨content, mode, true⟩).setTemporary place none
  | _                         => d

end Files

/-! ## Questions -/

structure Request where
  path : String
  source : String
  host : String
  method : String
deriving DecidableEq, Repr

inductive Ask where
  | system (name : String) (place : Place)
  | command (argv : List String)
  | probe (request : Request)
  | monotonic
  | sleep
deriving DecidableEq, Repr

/-- What comes back: an exception, the exit code and output of a command, the status of a response, the
    clock. Each question reads its own part. -/
structure Answer where
  raised : Bool := false
  returncode : Nat := 0
  stdout : String := ""
  stderr : String := ""
  status : String := ""
  time : ℚ := 0

/-- What ends a call: an error of the system, a `RuntimeError` with its message, the two of the matrix,
    or nothing (`unending`: the loop of `wait_matrix` is still going). -/
inductive Failure where
  | os
  | runtime (message : String)
  | mismatch (message : String) (retryable : Bool)
  | timeout (attempts : Nat) (last installed : String)
  | unending
deriving DecidableEq, Repr

abbrev Ingress (Bytes α : Type) := Raising Failure (Files Bytes) Ask Answer α

section Program

variable {Bytes : Type} (digest : Bytes → String)

def reply {α : Type} (get : Answer → Except Failure α) (a : Answer) : Except Failure α :=
  if a.raised then .error .os else get a

def system (name : String) (place : Place) : Ingress Bytes Unit :=
  ask (reply fun _ => .ok ()) (.system name place)

def require (condition : Bool) (message : String) : Ingress Bytes Unit :=
  if condition then pure () else throw (.runtime message)

/-- The file at a path; reading one that is not there raises. -/
def readFile (place : Place) : Ingress Bytes (File Bytes) := do
  system "read" place
  let d ← readStore
  match d.file place with
  | some f => pure f
  | none   => throw .os

def pinned (place : Place) (expected : String) (mode : Nat) : Ingress Bytes Bytes := do
  let f ← readFile place
  require (f.plain && f.mode = mode) s!"file metadata differs: {place.path}"
  require (digest f.content = expected) s!"file hash differs: {place.path}"
  pure f.content

/-- `text.strip()` -/
def strip (text : String) : String := String.ofList (Str.strip text.toList)

def run (name : String) (arguments : List String) : Ingress Bytes String :=
  ask (reply fun a =>
    if a.returncode ≠ 0 then .error (.runtime s!"{name} failed: {strip a.stderr}") else .ok (strip a.stdout))
    (.command (name :: arguments))

/-- What `atomic` does after it has created the temporary file. -/
def fill (place : Place) (data : Bytes) (mode : Nat) : Ingress Bytes Unit := do
  system "write" place
  modify (·.setTemporary place (some ⟨some data, 0o600⟩))
  system "fchmod" place
  modify (·.setTemporary place (some ⟨some data, mode⟩))
  system "fsync" place
  system "replace" place
  modify (·.replace place)
  system "fsync directory" place

/-- `temporary.unlink(missing_ok=True)` -/
def unlink (place : Place) : Ingress Bytes Unit := do
  system "unlink" place
  modify (·.setTemporary place none)

/-- Create the temporary file, which must not be there. -/
def create (place : Place) : Ingress Bytes Unit := do
  system "open" place
  let d ← readStore
  match d.temporary place with
  | some _ => throw .os
  | none   => modify (·.setTemporary place (some ⟨none, 0o600⟩))

def atomic (place : Place) (data : Bytes) (mode : Nat) : Ingress Bytes Unit := do
  create place
  rescue (fun _ => true) (fill place data mode) fun e => do
    unlink place
    throw e

/-! ## The route matrix -/

structure Check where
  request : Request
  expected : String
deriving DecidableEq, Repr

def allowed : String := "203.0.113.14"
def defaultHost : String := "staging.example.com"

/-- A check from the allowed address for the default host. -/
def check (method path expected : String) : Check := ⟨⟨path, allowed, defaultHost, method⟩, expected⟩

def checks (trial : Bool) : List Check :=
  [check "GET" "/__ingress_probe" "200", check "GET" "/" "404", check "GET" "/api/v1/admin" "404",
    check "GET" "/api/v1/vms" "404", check "GET" "/api/v1/llm-keys" "404",
    check "GET" "/api/auth/login" "404",
    ⟨⟨"/__ingress_probe", "198.51.100.99", defaultHost, "GET"⟩, "403"⟩,
    ⟨⟨"/__ingress_probe", allowed, "other.example", "GET"⟩, "421"⟩] ++
  if trial then
    [check "GET" "/login" "200", check "HEAD" "/login" "200", check "GET" "/api/v1/meta/status" "200",
      check "POST" "/login" "404", check "GET" "/api/v1/auth/login" "404", check "POST" "/api/v1/me" "404"]
  else [check "GET" "/login" "404"]

def probe (request : Request) : Ingress Bytes String := ask (reply fun a => .ok a.status) (.probe request)

/-- A worker of the other configuration may still answer. -/
def retryable (trial : Bool) (c : Check) (actual : String) : Bool :=
  let route := (c.request.path, c.request.method)
  (trial && actual = "404" &&
      [("/login", "GET"), ("/login", "HEAD"), ("/api/v1/meta/status", "GET")].contains route) ||
    (!trial && actual = "200" && route = ("/login", "GET"))

def mismatch (trial : Bool) (c : Check) (actual : String) : Failure :=
  .mismatch (s!"{c.request.method} {c.request.path} from {c.request.source} Host {c.request.host}: " ++
    s!"expected {c.expected}, got {actual}") (retryable trial c actual)

def matrixOf (trial : Bool) : List Check → Ingress Bytes Unit
  | []        => pure ()
  | c :: rest => do
    let actual ← probe c.request
    if actual ≠ c.expected then throw (mismatch trial c actual)
    else matrixOf trial rest

def matrix (trial : Bool) : Ingress Bytes Unit := matrixOf trial (checks trial)

def Failure.isMismatch : Failure → Bool
  | .mismatch _ _ => true
  | _             => false

def monotonic : Ingress Bytes ℚ := ask (reply fun a => .ok a.time) .monotonic

/-- The loop, for a number of rounds: a run that needs more is still going. -/
def converge (trial : Bool) (deadline : ℚ) : Nat → Nat → Ingress Bytes Nat
  | 0, _                => throw .unending
  | rounds + 1, attempts =>
    rescue Failure.isMismatch
      (do matrix trial; pure (attempts + 1))
      fun
        | .mismatch message true => do
          let now ← monotonic
          if deadline - now ≤ 0 then
            let f ← readFile .target
            throw (.timeout (attempts + 1) message (digest f.content))
          else
            ask (reply fun _ => .ok ()) .sleep
            converge trial deadline rounds (attempts + 1)
        | e => throw e

def waitMatrix (trial : Bool) (rounds : Nat) : Ingress Bytes Nat := do
  let start ← monotonic
  converge digest trial (start + MATRIX_DEADLINE_SECONDS) rounds 0

/-! ## The two modes -/

/-- The file is put back where the trial is installed. -/
def restore : Ingress Bytes Unit := do
  let original ← pinned digest .backup BASE_SHA 0o600
  let current ← readFile .target
  require (digest current.content = BASE_SHA || digest current.content = TRIAL_SHA) "unknown active vhost"
  let _ ← pinned digest .target (digest current.content) 0o644
  if digest current.content = TRIAL_SHA then atomic .target original 0o644 else pure ()

def recover (rounds : Nat) : Ingress Bytes Nat := do
  restore digest
  let _ ← run "nginx" ["-t"]
  let _ ← run "nginx" ["-s", "reload"]
  let _ ← pinned digest .target BASE_SHA 0o644
  waitMatrix digest false rounds

/-- `if condition: x` -/
def whenever (condition : Bool) (x : Ingress Bytes Unit) : Ingress Bytes Unit :=
  if condition then x else pure ()

/-- nginx is active, its configuration is sound, and the health matrix is as it should be. -/
def inspect : Ingress Bytes Unit := do
  let active ← run "systemctl" ["is-active", "nginx.service"]
  require (active = "active") "nginx is inactive"
  let _ ← run "nginx" ["-t"]
  matrix false

/-- Everything before the switch; the new vhost is returned. -/
def prepare : Ingress Bytes Bytes := do
  let source ← pinned digest .source TRIAL_SHA 0o600
  let original ← pinned digest .target BASE_SHA 0o644
  let d ← readStore
  whenever (d.file .backup).isSome (do let _ ← pinned digest .backup BASE_SHA 0o600; pure ())
  inspect
  whenever (d.file .backup).isNone (atomic .backup original 0o600)
  let _ ← pinned digest .backup BASE_SHA 0o600
  pure source

def switch (source : Bytes) (rounds : Nat) : Ingress Bytes Nat := do
  atomic .target source 0o644
  let _ ← run "nginx" ["-t"]
  let _ ← run "nginx" ["-s", "reload"]
  let _ ← pinned digest .target TRIAL_SHA 0o644
  waitMatrix digest true rounds

/-- How `apply` raises: before the switch, or after it with what `recover` raised and the digest of what
    is installed, if that can be read. -/
inductive ApplyFailure where
  | refused (e : Failure)
  | failed (e : Failure) (rollback : Option Failure) (installed : Option String)
deriving DecidableEq, Repr

/-- The digest for the message, if the file can be read. -/
def installed : Except Failure (File Bytes) → Option String
  | .ok f    => some (digest f.content)
  | .error _ => none

/-- Raise, with the digest of what is installed. -/
def report (e : Failure) (rollback : Option Failure) :
    Prog (Files Bytes) Ask Answer (Except ApplyFailure Nat) :=
  (readFile .target : Ingress Bytes (File Bytes)).run.bind fun f => .ret (.error (.failed e rollback (installed digest f)))

/-- The `except` block of `apply`. -/
def rollBack (rounds : Nat) (e : Failure) : Prog (Files Bytes) Ask Answer (Except ApplyFailure Nat) :=
  (recover digest rounds).run.bind fun
    | .error .unending => .ret (.error (.refused .unending))
    | .error rollback  => report digest e (some rollback)
    | .ok _            => report digest e none

def apply (rounds : Nat) : Prog (Files Bytes) Ask Answer (Except ApplyFailure Nat) :=
  (prepare digest).run.bind fun
    | .error e   => .ret (.error (.refused e))
    | .ok source => (switch digest source rounds).run.bind fun
      | .ok attempts     => .ret (.ok attempts)
      | .error .unending => .ret (.error (.refused .unending))
      | .error e         => rollBack digest rounds e

inductive Mode where
  | apply
  | recover
deriving DecidableEq, Repr

/-- One invocation, whose loops take at most the given number of rounds. -/
def invoke (x : Mode × Nat) : Prog (Files Bytes) Ask Answer Unit :=
  match x.1 with
  | .apply   => (apply digest x.2).bind fun _ => .ret ()
  | .recover => (recover digest x.2).run.bind fun _ => .ret ()

end Program

end SyntheticLogin
end PickleInfra
