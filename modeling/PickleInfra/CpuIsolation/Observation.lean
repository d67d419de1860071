import PickleInfra.CpuIsolation.Derive
import PickleInfra.Python.Isoformat
import PickleInfra.Python.Str

/-!
# `CpuIsolation.Observation` — `validate_observation`

The report is whatever was read: its lists may be texts or dictionaries, and the numbers of its guests of any type that
can be hashed.
-/

namespace PickleInfra
namespace CpuIsolation

open Python JsonText

/-! ## Values -/

/-- What a value that can be hashed is equal by. All the `NaN` of a document that was read are one object. -/
inductive Key where
  | none
  | number (q : ℚ)
  | inf
  | negInf
  | nan
  | text (s : String)
deriving DecidableEq

/-- `hash(value)`, and `none` for a list and a dictionary. -/
def key? : Json → Option Key
  | .null              => some .none
  | .bool b            => some (.number (if b then 1 else 0))
  | .int n             => some (.number n)
  | .float (.finite q) => some (.number q)
  | .float .inf        => some .inf
  | .float .negInf     => some .negInf
  | .float .nan        => some .nan
  | .str s             => some (.text s)
  | .list _ | .dict _  => none

def hashed (v : Json) : Except IsolationExn Key :=
  match key? v with
  | some k => .ok k
  | none   => .error .typeError

/-- What `for x in value` takes of a value. -/
def iterate : Json → Except IsolationExn (List Json)
  | .list xs => .ok xs
  | .str s   => .ok (s.toList.map fun c => .str (String.singleton c))
  | .dict ms => .ok (ms.map fun m => .str m.1)
  | _        => .error .typeError

/-- `value or ''` -/
def orEmpty (v : Json) : Json := if v.truthy then v else .str ""

/-- `cpus(left) == cpus(right)` -/
def sameCpus (left right : Json) : Except IsolationExn Bool := do
  let values ← cpus left
  return decide (values = (← cpus right))

/-- `cpus(left) <= cpus(right)` -/
def within (left right : Json) : Except IsolationExn Bool := do
  let values ← cpus left
  return decide (values ⊆ (← cpus right))

/-- `datetime.fromisoformat(value)`, as an instant: the observed time has an offset, or it is not subtracted. -/
def instantOf : Json → Except IsolationExn Int
  | .str s => match Isoformat.fromisoformat s with
    | some m => if m.isAware then .ok m.instant else .error .typeError
    | none   => .error .valueError
  | _      => .error .typeError

/-! ## The guests -/

/-- A row of `guests`, with what the first loop reads of it. -/
structure Guest where
  kind : Json
  vmid : Json
  kindKey : Key
  vmidKey : Key
  running : Bool
  template : Bool
  document : Json

def Guest.key (g : Guest) : Key × Key := (g.kindKey, g.vmidKey)

/-- `g['status'] in ('running','stopped')`: whether it is running. -/
def statusOf (v : Json) : Except IsolationExn Bool :=
  if v = .str "running" then .ok true
  else if v = .str "stopped" then .ok false
  else .error (.own "Unknown native guest state/template flag")

def templateOf : Json → Except IsolationExn Bool
  | .bool b => .ok b
  | _       => .error (.own "Unknown native guest state/template flag")

def readGuest (seen : List (Key × Key)) (g : Json) : Except IsolationExn Guest := do
  let kind ← g.item "kind"
  let vmid ← g.item "vmid"
  let kindKey ← hashed kind
  let vmidKey ← hashed vmid
  need (decide ((kindKey, vmidKey) ∉ seen)) "Duplicate native guest"
  let running ← statusOf (← g.item "status")
  let template ← templateOf (← g.item "template")
  return { kind, vmid, kindKey, vmidKey, running, template, document := g }

/-- `platform[g['vmid']]` -/
def Policy.platform? (c : Policy) (vmid : Key) : Option PlatformCt :=
  c.platformCts.find? fun ct => vmid = .number ct.vmid

/-- `g['vmid'] in parked` -/
def Policy.isParked (c : Policy) (vmid : Key) : Bool := c.parkedCtIds.any fun n => vmid = .number n

/-- A container of the platform has its cores, and any other is parked. -/
def checkLxc (c : Policy) (g : Guest) : Except IsolationExn Unit :=
  match c.platform? g.vmidKey with
  | some ct => do need ((← g.document.item "cores").equal (.int ct.cores)) "Existing CT core count differs"
  | none    => do
    need (c.isParked g.vmidKey) "Unknown LXC guest class"
    need (!g.running) "Parked recovery CT is running or onboot"
    need ((← g.document.item "onboot") = .int 0) "Parked recovery CT is running or onboot"

def checkQemu (student : String) (g : Guest) : Except IsolationExn Unit := do
  need (!g.template || !g.running) "A template cannot be running"
  let affinity ← g.document.item "affinity"
  if affinity.isNull then .ok ()
  else do need (← within affinity (.str student)) "QEMU affinity escapes student CPUs"

/-- The class of a guest, and the checks of that class. -/
def checkGuest (c : Policy) (student : String) (g : Guest) : Except IsolationExn Unit :=
  if g.kind = .str "lxc" then checkLxc c g
  else if g.kind = .str "qemu" then checkQemu student g
  else .error (.own "Unknown native guest class")

/-- The loop over `guests`. -/
def readGuests (c : Policy) (student : String) : List (Key × Key) → List Json → Except IsolationExn (List Guest)
  | _, []           => .ok []
  | seen, v :: rest => do
    let g ← readGuest seen v
    checkGuest c student g
    let guests ← readGuests c student (g.key :: seen) rest
    return g :: guests

/-- `set(platform) <= {g['vmid'] for g in report['guests'] if g['kind'] == 'lxc'}` -/
def Policy.isPresent (c : Policy) (guests : List Guest) : Bool :=
  c.platformCts.all fun ct => guests.any fun g => g.kind = .str "lxc" && g.vmidKey = .number ct.vmid

/-! ## The observation -/

/-- What `derive` returns, as a document. -/
def Masks.json (r : Masks) : Json :=
  .dict [("host", .str r.host), ("platform", .str r.platform), ("student", .str r.student),
    ("platform_cts", .dict (r.platformCts.map fun e => (e.1, .str e.2))), ("topology_sha256", .str r.topologySha256),
    ("reserved_cpu_threads", .int 12), ("allocation_ratio", .int 2), ("committed_vcpu", .int r.committedVcpu),
    ("allocatable_vcpu", .int r.allocatableVcpu)]

/-- A fresh observation is of the last five minutes. -/
def checkAge (now : Int) (report : Json) (fresh : Bool) : Except IsolationExn Unit :=
  if fresh then do
    let observed ← instantOf (← report.item "observed_at_utc")
    need (0 ≤ now - observed && now - observed ≤ 300 * 1000000) "Native observation is stale or from the future"
  else .ok ()

/-- `validate_observation`: the masks it returns, and the guests it read. -/
def validateObservation (T : FloatText) (now : Int) (c : Policy) (report : Json) (fresh : Bool) :
    Except IsolationExn (Masks × List Guest) := do
  need ((← report.item "node") = .str c.node) "Native runtime contract differs"
  need ((← report.item "kernel") = .str expectedKernel) "Native runtime contract differs"
  need ((← report.item "pve_release") = .str expectedPveRelease) "Native runtime contract differs"
  need ((← report.item "systemd_major").equal (.int expectedSystemdMajor)) "Native runtime contract differs"
  need ((← report.item "required_code_sha256").equal c.requiredCode) "Installed PVE code drift"
  let expected ← derive T c.document (← report.item "topology")
  need ((← report.item "masks").equal expected.json) "Mask or topology digest differs"
  checkAge now report fresh
  let rows ← iterate (← report.item "guests")
  let guests ← readGuests c expected.student [] rows
  need (c.isPresent guests) "Expected platform CT is absent"
  return (expected, guests)

end CpuIsolation
end PickleInfra
