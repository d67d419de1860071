import PickleInfra.CpuIsolation.Policy
import PickleInfra.Python.Ascii
import PickleInfra.Python.Canonical
import PickleInfra.Python.Sha256

/-!
# `CpuIsolation.Derive` — the partition of a node

`derive` groups the CPUs of the topology by their cores, checks the textual siblings against the groups, and gives the
host, the platform and the students the CPUs of whole cores.
-/

namespace PickleInfra
namespace CpuIsolation

open Python JsonText

/-- A row of the topology. -/
structure Row where
  cpu : Nat
  core : Nat
  siblings : Json
  document : Json
deriving DecidableEq

def rowKeys : List String := ["cpu", "core", "socket", "online", "siblings"]

/-- The checks of a row by itself. -/
def readRow (v : Json) : Except IsolationExn Row := do
  need (v.hasKeys rowKeys) "Unexpected topology shape"
  let cpu ← whole (← v.item "cpu") 0
  let core ← whole (← v.item "core") 0
  need ((← v.item "online") = .bool true && (← v.item "socket") = .int 0)
    "Offline CPU or unsupported multi-socket topology"
  let siblings ← v.item "siblings"
  return { cpu, core, siblings, document := v }

/-- The first loop of `derive`. -/
def readRows (cores : Nat) : List Nat → List Json → Except IsolationExn (List Row)
  | _, []           => .ok []
  | seen, v :: rest => do
    let row ← readRow v
    need (decide (row.cpu ∉ seen) && decide (row.core < cores)) "Duplicate or unknown CPU/core"
    let rows ← readRows cores (row.cpu :: seen) rest
    return row :: rows

/-- `groups[core]` -/
def group (rows : List Row) (core : Nat) : Finset Nat := ((rows.filter fun r => r.core = core).map Row.cpu).toFinset

/-- `select` -/
def select (rows : List Row) (cores : List Nat) : Finset Nat := cores.toFinset.biUnion (group rows)

/-- `seen`, after the loop. -/
def logical (rows : List Row) : Finset Nat := (rows.map Row.cpu).toFinset

/-- `cpus(row['siblings']) == groups[row['core']]` -/
def checkSiblings (rows : List Row) (row : Row) : Except IsolationExn Unit := do
  need (decide ((← cpus row.siblings) = group rows row.core)) "Mixed or asymmetric SMT siblings"

/-- `(json.dumps(value, sort_keys=True, separators=(',', ':')) + '\\n').encode()` -/
def canonical (T : FloatText) (v : Json) : ByteArray := (String.ofList (dumpsAscii T v.sorted ++ ['\n'])).toUTF8

/-- `sorted(topology, key=lambda x: x['cpu'])` -/
def byCpu (rows : List Row) : List Row := rows.insertionSort fun a b => a.cpu ≤ b.cpu

def topologySha256 (T : FloatText) (rows : List Row) : String :=
  Sha256.hexdigest (canonical T (.list ((byCpu rows).map Row.document)))

/-- What `derive` returns; `reserved_cpu_threads` is 12, and `allocation_ratio` 2. -/
structure Masks where
  host : String
  platform : String
  student : String
  platformCts : List (String × String)
  topologySha256 : String
  committedVcpu : Nat
  allocatableVcpu : Int
deriving DecidableEq, Repr

/-- The CPUs of the students. -/
def students (rows : List Row) : Finset Nat :=
  (logical rows \ select rows hostCoreIds) \ select rows platformCoreIds

/-- The partition of a topology that was read. -/
def partition (T : FloatText) (c : Policy) (rows : List Row) : Except IsolationExn Masks := do
  let host := select rows hostCoreIds
  let platform := select rows platformCoreIds
  let student := students rows
  need (host.card = 4 && platform.card = 8 && student.card + 12 = (logical rows).card
    && decide (Disjoint host platform) && decide (Disjoint host student) && decide (Disjoint platform student))
    "Partition overlap or wrong reservation"
  let hostText ← cpuText host
  let platformText ← cpuText platform
  let studentText ← cpuText student
  let platformCts ← c.platformCts.mapM fun ct => do
    let text ← cpuText (select rows ct.coreIds)
    return (toString ct.vmid, text)
  return { host := hostText, platform := platformText, student := studentText, platformCts,
           topologySha256 := topologySha256 T rows, committedVcpu := c.committedVcpu,
           allocatableVcpu := student.card * 2 - c.committedVcpu }

/-- `derive`, on a policy that was accepted. -/
def deriveRows (T : FloatText) (c : Policy) (topology : List Json) : Except IsolationExn Masks := do
  need (topology.length = 2 * c.physicalCores) "Incomplete topology"
  let rows ← readRows c.physicalCores [] topology
  need ((List.range c.physicalCores).all fun core => (group rows core).card = 2) "Incomplete SMT pair"
  let _ ← rows.mapM (checkSiblings rows)
  partition T c rows

/-- `derive` -/
def derive (T : FloatText) (policy topology : Json) : Except IsolationExn Masks := do
  let c ← validateConfig policy
  match topology with
  | .list rows => deriveRows T c rows
  | _          => .error (.own "Incomplete topology")

/-! ## A node of 24 threads -/

def smallPolicy : Json :=
  .dict [("schema_version", .int 1), ("node", .str "node-example"), ("physical_cores", .int 12),
    ("host_core_ids", .list [.int 0, .int 1]), ("platform_core_ids", .list [.int 2, .int 3, .int 4, .int 5]),
    ("platform_cts", .list [.dict [("vmid", .int 200), ("cores", .int 2), ("core_ids", .list [.int 2])],
      .dict [("vmid", .int 201), ("cores", .int 4), ("core_ids", .list [.int 3, .int 4])]]),
    ("parked_ct_ids", .list [.int 300]), ("committed_vcpu", .int 5), ("expected_kernel", .str "7.0.14-15-pve"),
    ("expected_pve_release", .str "9.2.11"), ("expected_systemd_major", .int 257),
    ("required_code_sha256", .dict (CODE_PATHS.map fun path => (path, .str (String.ofList (List.replicate 64 'a'))))),
    ("clone_inheritance_review_ref", .str "review")]

def smallTopology : List Json :=
  (List.range 24).map fun n : Nat =>
    .dict [("cpu", .int n), ("core", .int ↑(n % 12)), ("socket", .int 0), ("online", .bool true),
      ("siblings", .str (String.ofList (Nat.toDigits 10 (n % 12) ++ ',' :: Nat.toDigits 10 (n % 12 + 12))))]

def smallConfig : Policy where
  document := smallPolicy
  node := "node-example"
  physicalCores := 12
  committedVcpu := 5
  requiredCode := .dict (CODE_PATHS.map fun path => (path, .str (String.ofList (List.replicate 64 'a'))))
  platformCts := [⟨200, 2, [2]⟩, ⟨201, 4, [3, 4]⟩]
  parkedCtIds := [300]

/-- Its masks, but for the hash. -/
def smallMasks : Masks where
  host := "0,1,12,13"
  platform := "2,3,4,5,14,15,16,17"
  student := "6,7,8,9,10,11,18,19,20,21,22,23"
  platformCts := [("200", "2,14"), ("201", "3,4,15,16")]
  topologySha256 := ""
  committedVcpu := 5
  allocatableVcpu := 19

theorem validateConfig_small : validateConfig smallPolicy = .ok smallConfig := by decide +kernel

theorem derive_small : ∃ digest,
    derive zeroText smallPolicy (.list smallTopology) = .ok { smallMasks with topologySha256 := digest } := by
  have hmasks : ((derive zeroText smallPolicy (.list smallTopology)).map fun r => { r with topologySha256 := "" }) =
      .ok smallMasks := by decide +kernel
  cases hr : derive zeroText smallPolicy (.list smallTopology) with
  | error e =>
      rw [hr] at hmasks
      cases hmasks
  | ok r =>
      rw [hr] at hmasks
      refine ⟨r.topologySha256, congrArg Except.ok ?_⟩
      rw [← Except.ok.inj hmasks]

end CpuIsolation
end PickleInfra
