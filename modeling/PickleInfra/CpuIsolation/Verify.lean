import PickleInfra.CpuIsolation.Observation

/-!
# `CpuIsolation.Verify` — the receipt

`verify` checks the control groups, the guests and the census of the virtual machines of a report against the masks that
`validate_observation` derived again, and returns the receipt.
-/

namespace PickleInfra
namespace CpuIsolation

open Python JsonText

/-- What every check takes: the policy, its masks and the entries of the control groups. -/
structure Scope where
  policy : Policy
  masks : Masks
  groups : Json

def CONTROL_NAMES : List String := ["system.slice", "user.slice", "init.scope", "lxc.monitor", "lxc.pivot"]

def HOOK_VOLUME : String := "local:snippets/pickle-cpu-isolation-hook.py"

/-- `str(value)` of a value that can be hashed. The text of a float is that of the nearest float. -/
def strText (T : FloatText) : Json → List Char
  | .null              => "None".toList
  | .bool b            => if b then "True".toList else "False".toList
  | .int n             => (Numeral.ofInt n).render
  | .float (.finite q) => if |T.round q| < 2 ^ 1024 then (T.repr (T.round q)).render else "inf".toList
  | .float .inf        => "inf".toList
  | .float .negInf     => "-inf".toList
  | .float .nan        => "nan".toList
  | .str s             => s.toList
  | .list _ | .dict _  => []

/-! ## The hook -/

def hookLines (programSha256 : String) : List String :=
  ["#!/usr/bin/python3", "import hashlib, os, stat, sys", "P='/usr/local/libexec/pickle-cpu-isolation.py'",
    "fd=os.open(P,os.O_RDONLY|os.O_NOFOLLOW)", "s=os.fstat(fd)",
    "if not stat.S_ISREG(s.st_mode) or s.st_uid!=0 or s.st_nlink!=1 or s.st_mode&0o022:", "    raise SystemExit(1)",
    "raw=os.read(fd,1048577); os.close(fd)",
    "if len(raw)>1048576 or hashlib.sha256(raw).hexdigest()!='" ++ programSha256 ++ "':", "    raise SystemExit(1)",
    "if len(sys.argv)!=3 or not sys.argv[1].isdigit():", "    raise SystemExit(1)", "if sys.argv[2]=='pre-start':",
    "    sys.argv=[P,'qemu-pre-start','--vmid',sys.argv[1]]",
    "    exec(compile(raw,P,'exec'),\x7b'__name__':'__main__','__file__':P\x7d)",
    "elif sys.argv[2] not in ('post-start','pre-stop','post-stop'):", "    raise SystemExit(1)"]

/-- `hook_bytes` -/
def hookBytes (programSha256 : String) : ByteArray := (String.join ((hookLines programSha256).map (· ++ "\n"))).toUTF8

/-! ## Control groups -/

/-- `groups[name][key]` -/
def Scope.entry (s : Scope) (name key : String) : Except IsolationExn Json := do
  let group ← s.groups.item name
  group.item key

/-- `cpus(groups[name][key] or '') == cpus(mask)` -/
def Scope.holds (s : Scope) (name key mask : String) : Except IsolationExn Bool := do
  sameCpus (orEmpty (← s.entry name key)) (.str mask)

/-- One of `CONTROL_NAMES`. -/
def checkControl (s : Scope) (name : String) : Except IsolationExn Unit := do
  let configured ← s.entry name "cpuset.cpus"
  need (!configured.isNull) "Host cgroup mask is not effective"
  need (← sameCpus configured (.str s.masks.host)) "Host cgroup mask is not effective"
  need (← s.holds name "cpuset.cpus.effective" s.masks.host) "Host cgroup mask is not effective"

/-- `(value or '').split()` -/
def wordsOf (v : Json) : Except IsolationExn (List String) :=
  match orEmpty v with
  | .str s => .ok ((Str.words s.toList).map String.ofList)
  | _      => .error .typeError

/-- The parent of the platform containers, or of the virtual machines. -/
def checkParent (s : Scope) (name mask : String) : Except IsolationExn Unit := do
  need (← s.holds name "cpuset.cpus" mask) "Parent CPU inheritance is not effective"
  need (← s.holds name "cpuset.cpus.effective" mask) "Parent CPU inheritance is not effective"
  let controllers ← wordsOf (← s.entry name "cgroup.subtree_control")
  need (controllers.contains "cpuset") "Parent CPU inheritance is not effective"

/-- The partition of the platform. -/
def checkPartition (s : Scope) : Except IsolationExn Unit := do
  need ((← s.entry "lxc" "cpuset.cpus.partition") = .str "root")
    "Platform partition is invalid, degraded or nonexclusive"
  need ((← s.entry "lxc" "direct_process_count").equal (.int 0))
    "Platform partition is invalid, degraded or nonexclusive"
  need (← s.holds "lxc" "cpuset.cpus.exclusive" s.masks.platform)
    "Platform partition is invalid, degraded or nonexclusive"
  need (← s.holds "lxc" "cpuset.cpus.exclusive.effective" s.masks.platform)
    "Platform partition is invalid, degraded or nonexclusive"

/-! ## Guests -/

/-- `name in groups` -/
def Scope.has (s : Scope) (name : String) : Bool := (s.groups.get? name).isSome

/-- The threads that were recorded of a group are confined. -/
def checkThreads (sets : Json) (mask reason : String) : Except IsolationExn Unit := do
  let texts ← iterate sets
  let _ ← texts.mapM fun x => do need (← within x (.str mask)) reason
  return ()

/-- The groups and the threads of a running platform container. -/
def checkPayload (s : Scope) (group expected : String) : Except IsolationExn Unit := do
  need (s.has group) "Running CT payload mask differs"
  need (← s.holds group "cpuset.cpus.effective" expected) "Running CT payload mask differs"
  need (s.has (group ++ "/ns")) "Running CT payload mask differs"
  need (← s.holds (group ++ "/ns") "cpuset.cpus.effective" expected) "Running CT payload mask differs"
  let sets ← s.entry group "thread_cpu_sets"
  need sets.truthy "CT thread affinity escapes its assigned mask"
  checkThreads sets expected "CT thread affinity escapes its assigned mask"

/-- `masks['platform_cts'][str(g['vmid'])]` -/
def Masks.ofCt (r : Masks) (vmid : String) : Except IsolationExn String :=
  match Dict.lookup vmid r.platformCts with
  | some text => .ok text
  | none      => .error .keyError

/-- A platform container. -/
def checkCt (T : FloatText) (s : Scope) (g : Guest) : Except IsolationExn Unit := do
  let vmid := String.ofList (strText T g.vmid)
  let expected ← s.masks.ofCt vmid
  let cpuset ← g.document.item "cpuset"
  need (!cpuset.isNull) "CT explicit mask differs"
  need (← sameCpus cpuset (.str expected)) "CT explicit mask differs"
  if g.running then checkPayload s ("lxc/" ++ vmid) expected else .ok ()

/-- One round of the loop over `guests`. -/
def checkEnrolled (T : FloatText) (s : Scope) (g : Guest) : Except IsolationExn Unit :=
  if g.kind = .str "qemu" then do
    need ((← g.document.item "hookscript") = .str HOOK_VOLUME) "QEMU/template is not enrolled in the start gate"
  else if s.policy.isParked g.vmidKey then .ok ()
  else checkCt T s g

/-! ## The census -/

/-- `<` of two values of one kind. Nothing is less than a `NaN`, or greater. -/
def Key.less : Key → Key → Bool
  | .number a, .number b => a < b
  | .negInf, .number _   => true
  | .negInf, .inf        => true
  | .number _, .inf      => true
  | .text a, .text b     => a < b
  | _, _                 => false

def Key.isNumber : Key → Bool
  | .number _ | .inf | .negInf | .nan => true
  | _                                 => false

def Key.isText : Key → Bool
  | .text _ => true
  | _       => false

/-- `sorted(values)`: two values of different kinds are not compared. Where one of several is a `NaN`, the order is one
    of those that a sort may return. -/
def sortedKeys (ks : List Key) : Except IsolationExn (List Key) :=
  if ks.length ≤ 1 || ks.all Key.isNumber || ks.all Key.isText then .ok (ks.insertionSort fun a b => b.less a = false)
  else .error .typeError

/-- `value == keys` -/
def isListOf (ks : List Key) : Json → Bool
  | .list xs => xs.map key? = ks.map some
  | _        => false

/-- A listed thread. -/
structure Thread where
  tid : Int
  vmidKey : Key
  qemu : Bool

def censusReason : String := "QEMU/vhost TID census is incomplete or escapes the student pool"

/-- `type(value) is int and 0 < value` -/
def positive : Json → Except IsolationExn Int
  | .int n => if 0 < n then .ok n else .error (.own censusReason)
  | _      => .error (.own censusReason)

/-- `value in running` -/
def member (running : List Key) (v : Json) : Except IsolationExn Key :=
  match key? v with
  | some k => if k ∈ running then .ok k else .error (.own censusReason)
  | none   => .error (.own censusReason)

/-- `kind in ('qemu', 'vhost')`: whether it is `'qemu'`. -/
def threadKind (v : Json) : Except IsolationExn Bool :=
  if v = .str "qemu" then .ok true else if v = .str "vhost" then .ok false else .error (.own censusReason)

/-- The checks of a listed thread. -/
def readThread (T : FloatText) (student : String) (running : List Key) (tids : List Int) (t : Json) :
    Except IsolationExn Thread := do
  let tid ← positive (← t.item "tid")
  need (tid ≤ 2147483647 && decide (tid ∉ tids)) censusReason
  let _ ← positive (← t.item "start_ticks")
  let vmid ← t.item "vmid"
  let vmidKey ← member running vmid
  let qemu ← threadKind (← t.item "kind")
  need ((← t.item "cgroup") = .str ("/qemu.slice/" ++ String.ofList (strText T vmid) ++ ".scope")) censusReason
  need (← within (← t.item "allowed_cpus") (.str student)) censusReason
  return { tid, vmidKey, qemu }

/-- The loop over `threads`. -/
def readThreads (T : FloatText) (student : String) (running : List Key) :
    List Int → List Json → Except IsolationExn (List Thread)
  | _, []           => .ok []
  | tids, v :: rest => do
    let t ← readThread T student running tids v
    let threads ← readThreads T student running (t.tid :: tids) rest
    return t :: threads

/-- The numbers of the running virtual machines. -/
def runningOf (guests : List Guest) : List Key :=
  (guests.filter fun g => g.kind = .str "qemu" && g.running).map Guest.vmidKey

/-- The threads of the census, whose machines are all represented. -/
def checkCensus (T : FloatText) (student : String) (guests : List Guest) (inventory : Json) : Except IsolationExn Unit := do
  let running ← sortedKeys (runningOf guests)
  need (isListOf running (← inventory.item "scope_vmids")) "QEMU scope/process/native guest census differs"
  need (isListOf running (← inventory.item "qemu_process_vmids")) "QEMU scope/process/native guest census differs"
  need ((← inventory.item "vhost_scan_complete") = .bool true) "QEMU scope/process/native guest census differs"
  need ((← inventory.item "thread_scan_complete") = .bool true) "QEMU scope/process/native guest census differs"
  let rows ← iterate (← inventory.item "threads")
  let threads ← readThreads T student running [] rows
  let represented := (threads.filter Thread.qemu).map Thread.vmidKey
  need (decide (represented.toFinset = running.toFinset)) "A running QEMU has no observed native thread"

/-! ## The receipt -/

/-- The checks of `verify` after those of the observation: the hash of the program. -/
def checkReport (T : FloatText) (c : Policy) (report : Json) (masks : Masks) (guests : List Guest) :
    Except IsolationExn String := do
  let s : Scope := { policy := c, masks, groups := ← report.item "cgroups" }
  let installed ← report.item "installed_files"
  let programSha ← pin (← installed.item "program_sha256")
  need (installed.getOrNull "hook_sha256" = .str (Sha256.hexdigest (hookBytes programSha)))
    "Enrolled executable hook bytes differ"
  let _ ← CONTROL_NAMES.mapM (checkControl s)
  checkParent s "lxc" masks.platform
  checkParent s "qemu.slice" masks.student
  checkPartition s
  let _ ← guests.mapM (checkEnrolled T s)
  checkThreads (← s.entry "qemu.slice" "thread_cpu_sets") masks.student
    "QEMU thread affinity escapes the student mask"
  checkCensus T masks.student guests (← report.item "inventory")
  return programSha

/-- `verify`, on a policy that was accepted. -/
def verify (T : FloatText) (now : Int) (c : Policy) (report : Json) (fresh : Bool) (authoritySha256 : Json) :
    Except IsolationExn Json := do
  let authority ← pin authoritySha256
  let (masks, guests) ← validateObservation T now c report fresh
  let programSha ← checkReport T c report masks guests
  return .dict [("producer", .str "pve-cpu-isolation-native-v1"), ("node", .str c.node),
    ("boot_id", ← report.item "boot_id"), ("observed_at_utc", ← report.item "observed_at_utc"),
    ("policy_sha256", .str (Sha256.hexdigest (canonical T c.document))),
    ("topology_sha256", .str masks.topologySha256), ("partition", .str "root"),
    ("userland_masks_equal", .bool true), ("known_qemu_and_templates_enrolled", .bool true),
    ("program_sha256", .str programSha), ("observation_sha256", .str (Sha256.hexdigest (canonical T report))),
    ("inventory_sha256", .str (Sha256.hexdigest (canonical T (← report.item "inventory")))),
    ("authority_sha256", .str authority), ("global_hook_for_arbitrary_unenrolled_qemu", .bool false),
    ("irq_and_kernel_workers_verified", .bool false), ("performance_or_full_protection_claim", .bool false),
    ("masks", masks.json), ("host_or_guest_changed", .bool false)]

end CpuIsolation
end PickleInfra
