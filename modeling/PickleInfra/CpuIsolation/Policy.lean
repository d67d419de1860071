import PickleInfra.CpuIsolation.Sets
import PickleInfra.Python.Equality

/-!
# `CpuIsolation.Policy` — `validate_config`

The policy is a document; what its checks establish of the fields that are used is `Policy`. Physical cores 0 and 1 are
the host's, and 2 to 5 the platform's.
-/

namespace PickleInfra
namespace CpuIsolation

open Python

def CODE_PATHS : List String :=
  ["/usr/share/perl5/PVE/QemuServer.pm", "/usr/share/perl5/PVE/API2/Qemu.pm", "/usr/share/perl5/PVE/GuestHelpers.pm",
    "/usr/share/perl5/PVE/LXC.pm", "/usr/share/perl5/PVE/LXC/Config.pm", "/usr/share/perl5/PVE/Service/pvestatd.pm"]

/-- One of `platform_cts`. -/
structure PlatformCt where
  vmid : Nat
  cores : Nat
  coreIds : List Nat
deriving DecidableEq, Repr

structure Policy where
  document : Json
  node : String
  physicalCores : Nat
  committedVcpu : Nat
  requiredCode : Json
  platformCts : List PlatformCt
  parkedCtIds : List Nat
deriving DecidableEq

def hostCoreIds : List Nat := [0, 1]

def platformCoreIds : List Nat := [2, 3, 4, 5]

def expectedKernel : String := "7.0.14-15-pve"

def expectedPveRelease : String := "9.2.11"

def expectedSystemdMajor : Int := 257

/-- `whole` -/
def whole (value : Json) (minimum : Int) : Except IsolationExn Nat :=
  match value with
  | .int n => if minimum ≤ n ∧ n ≤ 2147483647 then .ok n.toNat else .error (.own "Invalid integer")
  | _      => .error (.own "Invalid integer")

/-- `pin` -/
def pin (value : Json) : Except IsolationExn String :=
  match value with
  | .str s => if Text.fullmatch Text.isHex 64 64 s then .ok s else .error (.own "Invalid SHA-256 pin")
  | _      => .error (.own "Invalid SHA-256 pin")

/-- The keys of a policy. -/
def policyKeys : List String :=
  ["schema_version", "node", "physical_cores", "host_core_ids", "platform_core_ids", "platform_cts", "parked_ct_ids",
    "committed_vcpu", "expected_kernel", "expected_pve_release", "expected_systemd_major", "required_code_sha256",
    "clone_inheritance_review_ref"]

/-- `[a-z][a-z0-9-]{0,62}` -/
def isNode : String → Bool :=
  Text.fullmatchFirst Text.isLower (fun c => Text.isLower c || Text.isDigit c || c = '-') 62

def nodeOf : Json → Except IsolationExn String
  | .str s => if isNode s then .ok s else .error (.own "Invalid node")
  | _      => .error (.own "Invalid node")

/-- A list of integers of the policy that is fixed. -/
def isInts (ids : List Nat) (v : Json) : Bool := v = .list (ids.map fun n => .int n)

/-- `type(x) is int and x in c['platform_core_ids']` -/
def coreId : Json → Except IsolationExn Nat
  | .int n => if platformCoreIds.any fun k => (k : Int) = n then .ok n.toNat
    else .error (.own "Invalid platform CT core subset")
  | _      => .error (.own "Invalid platform CT core subset")

def coreList : Json → Except IsolationExn (List Nat)
  | .list xs => xs.mapM coreId
  | _        => .error (.own "Invalid platform CT core subset")

/-- The check of `core_ids`. -/
def coreSubset (v : Json) : Except IsolationExn (List Nat) := do
  let ids ← coreList v
  need (!ids.isEmpty && decide ids.Nodup) "Invalid platform CT core subset"
  return ids

/-- One round of the loop over `platform_cts`. -/
def platformCt (ct : Json) : Except IsolationExn PlatformCt := do
  need (ct.hasKeys ["vmid", "cores", "core_ids"]) "Invalid platform CT shape"
  let vmid ← whole (← ct.item "vmid") 100
  let coreIds ← coreSubset (← ct.item "core_ids")
  let cores ← whole (← ct.item "cores") 2
  need ((cores = 2 || cores = 4) && cores = 2 * coreIds.length)
    "Existing CT cores must equal the whole-SMT explicit subset"
  return { vmid, cores, coreIds }

/-- The members of a list of guests. -/
def guestList : Json → Except IsolationExn (List Json)
  | .list xs => .ok xs
  | _        => .error (.own "Invalid guest classes")

/-- The pins of the installed code. -/
def checkPins (v : Json) : Except IsolationExn Unit := do
  need (v.hasKeys CODE_PATHS) "Installed PVE code pins are incomplete"
  let _ ← v.members.mapM fun m => pin m.2

/-- `validate_config` -/
def validateConfig (c : Json) : Except IsolationExn Policy := do
  need (c.hasKeys policyKeys) "Unknown or missing policy field"
  need ((← c.item "schema_version") = .int 1) "Unknown policy schema"
  let node ← nodeOf (← c.item "node")
  let physicalCores ← whole (← c.item "physical_cores") 7
  need (physicalCores = 12 || physicalCores = 16) "Unsupported physical core count"
  need (isInts hostCoreIds (← c.item "host_core_ids") && isInts platformCoreIds (← c.item "platform_core_ids"))
    "Host/platform physical core policy differs"
  let committedVcpu ← whole (← c.item "committed_vcpu") 0
  need (committedVcpu < (physicalCores * 2 - 12) * 2) "No student budget"
  need ((← c.item "expected_kernel") = .str expectedKernel && (← c.item "expected_pve_release") = .str expectedPveRelease
    && (← c.item "expected_systemd_major") = .int expectedSystemdMajor) "Unsupported kernel/PVE/systemd contract"
  let requiredCode ← c.item "required_code_sha256"
  checkPins requiredCode
  need (match (← c.item "clone_inheritance_review_ref") with
    | .str s => 1 ≤ s.length && s.length ≤ 512
    | _      => false) "Exact installed clone inheritance review is required"
  let cts ← guestList (← c.item "platform_cts")
  let parked ← guestList (← c.item "parked_ct_ids")
  let platformCts ← cts.mapM platformCt
  let parkedCtIds ← parked.mapM fun x => whole x 100
  need (decide (platformCts.map PlatformCt.vmid ++ parkedCtIds).Nodup) "Guest classifications overlap"
  return { document := c, node, physicalCores, committedVcpu, requiredCode, platformCts, parkedCtIds }

/-! ## What the checks establish -/

structure PlatformCt.Valid (ct : PlatformCt) : Prop where
  nodup : ct.coreIds.Nodup
  platform : ∀ k ∈ ct.coreIds, k ∈ platformCoreIds
  nonempty : ct.coreIds ≠ []
  cores : ct.cores = 2 * ct.coreIds.length

structure Policy.Valid (c : Policy) : Prop where
  cores : c.physicalCores = 12 ∨ c.physicalCores = 16
  committed : c.committedVcpu < (c.physicalCores * 2 - 12) * 2
  cts : ∀ ct ∈ c.platformCts, ct.Valid
  ids : (c.platformCts.map PlatformCt.vmid ++ c.parkedCtIds).Nodup

theorem coreId_spec {v : Json} {k : Nat} (h : coreId v = .ok k) : k ∈ platformCoreIds := by
  unfold coreId at h
  split at h
  · split at h
    next hin =>
      cases h
      obtain ⟨m, hm, heq⟩ := List.any_eq_true.mp hin
      rw [← of_decide_eq_true heq]
      exact hm
    · cases h
  · cases h

theorem coreSubset_spec {v : Json} {ids : List Nat} (h : coreSubset v = .ok ids) :
    ids.Nodup ∧ (∀ k ∈ ids, k ∈ platformCoreIds) ∧ ids ≠ [] := by
  unfold coreSubset at h
  simp only [bind_eq_ok, need_eq_ok, Bool.and_eq_true, Bool.not_eq_true', List.isEmpty_eq_false_iff,
    decide_eq_true_eq] at h
  obtain ⟨ids', hids, -, ⟨hne, hnodup⟩, h⟩ := h
  cases h
  refine ⟨hnodup, fun k hk => ?_, hne⟩
  unfold coreList at hids
  split at hids
  · obtain ⟨x, -, hx⟩ := forall₂_right (mapM_eq_ok.mp hids) k hk
    exact coreId_spec hx
  · cases hids

theorem platformCt_spec {v : Json} {ct : PlatformCt} (h : platformCt v = .ok ct) : ct.Valid := by
  unfold platformCt at h
  simp only [bind_eq_ok, need_eq_ok, Bool.and_eq_true, Bool.or_eq_true, decide_eq_true_eq] at h
  obtain ⟨-, -, -, -, vmid, -, _, -, coreIds, hids, -, -, cores, -, -, ⟨-, hcores⟩, h⟩ := h
  cases h
  obtain ⟨hnodup, hplatform, hne⟩ := coreSubset_spec hids
  exact ⟨hnodup, hplatform, hne, hcores⟩

theorem validateConfig_spec {v : Json} {c : Policy} (h : validateConfig v = .ok c) : c.Valid ∧ c.document = v := by
  unfold validateConfig at h
  simp only [bind_eq_ok, need_eq_ok, Bool.or_eq_true, decide_eq_true_eq] at h
  obtain ⟨-, -, -, -, -, -, -, -, node, -, -, -, physicalCores, -, -, hphysical, -, -, -, -, -, -, -, -, committed, -, -,
    hcommitted, -, -, -, -, -, -, -, -, requiredCode, -, -, -, -, -, -, -, -, -, cts, -, -, -, parked, -, platformCts,
    hcts, parkedCtIds, -, -, hids, h⟩ := h
  cases h
  exact ⟨⟨hphysical, hcommitted,
    fun ct hct => (forall₂_right (mapM_eq_ok.mp hcts) ct hct).elim fun v hv => platformCt_spec hv.2, hids⟩, rfl⟩

end CpuIsolation
end PickleInfra
