import PickleInfra.Registration.Collected
import PickleInfra.Registration.Reregistered

/-!
# `Registration.Repeated` — the frame of a registration, and its repetition

A registration that `preview` lets through keeps what the row is, and changes of its labels only what it owns. On
the row that took over the desired values it succeeds again, and desires the same.
-/

namespace PickleInfra
namespace Registration

open Python Network JsonText

variable {T : FloatText} {nfkc : List Char → List Char} {c : Config} {pool cap snapshot old : Json}
  {labels origin : List (String × Json)} {stored : Json}

/-! ## The frame -/

/-- What `node_registration` holds of some labels. -/
def registration (labels : List (String × Json)) : Json :=
  (Json.lookup "node_registration" labels).getD (.dict [])

/-- Labels after a registration beside those before it. -/
structure LabelFrame (before after : List (String × Json)) : Prop where
  other : ∀ k, k ∉ writtenLabels → Json.lookup k after = Json.lookup k before
  registration : ∀ k, k ≠ "cluster" → (registration after).get? k = (registration before).get? k
  gpu : ∀ v, Json.lookup "gpu" before = some v → Json.lookup "gpu" after = some v
  cluster : ∀ v, (Registration.registration before).get? "cluster" = some v →
    (Registration.registration after).get? "cluster" = some v

/-- The parts of a capacity that placement depends on. -/
def capacityParts : List String := ["physical", "reserved", "allocatable", "cpu_policy"]

/-- A capacity beside another: the same parts, up to the order of keys. -/
def SameParts (v w : Json) : Prop :=
  ∀ part ∈ capacityParts, (v.get? part).map Json.sorted = (w.get? part).map Json.sorted

/-- The values under a key of two rows are equal. -/
def EqualAt (old desired : Json) (key : String) : Prop :=
  ∃ v w, old.get? key = some v ∧ desired.get? key = some w ∧ v.equal w = true

/-- What the VMs hold, by the key of the snapshot, and the dimension it counts against. -/
def allocations : List (String × String) :=
  [("allocated_memory_mb", "memory_mb"), ("allocated_vcpu", "cpu_threads"), ("allocated_disk_gb", "disk_gb")]

/-- The desired row beside the existing one. -/
structure Frame (snapshot old desired : Json) (before after : List (String × Json)) : Prop where
  labelsBefore : old.get? "labels" = some (.dict before)
  labelsAfter : desired.get? "labels" = some (.dict after)
  kept : ∀ key ∈ ["status", "public_id", "api_host", "vm_bridge", "storage"], desired.get? key = old.get? key
  pool : EqualAt old desired "ip_pool_id"
  labels : LabelFrame before after
  active : old.get? "status" = some (.str "ACTIVE") →
    (∃ v w, Json.lookup "placement_capacity" before = some v ∧ Json.lookup "placement_capacity" after = some w ∧
      SameParts v w) ∧ ∀ column ∈ ["cpu_threads", "memory_mb", "disk_capacity_gb"], EqualAt old desired column
  fits : ∀ e ∈ allocations, ∃ v q w group n, snapshot.get? e.1 = some v ∧ v.numeric = some q ∧
    Json.lookup "placement_capacity" after = some w ∧ w.get? "allocatable" = some group ∧
    group.get? e.2 = some (.int n) ∧ q ≤ n

theorem labelFrame_merged (h : Labelled c labels origin stored) :
    LabelFrame labels (Json.merge labels (newLabels c cap origin)) := by
  have hafter : registration (Json.merge labels (newLabels c cap origin)) =
      .dict (Json.merge origin [("cluster", .str c.cluster)]) := by
    unfold registration
    rw [lookup_merged_registration]
    rfl
  have hbefore : registration labels = .dict origin := h.isOrigin
  refine ⟨fun k hk => lookup_merged_other hk, fun k hk => ?_, fun v hv => ?_, fun v hv => ?_⟩
  · rw [hafter, hbefore]
    exact (lookup_origin k).trans (if_neg hk)
  · have hgpu := h.gpu
    rw [hv] at hgpu
    rw [lookup_merged_gpu]
    exact congrArg some hgpu.symm
  · rw [hbefore] at hv
    rw [hafter]
    -- a cluster that was recorded is the one of the configuration
    rcases h.cluster with hempty | hcluster
    · rw [hempty] at hv
      cases hv
    · have heq : v = .str c.cluster := Option.some.inj (hv.symm.trans hcluster)
      rw [heq]
      exact (lookup_origin "cluster").trans (if_pos rfl)

/-! ## An active row -/

theorem get?_without {v : Json} {name k : String} (hk : k ≠ name) : (without name v).get? k = v.get? k := by
  cases v with
  | dict ms =>
      show Json.lookup k (ms.filter fun m => m.1 ≠ name) = Json.lookup k ms
      rw [Json.lookup_eq, Json.lookup_eq, Dict.lookup_filter_ne, if_neg (Ne.symm hk)]
  | null | bool | int | float | str | list => rfl

theorem nodup_without {v : Json} (hv : Valid T v) (name : String) :
    ((v.members.filter fun m => m.1 ≠ name).map Prod.fst).Nodup := by
  cases v with
  | dict ms => exact (valid_dict.mp hv).1.sublist (List.filter_sublist.map _)
  | null | bool | int | float | str | list => exact List.nodup_nil

/-- Equal groups are the same. -/
theorem sorted_group {v w : Json} {names : List String} {f g : String → Int} (hv : Valid T v) (hw : Valid T w)
    (hkeysv : v.hasKeys names = true) (hkeysw : w.hasKeys names = true)
    (hgetv : ∀ key ∈ names, v.get? key = some (.int (f key))) (hgetw : ∀ key ∈ names, w.get? key = some (.int (g key)))
    (h : v.equal w = true) : v.sorted = w.sorted := by
  obtain ⟨ms, rfl, hms⟩ := Json.hasKeys_iff.mp hkeysv
  obtain ⟨ns, rfl, hns⟩ := Json.hasKeys_iff.mp hkeysw
  refine Json.sorted_of_equal_ints (valid_dict.mp hv).1 (valid_dict.mp hw).1 ?_ ?_ h
  · intro k x hx
    exact ⟨_, Option.some.inj (hx.symm.trans (hgetv k ((hms k).mp (Json.mem_keys_of_lookup hx))))⟩
  · intro k x hx
    exact ⟨_, Option.some.inj (hx.symm.trans (hgetw k ((hns k).mp (Json.mem_keys_of_lookup hx))))⟩

/-- The numbers of a policy by their keys. -/
def policyAt (policy : Int × Int) (key : String) : Int := if key = "allocation_ratio" then policy.1 else policy.2

/-- A part of a capacity is a dictionary of integers under keys that the part fixes. -/
theorem part_ints {v : Json} {n : Numbers} (h : IsCapacity v n) {part : String} (hpart : part ∈ capacityParts) {x : Json}
    (hx : v.get? part = some x) : ∃ f : String → Int,
      x.hasKeys (if part = "cpu_policy" then ["allocation_ratio", "committed_vcpu"] else dimensions) = true ∧
      ∀ key ∈ (if part = "cpu_policy" then ["allocation_ratio", "committed_vcpu"] else dimensions),
        x.get? key = some (.int (f key)) := by
  have hgroup : ∀ {d : Dimensions}, IsGroup part d v → x.hasKeys dimensions = true ∧
      ∀ key ∈ dimensions, x.get? key = some (.int (d.at key)) := by
    rintro d ⟨y, hy, hkeys, hnumbers⟩
    rw [hx] at hy
    cases hy
    exact ⟨hkeys, fun key hkey => (hnumbers key hkey).1⟩
  simp only [capacityParts, List.mem_cons, List.not_mem_nil, or_false] at hpart
  rcases hpart with rfl | rfl | rfl | rfl
  · exact ⟨_, hgroup h.physical⟩
  · exact ⟨_, hgroup h.reserved⟩
  · exact ⟨_, hgroup h.allocatable⟩
  · refine ⟨policyAt n.policy, ?_⟩
    rw [if_pos rfl]
    have hpolicy := h.policy
    unfold IsPolicy at hpolicy
    by_cases hversion : n.version = some 2
    · rw [if_pos hversion] at hpolicy
      obtain ⟨y, hy, hkeys, hratio, hcommitted, -⟩ := hpolicy
      rw [hx] at hy
      cases hy
      refine ⟨hkeys, fun key hkey => ?_⟩
      simp only [List.mem_cons, List.not_mem_nil, or_false] at hkey
      rcases hkey with rfl | rfl
      · exact hratio
      · exact hcommitted
    · -- version 1 has no policy
      rcases h.version.2 with ⟨-, hkeys⟩ | ⟨h2, -⟩
      · obtain ⟨ms, rfl, hms⟩ := Json.hasKeys_iff.mp hkeys
        exact absurd ((hms _).mp (Json.mem_keys_of_lookup hx)) (by decide)
      · exact absurd h2 hversion

/-- **Equal capacities have the same parts.** -/
theorem sameParts_of_equal {v w : Json} {n m : Numbers} (hv : Valid T v) (hw : Valid T w) (hcap : IsCapacity v n)
    (hcap' : IsCapacity w m) (h : (without "measured_at" v).equal (without "measured_at" w) = true) : SameParts v w := by
  intro part hpart
  have hne : part ≠ "measured_at" := by
    rintro rfl
    exact absurd hpart (by decide)
  have hpair := (Json.equal_dict_iff (nodup_without hv _) (nodup_without hw _)).mp h part
  have hgetv : Json.lookup part (v.members.filter fun m => m.1 ≠ "measured_at") = v.get? part := get?_without hne
  have hgetw : Json.lookup part (w.members.filter fun m => m.1 ≠ "measured_at") = w.get? part := get?_without hne
  rw [hgetv, hgetw] at hpair
  generalize hx : v.get? part = o, hy : w.get? part = o' at hpair
  cases hpair with
  | none => rfl
  | some heq =>
      obtain ⟨f, hkeysv, hf⟩ := part_ints hcap hpart hx
      obtain ⟨g, hkeysw, hg⟩ := part_ints hcap' hpart hy
      rw [Option.map_some, Option.map_some,
        sorted_group (Json.valid_of_get? hv hx) (Json.valid_of_get? hw hy) hkeysv hkeysw hf hg heq]

theorem isGroup_without_nil {group : String} {d : Dimensions} (hcap : IsGroup group d cap) (hv : Valid T cap)
    (hne : group ≠ "measured_at") : (without "measured_at" (.dict [])).equal (without "measured_at" cap) = false := by
  rw [← Bool.not_eq_true]
  intro h
  obtain ⟨x, hx, -⟩ := hcap
  have hpair := (Json.equal_dict_iff (show (([] : List (String × Json)).map Prod.fst).Nodup from List.nodup_nil) (nodup_without hv _)).mp h group
  have hget : Json.lookup group (cap.members.filter fun m => m.1 ≠ "measured_at") = some x := (get?_without hne).trans hx
  rw [hget] at hpair
  cases hpair

/-! ## The frame of a preview -/

theorem numeric_of_atMost {n : Int} {v : Json} (hv : Valid T v) (h : atMost n v = .ok true) :
    ∃ q, v.numeric = some q ∧ q ≤ n := by
  have hnumeric : ∀ q : ℚ, v.numeric = some q → (Except.ok (decide (q ≤ n)) : Except RegistrationExn Bool) = .ok true →
      ∃ q, v.numeric = some q ∧ q ≤ n := by
    intro q hq hle
    exact ⟨q, hq, of_decide_eq_true (Except.ok.inj hle)⟩
  cases v with
  | bool b => exact hnumeric _ rfl h
  | int k => exact hnumeric _ rfl h
  | float x =>
      obtain ⟨q, rfl, -⟩ := valid_float.mp hv
      exact hnumeric _ rfl h
  | null | str | list | dict => cases h

theorem allocated_of_check (hsnapshot : Valid T snapshot) (h : checkAllocated snapshot cap = .ok ()) :
    ∀ e ∈ allocations, ∃ v q group k, snapshot.get? e.1 = some v ∧ v.numeric = some q ∧ cap.get? "allocatable" = some group ∧ group.get? e.2 = some (.int k) ∧ q ≤ k := by
  unfold checkAllocated at h
  simp only [bind_eq_ok, Json.item_eq_ok, require_eq_ok] at h
  obtain ⟨k1, hk1, v1, hv1, _, hle1, _, hrequire1, k2, hk2, v2, hv2, _, hle2, _, hrequire2, k3, hk3, v3, hv3, _, hle3,
    hrequire3⟩ := h
  have hone : ∀ {key dimension : String} {k : Int} {v : Json} {b : Bool},
      capacityInt cap "allocatable" dimension = .ok k → snapshot.get? key = some v → atMost k v = .ok b → b = true →
      ∃ v q group k, snapshot.get? key = some v ∧ v.numeric = some q ∧ cap.get? "allocatable" = some group ∧
        group.get? dimension = some (.int k) ∧ q ≤ k := by
    rintro key dimension k v b hk hv hle rfl
    obtain ⟨group, hgroup, hget⟩ := capacityInt_eq_ok.mp hk
    obtain ⟨q, hq, hqk⟩ := numeric_of_atMost (Json.valid_of_get? hsnapshot hv) hle
    exact ⟨v, q, group, k, hv, hq, hgroup, hget, hqk⟩
  intro e he
  simp only [allocations, List.mem_cons, List.not_mem_nil, or_false] at he
  rcases he with rfl | rfl | rfl
  · exact hone hk1 hv1 hle1 hrequire1
  · exact hone hk2 hv2 hle2 hrequire2
  · exact hone hk3 hv3 hle3 hrequire3

theorem frame_of_kept {n : Numbers} {status poolId publicId : Json} (hcapValid : Valid T cap)
    (holdValid : Valid T old) (hsnapshot : Valid T snapshot) (hcap : IsCapacity cap n)
    (hpool : pool.get? "id" = some poolId) (h : Kept c pool cap snapshot old labels origin stored)
    (hstatus : old.get? "status" = some status) (hpublic : old.get? "public_id" = some publicId) :
    Frame snapshot old (desiredRow c status (.int n.physical.cpuThreads) (.int n.allocatable.memoryMb)
      (.int n.physical.diskGb) poolId publicId (Json.merge labels (newLabels c cap origin))) labels
      (Json.merge labels (newLabels c cap origin)) := by
  refine { labelsBefore := h.hasLabels, labelsAfter := rfl, kept := ?_, pool := ?_, labels := labelFrame_merged h.labelled,
           active := ?_, fits := ?_ }
  · intro key hkey
    simp only [List.mem_cons, List.not_mem_nil, or_false] at hkey
    rcases hkey with rfl | rfl | rfl | rfl | rfl
    · exact hstatus.symm
    · exact hpublic.symm
    · obtain ⟨v, hv, hequal⟩ := h.routed.apiHost
      rw [hv, Json.equal_str_right.mp hequal]
      rfl
    · obtain ⟨v, hv, hequal⟩ := h.routed.bridge
      rw [hv, Json.equal_str_right.mp hequal]
      rfl
    · obtain ⟨v, hv, hequal⟩ := h.routed.storage
      rw [hv, Json.equal_str_right.mp hequal]
      rfl
  · obtain ⟨v, id, hv, hid, hequal⟩ := h.routed.pool
    rw [hpool] at hid
    cases hid
    exact ⟨v, _, hv, rfl, hequal⟩
  · intro hactive
    obtain ⟨same, status', hsame, hstatus', hkeep⟩ := h.active
    rw [hactive] at hstatus'
    cases hstatus'
    have htrue : same = true := hkeep (by simp [Json.isStr])
    rw [htrue] at hsame
    have hrepeats := (unchanged_true_iff hcap).mp hsame
    constructor
    · -- without a stored capacity there would be nothing to equal the new one
      cases hlookup : Json.lookup "placement_capacity" labels with
      | none =>
          have hnil : stored = .dict [] := by
            rw [← h.labelled.isStored, hlookup]
            rfl
          have hequal := hrepeats.capacity
          rw [hnil, isGroup_without_nil hcap.physical hcapValid (by decide)] at hequal
          cases hequal
      | some v =>
          have hv : stored = v := by
            rw [← h.labelled.isStored, hlookup]
            rfl
          have hvalid : Valid T v :=
            Json.valid_of_get? (v := .dict labels) (Json.valid_of_get? holdValid h.hasLabels) hlookup
          obtain ⟨m, hm⟩ := (validateCapacityDocument_iff hvalid).mp (h.labelled.capacity v hlookup)
          have hequal := hrepeats.capacity
          rw [hv] at hequal
          exact ⟨v, cap, rfl, lookup_merged_capacity, sameParts_of_equal hvalid hcapValid hm hcap hequal⟩
    · intro column hcolumn
      simp only [List.mem_cons, List.not_mem_nil, or_false] at hcolumn
      rcases hcolumn with rfl | rfl | rfl
      · obtain ⟨v, hv, hequal⟩ := hrepeats.cpu
        exact ⟨v, _, hv, rfl, hequal⟩
      · obtain ⟨v, hv, hequal⟩ := hrepeats.memory
        exact ⟨v, _, hv, rfl, hequal⟩
      · obtain ⟨v, hv, hequal⟩ := hrepeats.disk
        exact ⟨v, _, hv, rfl, hequal⟩
  · intro e he
    obtain ⟨v, q, group, k, hv, hq, hgroup, hget, hle⟩ := allocated_of_check hsnapshot h.allocated e he
    exact ⟨v, q, cap, group, k, hv, hq, lookup_merged_capacity, hgroup, hget, hle⟩

/-! ## The row that took over the desired values -/

/-- The columns that the statement of `apply_sql` sets to numbers. -/
def writtenColumns : List String := ["cpu_threads", "memory_mb", "disk_capacity_gb"]

/-- The row after `UPDATE public.nodes SET` its numbers, labels and time. The database keeps the values of the labels,
    in an order of its own. -/
structure Applied (old desired row : Json) : Prop where
  columns : ∀ k ∈ writtenColumns, row.get? k = desired.get? k
  labels : (row.get? "labels").map Json.sorted = (desired.get? "labels").map Json.sorted
  rest : ∀ k, k ∉ writtenColumns → k ≠ "labels" → k ≠ "updated_at" →
    (row.get? k).map Json.sorted = (old.get? k).map Json.sorted

/-- The snapshot of the row with the same pool and the same VMs. -/
structure Snapshot (snapshot row later : Json) : Prop where
  node : later.get? "node" = some row
  rest : ∀ k ∈ ["identity", "pool", "allocated_memory_mb", "allocated_vcpu", "allocated_disk_gb"],
    later.get? k = snapshot.get? k

/-- Whether a label holds the requirements does not depend on the order of its keys. -/
theorem isNic_same {v w : Json} (h : w.sorted = v.sorted) (hv : isNic c v = true) : isNic c w = true := by
  unfold isNic at hv ⊢
  simp only [Bool.and_eq_true, isBool_iff] at hv ⊢
  obtain ⟨⟨⟨hequal, hversion⟩, hmtu⟩, hfirewall⟩ := hv
  refine ⟨⟨⟨?_, ?_⟩, ?_⟩, ?_⟩
  · rw [Json.equal_congr h rfl]
    exact hequal
  · rw [← Json.asInt?_sorted, Json.getOrNull_of_sorted h, Json.asInt?_sorted]
    exact hversion
  · rw [← Json.asInt?_sorted, Json.getOrNull_of_sorted h, Json.asInt?_sorted]
    exact hmtu
  · exact Json.eq_of_sorted_scalar ((Json.getOrNull_of_sorted h _).trans (by rw [hfirewall])) rfl |>.trans rfl

theorem sorted_without {v w : Json} (hv : Valid T v) (hw : Valid T w) (h : v.sorted = w.sorted) (name : String) :
    (without name v).sorted = (without name w).sorted := by
  refine Json.sorted_of_lookup (nodup_without hv name) (nodup_without hw name) fun k => ?_
  by_cases hk : k = name
  · have hnone : ∀ x : Json, Json.lookup k (x.members.filter fun m => m.1 ≠ name) = none := by
      intro x
      rw [Json.lookup_eq, Dict.lookup_filter_ne, if_pos hk.symm]
    rw [hnone, hnone]
  · have hv' : Json.lookup k (v.members.filter fun m => m.1 ≠ name) = v.get? k := get?_without hk
    have hw' : Json.lookup k (w.members.filter fun m => m.1 ≠ name) = w.get? k := get?_without hk
    rw [hv', hw']
    exact Json.get?_of_sorted h k

section Repeat

variable {rowLabels : List (String × Json)}

/-- **The labels of the row pass the checks**, with the cluster recorded and the capacity of the report stored. -/
theorem labelled_row {n : Numbers} (hlabels : Valid T (.dict rowLabels)) (hcap : IsCapacity cap n)
    (h : Labelled c labels origin stored)
    (hsame : (Json.dict rowLabels).sorted = (Json.dict (Json.merge labels (newLabels c cap origin))).sorted) :
    ∃ origin' stored', Labelled c rowLabels origin' stored' ∧ stored'.sorted = cap.sorted ∧
      (Json.dict origin').sorted = (Json.dict (Json.merge origin [("cluster", .str c.cluster)])).sorted ∧
      Valid T (.dict origin') ∧ Valid T stored' := by
  have hscalar : ∀ {k : String} {x : Json}, x.isScalar = true →
      Json.lookup k (Json.merge labels (newLabels c cap origin)) = some x → Json.lookup k rowLabels = some x :=
    fun hx hget => Json.get?_scalar hsame hx hget
  obtain ⟨y, hy, hysorted⟩ := Json.get?_same hsame
    (show (Json.dict (Json.merge labels (newLabels c cap origin))).get? "node_registration" = _ from
      lookup_merged_registration)
  obtain ⟨origin', rfl⟩ := Json.dict_of_sorted hysorted
  obtain ⟨stored', hstored, hssorted⟩ := Json.get?_same hsame
    (show (Json.dict (Json.merge labels (newLabels c cap origin))).get? "placement_capacity" = _ from
      lookup_merged_capacity)
  have hyvalid := Json.valid_of_get? hlabels hy
  have hsvalid := Json.valid_of_get? hlabels hstored
  have hy' : Json.lookup "node_registration" rowLabels = some (.dict origin') := hy
  have hstored' : Json.lookup "placement_capacity" rowLabels = some stored' := hstored
  have hcluster : Json.lookup "cluster" origin' = some (.str c.cluster) :=
    Json.get?_scalar (v := .dict origin') hysorted rfl ((lookup_origin "cluster").trans (if_pos rfl))
  refine ⟨origin', stored', ⟨?_, .inr hcluster, ?_, fun v hv => ?_, fun v hv => ?_, ?_⟩, hssorted, hysorted, hyvalid, hsvalid⟩
  · rw [hy']
    rfl
  · rw [hstored']
    rfl
  · rw [hstored'] at hv
    cases hv
    exact (validateCapacityDocument_iff hsvalid).mpr ⟨n, isCapacity_same hssorted hcap⟩
  · -- the requirements are those that were checked before
    obtain ⟨v', hv', hvsorted⟩ := Json.get?_same hsame.symm (show (Json.dict rowLabels).get? "vm_nic_requirements" = _ from hv)
    have hbefore : Json.lookup "vm_nic_requirements" labels = some v' :=
      (lookup_merged_other (by decide)).symm.trans hv'
    exact isNic_same hvsorted.symm (h.nic v' hbefore)
  · rw [hscalar rfl lookup_merged_gpu]
    rfl

/-- The labels that are desired again are the same. -/
theorem sorted_merged {origin' : List (String × Json)} (hrow : Valid T (.dict rowLabels)) (hlabels : Valid T (.dict labels))
    (horigin : Valid T (.dict origin)) (horigin' : Valid T (.dict origin'))
    (hsame : (Json.dict rowLabels).sorted = (Json.dict (Json.merge labels (newLabels c cap origin))).sorted)
    (hosame : (Json.dict origin').sorted = (Json.dict (Json.merge origin [("cluster", .str c.cluster)])).sorted) :
    (Json.dict (Json.merge rowLabels (newLabels c cap origin'))).sorted =
      (Json.dict (Json.merge labels (newLabels c cap origin))).sorted := by
  refine Json.sorted_of_lookup (Json.nodup_merge (valid_dict.mp hrow).1) (Json.nodup_merge (valid_dict.mp hlabels).1)
    fun k => ?_
  by_cases hk : k ∈ writtenLabels
  · simp only [writtenLabels, List.mem_cons, List.not_mem_nil, or_false] at hk
    rcases hk with rfl | rfl | rfl
    · rw [lookup_merged_gpu, lookup_merged_gpu]
    · rw [lookup_merged_capacity, lookup_merged_capacity]
    · rw [lookup_merged_registration, lookup_merged_registration, Option.map_some, Option.map_some]
      refine congrArg some (Json.sorted_of_lookup (Json.nodup_merge (valid_dict.mp horigin').1)
        (Json.nodup_merge (valid_dict.mp horigin).1) fun k => ?_)
      rw [lookup_origin]
      by_cases hcluster : k = "cluster"
      · rw [if_pos hcluster, lookup_origin, if_pos hcluster]
      · rw [if_neg hcluster]
        exact Json.lookup_of_sorted hosame k
  · rw [lookup_merged_other hk]
    exact Json.lookup_of_sorted hsame k

end Repeat

theorem checkAllocated_congr {later : Json} (h : ∀ e ∈ allocations, later.get? e.1 = snapshot.get? e.1) :
    checkAllocated later cap = .ok () ↔ checkAllocated snapshot cap = .ok () := by
  unfold checkAllocated
  simp only [bind_eq_ok, Json.item_eq_ok, h ("allocated_memory_mb", "memory_mb") (by simp [allocations]),
    h ("allocated_vcpu", "cpu_threads") (by simp [allocations]), h ("allocated_disk_gb", "disk_gb") (by simp [allocations])]

/-- **The row passes the checks again**, where the snapshot has the same pool and the same VMs. -/
theorem kept_row {n : Numbers} {row later desired status publicId poolId : Json} (hcapValid : Valid T cap)
    (hrowValid : Valid T row) (hcap : IsCapacity cap n) (h : Kept c pool cap snapshot old labels origin stored)
    (hdesired : desired = desiredRow c status (.int n.physical.cpuThreads) (.int n.allocatable.memoryMb)
      (.int n.physical.diskGb) poolId publicId (Json.merge labels (newLabels c cap origin)))
    (happlied : Applied old desired row) (hlater : ∀ e ∈ allocations, later.get? e.1 = snapshot.get? e.1) :
    ∃ rowLabels origin' stored', Kept c pool cap later row rowLabels origin' stored' ∧ Valid T (.dict rowLabels) ∧
      Valid T (.dict origin') ∧
      (Json.dict rowLabels).sorted = (Json.dict (Json.merge labels (newLabels c cap origin))).sorted ∧
      (Json.dict origin').sorted = (Json.dict (Json.merge origin [("cluster", .str c.cluster)])).sorted := by
  subst hdesired
  have hlabels := happlied.labels
  obtain ⟨v, hv, hvsorted⟩ := Option.map_eq_some_iff.mp
    (hlabels.trans (show _ = some (Json.dict (Json.merge labels (newLabels c cap origin))).sorted from rfl))
  obtain ⟨rowLabels, rfl⟩ := Json.dict_of_sorted hvsorted
  have hrowLabels := Json.valid_of_get? hrowValid hv
  obtain ⟨origin', stored', hlabelled, hstored, horigin, horiginValid, hstoredValid⟩ :=
    labelled_row hrowLabels hcap h.labelled hvsorted
  -- the row repeats the capacity of the report
  have hequal : (without "measured_at" stored').equal (without "measured_at" cap) = true := by
    rw [Json.equal_congr (sorted_without hstoredValid hcapValid hstored _) rfl]
    refine Json.equal_self (T := T) _ (valid_dict.mpr ⟨nodup_without hcapValid _, fun m hm => ?_⟩)
    have hmem := (List.mem_filter.mp hm).1
    cases cap with
    | dict ms => exact (valid_dict.mp hcapValid).2 m hmem
    | null | bool | int | float | str | list => exact absurd hmem List.not_mem_nil
  have hrepeats : Repeats row stored' cap n :=
    { capacity := hequal,
      cpu := ⟨_, happlied.columns "cpu_threads" (by decide), Json.equal_int.mpr rfl⟩,
      memory := ⟨_, happlied.columns "memory_mb" (by decide), Json.equal_int.mpr rfl⟩,
      disk := ⟨_, happlied.columns "disk_capacity_gb" (by decide), Json.equal_int.mpr rfl⟩ }
  obtain ⟨_, statusBefore, -, hstatus, -⟩ := h.active
  have hstatusRow := happlied.rest "status" (by decide) (by decide) (by decide)
  rw [hstatus, Option.map_some] at hstatusRow
  obtain ⟨statusRow, hstatusRow, -⟩ := Option.map_eq_some_iff.mp hstatusRow
  refine ⟨rowLabels, origin', stored', ⟨?_, hv, hlabelled, ?_, (checkAllocated_congr hlater).mpr h.allocated⟩, hrowLabels,
    horiginValid, hvsorted, horigin⟩
  · refine h.routed.same fun k hk => ?_
    simp only [List.mem_cons, List.not_mem_nil, or_false] at hk
    rcases hk with rfl | rfl | rfl | rfl | rfl <;> exact happlied.rest _ (by decide) (by decide) (by decide)
  · exact ⟨true, statusRow, (unchanged_true_iff hcap).mpr hrepeats, hstatusRow, fun _ => rfl⟩

/-- **Re-registration keeps what the row is, and repeats.** What `preview` lets through for an existing row keeps its
    status, identity and routing; it changes of the labels only what it owns, of an active row no capacity at all, and
    leaves the VMs what they hold. On the row that took over the desired values it desires the same again. -/
theorem reregistration_frame (T : FloatText) (nfkc : List Char → List Char) {report snapshot desired old : Json}
    {c : Config} {now : Isoformat.Utc} (hreport : Valid T report) (hsnapshot : Valid T snapshot)
    (haccepted : validateReport nfkc report now = .ok c) (hold : snapshot.get? "node" = some old)
    (hexists : old.isNull = false) (h : preview nfkc report snapshot = .ok desired) :
    (∃ before after, Frame snapshot old desired before after) ∧
    ∀ row later, Applied old desired row → Snapshot snapshot row later → Valid T later →
      ∃ again, preview nfkc report later = .ok again ∧ again.sorted = desired.sorted := by
  have hnode : snapshot.getOrNull "node" = old := Json.getOrNull_of_get? hold
  obtain ⟨c', cap, poolId, hcontext⟩ := context_of_preview (by rw [hnode]; exact hexists) h
  have hcapValid := Json.valid_of_get? hreport hcontext.capacity
  -- the report was validated, so its capacity is one
  have hvalidated : validateCapacityDocument cap = .ok () := by
    unfold validateReport at haccepted
    simp only [bind_eq_ok, Json.item_eq_ok] at haccepted
    obtain ⟨_, -, _, -, _, -, _, -, _, -, _, -, _, -, cap', hcap', _, hvalidated, -⟩ := haccepted
    rw [hcontext.capacity] at hcap'
    cases hcap'
    exact hvalidated
  obtain ⟨n, hcap⟩ := (validateCapacityDocument_iff hcapValid).mp hvalidated
  obtain ⟨labels, origin, stored, status, publicId, hkept, hstatus, hpublic, hdesired⟩ :=
    (preview_existing hcap hcontext hnode hexists).mp h
  have holdValid := Json.valid_of_get? hsnapshot hold
  constructor
  · rw [hdesired]
    exact ⟨labels, _, frame_of_kept hcapValid holdValid hsnapshot hcap hcontext.poolId hkept hstatus hpublic⟩
  · intro row later happlied hlater hlaterValid
    have hrowValid := Json.valid_of_get? hlaterValid hlater.node
    have hpool : later.getOrNull "pool" = snapshot.getOrNull "pool" := by
      unfold Json.getOrNull
      rw [hlater.rest "pool" (by decide)]
    have hallocated : ∀ e ∈ allocations, later.get? e.1 = snapshot.get? e.1 := by
      intro e he
      simp only [allocations, List.mem_cons, List.not_mem_nil, or_false] at he
      rcases he with rfl | rfl | rfl <;> exact hlater.rest _ (by decide)
    have hcontext' : Context nfkc report later c' cap poolId := by
      refine { hcontext with identity := ?_, pool := ?_, poolId := ?_ }
      · rw [hlater.rest "identity" (by decide)]
        exact hcontext.identity
      · rw [hpool]
        exact hcontext.pool
      · rw [hpool]
        exact hcontext.poolId
    obtain ⟨rowLabels, origin', stored', hkept', hrowLabels, horigin', hsame, hosame⟩ :=
      kept_row hcapValid hrowValid hcap hkept hdesired happlied hallocated
    have hrowExists : row.isNull = false := by
      cases row with
      | null => cases hkept'.hasLabels
      | bool | int | float | str | list | dict => rfl
    obtain ⟨status', hstatus', hstatusSame⟩ : ∃ s, row.get? "status" = some s ∧ s.sorted = status.sorted := by
      have hrest := happlied.rest "status" (by decide) (by decide) (by decide)
      rw [hstatus, Option.map_some] at hrest
      exact Option.map_eq_some_iff.mp hrest
    obtain ⟨publicId', hpublic', hpublicSame⟩ : ∃ s, row.get? "public_id" = some s ∧ s.sorted = publicId.sorted := by
      have hrest := happlied.rest "public_id" (by decide) (by decide) (by decide)
      rw [hpublic, Option.map_some] at hrest
      exact Option.map_eq_some_iff.mp hrest
    refine ⟨_, (preview_existing hcap hcontext' (Json.getOrNull_of_get? hlater.node) hrowExists).mpr
      ⟨rowLabels, origin', stored', status', publicId', by rw [hpool]; exact hkept', hstatus', hpublic', rfl⟩, ?_⟩
    have horiginValid : Valid T (.dict origin) := by
      cases hlookup : Json.lookup "node_registration" labels with
      | none =>
          have hnil := hkept.labelled.isOrigin
          rw [hlookup] at hnil
          rw [← hnil]
          exact valid_dict.mpr ⟨List.nodup_nil, fun m hm => absurd hm List.not_mem_nil⟩
      | some v =>
          have hv := hkept.labelled.isOrigin
          rw [hlookup] at hv
          rw [← hv]
          exact Json.valid_of_get? (v := .dict labels) (Json.valid_of_get? holdValid hkept.hasLabels) hlookup
    have hmerged := sorted_merged hrowLabels (Json.valid_of_get? holdValid hkept.hasLabels) horiginValid horigin' hsame hosame
    rw [hdesired]
    unfold desiredRow
    refine sorted_dict_congr ?_
    simp only [canonicalEntries, List.map_cons, List.map_nil, hstatusSame, hpublicSame, hmerged]

/-! ## A small row -/

/-- The report of the small node. -/
def smallReport : Json :=
  reportDocument smallConfig (Isoformat.isoformat smallMachine.now) "f49b7688-df8c-4854-9e8f-7916b6f51920" "v" "t"
    (capacityDocument ⟨8, 4, 1⟩ smallConfig (.str (Isoformat.isoformat smallMachine.now))) 1073741824 7 ByteArray.empty

/-- Its row in the database, parked, with a label of its own. -/
def smallRow : Json :=
  .dict [("name", .str "n"), ("api_host", .str "https://n:8006"), ("status", .str "MAINTENANCE"), ("cpu_threads", .int 4),
    ("memory_mb", .int 2), ("disk_capacity_gb", .int 1), ("vm_bridge", .str "b"), ("storage", .str "s"),
    ("ip_pool_id", .int 3), ("labels", .dict [("rack", .str "r1")]), ("public_id", .null)]

/-- The snapshot of a row. -/
def smallSnapshot (row : Json) : Json :=
  .dict [("identity", .dict [("database", .str "d"), ("user", .str "postgres"), ("local_socket", .bool true),
      ("primary", .bool true), ("system_identifier", .str "7600000000")]),
    ("pool", .dict [("id", .int 3), ("name", .str "p"), ("cidr", .str "100.66.0.0/16"), ("gateway", .str "100.66.0.1")]),
    ("allocated_memory_mb", .int 1), ("allocated_vcpu", .int 1), ("allocated_disk_gb", .int 0), ("node", row)]

/-- What the report makes of it. -/
def smallDesired : Json :=
  desiredRow smallConfig (.str "MAINTENANCE") (.int 8) (.int 3) (.int 1) (.int 3) .null
    (("rack", .str "r1") :: newLabels smallConfig
      (capacityDocument ⟨8, 4, 1⟩ smallConfig (.str (Isoformat.isoformat smallMachine.now))) [])


theorem validateReport_small : validateReport id smallReport smallMachine.now = .ok smallConfig :=
  validateReport_document (T := zeroText) (show fromDict id smallValue = .ok smallConfig from rfl)
    ⟨by decide, by decide, by decide, by decide⟩
    ⟨Json.valid_int (by decide), Json.valid_int (by decide), by decide⟩ (by decide) (by decide +kernel) ⟨Int.le_refl _, by omega⟩

theorem valid_smallReport : Valid zeroText smallReport := by
  have hvalidate := validate_attributes (validate_of_fromDict (show fromDict id smallValue = .ok smallConfig from rfl))
  exact valid_reportDocument (validate_spec hvalidate).2 ⟨by decide, by decide, by decide, by decide⟩
    ⟨Json.valid_int (by decide), Json.valid_int (by decide), by decide⟩

theorem valid_smallSnapshot {row : Json} (h : Valid zeroText row) : Valid zeroText (smallSnapshot row) := by
  have hstr : ∀ s : String, Valid zeroText (.str s) := fun s => by rw [Valid]; trivial
  have hbool : ∀ b : Bool, Valid zeroText (.bool b) := fun b => by rw [Valid]; trivial
  have hint : ∀ n : Int, n.natAbs < 10 ^ 20 → Valid zeroText (.int n) := fun n hn => Json.valid_int hn
  unfold smallSnapshot
  simp [valid_dict, hstr, hbool, hint, h]

theorem valid_smallRow : Valid zeroText smallRow := by
  have hstr : ∀ s : String, Valid zeroText (.str s) := fun s => by rw [Valid]; trivial
  have hint : ∀ n : Int, n.natAbs < 10 ^ 20 → Valid zeroText (.int n) := fun n hn => Json.valid_int hn
  have hnull : Valid zeroText .null := by rw [Valid]; trivial
  unfold smallRow
  simp [valid_dict, hstr, hint, hnull]

theorem valid_smallDesired : Valid zeroText smallDesired := by
  have hstr : ∀ s : String, Valid zeroText (.str s) := fun s => by rw [Valid]; trivial
  have hbool : ∀ b : Bool, Valid zeroText (.bool b) := fun b => by rw [Valid]; trivial
  have hint : ∀ n : Int, n.natAbs < 10 ^ 20 → Valid zeroText (.int n) := fun n hn => Json.valid_int hn
  have hnull : Valid zeroText .null := by rw [Valid]; trivial
  have hcapacity := Json.valid_of_get? valid_smallReport (k := "placement_capacity") rfl
  have hmerge : Json.merge [] [("cluster", .str smallConfig.cluster)] = [("cluster", .str smallConfig.cluster)] := rfl
  unfold smallDesired desiredRow newLabels
  rw [hmerge]
  simp [valid_dict, hstr, hbool, hint, hnull, hcapacity]

/-- The database took the desired values over. -/
theorem applied_small {labels : List (String × Json)} {desired : Json} (h : desired = desiredRow smallConfig
    (.str "MAINTENANCE") (.int 8) (.int 3) (.int 1) (.int 3) .null labels) : Applied smallRow desired desired := by
  refine ⟨fun _ _ => rfl, rfl, fun k hk hlabels _ => ?_⟩
  simp only [writtenColumns, List.mem_cons, List.not_mem_nil, or_false, not_or] at hk
  obtain ⟨hcpu, hmemory, hdisk⟩ := hk
  rw [h]
  unfold smallRow desiredRow
  simp only [Json.get?]
  iterate 11 unfold Json.lookup
  simp only [if_neg (Ne.symm hcpu), if_neg (Ne.symm hmemory), if_neg (Ne.symm hdisk), if_neg (Ne.symm hlabels)]
  rfl

theorem reregistration_frame_small :
    ∃ desired, preview id smallReport (smallSnapshot smallRow) = .ok desired ∧
      (∃ before after, Frame (smallSnapshot smallRow) smallRow desired before after) ∧
      ∃ again, preview id smallReport (smallSnapshot desired) = .ok again ∧ again.sorted = desired.sorted := by
  have hpreview : preview id smallReport (smallSnapshot smallRow) = .ok smallDesired := by decide +kernel
  obtain ⟨hframe, hagain⟩ := reregistration_frame zeroText id valid_smallReport (valid_smallSnapshot valid_smallRow)
    validateReport_small rfl rfl hpreview
  have hlater : Snapshot (smallSnapshot smallRow) smallDesired (smallSnapshot smallDesired) := ⟨rfl, by decide⟩
  exact ⟨smallDesired, hpreview, hframe,
    hagain smallDesired _ (applied_small rfl) hlater (valid_smallSnapshot valid_smallDesired)⟩

end Registration
end PickleInfra
