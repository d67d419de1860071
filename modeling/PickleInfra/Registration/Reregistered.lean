import PickleInfra.Registration.Preview
import PickleInfra.Registration.Stored

/-!
# `Registration.Reregistered` — what `preview` of an existing node keeps

The checks of an existing row as a relation first, clause by clause, in both directions: what they let through, and
that a row which took over the desired values passes them again.
-/

namespace PickleInfra
namespace Registration

open Python Network JsonText

variable {T : FloatText} {nfkc : List Char → List Char} {c : Config} {pool cap snapshot old : Json}
  {labels origin : List (String × Json)} {stored : Json}

/-! ## The routing -/

/-- The row is the one of the configuration. -/
structure Routed (c : Config) (pool old : Json) : Prop where
  publicId : ∃ v, old.get? "public_id" = some v ∧ (publicIdJson c.existingPublicId).equal v = true
  apiHost : ∃ v, old.get? "api_host" = some v ∧ v.equal (.str c.apiUrl) = true
  bridge : ∃ v, old.get? "vm_bridge" = some v ∧ v.equal (.str c.bridge) = true
  storage : ∃ v, old.get? "storage" = some v ∧ v.equal (.str c.storage) = true
  pool : ∃ v id, old.get? "ip_pool_id" = some v ∧ pool.get? "id" = some id ∧ v.equal id = true

theorem checkRouting_iff {u : Unit} : checkRouting c pool old = .ok u ↔ Routed c pool old := by
  unfold checkRouting
  simp only [bind_eq_ok, Json.item_eq_ok, require_eq_ok, Bool.and_eq_true]
  constructor
  · rintro ⟨publicId, hid, _, hpublic, host, hhost, bridge, hbridge, storage, hstorage, poolId, hpool, id, hget,
      ⟨⟨hhost', hbridge'⟩, hstorage'⟩, hpool'⟩
    exact ⟨⟨publicId, hid, hpublic⟩, ⟨host, hhost, hhost'⟩, ⟨bridge, hbridge, hbridge'⟩, ⟨storage, hstorage, hstorage'⟩,
      poolId, id, hpool, hget, hpool'⟩
  · rintro ⟨⟨publicId, hid, hpublic⟩, ⟨host, hhost, hhost'⟩, ⟨bridge, hbridge, hbridge'⟩, ⟨storage, hstorage, hstorage'⟩,
      poolId, id, hpool, hget, hpool'⟩
    exact ⟨publicId, hid, (), hpublic, host, hhost, bridge, hbridge, storage, hstorage, poolId, hpool, id, hget,
      ⟨⟨hhost', hbridge'⟩, hstorage'⟩, hpool'⟩

/-- Another row with the same values under these keys is routed as well. -/
theorem Routed.same {row : Json} (h : Routed c pool old)
    (hrow : ∀ k ∈ ["public_id", "api_host", "vm_bridge", "storage", "ip_pool_id"],
      (row.get? k).map Json.sorted = (old.get? k).map Json.sorted) : Routed c pool row := by
  have hget : ∀ k ∈ ["public_id", "api_host", "vm_bridge", "storage", "ip_pool_id"], ∀ v, old.get? k = some v →
      ∃ w, row.get? k = some w ∧ w.sorted = v.sorted := by
    intro k hk v hv
    have hmap := hrow k hk
    rw [hv, Option.map_some] at hmap
    exact Option.map_eq_some_iff.mp hmap
  obtain ⟨publicId, hid, hpublic⟩ := h.publicId
  obtain ⟨host, hhost, hhost'⟩ := h.apiHost
  obtain ⟨bridge, hbridge, hbridge'⟩ := h.bridge
  obtain ⟨storage, hstorage, hstorage'⟩ := h.storage
  obtain ⟨poolId, id, hpool, hgetId, hpool'⟩ := h.pool
  obtain ⟨w1, h1, hs1⟩ := hget _ (by simp) _ hid
  obtain ⟨w2, h2, hs2⟩ := hget _ (by simp) _ hhost
  obtain ⟨w3, h3, hs3⟩ := hget _ (by simp) _ hbridge
  obtain ⟨w4, h4, hs4⟩ := hget _ (by simp) _ hstorage
  obtain ⟨w5, h5, hs5⟩ := hget _ (by simp) _ hpool
  exact ⟨⟨w1, h1, by rw [Json.equal_congr rfl hs1]; exact hpublic⟩, ⟨w2, h2, by rw [Json.equal_congr hs2 rfl]; exact hhost'⟩,
    ⟨w3, h3, by rw [Json.equal_congr hs3 rfl]; exact hbridge'⟩, ⟨w4, h4, by rw [Json.equal_congr hs4 rfl]; exact hstorage'⟩,
    w5, id, h5, hgetId, by rw [Json.equal_congr hs5 rfl]; exact hpool'⟩

/-! ## The labels -/

/-- What the labels that have a meaning here hold. -/
structure Labelled (c : Config) (labels origin : List (String × Json)) (stored : Json) : Prop where
  isOrigin : (Json.lookup "node_registration" labels).getD (.dict []) = .dict origin
  cluster : origin = [] ∨ Json.lookup "cluster" origin = some (.str c.cluster)
  isStored : (Json.lookup "placement_capacity" labels).getD (.dict []) = stored
  capacity : ∀ v, Json.lookup "placement_capacity" labels = some v → validateCapacityDocument v = .ok ()
  nic : ∀ v, Json.lookup "vm_nic_requirements" labels = some v → isNic c v = true
  gpu : (Json.lookup "gpu" labels).getD (.bool false) = .bool c.gpuNode

theorem cluster_iff : (origin.isEmpty || ((Json.dict origin).getOrNull "cluster").equal (.str c.cluster)) = true ↔
    origin = [] ∨ Json.lookup "cluster" origin = some (.str c.cluster) := by
  rw [Bool.or_eq_true, List.isEmpty_iff, Json.equal_str_right]
  constructor
  · rintro (h | h)
    · exact .inl h
    · exact .inr (get?_of_getOrNull h (by simp))
  · rintro (h | h)
    · exact .inl h
    · exact .inr (Json.getOrNull_of_get? (v := .dict origin) h)

theorem isBool_iff {b : Bool} {v : Json} : isBool b v = true ↔ v = .bool b := by
  cases v with
  | bool x =>
      unfold isBool
      rw [decide_eq_true_eq]
      exact ⟨fun h => h ▸ rfl, fun h => Json.bool.inj h⟩
  | null | int | float | str | list | dict => exact ⟨fun h => (by cases h), fun h => (by cases h)⟩

theorem isDict_iff {v : Json} : v.isDict = true ↔ ∃ ms, v = .dict ms := by
  cases v with
  | dict ms => exact ⟨fun _ => ⟨ms, rfl⟩, fun _ => rfl⟩
  | null | bool | int | float | str | list => exact ⟨fun h => (by cases h), fun ⟨_, h⟩ => (by cases h)⟩

theorem checkLabels_iff : checkLabels c labels = .ok (origin, stored) ↔ Labelled c labels origin stored := by
  unfold checkLabels
  simp only [bind_eq_ok, require_eq_ok, isDict_iff, isBool_iff]
  constructor
  · rintro ⟨_, ⟨ms, hms⟩, _, hcluster, _, hstored, _, hnic, _, hgpu, h⟩
    obtain ⟨horigin, hvalue⟩ := Prod.mk.inj (Except.ok.inj h)
    rw [hms] at horigin hcluster
    cases horigin
    refine ⟨hms, cluster_iff.mp hcluster, hvalue, fun v hv => ?_, fun v hv => ?_, hgpu⟩
    · rw [hv] at hstored
      exact hstored
    · rw [hv] at hnic
      exact hnic
  · intro h
    refine ⟨(), ⟨origin, h.isOrigin⟩, (), ?_, (), ?_, (), ?_, (), h.gpu, ?_⟩
    · rw [h.isOrigin]
      exact cluster_iff.mpr h.cluster
    · cases hv : Json.lookup "placement_capacity" labels with
      | none => rfl
      | some v => exact h.capacity v hv
    · cases hv : Json.lookup "vm_nic_requirements" labels with
      | none => rfl
      | some v => exact h.nic v hv
    · rw [h.isOrigin, h.isStored]
      rfl

/-! ## The existing row -/

/-- The row repeats the capacity of the report, in its columns too. -/
structure Repeats (old stored cap : Json) (n : Numbers) : Prop where
  capacity : (without "measured_at" stored).equal (without "measured_at" cap) = true
  cpu : ∃ v, old.get? "cpu_threads" = some v ∧ v.equal (.int n.physical.cpuThreads) = true
  memory : ∃ v, old.get? "memory_mb" = some v ∧ v.equal (.int n.allocatable.memoryMb) = true
  disk : ∃ v, old.get? "disk_capacity_gb" = some v ∧ v.equal (.int n.physical.diskGb) = true

theorem capacityInt_eq_ok {group key : String} {k : Int} :
    capacityInt cap group key = .ok k ↔ ∃ x, cap.get? group = some x ∧ x.get? key = some (.int k) := by
  unfold capacityInt
  simp only [bind_eq_ok, Json.item_eq_ok]
  constructor
  · rintro ⟨x, hx, y, hy, h⟩
    cases y with
    | int m =>
        cases h
        exact ⟨x, hx, hy⟩
    | null | bool | float | str | list | dict => cases h
  · rintro ⟨x, hx, hy⟩
    exact ⟨x, hx, _, hy, rfl⟩

theorem capacityInt_group {group key : String} {d : Dimensions} (h : IsGroup group d cap) (hkey : key ∈ dimensions) :
    capacityInt cap group key = .ok (d.at key) := by
  obtain ⟨x, hx, -, hnumbers⟩ := h
  exact capacityInt_eq_ok.mpr ⟨x, hx, (hnumbers key hkey).1⟩

theorem unchanged_true_iff {n : Numbers} (hcap : IsCapacity cap n) :
    unchanged old stored cap = .ok true ↔ Repeats old stored cap n := by
  have hcpu := capacityInt_group hcap.physical (show "cpu_threads" ∈ dimensions by decide)
  have hmemory := capacityInt_group hcap.allocatable (show "memory_mb" ∈ dimensions by decide)
  have hdisk := capacityInt_group hcap.physical (show "disk_gb" ∈ dimensions by decide)
  unfold unchanged
  split
  · next hequal =>
    simp only [bind_eq_ok, Json.item_eq_ok, hcpu, hmemory, hdisk]
    constructor
    · rintro ⟨v1, h1, v2, h2, v3, h3, k1, hk1, k2, hk2, k3, hk3, h⟩
      cases hk1
      cases hk2
      cases hk3
      have hall := Except.ok.inj h
      rw [Bool.and_eq_true, Bool.and_eq_true] at hall
      exact ⟨hequal, ⟨v1, h1, hall.1.1⟩, ⟨v2, h2, hall.1.2⟩, ⟨v3, h3, hall.2⟩⟩
    · rintro ⟨-, ⟨v1, h1, he1⟩, ⟨v2, h2, he2⟩, ⟨v3, h3, he3⟩⟩
      refine ⟨v1, h1, v2, h2, v3, h3, _, rfl, _, rfl, _, rfl, ?_⟩
      exact congrArg Except.ok (Bool.and_eq_true_iff.mpr ⟨Bool.and_eq_true_iff.mpr ⟨he1, he2⟩, he3⟩)
  · next hequal => exact ⟨fun h => (by cases h), fun h => absurd h.capacity hequal⟩

/-- What `existing_labels` lets through. -/
structure Kept (c : Config) (pool cap snapshot old : Json) (labels origin : List (String × Json)) (stored : Json) :
    Prop where
  routed : Routed c pool old
  hasLabels : old.get? "labels" = some (.dict labels)
  labelled : Labelled c labels origin stored
  active : ∃ same status, unchanged old stored cap = .ok same ∧ old.get? "status" = some status ∧
    (status.isStr "ACTIVE" = true → same = true)
  allocated : checkAllocated snapshot cap = .ok ()

theorem existingLabels_iff {merged : List (String × Json)} : existingLabels c pool cap snapshot old = .ok merged ↔
    ∃ labels origin stored, Kept c pool cap snapshot old labels origin stored ∧
      merged = Json.merge labels (newLabels c cap origin) := by
  unfold existingLabels
  simp only [bind_eq_ok, Json.item_eq_ok, require_eq_ok, isDict_iff, checkRouting_iff]
  constructor
  · rintro ⟨_, hrouted, v, hv, _, ⟨labels, rfl⟩, ⟨origin, stored⟩, hchecked, h⟩
    dsimp only at h
    obtain ⟨same, hsame, status, hstatus, _, hactive, _, hallocated, hmerged⟩ := h
    refine ⟨labels, origin, stored, ⟨hrouted, hv, checkLabels_iff.mp hchecked, ⟨same, status, hsame, hstatus, ?_⟩,
      hallocated⟩, (Except.ok.inj hmerged).symm⟩
    intro hstr
    rw [hstr] at hactive
    exact hactive
  · rintro ⟨labels, origin, stored, h, rfl⟩
    obtain ⟨same, status, hsame, hstatus, hactive⟩ := h.active
    refine ⟨(), h.routed, _, h.hasLabels, (), ⟨labels, rfl⟩, (origin, stored), checkLabels_iff.mpr h.labelled, same, hsame,
      status, hstatus, (), ?_, (), h.allocated, rfl⟩
    cases hstr : status.isStr "ACTIVE" with
    | false => rfl
    | true =>
        rw [hactive hstr]
        rfl

/-! ## The merged labels -/

theorem nodup_newLabels : ((newLabels c cap origin).map Prod.fst).Nodup := by simp [newLabels]

theorem lookup_merged (k : String) : Json.lookup k (Json.merge labels (newLabels c cap origin)) =
    (Json.lookup k (newLabels c cap origin)).or (Json.lookup k labels) :=
  Json.lookup_merge nodup_newLabels k labels

/-- The labels that a registration writes. -/
def writtenLabels : List String := ["gpu", "placement_capacity", "node_registration"]

theorem lookup_merged_other {k : String} (hk : k ∉ writtenLabels) :
    Json.lookup k (Json.merge labels (newLabels c cap origin)) = Json.lookup k labels := by
  simp only [writtenLabels, List.mem_cons, List.not_mem_nil, or_false, not_or] at hk
  rw [lookup_merged]
  simp [newLabels, Json.lookup, Ne.symm hk.1, Ne.symm hk.2.1, Ne.symm hk.2.2]

theorem lookup_merged_gpu :
    Json.lookup "gpu" (Json.merge labels (newLabels c cap origin)) = some (.bool c.gpuNode) := by
  rw [lookup_merged]
  rfl

theorem lookup_merged_capacity :
    Json.lookup "placement_capacity" (Json.merge labels (newLabels c cap origin)) = some cap := by
  rw [lookup_merged]
  rfl

theorem lookup_merged_registration :
    Json.lookup "node_registration" (Json.merge labels (newLabels c cap origin)) =
      some (.dict (Json.merge origin [("cluster", .str c.cluster)])) := by
  rw [lookup_merged]
  rfl

theorem lookup_origin (k : String) : Json.lookup k (Json.merge origin [("cluster", .str c.cluster)]) =
    if k = "cluster" then some (.str c.cluster) else Json.lookup k origin := by
  rw [Json.lookup_merge (by simp)]
  by_cases hk : k = "cluster"
  · subst hk
    rfl
  · rw [if_neg hk]
    simp [Json.lookup, Ne.symm hk]

/-! ## The preview of an existing row -/

/-- What `preview` takes from the report, the identity and the pool. -/
structure Context (nfkc : List Char → List Char) (report snapshot : Json) (c : Config) (cap poolId : Json) : Prop where
  config : ∃ v, report.get? "config" = some v ∧ fromDict nfkc v = .ok c
  identity : ∃ v, snapshot.get? "identity" = some v ∧ validateDatabase c v = .ok ()
  pool : checkPool c (snapshot.getOrNull "pool") = .ok ()
  capacity : report.get? "placement_capacity" = some cap
  poolId : (snapshot.getOrNull "pool").get? "id" = some poolId

theorem preview_existing {report desired poolId : Json} {n : Numbers} (hcap : IsCapacity cap n)
    (hcontext : Context nfkc report snapshot c cap poolId) (hold : snapshot.getOrNull "node" = old)
    (hexists : old.isNull = false) :
    preview nfkc report snapshot = .ok desired ↔ ∃ labels origin stored status publicId,
      Kept c (snapshot.getOrNull "pool") cap snapshot old labels origin stored ∧ old.get? "status" = some status ∧
      old.get? "public_id" = some publicId ∧
      desired = desiredRow c status (.int n.physical.cpuThreads) (.int n.allocatable.memoryMb) (.int n.physical.diskGb)
        poolId publicId (Json.merge labels (newLabels c cap origin)) := by
  obtain ⟨value, hvalue, hconfig⟩ := hcontext.config
  obtain ⟨identity, hidentity, hdatabase⟩ := hcontext.identity
  have hcpu := capacityInt_group hcap.physical (show "cpu_threads" ∈ dimensions by decide)
  have hmemory := capacityInt_group hcap.allocatable (show "memory_mb" ∈ dimensions by decide)
  have hdisk := capacityInt_group hcap.physical (show "disk_gb" ∈ dimensions by decide)
  unfold preview
  dsimp only
  rw [hold, hexists]
  simp only [Bool.false_eq_true, if_false, bind_eq_ok, Json.item_eq_ok, existingLabels_iff]
  constructor
  · rintro ⟨_, hv, c', hc', _, -, _, -, _, -, _, hcap', cpu, hcpu', memory, hmemory', disk, hdisk', id, hid, merged,
      ⟨labels, origin, stored, hkept, rfl⟩, status, hstatus, publicId, hpublic, h⟩
    -- the report and the pool are those of the context
    rw [hvalue] at hv
    cases hv
    rw [hconfig] at hc'
    cases hc'
    rw [hcontext.capacity] at hcap'
    cases hcap'
    rw [hcpu] at hcpu'
    rw [hmemory] at hmemory'
    rw [hdisk] at hdisk'
    rw [hcontext.poolId] at hid
    cases hcpu'
    cases hmemory'
    cases hdisk'
    cases hid
    exact ⟨labels, origin, stored, status, publicId, hkept, hstatus, hpublic, (Except.ok.inj h).symm⟩
  · rintro ⟨labels, origin, stored, status, publicId, hkept, hstatus, hpublic, rfl⟩
    exact ⟨value, hvalue, c, hconfig, identity, hidentity, (), hdatabase, (), hcontext.pool, cap, hcontext.capacity, _,
      hcpu, _, hmemory, _, hdisk, poolId, hcontext.poolId, _, ⟨labels, origin, stored, hkept, rfl⟩, status, hstatus,
      publicId, hpublic, rfl⟩

theorem context_of_preview {report desired : Json} (hexists : (snapshot.getOrNull "node").isNull = false)
    (h : preview nfkc report snapshot = .ok desired) :
    ∃ c cap poolId, Context nfkc report snapshot c cap poolId := by
  unfold preview at h
  dsimp only at h
  rw [hexists] at h
  simp only [Bool.false_eq_true, if_false, bind_eq_ok, Json.item_eq_ok] at h
  obtain ⟨value, hvalue, c, hconfig, identity, hidentity, _, hdatabase, _, hpool, cap, hcap, _, -, _, -, _, -, poolId,
    hid, -⟩ := h
  exact ⟨c, cap, poolId, ⟨value, hvalue, hconfig⟩, ⟨identity, hidentity, hdatabase⟩, hpool, hcap, hid⟩

end Registration
end PickleInfra
