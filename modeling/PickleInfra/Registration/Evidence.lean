import PickleInfra.Registration.Report

/-!
# `Registration.Evidence` — what `collect` reports is accepted

`capacity` computes what `validate_capacity_document` checks again, in either schema version. So a report is
accepted where it is read back, for as long as it is fresh.
-/

namespace PickleInfra
namespace Registration

open Python Network

variable {T : FloatText} {nfkc : List Char → List Char}

/-! ## Capacities that fit -/

/-- The vCPU before the committed ones are taken off. -/
def budget (d : Dimensions) (c : Config) : Int := (d.cpuThreads - c.reserveCpuThreads) * c.cpuAllocationRatio

/-- The checks of `capacity` on measured dimensions. -/
structure Fits (d : Dimensions) (c : Config) : Prop where
  cpu : 1 ≤ d.cpuThreads ∧ d.cpuThreads ≤ 2147483647 ∧ c.reserveCpuThreads < d.cpuThreads
  memory : 1 ≤ d.memoryMb ∧ d.memoryMb ≤ 2147483647 ∧ c.reserveMemoryMb < d.memoryMb
  disk : 1 ≤ d.diskGb ∧ d.diskGb ≤ maxBigint ∧ c.reserveDiskGb < d.diskGb
  budget : budget d c ≤ maxBigint ∧ c.committedVcpu < budget d c

def allocatable (d : Dimensions) (c : Config) : Dimensions where
  cpuThreads := budget d c - c.committedVcpu
  memoryMb := d.memoryMb - c.reserveMemoryMb
  diskGb := d.diskGb - c.reserveDiskGb

/-- What `capacity` returns. -/
def capacityDocument (d : Dimensions) (c : Config) (measuredAt : Json) : Json :=
  .dict ([("schema_version", .int (if c.isLegacy then 1 else 2)), ("physical", d.json), ("reserved", c.reserved.json),
    ("allocatable", (allocatable d c).json), ("measured_at", measuredAt)]
    ++ if c.isLegacy then []
      else [("cpu_policy", .dict [("allocation_ratio", .int c.cpuAllocationRatio),
        ("committed_vcpu", .int c.committedVcpu)])])

theorem hasKeys_json (d : Dimensions) : d.json.hasKeys dimensions = true := by
  simp [Dimensions.json, Json.hasKeys, dimensions]

/-- One dimension passes the loop of `capacity` within its range. -/
theorem measuredDimension_eq_ok {c : Config} {key : String} {n : Int} {e : String × Int} :
    measuredDimension c (key, .int n) = .ok e ↔
      e = (key, n) ∧ 1 ≤ n ∧ n ≤ columnMax key ∧ c.reserved.at key < n := by
  unfold measuredDimension
  simp only [bind_eq_ok, positiveInt_eq_ok, require_eq_ok, decide_eq_true_eq]
  constructor
  · rintro ⟨_, ⟨h, h1⟩, _, hmax, _, hreserve, he⟩
    cases h
    cases he
    exact ⟨rfl, h1, hmax, hreserve⟩
  · rintro ⟨rfl, h1, hmax, hreserve⟩
    exact ⟨n, ⟨rfl, h1⟩, (), hmax, (), hreserve, rfl⟩

/-- **`capacity` on measured dimensions**: it returns where they fit. -/
theorem capacity_eq_ok {d : Dimensions} {c : Config} {measuredAt doc : Json}
    (hvalid : validate nfkc c.attributes = .ok c) :
    capacity nfkc d.json c measuredAt = .ok doc ↔ doc = capacityDocument d c measuredAt ∧ Fits d c := by
  unfold capacity
  rw [hvalid]
  simp only [bind_eq_ok, require_eq_ok, hasKeys_json]
  have hmembers : d.json.members = [("cpu_threads", .int d.cpuThreads), ("memory_mb", .int d.memoryMb),
      ("disk_gb", .int d.diskGb)] := rfl
  rw [hmembers]
  have hcpu : c.reserved.at "cpu_threads" = c.reserveCpuThreads := rfl
  have hmemory : c.reserved.at "memory_mb" = c.reserveMemoryMb := rfl
  have hdisk : c.reserved.at "disk_gb" = c.reserveDiskGb := rfl
  constructor
  · rintro ⟨_, -, _, -, numbers, hnumbers, _, hbudget, hdoc⟩
    -- the three dimensions in their order
    rw [mapM_eq_ok] at hnumbers
    cases hnumbers with
    | cons hfirst hrest =>
      cases hrest with
      | cons hsecond hrest =>
        cases hrest with
        | cons hthird hrest =>
          cases hrest with
          | nil =>
            obtain ⟨rfl, h1, hmax1, hr1⟩ := measuredDimension_eq_ok.mp hfirst
            obtain ⟨rfl, h2, hmax2, hr2⟩ := measuredDimension_eq_ok.mp hsecond
            obtain ⟨rfl, h3, hmax3, hr3⟩ := measuredDimension_eq_ok.mp hthird
            rw [Bool.and_eq_true, decide_eq_true_eq, decide_eq_true_eq] at hbudget
            rw [hcpu] at hr1
            rw [hmemory] at hr2
            rw [hdisk] at hr3
            refine ⟨?_, ⟨h1, hmax1, hr1⟩, ⟨h2, hmax2, hr2⟩, ⟨h3, hmax3, hr3⟩, hbudget⟩
            cases hdoc
            rfl
  · rintro ⟨rfl, hfits⟩
    refine ⟨c, rfl, (), trivial, [("cpu_threads", d.cpuThreads), ("memory_mb", d.memoryMb), ("disk_gb", d.diskGb)],
      mapM_eq_ok.mpr (.cons ?_ (.cons ?_ (.cons ?_ .nil))), (), ?_, rfl⟩
    · exact measuredDimension_eq_ok.mpr ⟨rfl, hfits.cpu.1, hfits.cpu.2.1, hfits.cpu.2.2⟩
    · exact measuredDimension_eq_ok.mpr ⟨rfl, hfits.memory.1, hfits.memory.2.1, hfits.memory.2.2⟩
    · exact measuredDimension_eq_ok.mpr ⟨rfl, hfits.disk.1, hfits.disk.2.1, hfits.disk.2.2⟩
    · rw [Bool.and_eq_true, decide_eq_true_eq, decide_eq_true_eq]
      exact hfits.budget

/-- **Every allocatable dimension of a capacity that fits is positive and in range**, and so is the budget. -/
theorem allocatable_bounds {d : Dimensions} {c : Config} (hc : c.Valid nfkc) (h : Fits d c) :
    ∀ key ∈ dimensions, 1 ≤ (allocatable d c).at key ∧ (allocatable d c).at key ≤ maxBigint := by
  have hreserves := hc.reserves
  have hcommitted := hc.committed
  obtain ⟨hcpu, hmemory, hdisk, hbudget⟩ := h
  have hmax : maxBigint = 9223372036854775807 := rfl
  intro key hkey
  simp only [dimensions, List.mem_cons, List.not_mem_nil, or_false] at hkey
  rcases hkey with rfl | rfl | rfl
  · show 1 ≤ budget d c - c.committedVcpu ∧ budget d c - c.committedVcpu ≤ maxBigint
    omega
  · show 1 ≤ d.memoryMb - c.reserveMemoryMb ∧ d.memoryMb - c.reserveMemoryMb ≤ maxBigint
    omega
  · show 1 ≤ d.diskGb - c.reserveDiskGb ∧ d.diskGb - c.reserveDiskGb ≤ maxBigint
    omega

/-! ## The stored document -/

/-- A group of dimensions in range is read back. -/
theorem storedGroup_json {group : String} {value : Json} {d : Dimensions}
    (hitem : value.get? group = some d.json)
    (h : ∀ key ∈ dimensions, storedLeast group ≤ d.at key ∧ d.at key ≤ storedMax group key) :
    storedGroup group value = .ok d := by
  have hnumber : ∀ key ∈ dimensions, checkNumber group (key, .int (d.at key)) = .ok () := by
    intro key hkey
    unfold checkNumber
    exact bind_eq_ok.mpr ⟨d.at key, positiveInt_eq_ok.mpr ⟨rfl, (h key hkey).1⟩,
      require_eq_ok.mpr (decide_eq_true (h key hkey).2)⟩
  have hall : d.json.members.mapM (checkNumber group) = .ok [(), (), ()] := by
    rw [mapM_eq_ok]
    exact .cons (hnumber "cpu_threads" (by decide)) (.cons (hnumber "memory_mb" (by decide))
      (.cons (hnumber "disk_gb" (by decide)) .nil))
  unfold storedGroup
  rw [Json.item_of_get? hitem]
  exact bind_eq_ok.mpr ⟨_, rfl, bind_eq_ok.mpr ⟨(), require_eq_ok.mpr (hasKeys_json d),
    bind_eq_ok.mpr ⟨_, hall, rfl⟩⟩⟩

section Document

variable {d : Dimensions} {c : Config} {measuredAt : Json}

theorem getOrNull_version : (capacityDocument d c measuredAt).getOrNull "schema_version" =
    .int (if c.isLegacy then 1 else 2) := rfl

theorem get?_physical : (capacityDocument d c measuredAt).get? "physical" = some d.json := rfl

theorem get?_reserved : (capacityDocument d c measuredAt).get? "reserved" = some c.reserved.json := rfl

theorem get?_allocatable : (capacityDocument d c measuredAt).get? "allocatable" = some (allocatable d c).json := rfl

theorem getOrNull_measuredAt : (capacityDocument d c measuredAt).getOrNull "measured_at" = measuredAt := rfl

end Document

/-- The policy of a configuration that is not the legacy one is read back. -/
theorem storedPolicy_document {d : Dimensions} {c : Config} {measuredAt : Json} (hc : c.Valid nfkc)
    (hlegacy : c.isLegacy = false) :
    storedPolicy (capacityDocument d c measuredAt) = .ok (c.cpuAllocationRatio, c.committedVcpu) := by
  have hitem : (capacityDocument d c measuredAt).get? "cpu_policy" = some (.dict [("allocation_ratio",
      .int c.cpuAllocationRatio), ("committed_vcpu", .int c.committedVcpu)]) := by
    unfold capacityDocument
    rw [hlegacy]
    rfl
  unfold storedPolicy
  rw [Json.item_of_get? hitem]
  refine bind_eq_ok.mpr ⟨_, rfl, bind_eq_ok.mpr ⟨(), require_eq_ok.mpr ?_, bind_eq_ok.mpr ⟨c.cpuAllocationRatio, ?_,
    bind_eq_ok.mpr ⟨c.committedVcpu, positiveInt_eq_ok.mpr ⟨rfl, hc.committed.1⟩,
      bind_eq_ok.mpr ⟨(), require_eq_ok.mpr (decide_eq_true hc.committed.2), rfl⟩⟩⟩⟩⟩
  · simp [Json.hasKeys]
  · exact if_pos hc.ratio

/-- **The validator accepts what `capacity` computed.** -/
theorem validateCapacityDocument_capacity {d : Dimensions} {c : Config} {measuredAt : String}
    {moment : Isoformat.Moment} (hc : c.Valid nfkc) (h : Fits d c)
    (hmoment : Isoformat.fromisoformat measuredAt = some moment) (haware : moment.isAware = true) :
    validateCapacityDocument (capacityDocument d c (.str measuredAt)) = .ok () := by
  have hbounds := allocatable_bounds hc h
  have hreserves := hc.reserves
  obtain ⟨hcpu, hmemory, hdisk, hbudget⟩ := h
  have hmax : maxBigint = 9223372036854775807 := rfl
  have hphysical : ∀ key ∈ dimensions, storedLeast "physical" ≤ d.at key ∧ d.at key ≤ storedMax "physical" key := by
    intro key hkey
    simp only [dimensions, List.mem_cons, List.not_mem_nil, or_false] at hkey
    rcases hkey with rfl | rfl | rfl
    · exact ⟨hcpu.1, hcpu.2.1⟩
    · exact ⟨hmemory.1, hmemory.2.1⟩
    · exact ⟨hdisk.1, hdisk.2.1⟩
  have hreserved : ∀ key ∈ dimensions,
      storedLeast "reserved" ≤ c.reserved.at key ∧ c.reserved.at key ≤ storedMax "reserved" key := by
    intro key hkey
    simp only [dimensions, List.mem_cons, List.not_mem_nil, or_false] at hkey
    rcases hkey with rfl | rfl | rfl
    · show 0 ≤ c.reserveCpuThreads ∧ c.reserveCpuThreads ≤ maxBigint
      omega
    · show 0 ≤ c.reserveMemoryMb ∧ c.reserveMemoryMb ≤ maxBigint
      omega
    · show 0 ≤ c.reserveDiskGb ∧ c.reserveDiskGb ≤ maxBigint
      omega
  have hallocatable : ∀ key ∈ dimensions, storedLeast "allocatable" ≤ (allocatable d c).at key ∧
      (allocatable d c).at key ≤ storedMax "allocatable" key := hbounds
  have hversion : ((capacityDocument d c (.str measuredAt)).getOrNull "schema_version").asInt? =
      some (if c.isLegacy then 1 else 2) := by
    rw [getOrNull_version]
    rfl
  have hpolicy : policyOf ((capacityDocument d c (.str measuredAt)).getOrNull "schema_version").asInt?
      (capacityDocument d c (.str measuredAt)) = .ok (c.cpuAllocationRatio, c.committedVcpu) := by
    unfold policyOf
    rw [hversion]
    cases hlegacy : c.isLegacy with
    | true =>
        unfold Config.isLegacy at hlegacy
        rw [Bool.and_eq_true, decide_eq_true_eq, decide_eq_true_eq] at hlegacy
        rw [if_neg (by decide), hlegacy.1, hlegacy.2]
    | false =>
        rw [if_pos (by decide)]
        exact storedPolicy_document hc hlegacy
  unfold validateCapacityDocument
  refine bind_eq_ok.mpr ⟨(), require_eq_ok.mpr ?_, bind_eq_ok.mpr ⟨d, storedGroup_json get?_physical hphysical,
    bind_eq_ok.mpr ⟨c.reserved, storedGroup_json get?_reserved hreserved, bind_eq_ok.mpr ⟨allocatable d c,
      storedGroup_json get?_allocatable hallocatable, bind_eq_ok.mpr ⟨(), require_eq_ok.mpr ?_,
        bind_eq_ok.mpr ⟨_, hpolicy, bind_eq_ok.mpr ⟨(), require_eq_ok.mpr ?_, bind_eq_ok.mpr ⟨(),
          require_eq_ok.mpr ?_, bind_eq_ok.mpr ⟨measuredAt, ?_, bind_eq_ok.mpr ⟨moment, ?_,
            require_eq_ok.mpr haware⟩⟩⟩⟩⟩⟩⟩⟩⟩⟩
  · rw [hversion]
    unfold capacityDocument
    cases c.isLegacy with
    | true => simp [Json.hasKeys, legacyFields]
    | false => simp [Json.hasKeys, legacyFields]
  · rw [List.all_eq_true]
    intro key hkey
    simp only [dimensions, List.mem_cons, List.not_mem_nil, or_false] at hkey
    rcases hkey with rfl | rfl | rfl
    · exact decide_eq_true hcpu.2.2
    · exact decide_eq_true hmemory.2.2
    · exact decide_eq_true hdisk.2.2
  · rw [Bool.and_eq_true, decide_eq_true_eq, decide_eq_true_eq]
    exact hbudget
  · exact decide_eq_true rfl
  · rw [getOrNull_measuredAt]
    rfl
  · unfold momentOf
    dsimp only
    rw [hmoment]

end Registration
end PickleInfra
