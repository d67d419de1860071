import PickleInfra.CpuIsolation.Partition
import PickleInfra.Registration.Evidence

/-!
# `CpuIsolation.Capacity` — the masks of a node and its capacity

`derive` and `node_registration.capacity` compute the allocatable vCPU of a node by formulas of their own. For 12
reserved threads and a ratio of 2 these are the same number.
-/

namespace PickleInfra
namespace CpuIsolation

open Python JsonText Registration

variable {nfkc : List Char → List Char}

/-! ## The CPU threads of a capacity -/

/-- Entries whose values are replaced under their keys. -/
theorem lookup_entries {V W : Type} (f : String × V → W) (k : String) (l : List (String × V)) :
    Dict.lookup k (l.map fun e => (e.1, f e)) = (Dict.lookup k l).map fun v => f (k, v) := by
  induction l with
  | nil => rfl
  | cons e l ih =>
      rw [List.map_cons, Dict.lookup, Dict.lookup]
      by_cases hk : e.1 = k
      · subst hk
        rw [if_pos rfl, if_pos rfl]
        rfl
      · rw [if_neg hk, if_neg hk, ih]

theorem measured_of_ok {c : Config} {m : String × Json} {e : String × Int} (h : measuredDimension c m = .ok e) :
    m = (e.1, .int e.2) := by
  obtain ⟨key, v⟩ := m
  unfold measuredDimension at h
  simp only [bind_eq_ok, positiveInt_eq_ok] at h
  obtain ⟨n, ⟨rfl, -⟩, -, -, -, -, h⟩ := h
  cases h
  rfl

/-- The dimensions that were measured are those of the dictionary. -/
theorem members_of_measured {c : Config} {ms : List (String × Json)} {numbers : List (String × Int)}
    (h : List.Forall₂ (fun m e => measuredDimension c m = .ok e) ms numbers) :
    ms = numbers.map fun e => (e.1, Json.int e.2) := by
  induction h with
  | nil => rfl
  | cons hfirst _ ih =>
      rw [List.map_cons, ← ih, measured_of_ok hfirst]

/-- **The allocatable threads of a capacity**, whatever else was measured. -/
theorem capacity_cpuThreads {physical measuredAt doc : Json} {c : Config} {n : Int}
    (h : capacity nfkc physical c measuredAt = .ok doc) (hn : physical.get? "cpu_threads" = some (.int n)) :
    ∃ a, doc.get? "allocatable" = some a ∧
      a.get? "cpu_threads" = some (.int ((n - c.reserveCpuThreads) * c.cpuAllocationRatio - c.committedVcpu)) := by
  unfold capacity at h
  simp only [bind_eq_ok, require_eq_ok, mapM_eq_ok] at h
  obtain ⟨_, -, -, hkeys, numbers, hnumbers, -, -, h⟩ := h
  cases h
  obtain ⟨ms, rfl, -⟩ := Json.hasKeys_iff.mp hkeys
  rw [show Json.members (.dict ms) = ms from rfl] at hnumbers
  have hlookup : Dict.lookup "cpu_threads" numbers = some n := by
    have hget : Json.lookup "cpu_threads" ms = some (.int n) := hn
    rw [members_of_measured hnumbers, Json.lookup_map] at hget
    obtain ⟨m, hm, heq⟩ := Option.map_eq_some_iff.mp hget
    cases heq
    exact hm
  refine ⟨_, rfl, ?_⟩
  show Json.lookup "cpu_threads" _ = _
  rw [Json.lookup_eq, lookup_entries, lookup_entries, hlookup]
  rfl

/-- **A capacity with students' threads left** is refused for its memory or its disk only. -/
theorem capacity_of_threads {c : Config} {d : Dimensions} {measuredAt : Json}
    (hvalid : validate nfkc c.attributes = .ok c) (hreserve : c.reserveCpuThreads = 12) (hratio : c.cpuAllocationRatio = 2)
    (hthreads : 12 < d.cpuThreads ∧ d.cpuThreads ≤ 2147483647) (hcommitted : c.committedVcpu < (d.cpuThreads - 12) * 2)
    (hmemory : 1 ≤ d.memoryMb ∧ d.memoryMb ≤ 2147483647 ∧ c.reserveMemoryMb < d.memoryMb)
    (hdisk : 1 ≤ d.diskGb ∧ d.diskGb ≤ maxBigint ∧ c.reserveDiskGb < d.diskGb) :
    ∃ doc, capacity nfkc d.json c measuredAt = .ok doc := by
  have hbudget : budget d c = (d.cpuThreads - 12) * 2 := by
    unfold budget
    rw [hreserve, hratio]
  have hmax : maxBigint = 9223372036854775807 := rfl
  refine ⟨_, (capacity_eq_ok hvalid).mpr ⟨rfl, ⟨by omega, by omega, by omega⟩, hmemory, hdisk, ?_⟩⟩
  rw [hbudget]
  exact ⟨by omega, hcommitted⟩

/-! ## The derived masks -/

/-- `capacity` of as many threads, with 12 of them reserved, a ratio of 2 and the same committed vCPU, finds as many
    vCPU allocatable, and it returns where memory and disk are left. -/
structure SameAllocation (threads committed : Nat) (allocatable : Int) : Prop where
  equal : ∀ (nfkc : List Char → List Char) (config : Config) (physical measuredAt doc : Json),
    config.reserveCpuThreads = 12 → config.cpuAllocationRatio = 2 → config.committedVcpu = committed →
      physical.get? "cpu_threads" = some (.int threads) → capacity nfkc physical config measuredAt = .ok doc →
        ∃ a, doc.get? "allocatable" = some a ∧ a.get? "cpu_threads" = some (.int allocatable)
  returns : ∀ (nfkc : List Char → List Char) (config : Config) (d : Dimensions) (measuredAt : Json),
    validate nfkc config.attributes = .ok config → config.reserveCpuThreads = 12 → config.cpuAllocationRatio = 2 →
      config.committedVcpu = committed → d.cpuThreads = threads →
        1 ≤ d.memoryMb ∧ d.memoryMb ≤ 2147483647 ∧ config.reserveMemoryMb < d.memoryMb →
          1 ≤ d.diskGb ∧ d.diskGb ≤ maxBigint ∧ config.reserveDiskGb < d.diskGb →
            ∃ doc, capacity nfkc d.json config measuredAt = .ok doc

theorem sameAllocation {threads committed : Nat} {allocatable : Int} (hthreads : 12 < threads ∧ threads ≤ 2147483647)
    (h : allocatable = (threads - 12) * 2 - committed) (hpositive : 0 < allocatable) :
    SameAllocation threads committed allocatable where
  equal := by
    intro nfkc config physical measuredAt doc hreserve hratio hcommitted hcpu hdoc
    obtain ⟨a, ha, hcpu⟩ := capacity_cpuThreads hdoc hcpu
    rw [hreserve, hratio, hcommitted, ← h] at hcpu
    exact ⟨a, ha, hcpu⟩
  returns := by
    intro nfkc config d measuredAt hvalid hreserve hratio hcommitted hcpu hmemory hdisk
    refine capacity_of_threads hvalid hreserve hratio ?_ ?_ hmemory hdisk
    · rw [hcpu]
      omega
    · rw [hcpu, hcommitted]
      omega

/-- The mask of a platform container. -/
def CtMask (rows : List Row) (platform : Finset Nat) (ct : PlatformCt) (entry : String × String) : Prop :=
  entry.1 = toString ct.vmid ∧ ∃ mask, cpus (.str entry.2) = .ok mask ∧ IsWhole rows mask ∧ mask ⊆ platform ∧
    mask.card = ct.cores

/-- The three masks, and those of the platform containers, read back. -/
structure Partition (c : Policy) (rows : List Row) (r : Masks) (host platform student : Finset Nat) : Prop where
  texts : cpus (.str r.host) = .ok host ∧ cpus (.str r.platform) = .ok platform ∧ cpus (.str r.student) = .ok student
  disjoint : Disjoint host platform ∧ Disjoint host student ∧ Disjoint platform student
  cover : host ∪ platform ∪ student = logical rows
  whole : IsWhole rows host ∧ IsWhole rows platform ∧ IsWhole rows student
  platformCts : List.Forall₂ (CtMask rows platform) c.platformCts r.platformCts

theorem partition_of_partitioned {T : FloatText} {c : Policy} (hc : c.Valid) {rows : List Row}
    (h : Consistent c.physicalCores rows) {r : Masks} (hr : Partitioned (T := T) c rows r) :
    Partition c rows r (select rows hostCoreIds) (select rows platformCoreIds) (students rows) where
  texts := ⟨hr.host, hr.platform, hr.student⟩
  disjoint := by
    refine ⟨h.select_disjoint (by decide), ?_, ?_⟩
    · exact (Finset.disjoint_sdiff.mono_right Finset.sdiff_subset)
    · exact Finset.disjoint_sdiff
  cover := by
    have hhost : select rows hostCoreIds ⊆ logical rows := select_subset _
    have hplatform : select rows platformCoreIds ⊆ logical rows := select_subset _
    unfold students
    ext x
    simp only [Finset.mem_union, Finset.mem_sdiff]
    constructor
    · rintro ((hx | hx) | hx)
      · exact hhost hx
      · exact hplatform hx
      · exact hx.1.1
    · intro hx
      by_cases hh : x ∈ select rows hostCoreIds
      · exact .inl (.inl hh)
      · by_cases hp : x ∈ select rows platformCoreIds
        · exact .inl (.inr hp)
        · exact .inr ⟨⟨hx, hh⟩, hp⟩
  whole := by
    refine ⟨h.isWhole fun _ hk => host_lt hc hk, h.isWhole fun _ hk => platform_lt hc hk, ?_⟩
    rw [h.students_eq]
    exact h.isWhole fun k hk => List.mem_range.mp (List.mem_filter.mp hk).1
  platformCts := by
    have hmem := (List.forall₂_and_left (p := fun ct => ct ∈ c.platformCts) _ _).mpr ⟨fun _ h => h, hr.platformCts⟩
    refine hmem.imp fun ct entry hentry => ?_
    obtain ⟨hct, hname, hmask⟩ := hentry
    exact ⟨hname, _, hmask, h.isCt hc hct⟩

/-- **What `derive` returns.** The masks are disjoint unions of whole sibling pairs that cover the node, whatever the
    order of the rows and the spelling of the siblings, and the allocatable vCPU are those of `capacity`. -/
theorem derive_partitions {T : FloatText} {policy topology : Json} {c : Policy} {r : Masks}
    (hpolicy : validateConfig policy = .ok c) (h : derive T policy topology = .ok r) :
    ∃ (documents : List Json) (rows : List Row) (host platform student : Finset Nat),
      topology = .list documents ∧ List.Forall₂ (fun v row => readRow v = .ok row) documents rows ∧
      Partition c rows r host platform student ∧
      (∀ documents', documents.Perm documents' → derive T policy (.list documents') = .ok r) ∧
      (∀ documents', List.Forall₂ Respelled documents documents' →
        ∃ digest, derive T policy (.list documents') = .ok { r with topologySha256 := digest }) ∧
      0 < r.allocatableVcpu ∧ SameAllocation documents.length c.committedVcpu r.allocatableVcpu := by
  have hderive : ∀ documents, derive T policy (.list documents) = deriveRows T c documents := by
    intro documents
    unfold derive
    rw [hpolicy]
    rfl
  have hc := (validateConfig_spec hpolicy).1
  cases topology with
  | list documents =>
      rw [hderive] at h
      obtain ⟨rows, hlength, hread, hconsistent, hr⟩ := deriveRows_eq_ok.mp h
      have hpartitioned := partition_spec hconsistent hr
      have hallocatable := hpartitioned.allocatableVcpu
      rw [← hread.length_eq] at hallocatable
      have hcommitted := hc.committed
      have hcores := hc.cores
      have hpositive : 0 < r.allocatableVcpu := by omega
      refine ⟨documents, rows, _, _, _, rfl, hread, partition_of_partitioned hc hconsistent hpartitioned,
        fun documents' hperm => ?_, fun documents' hsame => ?_, hpositive,
        sameAllocation (by omega) hallocatable hpositive⟩
      · rw [hderive]
        exact deriveRows_perm hperm h
      · rw [hderive]
        exact deriveRows_respelled hsame h
  | null | bool | int | float | str | dict =>
      unfold derive at h
      rw [hpolicy] at h
      cases h

theorem derive_partitions_small : ∃ digest,
    0 < smallMasks.allocatableVcpu ∧
      derive zeroText smallPolicy (.list smallTopology.reverse) = .ok { smallMasks with topologySha256 := digest } := by
  obtain ⟨digest, hr⟩ := derive_small
  obtain ⟨documents, rows, host, platform, student, htopology, -, -, hperm, -, hpositive, -⟩ :=
    derive_partitions validateConfig_small hr
  cases htopology
  exact ⟨digest, hpositive, hperm _ smallTopology.reverse_perm.symm⟩

end CpuIsolation
end PickleInfra
