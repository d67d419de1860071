import Mathlib.Algebra.BigOperators.Group.Finset.Basic
import Mathlib.Algebra.Order.BigOperators.Group.Finset
import PickleInfra.CpuIsolation.Derive
import PickleInfra.Python.Unordered

/-!
# `CpuIsolation.Partition` — what `derive` gives the host, the platform and the students

The masks are read back as disjoint unions of whole sibling pairs that cover the node. They depend neither on the order
of the rows nor on the spelling of the siblings, of which only the hash of the topology tells.
-/

namespace PickleInfra
namespace CpuIsolation

open Python JsonText

variable {T : FloatText}

/-! ## Groups -/

theorem mem_group {rows : List Row} {core x : Nat} : x ∈ group rows core ↔ ∃ r ∈ rows, r.core = core ∧ r.cpu = x := by
  unfold group
  rw [List.mem_toFinset, List.mem_map]
  simp only [List.mem_filter, decide_eq_true_eq, and_assoc]

theorem mem_select {rows : List Row} {cores : List Nat} {x : Nat} :
    x ∈ select rows cores ↔ ∃ r ∈ rows, r.core ∈ cores ∧ r.cpu = x := by
  unfold select
  simp only [Finset.mem_biUnion, List.mem_toFinset, mem_group]
  constructor
  · rintro ⟨_, hcore, r, hr, rfl, rfl⟩
    exact ⟨r, hr, hcore, rfl⟩
  · rintro ⟨r, hr, hcore, rfl⟩
    exact ⟨r.core, hcore, r, hr, rfl, rfl⟩

theorem mem_logical {rows : List Row} {x : Nat} : x ∈ logical rows ↔ ∃ r ∈ rows, r.cpu = x := by
  unfold logical
  rw [List.mem_toFinset, List.mem_map]

theorem select_subset {rows : List Row} (cores : List Nat) : select rows cores ⊆ logical rows := by
  intro x hx
  obtain ⟨r, hr, -, rfl⟩ := mem_select.mp hx
  exact mem_logical.mpr ⟨r, hr, rfl⟩

/-! ## Topologies that were accepted -/

/-- What the loops of `derive` establish of the rows. -/
structure Consistent (cores : Nat) (rows : List Row) : Prop where
  nodup : (rows.map Row.cpu).Nodup
  bound : ∀ r ∈ rows, r.core < cores
  pair : ∀ core < cores, (group rows core).card = 2
  siblings : ∀ r ∈ rows, cpus r.siblings = .ok (group rows r.core)

theorem readRows_eq_ok {cores : Nat} {seen : List Nat} {topology : List Json} {rows : List Row} :
    readRows cores seen topology = .ok rows ↔
      List.Forall₂ (fun v r => readRow v = .ok r) topology rows ∧
        ((rows.map Row.cpu).Nodup ∧ ∀ r ∈ rows, r.cpu ∉ seen) ∧ ∀ r ∈ rows, r.core < cores := by
  induction topology generalizing seen rows with
  | nil =>
      constructor
      · intro h
        cases h
        exact ⟨.nil, ⟨List.nodup_nil, fun _ h => (List.not_mem_nil h).elim⟩, fun _ h => (List.not_mem_nil h).elim⟩
      · rintro ⟨h, -⟩
        cases h
        rfl
  | cons v topology ih =>
      unfold readRows
      simp only [bind_eq_ok, need_eq_ok, Bool.and_eq_true, decide_eq_true_eq, ih]
      constructor
      · rintro ⟨r, hr, -, ⟨hnew, hbound⟩, rest, ⟨hread, ⟨hnodup, hseen⟩, hbounds⟩, h⟩
        cases h
        refine ⟨.cons hr hread, ⟨?_, ?_⟩, List.forall_mem_cons.mpr ⟨hbound, hbounds⟩⟩
        · rw [List.map_cons, List.nodup_cons]
          refine ⟨fun hmem => ?_, hnodup⟩
          obtain ⟨r', hr', heq⟩ := List.mem_map.mp hmem
          exact hseen r' hr' (by rw [heq]; exact List.mem_cons_self)
        · exact List.forall_mem_cons.mpr ⟨hnew, fun r' hr' hin => hseen r' hr' (List.mem_cons_of_mem _ hin)⟩
      · rintro ⟨hread, ⟨hnodup, hseen⟩, hbounds⟩
        cases hread with
        | @cons _ r _ rest hr hread =>
          rw [List.map_cons, List.nodup_cons] at hnodup
          rw [List.forall_mem_cons] at hseen hbounds
          refine ⟨r, hr, (), ⟨hseen.1, hbounds.1⟩, rest, ⟨hread, ⟨hnodup.2, fun r' hr' hin => ?_⟩, hbounds.2⟩, rfl⟩
          rcases List.mem_cons.mp hin with heq | hin
          · exact hnodup.1 (heq ▸ List.mem_map_of_mem hr')
          · exact hseen.2 r' hr' hin

theorem checkSiblings_eq_ok {rows : List Row} {r : Row} {u : Unit} :
    checkSiblings rows r = .ok u ↔ cpus r.siblings = .ok (group rows r.core) := by
  unfold checkSiblings
  simp only [bind_eq_ok, need_eq_ok, decide_eq_true_eq]
  constructor
  · rintro ⟨_, h, rfl⟩
    exact h
  · exact fun h => ⟨_, h, rfl⟩

/-- **`derive` on rows**: it returns the partition of a consistent topology. -/
theorem deriveRows_eq_ok {c : Policy} {topology : List Json} {r : Masks} :
    deriveRows T c topology = .ok r ↔ ∃ rows, topology.length = 2 * c.physicalCores ∧
      List.Forall₂ (fun v row => readRow v = .ok row) topology rows ∧ Consistent c.physicalCores rows ∧
        partition T c rows = .ok r := by
  unfold deriveRows
  simp only [bind_eq_ok, need_eq_ok, decide_eq_true_eq, readRows_eq_ok, List.all_eq_true, List.mem_range, mapM_eq_ok]
  constructor
  · rintro ⟨-, hlength, rows, ⟨hread, ⟨hnodup, -⟩, hbound⟩, -, hpair, units, hsiblings, hr⟩
    refine ⟨rows, hlength, hread, ⟨hnodup, hbound, hpair, fun row hrow => ?_⟩, hr⟩
    obtain ⟨_, -, h⟩ := forall₂_left hsiblings row hrow
    exact checkSiblings_eq_ok.mp h
  · rintro ⟨rows, hlength, hread, hc, hr⟩
    refine ⟨(), hlength, rows, ⟨hread, ⟨hc.nodup, fun _ _ => List.not_mem_nil⟩, hc.bound⟩, (), hc.pair,
      rows.map fun _ => (), ?_, hr⟩
    rw [List.forall₂_map_right_iff]
    exact List.forall₂_same.mpr fun row hrow => checkSiblings_eq_ok.mpr (hc.siblings row hrow)

/-! ## The CPUs of a list of cores -/

namespace Consistent

variable {cores : Nat} {rows : List Row}

/-- A CPU is in one row. -/
theorem core_eq (h : Consistent cores rows) {r r' : Row} (hr : r ∈ rows) (hr' : r' ∈ rows) (heq : r.cpu = r'.cpu) :
    r.core = r'.core := congrArg Row.core (List.inj_on_of_nodup_map h.nodup hr hr' heq)

theorem cpu_mem_select (h : Consistent cores rows) {r : Row} (hr : r ∈ rows) {ids : List Nat} :
    r.cpu ∈ select rows ids ↔ r.core ∈ ids := by
  rw [mem_select]
  constructor
  · rintro ⟨r', hr', hcore, heq⟩
    rwa [h.core_eq hr' hr heq] at hcore
  · exact fun hcore => ⟨r, hr, hcore, rfl⟩

theorem select_disjoint (h : Consistent cores rows) {ids ids' : List Nat} (hids : ∀ k ∈ ids, k ∉ ids') :
    Disjoint (select rows ids) (select rows ids') := by
  rw [Finset.disjoint_left]
  intro x hx hx'
  obtain ⟨r, hr, hcore, rfl⟩ := mem_select.mp hx
  exact hids r.core hcore ((h.cpu_mem_select hr).mp hx')

theorem group_disjoint (h : Consistent cores rows) {k k' : Nat} (hne : k ≠ k') :
    Disjoint (group rows k) (group rows k') := by
  rw [Finset.disjoint_left]
  intro x hx hx'
  obtain ⟨r, hr, rfl, rfl⟩ := mem_group.mp hx
  obtain ⟨r', hr', rfl, heq⟩ := mem_group.mp hx'
  exact hne (h.core_eq hr hr' heq.symm)

theorem card_select (h : Consistent cores rows) {ids : List Nat} (hnodup : ids.Nodup) (hids : ∀ k ∈ ids, k < cores) :
    (select rows ids).card = 2 * ids.length := by
  have hpairs : ∀ k ∈ ids.toFinset, (group rows k).card = 2 := fun k hk => h.pair k (hids k (List.mem_toFinset.mp hk))
  have hdisjoint : (ids.toFinset : Set Nat).PairwiseDisjoint (group rows) := fun k _ k' _ hne => h.group_disjoint hne
  unfold select
  rw [Finset.card_biUnion hdisjoint, Finset.sum_const_nat hpairs, List.toFinset_card_of_nodup hnodup, mul_comm]

theorem card_logical (h : Consistent cores rows) : (logical rows).card = rows.length := by
  unfold logical
  rw [List.toFinset_card_of_nodup h.nodup, List.length_map]

/-- The numbers are those of sibling lists. -/
theorem cpu_le (h : Consistent cores rows) {r : Row} (hr : r ∈ rows) : r.cpu ≤ 4095 :=
  le_of_cpus (h.siblings r hr) r.cpu (mem_group.mpr ⟨r, hr, rfl, rfl⟩)

theorem select_le (h : Consistent cores rows) (ids : List Nat) : ∀ x ∈ select rows ids, x ≤ 4095 := by
  intro x hx
  obtain ⟨r, hr, -, rfl⟩ := mem_select.mp hx
  exact h.cpu_le hr

/-- The students have the other cores. -/
theorem students_eq (h : Consistent cores rows) :
    students rows = select rows ((List.range cores).filter fun k => k ∉ hostCoreIds ++ platformCoreIds) := by
  ext x
  unfold students
  rw [Finset.mem_sdiff, Finset.mem_sdiff, mem_logical]
  constructor
  · rintro ⟨⟨⟨r, hr, rfl⟩, hhost⟩, hplatform⟩
    rw [h.cpu_mem_select hr] at hhost hplatform
    refine mem_select.mpr ⟨r, hr, ?_, rfl⟩
    rw [List.mem_filter, List.mem_range, decide_eq_true_eq, List.mem_append, not_or]
    exact ⟨h.bound r hr, hhost, hplatform⟩
  · intro hx
    obtain ⟨r, hr, hcore, rfl⟩ := mem_select.mp hx
    rw [List.mem_filter, decide_eq_true_eq, List.mem_append, not_or] at hcore
    rw [h.cpu_mem_select hr, h.cpu_mem_select hr]
    exact ⟨⟨⟨r, hr, rfl⟩, hcore.2.1⟩, hcore.2.2⟩

end Consistent

/-! ## Whole pairs -/

/-- The CPUs that the siblings of a row name. -/
def IsPair (rows : List Row) (pair : Finset Nat) : Prop :=
  pair.card = 2 ∧ ∃ r ∈ rows, r.cpu ∈ pair ∧ cpus r.siblings = .ok pair

/-- A union of whole sibling pairs. -/
def IsWhole (rows : List Row) (mask : Finset Nat) : Prop :=
  ∃ pairs : Finset (Finset Nat), (∀ pair ∈ pairs, IsPair rows pair) ∧ mask = pairs.biUnion id

theorem Consistent.isPair {cores : Nat} {rows : List Row} (h : Consistent cores rows) {core : Nat} (hcore : core < cores) :
    IsPair rows (group rows core) := by
  refine ⟨h.pair core hcore, ?_⟩
  have hne : (group rows core).Nonempty := Finset.card_pos.mp (by rw [h.pair core hcore]; decide)
  obtain ⟨x, hx⟩ := hne
  obtain ⟨r, hr, hcore', -⟩ := mem_group.mp hx
  exact ⟨r, hr, mem_group.mpr ⟨r, hr, hcore', rfl⟩, hcore' ▸ h.siblings r hr⟩

theorem Consistent.isWhole {cores : Nat} {rows : List Row} (h : Consistent cores rows) {ids : List Nat}
    (hids : ∀ k ∈ ids, k < cores) : IsWhole rows (select rows ids) := by
  refine ⟨ids.toFinset.image (group rows), fun pair hpair => ?_, ?_⟩
  · obtain ⟨k, hk, rfl⟩ := Finset.mem_image.mp hpair
    exact h.isPair (hids k (List.mem_toFinset.mp hk))
  · rw [Finset.image_biUnion]
    rfl

/-! ## The masks -/

/-- What is read back of the masks of a node. -/
structure Partitioned (c : Policy) (rows : List Row) (r : Masks) : Prop where
  host : cpus (.str r.host) = .ok (select rows hostCoreIds)
  platform : cpus (.str r.platform) = .ok (select rows platformCoreIds)
  student : cpus (.str r.student) = .ok (students rows)
  platformCts : List.Forall₂ (fun ct entry => entry.1 = toString ct.vmid ∧
    cpus (.str entry.2) = .ok (select rows ct.coreIds)) c.platformCts r.platformCts
  topologySha256 : r.topologySha256 = topologySha256 T rows
  allocatableVcpu : r.allocatableVcpu = (rows.length - 12) * 2 - c.committedVcpu

theorem platform_lt {c : Policy} (hc : c.Valid) {k : Nat} (hk : k ∈ platformCoreIds) : k < c.physicalCores := by
  have hsix : k < 6 := (by decide : ∀ k ∈ platformCoreIds, k < 6) k hk
  rcases hc.cores with h | h <;> omega

theorem host_lt {c : Policy} (hc : c.Valid) {k : Nat} (hk : k ∈ hostCoreIds) : k < c.physicalCores := by
  have htwo : k < 2 := (by decide : ∀ k ∈ hostCoreIds, k < 2) k hk
  rcases hc.cores with h | h <;> omega

/-- The CPUs of a platform container. -/
theorem Consistent.isCt {c : Policy} (hc : c.Valid) {rows : List Row} (h : Consistent c.physicalCores rows)
    {ct : PlatformCt} (hct : ct ∈ c.platformCts) : IsWhole rows (select rows ct.coreIds) ∧
      select rows ct.coreIds ⊆ select rows platformCoreIds ∧ (select rows ct.coreIds).card = ct.cores := by
  obtain ⟨hnodup, hplatform, -, hcores⟩ := hc.cts ct hct
  have hbound : ∀ k ∈ ct.coreIds, k < c.physicalCores := fun k hk => platform_lt hc (hplatform k hk)
  refine ⟨h.isWhole hbound, fun x hx => ?_, ?_⟩
  · obtain ⟨r, hr, hcore, rfl⟩ := mem_select.mp hx
    exact mem_select.mpr ⟨r, hr, hplatform _ hcore, rfl⟩
  · rw [h.card_select hnodup hbound, hcores]

theorem partition_spec {c : Policy} {rows : List Row} (h : Consistent c.physicalCores rows) {r : Masks}
    (hr : partition T c rows = .ok r) : Partitioned (T := T) c rows r := by
  unfold partition at hr
  simp only [bind_eq_ok, need_eq_ok, Bool.and_eq_true, decide_eq_true_eq] at hr
  obtain ⟨-, ⟨⟨⟨⟨⟨-, -⟩, hcard⟩, -⟩, -⟩, -⟩, host, hhost, platform, hplatform, student, hstudent, cts, hcts, hr⟩ := hr
  cases hr
  refine ⟨cpus_cpuText (h.select_le _) hhost, cpus_cpuText (h.select_le _) hplatform, ?_, ?_, rfl, ?_⟩
  · refine cpus_cpuText ?_ hstudent
    rw [h.students_eq]
    exact h.select_le _
  · refine (mapM_eq_ok.mp hcts).imp fun ct entry hentry => ?_
    simp only [bind_eq_ok] at hentry
    obtain ⟨text, htext, hentry⟩ := hentry
    cases hentry
    exact ⟨rfl, cpus_cpuText (h.select_le _) htext⟩
  · rw [h.card_logical] at hcard
    show ((students rows).card * 2 - c.committedVcpu : Int) = _
    omega

/-! ## Rows in another order, and siblings in another spelling -/

/-- Rows of the same CPUs, cores and siblings. -/
def SameRow (r r' : Row) : Prop := r'.cpu = r.cpu ∧ r'.core = r.core ∧ cpus r'.siblings = cpus r.siblings

theorem group_congr {rows rows' : List Row} (h : ∀ core x, (∃ r ∈ rows', r.core = core ∧ r.cpu = x) ↔
    ∃ r ∈ rows, r.core = core ∧ r.cpu = x) : group rows' = group rows := by
  funext core
  ext x
  rw [mem_group, mem_group]
  exact h core x

theorem logical_of_group {rows rows' : List Row} (h : group rows' = group rows) : logical rows' = logical rows := by
  ext x
  have hgroups : ∀ rows : List Row, x ∈ logical rows ↔ ∃ core, x ∈ group rows core := by
    intro rows
    simp only [mem_logical, mem_group]
    exact ⟨fun ⟨r, hr, hx⟩ => ⟨r.core, r, hr, rfl, hx⟩, fun ⟨_, r, hr, _, hx⟩ => ⟨r, hr, hx⟩⟩
  rw [hgroups, hgroups, h]

/-- Of the rows, a partition takes the groups and the hash. -/
theorem partition_congr {c : Policy} {rows rows' : List Row} {r : Masks} (h : group rows' = group rows)
    (hr : partition T c rows = .ok r) :
    partition T c rows' = .ok { r with topologySha256 := topologySha256 T rows' } := by
  have hselect : select rows' = select rows := by
    funext ids
    unfold select
    rw [h]
  have hlogical := logical_of_group h
  unfold partition students at hr ⊢
  rw [hselect, hlogical]
  simp only [bind_eq_ok] at hr ⊢
  obtain ⟨u, hneed, host, hhost, platform, hplatform, student, hstudent, cts, hcts, hr⟩ := hr
  cases hr
  exact ⟨u, hneed, host, hhost, platform, hplatform, student, hstudent, cts, hcts, rfl⟩

theorem group_perm {rows rows' : List Row} (h : rows.Perm rows') : group rows' = group rows :=
  group_congr fun _ _ => exists_congr fun _ => and_congr_left' h.symm.mem_iff

theorem Consistent.perm {cores : Nat} {rows rows' : List Row} (h : Consistent cores rows) (hperm : rows.Perm rows') :
    Consistent cores rows' where
  nodup := (hperm.map Row.cpu).nodup_iff.mp h.nodup
  bound := fun r hr => h.bound r (hperm.mem_iff.mpr hr)
  pair := fun core hcore => (group_perm hperm).symm ▸ h.pair core hcore
  siblings := fun r hr => (group_perm hperm).symm ▸ h.siblings r (hperm.mem_iff.mpr hr)

theorem topologySha256_perm {rows rows' : List Row} (hnodup : (rows.map Row.cpu).Nodup) (h : rows.Perm rows') :
    topologySha256 T rows' = topologySha256 T rows := by
  have hsorted : byCpu rows' = byCpu rows := (insertionSort_perm Row.cpu (fun _ _ => Iff.rfl) h hnodup).symm
  unfold topologySha256
  rw [hsorted]

theorem deriveRows_perm {c : Policy} {topology topology' : List Json} (hperm : topology.Perm topology')
    {r : Masks} (h : deriveRows T c topology = .ok r) : deriveRows T c topology' = .ok r := by
  obtain ⟨rows, hlength, hread, hconsistent, hr⟩ := deriveRows_eq_ok.mp h
  -- the rows that are read of the other order are the same in that order
  obtain ⟨rows', hread', hrows⟩ := List.perm_comp_forall₂ hperm.symm hread
  refine deriveRows_eq_ok.mpr ⟨rows', hperm.length_eq ▸ hlength, hread', hconsistent.perm hrows.symm, ?_⟩
  rw [partition_congr (group_perm hrows.symm) hr, topologySha256_perm hconsistent.nodup hrows.symm]
  rw [← (partition_spec hconsistent hr).topologySha256]

/-- The siblings of a row may be spelled another way; all else stands. -/
def Respelled (v v' : Json) : Prop :=
  v'.hasKeys rowKeys = true ∧ (∀ key ∈ rowKeys, key ≠ "siblings" → v'.get? key = v.get? key) ∧
    ∃ s s' pair, v.get? "siblings" = some s ∧ v'.get? "siblings" = some s' ∧ cpus s = .ok pair ∧ cpus s' = .ok pair

theorem readRow_respelled {v v' : Json} {r : Row} (h : Respelled v v') (hr : readRow v = .ok r) :
    ∃ r', readRow v' = .ok r' ∧ SameRow r r' := by
  obtain ⟨hkeys, hsame, s, s', pair, hs, hs', hpair, hpair'⟩ := h
  unfold readRow at hr ⊢
  simp only [bind_eq_ok, need_eq_ok, Json.item_eq_ok] at hr ⊢
  obtain ⟨-, -, cpuValue, hcpuValue, cpu, hcpu, coreValue, hcoreValue, core, hcore, online, honline, socket, hsocket, -,
    hplace, siblings, hsiblings, hr⟩ := hr
  cases hr
  rw [hs] at hsiblings
  cases hsiblings
  refine ⟨{ cpu, core, siblings := s', document := v' }, ⟨(), hkeys, cpuValue, ?_, cpu, hcpu, coreValue, ?_, core, hcore,
    online, ?_, socket, ?_, (), hplace, s', hs', rfl⟩, rfl, rfl, hpair'.trans hpair.symm⟩
  · rwa [hsame "cpu" (by decide) (by decide)]
  · rwa [hsame "core" (by decide) (by decide)]
  · rwa [hsame "online" (by decide) (by decide)]
  · rwa [hsame "socket" (by decide) (by decide)]

theorem readRows_respelled {topology topology' : List Json} {rows : List Row}
    (h : List.Forall₂ Respelled topology topology') (hread : List.Forall₂ (fun v r => readRow v = .ok r) topology rows) :
    ∃ rows', List.Forall₂ (fun v r => readRow v = .ok r) topology' rows' ∧ List.Forall₂ SameRow rows rows' := by
  induction h generalizing rows with
  | nil =>
      cases hread
      exact ⟨[], .nil, .nil⟩
  | cons hfirst _ ih =>
      cases hread with
      | cons hr hread =>
        obtain ⟨r', hr', hsame⟩ := readRow_respelled hfirst hr
        obtain ⟨rows', hread', hrows⟩ := ih hread
        exact ⟨r' :: rows', .cons hr' hread', .cons hsame hrows⟩

theorem group_same {rows rows' : List Row} (h : List.Forall₂ SameRow rows rows') : group rows' = group rows := by
  refine group_congr fun core x => ⟨?_, ?_⟩
  · rintro ⟨r', hr', hcore, hcpu⟩
    obtain ⟨r, hr, heq, heq', -⟩ := forall₂_right h r' hr'
    exact ⟨r, hr, heq'.symm.trans hcore, heq.symm.trans hcpu⟩
  · rintro ⟨r, hr, hcore, hcpu⟩
    obtain ⟨r', hr', heq, heq', -⟩ := forall₂_left h r hr
    exact ⟨r', hr', heq'.trans hcore, heq.trans hcpu⟩

theorem Consistent.same {cores : Nat} {rows rows' : List Row} (h : Consistent cores rows)
    (hsame : List.Forall₂ SameRow rows rows') : Consistent cores rows' where
  nodup := forall₂_keys hsame (fun _ _ hrow => hrow.1) ▸ h.nodup
  bound := fun r' hr' => by
    obtain ⟨r, hr, -, hcore, -⟩ := forall₂_right hsame r' hr'
    exact hcore ▸ h.bound r hr
  pair := fun core hcore => (group_same hsame).symm ▸ h.pair core hcore
  siblings := fun r' hr' => by
    obtain ⟨r, hr, -, hcore, hsiblings⟩ := forall₂_right hsame r' hr'
    rw [hsiblings, hcore, group_same hsame]
    exact h.siblings r hr

theorem deriveRows_respelled {c : Policy} {topology topology' : List Json}
    (hsame : List.Forall₂ Respelled topology topology') {r : Masks} (h : deriveRows T c topology = .ok r) :
    ∃ digest, deriveRows T c topology' = .ok { r with topologySha256 := digest } := by
  obtain ⟨rows, hlength, hread, hconsistent, hr⟩ := deriveRows_eq_ok.mp h
  obtain ⟨rows', hread', hrows⟩ := readRows_respelled hsame hread
  exact ⟨_, deriveRows_eq_ok.mpr ⟨rows', hsame.length_eq ▸ hlength, hread', hconsistent.same hrows,
    partition_congr (group_same hrows) hr⟩⟩

end CpuIsolation
end PickleInfra
