import PickleInfra.CpuIsolation.Partition
import PickleInfra.CpuIsolation.Verify

/-!
# `CpuIsolation.Confined` — what the checks of `verify` establish

What a report records is said of the report alone: its guests, its threads, and the entries of its control groups. Each
check is then one statement about these.
-/

namespace PickleInfra
namespace CpuIsolation

open Python JsonText

variable {T : FloatText}

/-! ## Values -/

theorem within_eq_true {v w : Json} :
    within v w = .ok true ↔ ∃ s m, cpus v = .ok s ∧ cpus w = .ok m ∧ s ⊆ m := by
  unfold within
  simp only [bind_eq_ok]
  constructor
  · rintro ⟨s, hs, m, hm, h⟩
    exact ⟨s, m, hs, hm, of_decide_eq_true (Except.ok.inj h)⟩
  · rintro ⟨s, m, hs, hm, h⟩
    exact ⟨s, hs, m, hm, congrArg Except.ok (decide_eq_true h)⟩

theorem sameCpus_eq_true {v w : Json} : sameCpus v w = .ok true ↔ ∃ s, cpus v = .ok s ∧ cpus w = .ok s := by
  unfold sameCpus
  simp only [bind_eq_ok]
  constructor
  · rintro ⟨s, hs, m, hm, h⟩
    obtain rfl : s = m := of_decide_eq_true (Except.ok.inj h)
    exact ⟨s, hs, hm⟩
  · rintro ⟨s, hs, hm⟩
    exact ⟨s, hs, s, hm, congrArg Except.ok (decide_eq_true rfl)⟩

/-- An empty value is no CPU set. -/
theorem cpus_orEmpty {v : Json} {s : Finset Nat} (h : cpus (orEmpty v) = .ok s) : cpus v = .ok s := by
  unfold orEmpty at h
  split at h
  · exact h
  · have hempty : (cpus (.str "")).toOption = none := by decide
    rw [h] at hempty
    cases hempty

theorem iterate_ne_nil {v : Json} {xs : List Json} (htruthy : v.truthy = true) (h : iterate v = .ok xs) : xs ≠ [] := by
  cases v with
  | list ys =>
      cases h
      intro hnil
      subst hnil
      cases htruthy
  | dict ms =>
      cases h
      intro hnil
      obtain rfl := List.map_eq_nil_iff.mp hnil
      cases htruthy
  | str s =>
      cases h
      intro hnil
      have hs : s.toList = [] := List.map_eq_nil_iff.mp hnil
      obtain rfl : s = "" := String.toList_eq_nil_iff.mp hs
      cases htruthy
  | null | bool | int | float => cases h

/-! ## What a report records -/

/-- A row of the guests. -/
def IsGuest (report row : Json) : Prop :=
  ∃ guests rows, report.get? "guests" = some guests ∧ iterate guests = .ok rows ∧ row ∈ rows

/-- A listed QEMU or vhost thread. -/
def IsThread (report row : Json) : Prop :=
  ∃ inventory threads rows, report.get? "inventory" = some inventory ∧ inventory.get? "threads" = some threads ∧
    iterate threads = .ok rows ∧ row ∈ rows

/-- An entry of a control group. -/
def IsEntry (report : Json) (name key : String) (v : Json) : Prop :=
  ∃ groups group, report.get? "cgroups" = some groups ∧ groups.get? name = some group ∧ group.get? key = some v

/-- A thread set of a control group. -/
def IsThreadSet (report : Json) (name : String) (v : Json) : Prop :=
  ∃ sets texts, IsEntry report name "thread_cpu_sets" sets ∧ iterate sets = .ok texts ∧ v ∈ texts

/-- A row of a platform container that is running. -/
def IsRunningCt (c : Policy) (ct : PlatformCt) (row : Json) : Prop :=
  ct ∈ c.platformCts ∧ row.get? "kind" = some (.str "lxc") ∧ row.get? "status" = some (.str "running") ∧
    ∃ vmid, row.get? "vmid" = some vmid ∧ key? vmid = some (.number ct.vmid)

/-- The control group of a platform container. -/
def PlatformCt.group (ct : PlatformCt) : String := "lxc/" ++ toString ct.vmid

/-- The kinds of CPU sets. -/
inductive Kind where
  | control
  | container
  | machine
deriving DecidableEq

/-- The CPU sets of a kind that a report records. -/
def Recorded (c : Policy) (report : Json) : Kind → Json → Prop
  | .control, v   => ∃ name ∈ CONTROL_NAMES, IsEntry report name "cpuset.cpus.effective" v
  | .container, v => ∃ ct row, IsGuest report row ∧ IsRunningCt c ct row ∧ IsThreadSet report ct.group v
  | .machine, v   => (∃ row, IsThread report row ∧ row.get? "allowed_cpus" = some v) ∨
      IsThreadSet report "qemu.slice" v

/-- Sets of two kinds share no CPU, and all of them can be read. -/
structure Confined (c : Policy) (report : Json) : Prop where
  reads : ∀ kind v, Recorded c report kind v → ∃ s, cpus v = .ok s
  disjoint : ∀ kind kind' v v' s s', kind ≠ kind' → Recorded c report kind v → Recorded c report kind' v' →
    cpus v = .ok s → cpus v' = .ok s' → Disjoint s s'

/-- The classes of guests. -/
inductive Classified (c : Policy) (rows : List Row) (row : Json) : Prop where
  | platform (ct : PlatformCt) (cpuset : Json) (hct : ct ∈ c.platformCts) (hkind : row.get? "kind" = some (.str "lxc"))
      (hvmid : row.get? "vmid" = some (.int ct.vmid)) (hcpuset : row.get? "cpuset" = some cpuset)
      (hmask : cpus cpuset = .ok (select rows ct.coreIds)) (hwhole : IsWhole rows (select rows ct.coreIds))
  | parked (n : Nat) (vmid : Json) (hn : n ∈ c.parkedCtIds) (hkind : row.get? "kind" = some (.str "lxc"))
      (hvmid : row.get? "vmid" = some vmid ∧ key? vmid = some (.number n))
      (hstatus : row.get? "status" = some (.str "stopped")) (honboot : row.get? "onboot" = some (.int 0))
  | machine (hkind : row.get? "kind" = some (.str "qemu")) (hhook : row.get? "hookscript" = some (.str HOOK_VOLUME))

/-- The running QEMU guests. -/
def machines (report : Json) : Set (Option Key) :=
  {k | ∃ row vmid, IsGuest report row ∧ row.get? "kind" = some (.str "qemu") ∧
    row.get? "status" = some (.str "running") ∧ row.get? "vmid" = some vmid ∧ key? vmid = k}

/-- A list of the inventory: the scopes, or the QEMU processes. -/
def listed (report : Json) (key : String) : Set (Option Key) :=
  {k | ∃ inventory vmids vmid, report.get? "inventory" = some inventory ∧ inventory.get? key = some (.list vmids) ∧
    vmid ∈ vmids ∧ key? vmid = k}

/-- The machines with a listed QEMU thread. -/
def represented (report : Json) : Set (Option Key) :=
  {k | ∃ row vmid, IsThread report row ∧ row.get? "kind" = some (.str "qemu") ∧ row.get? "vmid" = some vmid ∧
    key? vmid = k}

/-- The threads of the inventory have numbers, of which no two are the same. -/
def DistinctThreads (report : Json) : Prop :=
  ∃ inventory threads rows tids, report.get? "inventory" = some inventory ∧
    inventory.get? "threads" = some threads ∧ iterate threads = .ok rows ∧
      List.Forall₂ (fun (row : Json) (n : Int) => row.get? "tid" = some (.int n)) rows tids ∧ tids.Nodup

/-! ## The guests that were read -/

/-- What the first loop reads of a row. -/
structure Guest.Reads (row : Json) (g : Guest) : Prop where
  kind : row.get? "kind" = some g.kind
  vmid : row.get? "vmid" = some g.vmid
  vmidKey : key? g.vmid = some g.vmidKey
  status : row.get? "status" = some (.str (if g.running then "running" else "stopped"))
  document : g.document = row

theorem hashed_eq_ok {v : Json} {k : Key} : hashed v = .ok k ↔ key? v = some k := by
  unfold hashed
  cases key? v with
  | none => exact ⟨fun h => (by cases h), fun h => (by cases h)⟩
  | some k' => exact ⟨fun h => congrArg some (Except.ok.inj h), fun h => congrArg Except.ok (Option.some.inj h)⟩

theorem statusOf_eq_ok {v : Json} {running : Bool} (h : statusOf v = .ok running) :
    v = .str (if running then "running" else "stopped") := by
  unfold statusOf at h
  split at h
  · next hv =>
    cases h
    exact hv
  · split at h
    · next hv =>
      cases h
      exact hv
    · cases h

theorem readGuest_spec {seen : List (Key × Key)} {row : Json} {g : Guest} (h : readGuest seen row = .ok g) :
    g.Reads row := by
  unfold readGuest at h
  simp only [bind_eq_ok, Json.item_eq_ok, hashed_eq_ok] at h
  obtain ⟨kind, hkind, vmid, hvmid, kindKey, -, vmidKey, hvmidKey, -, -, status, hstatus, running, hrunning, -, -,
    template, -, h⟩ := h
  cases h
  exact ⟨hkind, hvmid, hvmidKey, statusOf_eq_ok hrunning ▸ hstatus, rfl⟩

theorem readGuests_spec {c : Policy} {student : String} {seen : List (Key × Key)} {rows : List Json} {guests : List Guest}
    (h : readGuests c student seen rows = .ok guests) :
    List.Forall₂ (fun row g => g.Reads row ∧ checkGuest c student g = .ok ()) rows guests := by
  induction rows generalizing seen guests with
  | nil =>
      cases h
      exact .nil
  | cons row rows ih =>
      unfold readGuests at h
      simp only [bind_eq_ok] at h
      obtain ⟨g, hg, _, hcheck, rest, hrest, h⟩ := h
      cases h
      exact .cons ⟨readGuest_spec hg, hcheck⟩ (ih hrest)

/-- A running guest is one whose status says so. -/
theorem Guest.Reads.running_iff {row : Json} {g : Guest} (h : g.Reads row) :
    row.get? "status" = some (.str "running") ↔ g.running = true := by
  rw [h.status]
  cases g.running with
  | false => exact ⟨fun h => (by simp at h), fun h => (by cases h)⟩
  | true => exact ⟨fun _ => rfl, fun _ => rfl⟩

/-! ## The observation -/

/-- What `validate_observation` establishes. -/
structure Observed (T : FloatText) (c : Policy) (report : Json) (masks : Masks) (guests : List Guest) : Prop where
  topology : ∃ topology, report.get? "topology" = some topology ∧ derive T c.document topology = .ok masks
  guests : ∃ value rows, report.get? "guests" = some value ∧ iterate value = .ok rows ∧
    List.Forall₂ (fun row g => g.Reads row ∧ checkGuest c masks.student g = .ok ()) rows guests

theorem validateObservation_spec {now : Int} {c : Policy} {report : Json} {fresh : Bool} {masks : Masks}
    {guests : List Guest} (h : validateObservation T now c report fresh = .ok (masks, guests)) :
    Observed T c report masks guests := by
  unfold validateObservation at h
  simp only [bind_eq_ok, Json.item_eq_ok] at h
  obtain ⟨-, -, -, -, -, -, -, -, -, -, -, -, -, -, -, -, -, -, -, -, topology, htopology, expected, hderive, _, -, -, -,
    -, -, value, hvalue, rows, hrows, guests', hguests, -, -, h⟩ := h
  cases h
  exact ⟨⟨topology, htopology, hderive⟩, value, rows, hvalue, hrows, readGuests_spec hguests⟩

/-! ## The checks of the receipt -/

/-- What `verify` establishes of the control groups, the guests and the inventory. -/
structure Checked (T : FloatText) (c : Policy) (report : Json) (masks : Masks) (guests : List Guest) : Prop where
  groups : ∃ groups, report.get? "cgroups" = some groups ∧
    (∀ name ∈ CONTROL_NAMES, ∃ u, checkControl ⟨c, masks, groups⟩ name = .ok u) ∧
    (∀ g ∈ guests, ∃ u, checkEnrolled T ⟨c, masks, groups⟩ g = .ok u) ∧
    ∃ sets, (Scope.mk c masks groups).entry "qemu.slice" "thread_cpu_sets" = .ok sets ∧
      checkThreads sets masks.student "QEMU thread affinity escapes the student mask" = .ok ()
  census : ∃ inventory, report.get? "inventory" = some inventory ∧ checkCensus T masks.student guests inventory = .ok ()

theorem checkReport_spec {c : Policy} {report : Json} {masks : Masks} {guests : List Guest} {programSha : String}
    (h : checkReport T c report masks guests = .ok programSha) : Checked T c report masks guests := by
  unfold checkReport at h
  simp only [bind_eq_ok, Json.item_eq_ok, mapM_eq_ok] at h
  obtain ⟨groups, hgroups, _, -, _, -, _, -, -, -, _, hcontrol, -, -, -, -, -, -, _, henrolled, sets, hsets, _, hthreads,
    inventory, hinventory, _, hcensus, -⟩ := h
  exact ⟨⟨groups, hgroups, fun name hname => (forall₂_left hcontrol name hname).imp fun _ h => h.2,
    fun g hg => (forall₂_left henrolled g hg).imp fun _ h => h.2, sets, hsets, hthreads⟩, inventory, hinventory, hcensus⟩

theorem verify_spec {now : Int} {c : Policy} {report authority receipt : Json} {fresh : Bool}
    (h : verify T now c report fresh authority = .ok receipt) :
    ∃ masks guests, Observed T c report masks guests ∧ Checked T c report masks guests := by
  unfold verify at h
  simp only [bind_eq_ok] at h
  obtain ⟨_, -, ⟨masks, guests⟩, hobserved, programSha, hchecked, -⟩ := h
  exact ⟨masks, guests, validateObservation_spec hobserved, checkReport_spec hchecked⟩

/-! ## Control groups -/

section Groups

variable {c : Policy} {masks : Masks} {report groups : Json}

theorem entry_eq_ok {name key : String} {v : Json} (hgroups : report.get? "cgroups" = some groups) :
    (Scope.mk c masks groups).entry name key = .ok v → IsEntry report name key v := by
  unfold Scope.entry
  simp only [bind_eq_ok, Json.item_eq_ok]
  rintro ⟨group, hgroup, hv⟩
  exact ⟨groups, group, hgroups, hgroup, hv⟩

/-- Entries are found, not searched for. -/
theorem IsEntry.unique {name key : String} {v v' : Json} (h : IsEntry report name key v)
    (h' : IsEntry report name key v') : v = v' := by
  obtain ⟨_, _, hgroups, hgroup, hv⟩ := h
  obtain ⟨_, _, hgroups', hgroup', hv'⟩ := h'
  rw [hgroups] at hgroups'
  cases hgroups'
  rw [hgroup] at hgroup'
  cases hgroup'
  rw [hv] at hv'
  exact Option.some.inj hv'

/-- A control group has the mask of the host. -/
theorem checkControl_spec {name : String} {u : Unit} (hgroups : report.get? "cgroups" = some groups)
    (h : checkControl ⟨c, masks, groups⟩ name = .ok u) {v : Json} (hv : IsEntry report name "cpuset.cpus.effective" v) :
    ∃ s, cpus v = .ok s ∧ cpus (.str masks.host) = .ok s := by
  unfold checkControl at h
  simp only [bind_eq_ok, need_eq_ok] at h
  obtain ⟨_, -, -, -, _, -, -, -, _, hholds, rfl⟩ := h
  unfold Scope.holds at hholds
  simp only [bind_eq_ok] at hholds
  obtain ⟨v', hv', hsame⟩ := hholds
  rw [(entry_eq_ok hgroups hv').unique hv] at hsame
  obtain ⟨s, hs, hm⟩ := sameCpus_eq_true.mp hsame
  exact ⟨s, cpus_orEmpty hs, hm⟩

/-- The threads of a group are within its mask. -/
theorem checkThreads_spec {sets : Json} {mask reason : String} {u : Unit} (h : checkThreads sets mask reason = .ok u) :
    ∃ texts, iterate sets = .ok texts ∧ ∀ v ∈ texts, ∃ s m, cpus v = .ok s ∧ cpus (.str mask) = .ok m ∧ s ⊆ m := by
  unfold checkThreads at h
  simp only [bind_eq_ok, mapM_eq_ok] at h
  obtain ⟨texts, htexts, units, hall, -⟩ := h
  refine ⟨texts, htexts, fun v hv => ?_⟩
  obtain ⟨_, -, hv⟩ := forall₂_left hall v hv
  simp only [need_eq_ok] at hv
  obtain ⟨_, hwithin, rfl⟩ := hv
  exact within_eq_true.mp hwithin

theorem threadSet_within {name mask reason : String} {sets : Json} {u : Unit}
    (hsets : IsEntry report name "thread_cpu_sets" sets) (h : checkThreads sets mask reason = .ok u) {v : Json}
    (hv : IsThreadSet report name v) : ∃ s m, cpus v = .ok s ∧ cpus (.str mask) = .ok m ∧ s ⊆ m := by
  obtain ⟨sets', texts', hsets', htexts', hv⟩ := hv
  obtain ⟨texts, htexts, hall⟩ := checkThreads_spec h
  rw [hsets'.unique hsets, htexts] at htexts'
  cases htexts'
  exact hall v hv

end Groups

/-! ## Platform containers -/

theorem ofInt_text (n : Nat) : toString n = String.ofList (Numeral.ofInt n).render := by
  rw [Nat.toString_eq_repr, ← String.toList_inj, Nat.toList_repr, String.toList_ofList]
  unfold Numeral.render Numeral.ofInt
  simp

/-- A number whose text is that of a whole number is that number. -/
theorem int_of_strText {v : Json} {q : ℚ} {n : Nat} (hkey : key? v = some (.number q))
    (h : String.ofList (strText T v) = toString n) : v = .int n := by
  rw [ofInt_text, ← String.toList_inj, String.toList_ofList, String.toList_ofList] at h
  have hparse := Numeral.parse_render (Numeral.ofInt_isJson n)
  rw [← h] at hparse
  cases v with
  | int m =>
      rw [show strText T (.int m) = (Numeral.ofInt m).render from rfl,
        Numeral.parse_render (Numeral.ofInt_isJson m)] at hparse
      rw [← Numeral.intValue_ofInt m, Option.some.inj hparse, Numeral.intValue_ofInt]
  | bool b =>
      have hnone : ∀ b : Bool, Numeral.parse (if b then "True".toList else "False".toList) = none := by decide
      rw [show strText T (.bool b) = if b then "True".toList else "False".toList from rfl, hnone] at hparse
      cases hparse
  | float x =>
      cases x with
      | finite q =>
          rw [show strText T (.float (.finite q)) =
            if |T.round q| < 2 ^ 1024 then (T.repr (T.round q)).render else "inf".toList from rfl] at hparse
          split at hparse
          · next hlt =>
            rw [Numeral.parse_render (T.repr_isJson _ hlt)] at hparse
            have hfloat := T.repr_float _ hlt
            rw [Option.some.inj hparse] at hfloat
            cases hfloat
          · have hnone : Numeral.parse "inf".toList = none := by decide
            rw [hnone] at hparse
            cases hparse
      | inf | negInf | nan => cases hkey
  | null | str | list | dict => cases hkey

section Containers

variable {c : Policy} {rows : List Row} {masks : Masks} {report row : Json} {guests : List Guest} {g : Guest}

theorem platform?_eq_some {k : Key} {ct : PlatformCt} (h : c.platform? k = some ct) :
    ct ∈ c.platformCts ∧ k = .number ct.vmid := by
  unfold Policy.platform? at h
  have hkey := List.find?_some h
  exact ⟨List.mem_of_find?_eq_some h, of_decide_eq_true hkey⟩

theorem isParked_iff {k : Key} : c.isParked k = true ↔ ∃ n ∈ c.parkedCtIds, k = .number n := by
  unfold Policy.isParked
  simp only [List.any_eq_true, decide_eq_true_eq]

/-- A platform container is not parked. -/
theorem not_parked (hc : c.Valid) {ct : PlatformCt} (hct : ct ∈ c.platformCts) :
    c.isParked (.number ct.vmid) = false := by
  rw [Bool.eq_false_iff, ne_eq, isParked_iff]
  rintro ⟨n, hn, heq⟩
  rw [Key.number.injEq, Nat.cast_inj] at heq
  have hdisjoint := List.disjoint_of_nodup_append hc.ids
  exact hdisjoint (List.mem_map_of_mem hct) (heq ▸ hn)

/-- The text of a mask is looked up by the number of its container. -/
theorem ofCt_spec (hr : Partitioned (T := T) c rows masks) {name text : String} (h : masks.ofCt name = .ok text) :
    ∃ ct ∈ c.platformCts, name = toString ct.vmid ∧ cpus (.str text) = .ok (select rows ct.coreIds) := by
  unfold Masks.ofCt at h
  split at h
  · next text' hlookup =>
    cases h
    obtain ⟨ct, hct, hname, hmask⟩ := forall₂_right hr.platformCts _ (Dict.mem_of_lookup hlookup)
    exact ⟨ct, hct, hname, hmask⟩
  · cases h

/-- The threads of a container are recorded, and confined. -/
def Held (rows : List Row) (report : Json) (ct : PlatformCt) : Prop :=
  (∃ v, IsThreadSet report ct.group v) ∧
    ∀ v, IsThreadSet report ct.group v → ∃ s, cpus v = .ok s ∧ s ⊆ select rows ct.coreIds

theorem checkPayload_spec {groups : Json} {ct : PlatformCt} {expected : String} {u : Unit}
    (hgroups : report.get? "cgroups" = some groups) (hmask : cpus (.str expected) = .ok (select rows ct.coreIds))
    (h : checkPayload ⟨c, masks, groups⟩ ct.group expected = .ok u) : Held rows report ct := by
  unfold checkPayload at h
  simp only [bind_eq_ok, need_eq_ok] at h
  obtain ⟨-, -, _, -, -, -, -, -, _, -, -, -, sets, hsets, -, htruthy, hthreads⟩ := h
  have hentry := entry_eq_ok hgroups hsets
  obtain ⟨texts, htexts, -⟩ := checkThreads_spec hthreads
  obtain ⟨v, hv⟩ := List.exists_mem_of_ne_nil texts (iterate_ne_nil htruthy htexts)
  refine ⟨⟨v, sets, texts, hentry, htexts, hv⟩, fun v hv => ?_⟩
  obtain ⟨s, m, hs, hm, hsub⟩ := threadSet_within hentry hthreads hv
  rw [hmask] at hm
  cases hm
  exact ⟨s, hs, hsub⟩

/-- A container that is not parked has the mask of its number. -/
theorem checkCt_spec {groups : Json} {u : Unit} {q : ℚ} (hr : Partitioned (T := T) c rows masks)
    (hgroups : report.get? "cgroups" = some groups) (hreads : g.Reads row) (hkey : g.vmidKey = .number q)
    (h : checkCt T ⟨c, masks, groups⟩ g = .ok u) :
    ∃ ct ∈ c.platformCts, g.vmid = .int ct.vmid ∧
      (∃ cpuset, row.get? "cpuset" = some cpuset ∧ cpus cpuset = .ok (select rows ct.coreIds)) ∧
      (g.running = true → Held rows report ct) := by
  unfold checkCt at h
  simp only [bind_eq_ok, need_eq_ok, Json.item_eq_ok] at h
  obtain ⟨expected, hexpected, cpuset, hcpuset, -, -, _, hsame, -, rfl, h⟩ := h
  obtain ⟨ct, hct, hname, hmask⟩ := ofCt_spec hr hexpected
  have hvmid := int_of_strText (hkey ▸ hreads.vmidKey) hname
  obtain ⟨s, hs, hm⟩ := sameCpus_eq_true.mp hsame
  rw [hmask] at hm
  cases hm
  refine ⟨ct, hct, hvmid, ⟨cpuset, hreads.document ▸ hcpuset, hs⟩, fun hrunning => ?_⟩
  rw [if_pos hrunning, hname] at h
  exact checkPayload_spec hgroups hmask h

/-- **The class of a guest** whose row passed both loops. -/
theorem classified {groups : Json} {u u' : Unit} (hc : c.Valid) (hconsistent : Consistent c.physicalCores rows)
    (hr : Partitioned (T := T) c rows masks) (hgroups : report.get? "cgroups" = some groups) (hreads : g.Reads row)
    (hcheck : checkGuest c masks.student g = .ok u) (henrolled : checkEnrolled T ⟨c, masks, groups⟩ g = .ok u') :
    Classified c rows row ∧ ∀ ct, IsRunningCt c ct row → Held rows report ct := by
  have hkind := hreads.kind
  unfold checkGuest at hcheck
  split at hcheck
  · next hlxc =>
    have hqemu : ¬ g.kind = .str "qemu" := by
      rw [hlxc]
      decide
    unfold checkEnrolled at henrolled
    rw [if_neg hqemu] at henrolled
    unfold checkLxc at hcheck
    split at hcheck
    · next ct hplatform =>
      obtain ⟨hct, hkey⟩ := platform?_eq_some hplatform
      dsimp only at henrolled
      rw [hkey, not_parked hc hct, if_neg Bool.false_ne_true] at henrolled
      obtain ⟨ct', hct', hvmid, ⟨cpuset, hcpuset, hmask⟩, hheld⟩ := checkCt_spec hr hgroups hreads hkey henrolled
      refine ⟨.platform ct' cpuset hct' (hlxc ▸ hkind) (hvmid ▸ hreads.vmid) hcpuset hmask (hconsistent.isCt hc hct').1,
        fun ct'' h => ?_⟩
      obtain ⟨hct'', -, hstatus, vmid, hvmid'', hkey''⟩ := h
      -- the container that is said to run is the one whose mask was checked
      rw [hreads.vmid] at hvmid''
      cases hvmid''
      rw [hvmid] at hkey''
      have hsame : ct'.vmid = ct''.vmid := by
        rw [key?, Option.some.injEq, Key.number.injEq] at hkey''
        exact_mod_cast hkey''
      rw [← List.inj_on_of_nodup_map (List.nodup_append.mp hc.ids).1 hct' hct'' hsame]
      exact hheld (hreads.running_iff.mp hstatus)
    · next hplatform =>
      simp only [bind_eq_ok, need_eq_ok, Json.item_eq_ok, decide_eq_true_eq] at hcheck
      obtain ⟨-, hparked, -, hstopped, onboot, honboot, rfl⟩ := hcheck
      obtain ⟨n, hn, hkey⟩ := isParked_iff.mp hparked
      have hrunning : g.running = false := by simpa using hstopped
      refine ⟨.parked n g.vmid hn (hlxc ▸ hkind) ⟨hreads.vmid, hkey ▸ hreads.vmidKey⟩ ?_ (hreads.document ▸ honboot),
        fun ct h => ?_⟩
      · rw [hreads.status, hrunning]
        rfl
      · rw [hreads.running_iff.mp h.2.2.1] at hrunning
        cases hrunning
  · split at hcheck
    · next hlxc hqemu =>
      unfold checkEnrolled at henrolled
      rw [if_pos hqemu] at henrolled
      simp only [bind_eq_ok, need_eq_ok, Json.item_eq_ok, decide_eq_true_eq] at henrolled
      obtain ⟨hook, hhook, rfl⟩ := henrolled
      refine ⟨.machine (hqemu ▸ hkind) (hreads.document ▸ hhook), fun ct h => ?_⟩
      have hctKind := h.2.1
      rw [hkind, Option.some.injEq] at hctKind
      exact absurd hctKind hlxc
    · cases hcheck

end Containers

/-! ## The census -/

/-- What the loop reads of a listed thread. -/
structure Thread.Reads (student : String) (row : Json) (t : Thread) : Prop where
  tid : row.get? "tid" = some (.int t.tid)
  vmid : ∃ vmid, row.get? "vmid" = some vmid ∧ key? vmid = some t.vmidKey
  kind : row.get? "kind" = some (.str "qemu") ↔ t.qemu = true
  allowed : ∃ v s m, row.get? "allowed_cpus" = some v ∧ cpus v = .ok s ∧ cpus (.str student) = .ok m ∧ s ⊆ m

theorem positive_eq_ok {v : Json} {n : Int} (h : positive v = .ok n) : v = .int n := by
  unfold positive at h
  split at h
  · split at h
    · cases h
      rfl
    · cases h
  · cases h

theorem member_eq_ok {running : List Key} {v : Json} {k : Key} (h : member running v = .ok k) :
    key? v = some k ∧ k ∈ running := by
  unfold member at h
  split at h
  · next hkey =>
    split at h
    · next hmem =>
      cases h
      exact ⟨hkey, hmem⟩
    · cases h
  · cases h

theorem threadKind_eq_ok {v : Json} {qemu : Bool} (h : threadKind v = .ok qemu) : v = .str "qemu" ↔ qemu = true := by
  unfold threadKind at h
  split at h
  · next hv =>
    cases h
    exact ⟨fun _ => rfl, fun _ => hv⟩
  · next hv =>
    split at h
    · cases h
      exact ⟨fun h => absurd h hv, fun h => (by cases h)⟩
    · cases h

theorem readThread_spec {student : String} {running : List Key} {tids : List Int} {row : Json} {t : Thread}
    (h : readThread T student running tids row = .ok t) : t.Reads student row ∧ t.tid ∉ tids := by
  unfold readThread at h
  simp only [bind_eq_ok, need_eq_ok, Json.item_eq_ok, Bool.and_eq_true, decide_eq_true_eq] at h
  obtain ⟨tidValue, htidValue, tid, htid, -, ⟨-, hnew⟩, -, -, -, -, vmid, hvmid, vmidKey, hmember, kind, hkind, qemu,
    hqemu, -, -, -, -, allowed, hallowed, _, hwithin, _, rfl, h⟩ := h
  cases h
  obtain ⟨s, m, hs, hm, hsub⟩ := within_eq_true.mp hwithin
  refine ⟨⟨positive_eq_ok htid ▸ htidValue, ⟨vmid, hvmid, (member_eq_ok hmember).1⟩, ?_, allowed, s, m, hallowed, hs, hm,
    hsub⟩, hnew⟩
  rw [hkind, Option.some.injEq]
  exact threadKind_eq_ok hqemu

theorem readThreads_spec {student : String} {running : List Key} {tids : List Int} {rows : List Json}
    {threads : List Thread} (h : readThreads T student running tids rows = .ok threads) :
    List.Forall₂ (fun row t => t.Reads student row) rows threads ∧ (threads.map Thread.tid).Nodup ∧
      ∀ t ∈ threads, t.tid ∉ tids := by
  induction rows generalizing tids threads with
  | nil =>
      cases h
      exact ⟨.nil, List.nodup_nil, fun _ h => (List.not_mem_nil h).elim⟩
  | cons row rows ih =>
      unfold readThreads at h
      simp only [bind_eq_ok] at h
      obtain ⟨t, ht, rest, hrest, h⟩ := h
      cases h
      obtain ⟨hreads, hnew⟩ := readThread_spec ht
      obtain ⟨hall, hnodup, hseen⟩ := ih hrest
      refine ⟨.cons hreads hall, ?_, List.forall_mem_cons.mpr ⟨hnew, fun t' ht' hin => ?_⟩⟩
      · rw [List.map_cons, List.nodup_cons]
        refine ⟨fun hmem => ?_, hnodup⟩
        obtain ⟨t', ht', heq⟩ := List.mem_map.mp hmem
        exact hseen t' ht' (heq ▸ List.mem_cons_self)
      · exact hseen t' ht' (List.mem_cons_of_mem _ hin)

theorem sortedKeys_perm {ks sorted : List Key} (h : sortedKeys ks = .ok sorted) : sorted.Perm ks := by
  unfold sortedKeys at h
  split at h
  · cases h
    exact List.perm_insertionSort _ ks
  · cases h

theorem isListOf_iff {ks : List Key} {v : Json} :
    isListOf ks v = true ↔ ∃ xs, v = .list xs ∧ xs.map key? = ks.map some := by
  cases v with
  | list xs =>
      unfold isListOf
      rw [decide_eq_true_eq]
      exact ⟨fun h => ⟨xs, rfl, h⟩, fun ⟨_, h, hkeys⟩ => (by cases h; exact hkeys)⟩
  | null | bool | int | float | str | dict => exact ⟨fun h => (by cases h), fun ⟨_, h, _⟩ => (by cases h)⟩

/-- What the census establishes. -/
structure Counted (student : String) (guests : List Guest) (inventory : Json) : Prop where
  lists : ∀ key ∈ ["scope_vmids", "qemu_process_vmids"], ∃ xs, inventory.get? key = some (.list xs) ∧
    ∀ k, k ∈ xs.map key? ↔ k ∈ (runningOf guests).map some
  threads : ∃ value rows threads, inventory.get? "threads" = some value ∧ iterate value = .ok rows ∧
    List.Forall₂ (fun row t => t.Reads student row) rows threads ∧ (threads.map Thread.tid).Nodup ∧
      ∀ k, k ∈ (threads.filter Thread.qemu).map Thread.vmidKey ↔ k ∈ runningOf guests

theorem checkCensus_spec {student : String} {guests : List Guest} {inventory : Json} {u : Unit}
    (h : checkCensus T student guests inventory = .ok u) : Counted student guests inventory := by
  unfold checkCensus at h
  simp only [bind_eq_ok, need_eq_ok, Json.item_eq_ok, decide_eq_true_eq] at h
  obtain ⟨running, hsorted, scopes, hscopes, -, hscopeList, processes, hprocesses, -, hprocessList, -, -, -, -, -, -, -,
    -, value, hvalue, rows, hrows, threads, hthreads, hrepresented⟩ := h
  have hperm := sortedKeys_perm hsorted
  obtain ⟨hall, hnodup, -⟩ := readThreads_spec hthreads
  have hlist : ∀ {v : Json}, isListOf running v = true → ∃ xs, v = .list xs ∧
      ∀ k, k ∈ xs.map key? ↔ k ∈ (runningOf guests).map some := by
    intro v hv
    obtain ⟨xs, rfl, hkeys⟩ := isListOf_iff.mp hv
    exact ⟨xs, rfl, fun k => by rw [hkeys]; exact (hperm.map some).mem_iff⟩
  refine ⟨fun key hkey => ?_, value, rows, threads, hvalue, hrows, hall, hnodup, fun k => ?_⟩
  · rw [List.mem_cons, List.mem_singleton] at hkey
    rcases hkey with rfl | rfl
    · obtain ⟨xs, rfl, hxs⟩ := hlist hscopeList
      exact ⟨xs, hscopes, hxs⟩
    · obtain ⟨xs, rfl, hxs⟩ := hlist hprocessList
      exact ⟨xs, hprocesses, hxs⟩
  · rw [← hperm.mem_iff, ← List.mem_toFinset, hrepresented, List.mem_toFinset]

/-- The running machines of a report are those of the guests that were read. -/
theorem mem_machines {c : Policy} {report : Json} {masks : Masks} {guests : List Guest}
    (h : Observed T c report masks guests) {k : Option Key} :
    k ∈ machines report ↔ k ∈ (runningOf guests).map some := by
  obtain ⟨value, rows, hvalue, hrows, hall⟩ := h.guests
  unfold runningOf
  rw [List.mem_map]
  simp only [List.mem_map, List.mem_filter, Bool.and_eq_true, decide_eq_true_eq]
  constructor
  · rintro ⟨row, vmid, ⟨value', rows', hvalue', hrows', hrow⟩, hkind, hstatus, hvmid, rfl⟩
    rw [hvalue] at hvalue'
    cases hvalue'
    rw [hrows] at hrows'
    cases hrows'
    obtain ⟨g, hg, hreads, -⟩ := forall₂_left hall row hrow
    rw [hreads.kind, Option.some.injEq] at hkind
    rw [hreads.vmid, Option.some.injEq] at hvmid
    exact ⟨g.vmidKey, ⟨g, ⟨hg, hkind, hreads.running_iff.mp hstatus⟩, rfl⟩, hvmid ▸ hreads.vmidKey.symm⟩
  · rintro ⟨_, ⟨g, ⟨hg, hkind, hrunning⟩, rfl⟩, rfl⟩
    obtain ⟨row, hrow, hreads, -⟩ := forall₂_right hall g hg
    exact ⟨row, g.vmid, ⟨value, rows, hvalue, hrows, hrow⟩, hkind ▸ hreads.kind, hreads.running_iff.mpr hrunning,
      hreads.vmid, hreads.vmidKey⟩

theorem mem_listed {student : String} {guests : List Guest} {report inventory : Json} {key : String}
    (hinventory : report.get? "inventory" = some inventory) (h : Counted student guests inventory)
    (hkey : key ∈ ["scope_vmids", "qemu_process_vmids"]) {k : Option Key} :
    k ∈ listed report key ↔ k ∈ (runningOf guests).map some := by
  obtain ⟨xs, hxs, hmem⟩ := h.lists key hkey
  rw [← hmem k, List.mem_map]
  constructor
  · rintro ⟨inventory', xs', vmid, hinventory', hxs', hvmid, hk⟩
    rw [hinventory] at hinventory'
    cases hinventory'
    rw [hxs] at hxs'
    cases hxs'
    exact ⟨vmid, hvmid, hk⟩
  · rintro ⟨vmid, hvmid, hk⟩
    exact ⟨inventory, xs, vmid, hinventory, hxs, hvmid, hk⟩

/-- The listed threads of a report are those that were read. -/
theorem thread_of_isThread {student : String} {report inventory value row : Json} {rows : List Json}
    {threads : List Thread} (hinventory : report.get? "inventory" = some inventory)
    (hvalue : inventory.get? "threads" = some value) (hrows : iterate value = .ok rows)
    (hall : List.Forall₂ (fun row t => t.Reads student row) rows threads) (h : IsThread report row) :
    ∃ t ∈ threads, t.Reads student row := by
  obtain ⟨inventory', value', rows', hinventory', hvalue', hrows', hrow⟩ := h
  rw [hinventory] at hinventory'
  cases hinventory'
  rw [hvalue] at hvalue'
  cases hvalue'
  rw [hrows] at hrows'
  cases hrows'
  exact forall₂_left hall row hrow

theorem mem_represented {student : String} {guests : List Guest} {report inventory : Json}
    (hinventory : report.get? "inventory" = some inventory) (h : Counted student guests inventory) {k : Option Key} :
    k ∈ represented report ↔ k ∈ (runningOf guests).map some := by
  obtain ⟨value, rows, threads, hvalue, hrows, hall, -, hmem⟩ := h.threads
  simp only [List.mem_map, ← hmem, List.mem_filter]
  constructor
  · rintro ⟨row, vmid, hthread, hkind, hvmid, rfl⟩
    obtain ⟨t, ht, hreads⟩ := thread_of_isThread hinventory hvalue hrows hall hthread
    obtain ⟨vmid', hvmid', hkey⟩ := hreads.vmid
    rw [hvmid] at hvmid'
    cases hvmid'
    exact ⟨t.vmidKey, ⟨t, ⟨ht, hreads.kind.mp hkind⟩, rfl⟩, hkey.symm⟩
  · rintro ⟨_, ⟨t, ⟨ht, hqemu⟩, rfl⟩, rfl⟩
    obtain ⟨row, hrow, hreads⟩ := forall₂_right hall t ht
    obtain ⟨vmid, hvmid, hkey⟩ := hreads.vmid
    exact ⟨row, vmid, ⟨inventory, value, rows, hinventory, hvalue, hrows, hrow⟩, hreads.kind.mpr hqemu, hvmid, hkey⟩

end CpuIsolation
end PickleInfra
