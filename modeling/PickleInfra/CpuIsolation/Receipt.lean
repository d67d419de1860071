import PickleInfra.CpuIsolation.Confined

/-!
# `CpuIsolation.Receipt` — what a receipt is evidence of

Where `verify` returns, the recorded CPUs of the host, of the platform containers and of the virtual machines lie in the
masks that were derived of the topology, and these are disjoint.
-/

namespace PickleInfra
namespace CpuIsolation

open Python JsonText

variable {T : FloatText}

/-! ## Disjoint kinds -/

/-- The mask of a kind. -/
def Masks.ofKind (r : Masks) : Kind → String
  | .control   => r.host
  | .container => r.platform
  | .machine   => r.student

/-- **Every recorded set is within the mask of its kind.** -/
theorem recorded_within {c : Policy} {rows : List Row} {report : Json} {masks : Masks} {guests : List Guest}
    (hc : c.Valid) (hconsistent : Consistent c.physicalCores rows) (hr : Partitioned (T := T) c rows masks)
    (hchecked : Checked T c report masks guests)
    (hheld : ∀ ct row, IsGuest report row → IsRunningCt c ct row → Held rows report ct) {kind : Kind} {v : Json}
    (h : Recorded c report kind v) : ∃ s m, cpus v = .ok s ∧ cpus (.str (masks.ofKind kind)) = .ok m ∧ s ⊆ m := by
  obtain ⟨groups, hgroups, hcontrol, -, sets, hsets, hthreads⟩ := hchecked.groups
  cases kind with
  | control =>
      obtain ⟨name, hname, hentry⟩ := h
      obtain ⟨_, hu⟩ := hcontrol name hname
      obtain ⟨s, hs, hm⟩ := checkControl_spec hgroups hu hentry
      exact ⟨s, s, hs, hm, Finset.Subset.refl s⟩
  | container =>
      obtain ⟨ct, row, hguest, hrunning, hset⟩ := h
      obtain ⟨s, hs, hsub⟩ := (hheld ct row hguest hrunning).2 v hset
      exact ⟨s, _, hs, hr.platform, hsub.trans (hconsistent.isCt hc hrunning.1).2.1⟩
  | machine =>
      rcases h with ⟨row, hthread, hallowed⟩ | hset
      · obtain ⟨inventory, hinventory, hcensus⟩ := hchecked.census
        obtain ⟨value, rows', threads, hvalue, hrows, hall, -, -⟩ := (checkCensus_spec hcensus).threads
        obtain ⟨t, -, hreads⟩ := thread_of_isThread hinventory hvalue hrows hall hthread
        obtain ⟨v', s, m, hv', hs, hm, hsub⟩ := hreads.allowed
        rw [hallowed] at hv'
        cases hv'
        exact ⟨s, m, hs, hm, hsub⟩
      · exact threadSet_within (entry_eq_ok hgroups hsets) hthreads hset

/-- The masks of two kinds are disjoint. -/
theorem masks_disjoint {c : Policy} {rows : List Row} {masks : Masks} (hconsistent : Consistent c.physicalCores rows)
    (hr : Partitioned (T := T) c rows masks) {kind kind' : Kind} (hne : kind ≠ kind') {m m' : Finset Nat}
    (hm : cpus (.str (masks.ofKind kind)) = .ok m) (hm' : cpus (.str (masks.ofKind kind')) = .ok m') : Disjoint m m' := by
  have hhost : Disjoint (select rows hostCoreIds) (select rows platformCoreIds) :=
    hconsistent.select_disjoint (by decide)
  have hcontrol : Disjoint (select rows hostCoreIds) (students rows) :=
    Finset.disjoint_sdiff.mono_right Finset.sdiff_subset
  have hplatform : Disjoint (select rows platformCoreIds) (students rows) := Finset.disjoint_sdiff
  have hmask : ∀ {kind : Kind} {m : Finset Nat}, cpus (.str (masks.ofKind kind)) = .ok m →
      m = match kind with
        | .control   => select rows hostCoreIds
        | .container => select rows platformCoreIds
        | .machine   => students rows := by
    intro kind m hm
    cases kind with
    | control => exact (Except.ok.inj (hr.host.symm.trans hm)).symm
    | container => exact (Except.ok.inj (hr.platform.symm.trans hm)).symm
    | machine => exact (Except.ok.inj (hr.student.symm.trans hm)).symm
  rw [hmask hm, hmask hm']
  cases kind with
  | control =>
      cases kind' with
      | control => exact absurd rfl hne
      | container => exact hhost
      | machine => exact hcontrol
  | container =>
      cases kind' with
      | control => exact hhost.symm
      | container => exact absurd rfl hne
      | machine => exact hplatform
  | machine =>
      cases kind' with
      | control => exact hcontrol.symm
      | container => exact hplatform.symm
      | machine => exact absurd rfl hne

/-- **What a receipt is evidence of**, whatever the report holds. -/
theorem verify_confines {now : Int} {policy report authority receipt : Json} {c : Policy} {fresh : Bool}
    (hpolicy : validateConfig policy = .ok c) (h : verify T now c report fresh authority = .ok receipt) :
    Confined c report ∧
      (∃ documents rows, report.get? "topology" = some (.list documents) ∧
        List.Forall₂ (fun v row => readRow v = .ok row) documents rows ∧
        (∀ row, IsGuest report row → Classified c rows row) ∧
        ∀ ct row, IsGuest report row → IsRunningCt c ct row → Held rows report ct) ∧
      (listed report "scope_vmids" = machines report ∧ listed report "qemu_process_vmids" = machines report ∧
        represented report = machines report) ∧ DistinctThreads report := by
  obtain ⟨masks, guests, hobserved, hchecked⟩ := verify_spec h
  obtain ⟨hc, hdocument⟩ := validateConfig_spec hpolicy
  obtain ⟨topology, htopology, hderive⟩ := hobserved.topology
  -- the masks are those of a consistent topology
  unfold derive at hderive
  rw [hdocument, hpolicy] at hderive
  cases topology with
  | list documents =>
      obtain ⟨rows, -, hread, hconsistent, hpartition⟩ := deriveRows_eq_ok.mp hderive
      have hr := partition_spec hconsistent hpartition
      obtain ⟨groups, hgroups, -, henrolled, -⟩ := hchecked.groups
      obtain ⟨inventory, hinventory, hcensus⟩ := hchecked.census
      have hcounted := checkCensus_spec hcensus
      obtain ⟨value, guestRows, hvalue, hguestRows, hall⟩ := hobserved.guests
      have hclass : ∀ row, IsGuest report row →
          Classified c rows row ∧ ∀ ct, IsRunningCt c ct row → Held rows report ct := by
        rintro row ⟨value', guestRows', hvalue', hguestRows', hrow⟩
        rw [hvalue] at hvalue'
        cases hvalue'
        rw [hguestRows] at hguestRows'
        cases hguestRows'
        obtain ⟨g, hg, hreads, hcheck⟩ := forall₂_left hall row hrow
        obtain ⟨_, hu⟩ := henrolled g hg
        exact classified hc hconsistent hr hgroups hreads hcheck hu
      have hheld : ∀ ct row, IsGuest report row → IsRunningCt c ct row → Held rows report ct :=
        fun ct row hguest hrunning => (hclass row hguest).2 ct hrunning
      refine ⟨⟨fun kind v hv => ?_, fun kind kind' v v' s s' hne hv hv' hs hs' => ?_⟩,
        ⟨documents, rows, htopology, hread, fun row hrow => (hclass row hrow).1, hheld⟩, ⟨?_, ?_, ?_⟩, ?_⟩
      · obtain ⟨s, -, hs, -, -⟩ := recorded_within hc hconsistent hr hchecked hheld hv
        exact ⟨s, hs⟩
      · obtain ⟨t, m, ht, hm, hsub⟩ := recorded_within hc hconsistent hr hchecked hheld hv
        obtain ⟨t', m', ht', hm', hsub'⟩ := recorded_within hc hconsistent hr hchecked hheld hv'
        cases ht.symm.trans hs
        cases ht'.symm.trans hs'
        exact (masks_disjoint hconsistent hr hne hm hm').mono hsub hsub'
      · ext k
        exact (mem_listed hinventory hcounted List.mem_cons_self).trans (mem_machines hobserved).symm
      · ext k
        exact (mem_listed hinventory hcounted (List.mem_cons_of_mem _ List.mem_cons_self)).trans
          (mem_machines hobserved).symm
      · ext k
        exact (mem_represented hinventory hcounted).trans (mem_machines hobserved).symm
      · obtain ⟨threadsValue, threadRows, threads, hthreads, hthreadRows, hreads, hnodup, -⟩ := hcounted.threads
        refine ⟨inventory, threadsValue, threadRows, threads.map Thread.tid, hinventory, hthreads, hthreadRows, ?_,
          hnodup⟩
        rw [List.forall₂_map_right_iff]
        exact hreads.imp fun _ _ h => h.tid
  | null | bool | int | float | str | dict => cases hderive

/-! ### A report of 24 threads -/

def smallGroup (mask mode : String) (sets : List Json) : Json :=
  .dict [("cpuset.cpus", .str mask), ("cpuset.cpus.effective", .str mask), ("cpuset.cpus.exclusive", .str mask),
    ("cpuset.cpus.exclusive.effective", .str mask), ("cpuset.cpus.partition", .str mode),
    ("cgroup.subtree_control", .str "cpuset memory"), ("direct_process_count", .int 0), ("thread_cpu_sets", .list sets)]

def smallGroups : Json :=
  .dict ((CONTROL_NAMES.map fun name => (name, smallGroup "0-1,12-13" "member" [])) ++
    [("lxc", smallGroup "2-5,14-17" "root" []), ("qemu.slice", smallGroup "6-11,18-23" "member" [.str "6-7"]),
      ("lxc/200", smallGroup "2,14" "member" [.str "14", .str "2,14"]), ("lxc/200/ns", smallGroup "2,14" "member" [])])

def smallGuests : List Json :=
  [.dict [("kind", .str "lxc"), ("vmid", .int 200), ("status", .str "running"), ("template", .bool false),
      ("cores", .int 2), ("cpuset", .str "2,14")],
    .dict [("kind", .str "lxc"), ("vmid", .int 201), ("status", .str "stopped"), ("template", .bool false),
      ("cores", .int 4), ("cpuset", .str "3,4,15,16")],
    .dict [("kind", .str "lxc"), ("vmid", .int 300), ("status", .str "stopped"), ("template", .bool false),
      ("onboot", .int 0)],
    .dict [("kind", .str "qemu"), ("vmid", .int 9), ("status", .str "running"), ("template", .bool false),
      ("affinity", .null), ("hookscript", .str HOOK_VOLUME)]]

def smallInventory : Json :=
  .dict [("scope_vmids", .list [.int 9]), ("qemu_process_vmids", .list [.int 9]), ("vhost_scan_complete", .bool true),
    ("thread_scan_complete", .bool true), ("threads", .list [.dict [("tid", .int 17), ("start_ticks", .int 8192),
      ("vmid", .int 9), ("kind", .str "qemu"), ("cgroup", .str "/qemu.slice/9.scope"), ("allowed_cpus", .str "6-7")]])]

def smallPin : String := String.ofList (List.replicate 64 'b')

def smallReport (masks : Masks) : Json :=
  .dict [("node", .str "node-example"), ("kernel", .str expectedKernel), ("pve_release", .str expectedPveRelease),
    ("systemd_major", .int expectedSystemdMajor), ("required_code_sha256", smallConfig.requiredCode),
    ("topology", .list smallTopology), ("masks", masks.json), ("observed_at_utc", .str "2026-01-01T00:00:00+00:00"),
    ("boot_id", .null), ("guests", .list smallGuests), ("cgroups", smallGroups), ("inventory", smallInventory),
    ("installed_files", .dict [("program_sha256", .str smallPin),
      ("hook_sha256", .str (Sha256.hexdigest (hookBytes smallPin)))])]

/-- The checks of the small report that read no hash. -/
theorem checks_small : ∃ guests, readGuests smallConfig smallMasks.student [] smallGuests = .ok guests ∧
    smallConfig.isPresent guests = true ∧
      (∃ units, CONTROL_NAMES.mapM (checkControl ⟨smallConfig, smallMasks, smallGroups⟩) = .ok units) ∧
      (∃ units, guests.mapM (checkEnrolled zeroText ⟨smallConfig, smallMasks, smallGroups⟩) = .ok units) ∧
      checkCensus zeroText smallMasks.student guests smallInventory = .ok () := by
  have hall : (do
      let guests ← readGuests smallConfig smallMasks.student [] smallGuests
      need (smallConfig.isPresent guests) ""
      let _ ← CONTROL_NAMES.mapM (checkControl ⟨smallConfig, smallMasks, smallGroups⟩)
      let _ ← guests.mapM (checkEnrolled zeroText ⟨smallConfig, smallMasks, smallGroups⟩)
      checkCensus zeroText smallMasks.student guests smallInventory) = .ok () := by decide +kernel
  simp only [bind_eq_ok, need_eq_ok] at hall
  obtain ⟨guests, hguests, -, hplatform, control, hcontrol, enrolled, henrolled, hcensus⟩ := hall
  exact ⟨guests, hguests, hplatform, ⟨control, hcontrol⟩, ⟨enrolled, henrolled⟩, hcensus⟩

theorem checkReport_small (digest : String) {guests : List Guest}
    (hcontrol : ∃ units, CONTROL_NAMES.mapM (checkControl ⟨smallConfig, smallMasks, smallGroups⟩) = .ok units)
    (henrolled : ∃ units, guests.mapM (checkEnrolled zeroText ⟨smallConfig, smallMasks, smallGroups⟩) = .ok units)
    (hcensus : checkCensus zeroText smallMasks.student guests smallInventory = .ok ()) :
    checkReport zeroText smallConfig (smallReport { smallMasks with topologySha256 := digest })
      { smallMasks with topologySha256 := digest } guests = .ok smallPin := by
  obtain ⟨control, hcontrol⟩ := hcontrol
  obtain ⟨enrolled, henrolled⟩ := henrolled
  have hlxc : checkParent ⟨smallConfig, smallMasks, smallGroups⟩ "lxc" smallMasks.platform = .ok () := by decide +kernel
  have hqemu : checkParent ⟨smallConfig, smallMasks, smallGroups⟩ "qemu.slice" smallMasks.student = .ok () := by
    decide +kernel
  have hpartition : checkPartition ⟨smallConfig, smallMasks, smallGroups⟩ = .ok () := by decide +kernel
  have hthreads : checkThreads (.list [.str "6-7"]) smallMasks.student
      "QEMU thread affinity escapes the student mask" = .ok () := by decide +kernel
  have hpin : pin (.str smallPin) = .ok smallPin := by decide +kernel
  unfold checkReport
  simp only [bind_eq_ok, need_eq_ok]
  exact ⟨smallGroups, rfl, _, rfl, .str smallPin, rfl, smallPin, hpin, (), decide_eq_true rfl, control, hcontrol, (), hlxc,
    (), hqemu, (), hpartition, enrolled, henrolled, .list [.str "6-7"], rfl, (), hthreads, smallInventory, rfl, (),
    hcensus, rfl⟩

theorem valid_small (digest : String) : Valid zeroText ({ smallMasks with topologySha256 := digest } : Masks).json := by
  have hkeys : ["host", "platform", "student", "platform_cts", "topology_sha256", "reserved_cpu_threads",
    "allocation_ratio", "committed_vcpu", "allocatable_vcpu"].Nodup := by decide
  have hids : ["200", "201"].Nodup := by decide
  refine valid_dict.mpr ⟨hkeys, validMembers_iff.mp ?_⟩
  refine ⟨trivial, trivial, trivial, valid_dict.mpr ⟨hids, ?_⟩, trivial, Json.valid_int (by decide),
    Json.valid_int (by decide), Json.valid_int (n := 5) (by decide), Json.valid_int (n := 19) (by decide), trivial⟩
  exact validMembers_iff.mp ⟨trivial, trivial, trivial⟩

theorem verify_confines_small : ∃ masks receipt,
    verify zeroText 1767225600000000 smallConfig (smallReport masks) true (.str smallPin) = .ok receipt ∧
      Confined smallConfig (smallReport masks) := by
  obtain ⟨digest, hderive⟩ := derive_small
  obtain ⟨guests, hguests, hpresent, hcontrol, henrolled, hcensus⟩ := checks_small
  have hobserved : validateObservation zeroText 1767225600000000 smallConfig
      (smallReport { smallMasks with topologySha256 := digest }) true =
        .ok ({ smallMasks with topologySha256 := digest }, guests) := by
    have hage : instantOf (.str "2026-01-01T00:00:00+00:00") = .ok 1767225600000000 := by decide +kernel
    unfold validateObservation checkAge
    simp only [bind_eq_ok, need_eq_ok, if_true]
    refine ⟨_, rfl, (), decide_eq_true rfl, _, rfl, (), decide_eq_true rfl, _, rfl, (), decide_eq_true rfl, _, rfl, (),
      rfl, _, rfl, (), ?_, _, rfl, _, hderive, _, rfl, (), ?_, (), ⟨_, rfl, _, hage, ?_⟩, _, rfl, _, rfl, guests, hguests,
      (), hpresent, rfl⟩
    · decide +kernel
    · exact Json.equal_self _ (valid_small digest)
    · rfl
  have hpin : pin (.str smallPin) = .ok smallPin := by decide +kernel
  have hverify : ∃ receipt, verify zeroText 1767225600000000 smallConfig
      (smallReport { smallMasks with topologySha256 := digest }) true (.str smallPin) = .ok receipt := by
    unfold verify
    simp only [bind_eq_ok]
    exact ⟨_, smallPin, hpin, _, hobserved, smallPin, checkReport_small digest hcontrol henrolled hcensus, _, rfl, _, rfl,
      _, rfl, rfl⟩
  obtain ⟨receipt, hreceipt⟩ := hverify
  exact ⟨_, receipt, hreceipt, (verify_confines validateConfig_small hreceipt).1⟩

end CpuIsolation
end PickleInfra
