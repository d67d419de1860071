import PickleInfra.Registration.Evidence

/-!
# `Registration.Collected` — a collected report is accepted while it is fresh

What `collect` returns is one document with the measured numbers in it. It can be printed, is read back as the
same value, and `validate_report` then returns the configuration it was collected for.
-/

namespace PickleInfra
namespace Registration

open Python Network JsonText

variable {T : FloatText} {nfkc : List Char → List Char}

/-! ## The report -/

/-- The document that `collect` returns. -/
def reportDocument (c : Config) (measuredAt bootId vg pool : String) (placement : Json) (total available : Int)
    (ca : ByteArray) : Json :=
  .dict [("schema_version", .int 1), ("config", configDocument c), ("measured_at", .str measuredAt),
    ("boot_id", .str bootId), ("placement_capacity", placement),
    ("thin_pool", .dict [("vg", .str vg), ("pool", .str pool), ("total_bytes", .int total),
      ("available_bytes", .int available)]),
    ("checks", CHECKS), ("ca_sha256", .str (Sha256.hexdigest ca))]

/-- The free space covers the reserve, and both sizes were read. -/
structure Covers (T : FloatText) (c : Config) (total available : Int) : Prop where
  printableTotal : Valid T (.int total)
  printableAvailable : Valid T (.int available)
  reserve : c.reserveDiskGb * 1024 ^ 3 ≤ available

theorem valid_parseJson {text : String} {v : Json} (h : parseJson T text = .ok v) : Valid T v :=
  valid_of_loads (parsed_eq_ok.mp h)

theorem valid_api {m : Machine} {path : String} {v : Json} (h : m.api T path = .ok v) : Valid T v := by
  unfold Machine.api at h
  obtain ⟨_, -, h⟩ := bind_eq_ok.mp h
  exact valid_parseJson h

theorem poolBytes_spec {c : Config} {storage row : Json} {bytes : Int × Int} (hvalid : Valid T storage)
    (h : poolBytes c storage row = .ok bytes) : Covers T c bytes.1 bytes.2 := by
  unfold poolBytes at h
  simp only [bind_eq_ok] at h
  obtain ⟨total, htotal, _, -, _, -, _, -, available, havailable, _, hreserve, hbytes⟩ := h
  cases hbytes
  refine ⟨?_, ?_, of_decide_eq_true (require_eq_ok.mp hreserve)⟩
  · rw [← (positiveInt_eq_ok.mp htotal).1]
    exact Json.valid_getOrNull hvalid _
  · rw [← (positiveInt_eq_ok.mp havailable).1]
    exact Json.valid_getOrNull hvalid _

theorem measure_diskGb {status : Json} {total : Int} {d : Dimensions} (h : measure status total = .ok d) :
    d.diskGb = total / 1024 ^ 3 := by
  unfold measure at h
  simp only [bind_eq_ok] at h
  obtain ⟨_, -, _, -, _, -, _, -, _, -, _, -, hd⟩ := h
  cases hd
  rfl

/-- **What `collect` returned** is the document of measured dimensions that fit, with a covered reserve. -/
theorem collect_spec {m : Machine} {c : Config} {report : Json} (hc : validate nfkc c.attributes = .ok c)
    (h : collect T nfkc m c = .ok report) :
    ∃ d total available vg pool bootId ca, Fits d c ∧ Covers T c total available ∧ d.diskGb = total / 1024 ^ 3 ∧
      report = reportDocument c (Isoformat.isoformat m.now) bootId vg pool
        (capacityDocument d c (.str (Isoformat.isoformat m.now))) total available ca := by
  unfold collect at h
  simp only [bind_eq_ok] at h
  obtain ⟨_, -, _, -, _, -, _, -, _, -, _, -, _, -, _, -, _, -, status, -, storage, hstorage, _, -, ⟨vg, pool⟩, -, h⟩ := h
  dsimp only at h
  obtain ⟨_, -, _, -, row, -, ⟨total, available⟩, hbytes, h⟩ := h
  dsimp only at h
  obtain ⟨_, -, _, -, d, hd, bootId, -, placement, hplacement, ca, -, hreport⟩ := h
  obtain ⟨rfl, hfits⟩ := (capacity_eq_ok hc).mp hplacement
  cases hreport
  exact ⟨d, total, available, vg, pool, bootId, ca, hfits, poolBytes_spec (valid_api hstorage) hbytes,
    measure_diskGb hd, rfl⟩

/-! ## The report can be printed -/

/-- An address that was accepted is a string or a short number. -/
theorem valid_address {v : Json} (h : (address v).isSome = true) : Valid T v := by
  cases v with
  | int n =>
      unfold address at h
      dsimp only at h
      split at h
      · next hn => exact Json.valid_int (by omega)
      · cases h
  | bool b => rw [Valid]; trivial
  | str s => rw [Valid]; trivial
  | null | float | list | dict => cases h

theorem valid_network {v : Json} (h : (network v).isSome = true) : Valid T v := by
  cases v with
  | str s => rw [Valid]; trivial
  | null | bool | int | float | list | dict =>
      unfold network interface at h
      dsimp only at h
      apply valid_address
      cases ha : address _ with
      | none => rw [ha] at h; cases h
      | some a => rfl

theorem valid_publicIdJson (o : Option String) : Valid T (publicIdJson o) := by
  cases o <;> (rw [publicIdJson, Valid]; trivial)

theorem valid_json {d : Dimensions} (h : ∀ key ∈ dimensions, (d.at key).natAbs < 10 ^ 20) : Valid T d.json := by
  have hint : ∀ key ∈ dimensions, Valid T (.int (d.at key)) := fun key hkey => Json.valid_int (h key hkey)
  unfold Dimensions.json
  rw [valid_dict]
  refine ⟨by simp, fun m hm => ?_⟩
  simp only [List.mem_cons, List.not_mem_nil, or_false] at hm
  rcases hm with rfl | rfl | rfl
  · exact hint "cpu_threads" (by decide)
  · exact hint "memory_mb" (by decide)
  · exact hint "disk_gb" (by decide)

section Printable

variable {d : Dimensions} {c : Config}

/-- The reserves of measured dimensions are short. -/
theorem reserves_short (hc : c.Valid nfkc) (h : Fits d c) :
    c.reserveCpuThreads.natAbs < 10 ^ 20 ∧ c.reserveMemoryMb.natAbs < 10 ^ 20 ∧ c.reserveDiskGb.natAbs < 10 ^ 20 := by
  have hreserves := hc.reserves
  have hmax : maxBigint = 9223372036854775807 := rfl
  obtain ⟨hcpu, hmemory, hdisk, -⟩ := h
  omega

theorem valid_configDocument (hc : c.Valid nfkc) (h : Fits d c) : Valid T (configDocument c) := by
  obtain ⟨hcpu, hmemory, hdisk⟩ := reserves_short hc h
  have hmtu := hc.bridgeMtu
  have hratio := hc.ratio
  have hcommitted := hc.committed
  have hmax : maxBigint = 9223372036854775807 := rfl
  have hstr : ∀ s : String, Valid T (.str s) := fun s => by rw [Valid]; trivial
  have hbool : ∀ b : Bool, Valid T (.bool b) := fun b => by rw [Valid]; trivial
  unfold configDocument
  cases c.isLegacy with
  | true =>
      rw [valid_dict]
      refine ⟨by simp, ?_⟩
      simp only [if_true, List.append_nil, List.forall_mem_cons, hstr, hbool, valid_address hc.apiAddress,
        valid_network hc.poolCidr, valid_address hc.poolGateway, valid_publicIdJson, Json.valid_int hcpu,
        Json.valid_int hmemory, Json.valid_int hdisk, Json.valid_int (T := T) (n := c.bridgeMtu) (by omega),
        true_and, List.not_mem_nil, false_imp_iff, implies_true]
  | false =>
      rw [valid_dict]
      refine ⟨by simp, ?_⟩
      simp only [Bool.false_eq_true, if_false, List.cons_append, List.nil_append, List.forall_mem_cons, hstr, hbool,
        valid_address hc.apiAddress, valid_network hc.poolCidr, valid_address hc.poolGateway, valid_publicIdJson,
        Json.valid_int hcpu, Json.valid_int hmemory, Json.valid_int hdisk,
        Json.valid_int (T := T) (n := c.bridgeMtu) (by omega),
        Json.valid_int (T := T) (n := c.cpuAllocationRatio) (by omega),
        Json.valid_int (T := T) (n := c.committedVcpu) (by omega), true_and, List.not_mem_nil, false_imp_iff,
        implies_true]

theorem valid_capacityDocument {measuredAt : String} (hc : c.Valid nfkc) (h : Fits d c) :
    Valid T (capacityDocument d c (.str measuredAt)) := by
  have hbounds := allocatable_bounds hc h
  obtain ⟨hcpu, hmemory, hdisk⟩ := reserves_short hc h
  have hratio := hc.ratio
  have hcommitted := hc.committed
  have hmax : maxBigint = 9223372036854775807 := rfl
  have hphysical : ∀ key ∈ dimensions, (d.at key).natAbs < 10 ^ 20 := by
    have hcpu := h.cpu
    have hmemory := h.memory
    have hdisk := h.disk
    intro key hkey
    simp only [dimensions, List.mem_cons, List.not_mem_nil, or_false] at hkey
    rcases hkey with rfl | rfl | rfl
    · show d.cpuThreads.natAbs < 10 ^ 20
      omega
    · show d.memoryMb.natAbs < 10 ^ 20
      omega
    · show d.diskGb.natAbs < 10 ^ 20
      omega
  have hreserved : ∀ key ∈ dimensions, (c.reserved.at key).natAbs < 10 ^ 20 := by
    intro key hkey
    simp only [dimensions, List.mem_cons, List.not_mem_nil, or_false] at hkey
    rcases hkey with rfl | rfl | rfl
    · exact hcpu
    · exact hmemory
    · exact hdisk
  have hallocatable : ∀ key ∈ dimensions, ((allocatable d c).at key).natAbs < 10 ^ 20 := by
    intro key hkey
    have := hbounds key hkey
    omega
  have hpolicy : Valid T (.dict [("allocation_ratio", .int c.cpuAllocationRatio),
      ("committed_vcpu", .int c.committedVcpu)]) := by
    rw [valid_dict]
    refine ⟨by simp, ?_⟩
    simp only [List.forall_mem_cons, Json.valid_int (T := T) (n := c.cpuAllocationRatio) (by omega),
      Json.valid_int (T := T) (n := c.committedVcpu) (by omega), true_and, List.not_mem_nil, false_imp_iff, implies_true]
  have hversion : Valid T (.int (if c.isLegacy then 1 else 2)) := by
    apply Json.valid_int
    split <;> decide
  have hstr : Valid T (.str measuredAt) := by rw [Valid]; trivial
  unfold capacityDocument
  cases hlegacy : c.isLegacy with
  | true =>
      rw [hlegacy] at hversion
      rw [valid_dict]
      refine ⟨by simp, ?_⟩
      simp only [if_true, List.append_nil, List.forall_mem_cons, valid_json hphysical, valid_json hreserved,
        valid_json hallocatable, hstr, List.not_mem_nil, false_imp_iff, implies_true, and_true]
      exact hversion
  | false =>
      rw [hlegacy] at hversion
      rw [valid_dict]
      refine ⟨by simp, ?_⟩
      simp only [Bool.false_eq_true, if_false, List.cons_append, List.nil_append, List.forall_mem_cons,
        valid_json hphysical, valid_json hreserved, valid_json hallocatable, hstr, hpolicy, List.not_mem_nil,
        false_imp_iff, implies_true, and_true]
      exact hversion

/-- **The report can be printed**: its numbers are in range, and no key is there twice. -/
theorem valid_reportDocument {measuredAt bootId vg pool : String} {total available : Int} {ca : ByteArray}
    (hc : c.Valid nfkc) (h : Fits d c) (hcovers : Covers T c total available) :
    Valid T (reportDocument c measuredAt bootId vg pool (capacityDocument d c (.str measuredAt)) total available ca) := by
  have hstr : ∀ s : String, Valid T (.str s) := fun s => by rw [Valid]; trivial
  have hbool : ∀ b : Bool, Valid T (.bool b) := fun b => by rw [Valid]; trivial
  have hpool : Valid T (.dict [("vg", .str vg), ("pool", .str pool), ("total_bytes", .int total),
      ("available_bytes", .int available)]) := by
    rw [valid_dict]
    refine ⟨by simp, ?_⟩
    simp only [List.forall_mem_cons, hstr, hcovers.printableTotal, hcovers.printableAvailable, true_and,
      List.not_mem_nil, false_imp_iff, implies_true]
  have hchecks : Valid T CHECKS := by
    unfold CHECKS
    rw [valid_dict]
    refine ⟨by simp, ?_⟩
    simp only [List.forall_mem_cons, hbool, true_and, List.not_mem_nil, false_imp_iff, implies_true]
  unfold reportDocument
  rw [valid_dict]
  refine ⟨by simp, ?_⟩
  simp only [List.forall_mem_cons, hstr, valid_configDocument hc h, valid_capacityDocument hc h, hpool, hchecks,
    Json.valid_int (T := T) (n := 1) (by decide), true_and, List.not_mem_nil, false_imp_iff, implies_true]

end Printable

/-! ## The report is accepted -/

/-- The instants at which a report that was measured then is fresh. -/
def Fresh (measured now : Isoformat.Utc) : Prop :=
  measured.micros ≤ now.micros ∧ now.micros ≤ measured.micros + 900 * 1000000

/-- **`validate_report` accepts the document**, with the configuration it was made of. -/
theorem validateReport_document {d : Dimensions} {c : Config} {value : Json} {measured now : Isoformat.Utc}
    {bootId vg pool : String} {total available : Int} {ca : ByteArray} (haccepted : fromDict nfkc value = .ok c)
    (h : Fits d c) (hcovers : Covers T c total available) (hdisk : d.diskGb = total / 1024 ^ 3)
    (hboot : Url.isCanonicalUuid bootId = true) (hfresh : Fresh measured now) :
    validateReport nfkc (reportDocument c (Isoformat.isoformat measured) bootId vg pool
      (capacityDocument d c (.str (Isoformat.isoformat measured))) total available ca) now = .ok c := by
  have hvalidate := validate_attributes (validate_of_fromDict haccepted)
  have hc := (validate_spec hvalidate).2
  have hmoment := Isoformat.fromisoformat_isoformat measured
  have hcapacity : capacity nfkc d.json c (.str (Isoformat.isoformat measured)) = .ok
      (capacityDocument d c (.str (Isoformat.isoformat measured))) := (capacity_eq_ok hvalidate).mpr ⟨rfl, h⟩
  obtain ⟨hlate, hearly⟩ := hfresh
  have hage : (0 ≤ now.micros - measured.micros) ∧ now.micros - measured.micros ≤ 900 * 1000000 := by omega
  have hdigest := Sha256.hexdigest_form ca
  unfold validateReport
  refine bind_eq_ok.mpr ⟨.int 1, rfl, bind_eq_ok.mpr ⟨(), rfl, ?_⟩⟩
  refine bind_eq_ok.mpr ⟨configDocument c, rfl, bind_eq_ok.mpr ⟨c, fromDict_configDocument haccepted, ?_⟩⟩
  refine bind_eq_ok.mpr ⟨.str (Isoformat.isoformat measured), rfl,
    bind_eq_ok.mpr ⟨{ wall := measured.micros, offset := some 0 }, ?_, ?_⟩⟩
  · unfold momentOf
    dsimp only
    rw [hmoment]
  refine bind_eq_ok.mpr ⟨(), require_eq_ok.mpr ?_, bind_eq_ok.mpr ⟨_, rfl, ?_⟩⟩
  · simp only [Isoformat.Moment.isAware, Isoformat.Moment.instant, Option.isSome_some, Option.getD_some, Int.sub_zero,
      Bool.true_and, Bool.and_eq_true, decide_eq_true_eq]
    exact hage
  refine bind_eq_ok.mpr ⟨(), validateCapacityDocument_capacity hc h hmoment rfl, bind_eq_ok.mpr ⟨d.json, rfl, ?_⟩⟩
  refine bind_eq_ok.mpr ⟨_, hcapacity, bind_eq_ok.mpr ⟨(), require_eq_ok.mpr ?_, ?_⟩⟩
  · exact Json.equal_self (T := T) _ (valid_capacityDocument hc h)
  refine bind_eq_ok.mpr ⟨CHECKS, rfl, bind_eq_ok.mpr ⟨(), require_eq_ok.mpr (by decide), ?_⟩⟩
  refine bind_eq_ok.mpr ⟨.str bootId, rfl, bind_eq_ok.mpr ⟨(), require_eq_ok.mpr hboot, ?_⟩⟩
  refine bind_eq_ok.mpr ⟨.str (Sha256.hexdigest ca), rfl, bind_eq_ok.mpr ⟨Sha256.hexdigest ca, if_pos ?_, ?_⟩⟩
  · unfold Text.fullmatch
    rw [hdigest.1, hdigest.2]
    rfl
  refine bind_eq_ok.mpr ⟨(), require_eq_ok.mpr ?_, bind_eq_ok.mpr ⟨_, rfl, bind_eq_ok.mpr ⟨.int total, rfl, ?_⟩⟩⟩
  · rw [Bool.and_eq_true]
    exact ⟨decide_eq_true h.cpu.2.1, decide_eq_true h.memory.2.1⟩
  refine bind_eq_ok.mpr ⟨true, ?_, bind_eq_ok.mpr ⟨(), rfl, bind_eq_ok.mpr ⟨.int available, rfl, ?_⟩⟩⟩
  · have hfloor : ⌊(total : ℚ) / (1024 ^ 3 : Int)⌋ = d.diskGb := by
      have hdiv := Rat.floor_intCast_div_natCast total (1024 ^ 3)
      push_cast at hdiv ⊢
      rw [hdiv, hdisk]
      norm_num
    exact congrArg Except.ok (decide_eq_true hfloor)
  refine bind_eq_ok.mpr ⟨true, congrArg Except.ok (decide_eq_true ?_), rfl⟩
  exact_mod_cast hcovers.reserve

/-- **Node evidence round trip.** The document of an accepted configuration is accepted as the same configuration.
    A report that `collect` returned is read back from its text as it was, and is accepted with its configuration
    for 900 seconds; its capacity is accepted, every allocatable dimension and the CPU budget are in range. -/
theorem node_evidence_round_trip (T : FloatText) (nfkc : List Char → List Char) {value : Json} {c : Config}
    (haccepted : fromDict nfkc value = .ok c) :
    fromDict nfkc (configDocument c) = .ok c ∧
    ∀ (m : Machine) (report : Json), collect T nfkc m c = .ok report →
      loads T (dumpsAscii T report) = some report ∧
      (∀ bootId, report.get? "boot_id" = some (.str bootId) → Url.isCanonicalUuid bootId = true →
        ∀ now, Fresh m.now now → validateReport nfkc report now = .ok c) ∧
      ∃ (placement : Json) (d : Dimensions), report.get? "placement_capacity" = some placement ∧
        validateCapacityDocument placement = .ok () ∧
        placement.get? "allocatable" = some (allocatable d c).json ∧
        (∀ key ∈ dimensions, 1 ≤ (allocatable d c).at key ∧ (allocatable d c).at key ≤ 2 ^ 63 - 1) ∧
        placement.get? "physical" = some d.json ∧ budget d c ≤ 2 ^ 63 - 1 := by
  refine ⟨fromDict_configDocument haccepted, fun m report h => ?_⟩
  have hvalidate := validate_attributes (validate_of_fromDict haccepted)
  have hc := (validate_spec hvalidate).2
  obtain ⟨d, total, available, vg, pool, bootId, ca, hfits, hcovers, hdisk, rfl⟩ := collect_spec hvalidate h
  have hmoment := Isoformat.fromisoformat_isoformat m.now
  refine ⟨loads_dumpsAscii (valid_reportDocument hc hfits hcovers), ?_, _, d, rfl,
    validateCapacityDocument_capacity hc hfits hmoment rfl, get?_allocatable, allocatable_bounds hc hfits,
    get?_physical, hfits.budget.1⟩
  intro boot hget hboot now hfresh
  cases hget
  exact validateReport_document haccepted hfits hcovers hdisk hboot hfresh

/-! ## A small node -/

/-- The answers of a node with eight threads, in JSON. -/
def smallAnswer : List String → Option Json
  | ["pvesh", "get", path, "--output-format", "json"] =>
    if path = "/cluster/status" then
      some (.list [.dict [("type", .str "cluster"), ("name", .str "c"), ("quorate", .int 1)],
        .dict [("type", .str "node"), ("name", .str "n"), ("online", .int 1)]])
    else if path = "/nodes/n/status" then
      some (.dict [("cpuinfo", .dict [("cpus", .int 8)]), ("memory", .dict [("total", .int 4194304)])])
    else if path = "/nodes/n/storage/s/status" then
      some (.dict [("active", .int 1), ("total", .int 1073741824), ("avail", .int 7)])
    else some (.dict [("type", .str "lvmthin"), ("vgname", .str "v"), ("thinpool", .str "t")])
  | "ip" :: "-j" :: "-d" :: _ =>
    some (.list [.dict [("linkinfo", .dict [("info_kind", .str "bridge")]), ("mtu", .int 1370), ("flags", .list [.str "UP"])]])
  | "ip" :: _ => some (.list [.dict [("addr_info", .list [.dict [("local", .str "192.0.2.20")]])]])
  | "lvs" :: _ =>
    some (.dict [("report", .list [.dict [("lv", .list [.dict [("vg_name", .str "v"), ("lv_name", .str "t"),
      ("lv_size", .str "1073741824"), ("segtype", .str "thin-pool"), ("lv_active", .str "active")]])]])])
  | _ => none

theorem smallClock_inRange : Clock.inRange (1700000000123456 / 1000000) = true := by decide +kernel

/-- The node. Of the commands without an answer in JSON, `curl` and `cat` are left. -/
def smallMachine : Machine where
  euid := 0
  hostname := "n.example"
  run command := match smallAnswer command with
    | some v => .ok (String.ofList (dumpsAscii zeroText v))
    | none   => if command.head? = some "curl" then .ok "200" else .ok "f49b7688-df8c-4854-9e8f-7916b6f51920"
  read _ := .ok ByteArray.empty
  now := ⟨1700000000123456, smallClock_inRange⟩

/-- Its configuration, with the fields of the legacy collector. -/
def smallValue : Json :=
  .dict [("node", .str "n"), ("cluster", .str "c"), ("api_url", .str "https://n:8006"), ("api_address", .str "192.0.2.20"),
    ("ca_file", .str "/ca"), ("bridge", .str "b"), ("bridge_mtu", .int 1370), ("storage", .str "s"), ("pool_name", .str "p"),
    ("pool_cidr", .str "100.66.0.0/16"), ("pool_gateway", .str "100.66.0.1"), ("reserve_cpu_threads", .int 4),
    ("reserve_memory_mb", .int 1), ("reserve_disk_gb", .int 0), ("gpu_node", .bool false), ("database", .str "d"),
    ("database_hostname", .str "h"), ("database_system_identifier", .str "7600000000"),
    ("database_socket_dir", .str "/s"), ("existing_public_id", .null)]

def smallConfig : Config where
  node := "n"
  cluster := "c"
  apiUrl := "https://n:8006"
  apiAddress := .str "192.0.2.20"
  caFile := "/ca"
  bridge := "b"
  bridgeMtu := 1370
  storage := "s"
  poolName := "p"
  poolCidr := .str "100.66.0.0/16"
  poolGateway := .str "100.66.0.1"
  reserveCpuThreads := 4
  reserveMemoryMb := 1
  reserveDiskGb := 0
  gpuNode := false
  database := "d"
  databaseHostname := "h"
  databaseSystemIdentifier := "7600000000"
  databaseSocketDir := "/s"
  existingPublicId := none
  cpuAllocationRatio := 1
  committedVcpu := 0

theorem node_evidence_round_trip_small :
    fromDict id (configDocument smallConfig) = .ok smallConfig ∧
    ∃ report, collect zeroText id smallMachine smallConfig = .ok report ∧
      loads zeroText (dumpsAscii zeroText report) = some report ∧
      validateReport id report smallMachine.now = .ok smallConfig := by
  obtain ⟨hconfig, hreport⟩ := node_evidence_round_trip zeroText id (show fromDict id smallValue = .ok smallConfig from rfl)
  have hboot : (collect zeroText id smallMachine smallConfig).toOption.bind
      (fun report => (report.get? "boot_id").bind Json.asStr?) = some "f49b7688-df8c-4854-9e8f-7916b6f51920" := by
    decide +kernel
  cases hcollect : collect zeroText id smallMachine smallConfig with
  | error e =>
      rw [hcollect] at hboot
      cases hboot
  | ok report =>
      rw [hcollect] at hboot
      replace hboot : (report.get? "boot_id").bind Json.asStr? = some "f49b7688-df8c-4854-9e8f-7916b6f51920" := hboot
      obtain ⟨v, hget, hstr⟩ := Option.bind_eq_some_iff.mp hboot
      cases v with
      | str bootId =>
          cases hstr
          obtain ⟨hread, haccepted, -⟩ := hreport smallMachine report hcollect
          refine ⟨hconfig, report, rfl, hread, haccepted _ hget (by decide +kernel) smallMachine.now ⟨Int.le_refl _, ?_⟩⟩
          omega
      | null | bool | int | float | list | dict => cases hstr

end Registration
end PickleInfra
