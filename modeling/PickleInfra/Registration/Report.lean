import PickleInfra.Python.Ascii
import PickleInfra.Python.Isoformat
import PickleInfra.Python.Sha256
import PickleInfra.Python.Str
import PickleInfra.Registration.Config

/-!
# `Registration.Report` — `capacity`, `collect` and `validate_report`

The machine is what `collect` asks: its user, its name, the outcome of every command, the bytes of a file and the
clock. Values of JSON keep their types, since the validators tell an integer from a float and from a `bool`.
-/

namespace PickleInfra
namespace Registration

open Python Network

variable (T : FloatText) (nfkc : List Char → List Char)

/-! ## Values -/

/-- `value.get(key, default)`: only a dictionary has `get`. -/
def get (key : String) (default : Json) : Json → Except RegistrationExn Json
  | .dict ms => .ok ((Json.lookup key ms).getD default)
  | _        => .error .typeError

/-- `for x in value` -/
def elements : Json → Except RegistrationExn (List Json)
  | .list xs => .ok xs
  | .dict ms => .ok (ms.map fun m => .str m.1)
  | .str s   => .ok (s.toList.map fun c => .str (String.singleton c))
  | _        => .error .typeError

/-- `text in value` -/
def contains (text : String) : Json → Except RegistrationExn Bool
  | .list xs => .ok (xs.any (Json.isStr text))
  | .dict ms => .ok (ms.any fun m => m.1 = text)
  | .str s   => .ok (s.toList.tails.any text.toList.isPrefixOf)
  | _        => .error .typeError

/-- The integer under a key that is known to hold one. -/
def intAt (key : String) (v : Json) : Int := ((v.getOrNull key).asInt?).getD 0

/-- `value >= n` -/
def atLeast (n : Int) : Json → Except RegistrationExn Bool
  | .float .inf    => .ok true
  | .float .negInf => .ok false
  | .float .nan    => .ok false
  | v              => match v.numeric with
    | some q => .ok (n ≤ q)
    | none   => .error .typeError

/-- `value <= n` -/
def atMost (n : Int) : Json → Except RegistrationExn Bool
  | .float .inf    => .ok false
  | .float .negInf => .ok true
  | .float .nan    => .ok false
  | v              => match v.numeric with
    | some q => .ok (q ≤ n)
    | none   => .error .typeError

/-- `value // n == m` -/
def floorDivEquals (n m : Int) : Json → Except RegistrationExn Bool
  | .float .inf | .float .negInf | .float .nan => .ok false
  | v                                          => match v.numeric with
    | some q => .ok (⌊q / n⌋ = m)
    | none   => .error .typeError

/-- `Decimal(value)` as a number, which is none for the infinities and `NaN`. (`InvalidOperation` is an
    `ArithmeticError`, like `overflowError`.) -/
def decimal : Json → Except RegistrationExn (Option ℚ)
  | .str s            =>
    let digits := (Str.strip s.toList).filter (· ≠ '_')
    match Numeral.parse digits with
    | some n => .ok (some n.value)
    | none   =>
      if ["inf", "infinity", "nan", "snan"].contains (String.ofList ((digits.map Url.asciiLower).dropWhile
        fun c => c = '+' || c = '-')) then .ok none else .error .overflowError
  | .float (.finite q) => .ok (some q)
  | .float _           => .ok none
  | .int n             => .ok (some n)
  | .bool b            => .ok (some (if b then 1 else 0))
  | _                  => .error .typeError

/-! ## The placement capacity -/

def dimensions : List String := ["cpu_threads", "memory_mb", "disk_gb"]

/-- The three dimensions of a group of capacities. -/
structure Dimensions where
  cpuThreads : Int
  memoryMb : Int
  diskGb : Int
deriving DecidableEq, Repr

def Dimensions.json (d : Dimensions) : Json :=
  .dict [("cpu_threads", .int d.cpuThreads), ("memory_mb", .int d.memoryMb), ("disk_gb", .int d.diskGb)]

/-- The value of a dimension. -/
def Dimensions.at (d : Dimensions) (key : String) : Int :=
  if key = "cpu_threads" then d.cpuThreads else if key = "memory_mb" then d.memoryMb else d.diskGb

def Config.reserved (c : Config) : Dimensions := ⟨c.reserveCpuThreads, c.reserveMemoryMb, c.reserveDiskGb⟩

/-- The range of the column of a dimension. -/
def columnMax (key : String) : Int :=
  if key = "cpu_threads" ∨ key = "memory_mb" then 2147483647 else maxBigint

/-- One round of the loop of `capacity`. -/
def measuredDimension (c : Config) (m : String × Json) : Except RegistrationExn (String × Int) := do
  let n ← positiveInt m.2 ("physical " ++ m.1) 1
  require (n ≤ columnMax m.1) "Physical capacity exceeds its database column range"
  require (c.reserved.at m.1 < n) ("The " ++ m.1 ++ " reserve leaves no allocatable capacity")
  return (m.1, n)

/-- `capacity` -/
def capacity (physical : Json) (config : Config) (measuredAt : Json) : Except RegistrationExn Json := do
  let _ ← validate nfkc config.attributes
  require (physical.hasKeys dimensions) "Unexpected capacity dimensions"
  let numbers ← physical.members.mapM (measuredDimension config)
  let left := numbers.map fun e => (e.1, e.2 - config.reserved.at e.1)
  let budget := (Dict.lookup "cpu_threads" left).getD 0 * config.cpuAllocationRatio
  require (budget ≤ maxBigint && config.committedVcpu < budget) "CPU policy overflows or leaves no allocatable vCPU"
  let allocatable := left.map fun e => (e.1, Json.int (if e.1 = "cpu_threads" then budget - config.committedVcpu else e.2))
  return .dict ([("schema_version", .int (if config.isLegacy then 1 else 2)), ("physical", physical),
    ("reserved", config.reserved.json), ("allocatable", .dict allocatable), ("measured_at", measuredAt)]
    ++ if config.isLegacy then []
      else [("cpu_policy", .dict [("allocation_ratio", .int config.cpuAllocationRatio),
        ("committed_vcpu", .int config.committedVcpu)])])

/-! ## The validator of a stored capacity -/

/-- The least and the largest number that a group may hold. -/
def storedLeast (group : String) : Int := if group = "reserved" then 0 else 1

def storedMax (group key : String) : Int := if group = "physical" then columnMax key else maxBigint

def checkNumber (group : String) (m : String × Json) : Except RegistrationExn Unit := do
  let n ← positiveInt m.2 ("stored " ++ group ++ " " ++ m.1) (storedLeast group)
  require (n ≤ storedMax group m.1) "Stored capacity exceeds its integer range"

/-- `value[group]` with its numbers. -/
def storedGroup (group : String) (value : Json) : Except RegistrationExn Dimensions := do
  let numbers ← value.item group
  require (numbers.hasKeys dimensions) "Malformed stored placement_capacity dimensions; preserve them for review"
  let _ ← numbers.members.mapM (checkNumber group)
  return ⟨intAt "cpu_threads" numbers, intAt "memory_mb" numbers, intAt "disk_gb" numbers⟩

/-- The allocation ratio and the committed vCPU of `value['cpu_policy']`. -/
def storedPolicy (value : Json) : Except RegistrationExn (Int × Int) := do
  let policy ← value.item "cpu_policy"
  require (policy.hasKeys ["allocation_ratio", "committed_vcpu"])
    "Unknown stored CPU policy fields; preserve them for review"
  let ratio ← intBetween 1 2 "Unsupported stored CPU allocation ratio" (policy.getOrNull "allocation_ratio")
  let committed ← positiveInt (policy.getOrNull "committed_vcpu") "stored committed_vcpu" 0
  require (committed ≤ maxBigint) "Stored committed vCPU exceeds signed 64-bit capacity"
  return (ratio, committed)

/-- The policy of a version: version 1 has none to store. -/
def policyOf (version : Option Int) (value : Json) : Except RegistrationExn (Int × Int) :=
  if version = some 2 then storedPolicy value else .ok (1, 0)

def legacyFields : List String := ["schema_version", "physical", "reserved", "allocatable", "measured_at"]

/-- `datetime.fromisoformat(value)` -/
def momentOf : Json → Except RegistrationExn Isoformat.Moment
  | .str s => match Isoformat.fromisoformat s with
    | some m => .ok m
    | none   => .error .valueError
  | _      => .error .typeError

/-- `validate_capacity_document`. The dictionaries of integers that its last comparison takes are compared by their
    dimensions. -/
def validateCapacityDocument (value : Json) : Except RegistrationExn Unit := do
  let version := (value.getOrNull "schema_version").asInt?
  require ((version = some 1 && value.hasKeys legacyFields)
    || (version = some 2 && value.hasKeys (legacyFields ++ ["cpu_policy"])))
    "Unknown stored placement_capacity schema; preserve it for review"
  let physical ← storedGroup "physical" value
  let reserved ← storedGroup "reserved" value
  let allocatable ← storedGroup "allocatable" value
  require (dimensions.all fun key => reserved.at key < physical.at key)
    "Stored reserve leaves no physical allocation margin"
  let policy ← policyOf version value
  let budget := (physical.cpuThreads - reserved.cpuThreads) * policy.1
  require (budget ≤ maxBigint && policy.2 < budget) "Stored CPU policy overflows or leaves no allocatable vCPU"
  require (allocatable = ⟨budget - policy.2, physical.memoryMb - reserved.memoryMb, physical.diskGb - reserved.diskGb⟩)
    "Stored placement_capacity has an inconsistent reservation or CPU policy"
  let measuredAt ← stringThat (fun _ => true) "Stored placement capacity has no measurement time"
    (value.getOrNull "measured_at")
  let moment ← momentOf (.str measuredAt)
  require moment.isAware "Stored placement capacity time must include its timezone"

/-! ## Collecting -/

/-- What `collect` asks. -/
structure Machine where
  euid : Nat
  hostname : String
  run : List String → Except RegistrationExn String
  read : String → Except RegistrationExn ByteArray
  now : Isoformat.Utc

/-- `json.loads(text)` -/
def parseJson (text : String) : Except RegistrationExn Json := parsed (JsonText.loads T text.toList)

/-- `Runner.api` -/
def Machine.api (m : Machine) (path : String) : Except RegistrationExn Json := do
  parseJson T (← m.run ["pvesh", "get", path, "--output-format", "json"])

def onNode (hostname node : String) : Bool := hostname.toList.takeWhile (· ≠ '.') = node.toList

def checkCluster (c : Config) (status : Json) : Except RegistrationExn Unit := do
  let rows ← elements status
  let cluster ← rows.filterM fun row => do return (← get "type" .null row).isStr "cluster"
  require (match cluster with
    | [row] => (row.getOrNull "name").isStr c.cluster && (row.getOrNull "quorate").isNumber 1
    | _     => false) "The expected cluster must be quorate"
  require (rows.any fun row => (row.getOrNull "type").isStr "node" && (row.getOrNull "name").isStr c.node
    && (row.getOrNull "online").isNumber 1) "The expected node is not online in the cluster"

def bridgeMessage : String := "The expected guest bridge and MTU must already be configured and up"

/-- The one link that `ip` shows. -/
def onlyLink : Json → Except RegistrationExn Json
  | .list [link] => .ok link
  | .list _      => .error (.own bridgeMessage)
  | .dict ms     => if ms.length = 1 then .error .keyError else .error (.own bridgeMessage)
  | .str s       => if s.length = 1 then .error .typeError else .error (.own bridgeMessage)
  | _            => .error .typeError

def checkBridge (c : Config) (links : Json) : Except RegistrationExn Unit := do
  let link ← onlyLink links
  let info ← get "info_kind" .null (← get "linkinfo" (.dict []) link)
  require (info.isStr "bridge" && (link.getOrNull "mtu").isNumber c.bridgeMtu) bridgeMessage
  require (← contains "UP" (← get "flags" (.list []) link)) bridgeMessage

def checkAddress (c : Config) (addresses : Json) : Except RegistrationExn Unit := do
  let found ← (← elements addresses).anyM fun row => do
    (← elements (← get "addr_info" (.list []) row)).anyM fun item => do
      return (← get "local" .null item).equal c.apiAddress
  require found "The API transport address does not belong to this node"

/-- `[a-zA-Z0-9][a-zA-Z0-9_+.-]{0,126}` -/
def isVolume : String → Bool :=
  Text.fullmatchFirst isAlnum (fun c => isAlnum c || ['_', '+', '.', '-'].contains c) 126

/-- The volume group and the pool of an active thin pool. -/
def thinPool (storage storageConfig : Json) : Except RegistrationExn (String × String) := do
  let kind ← get "type" .null storageConfig
  let message := "The selected storage must be an enabled active LVM thin pool"
  require (kind.isStr "lvmthin") message
  let active ← get "active" .null storage
  let enabled ← get "enabled" (.int 1) storage
  require (active.isNumber 1 && enabled.isNumber 1) message
  let vg ← matching isVolume "Invalid thin-pool identity" ((storageConfig.get? "vgname").getD (.str ""))
  let pool ← matching isVolume "Invalid thin-pool identity" ((storageConfig.get? "thinpool").getD (.str ""))
  return (vg, pool)

/-- The row in which LVM reports the one thin pool. -/
def volumeRow (vg pool : String) (report : Json) : Except RegistrationExn Json := do
  let sections ← elements (← get "report" (.list []) report)
  let volumes ← sections.mapM fun part => do elements (← get "lv" (.list []) part)
  let message := "The selected PVE storage does not identify one active local thin pool"
  match volumes.flatten with
  | [row] => do
    let name ← get "vg_name" .null row
    require (name.isStr vg && (row.getOrNull "lv_name").isStr pool && (row.getOrNull "segtype").isStr "thin-pool"
      && (row.getOrNull "lv_active").isStr "active") message
    return row
  | _     => .error (.own message)

/-- `str(value)` of an address. -/
def addressStr : Json → String
  | .str s  => s
  | .int n  => toString n
  | .bool b => if b then "True" else "False"
  | _       => ""

/-- `json` with every check that `collect` makes. -/
def CHECKS : Json :=
  .dict [("cluster", .bool true), ("local_api_address", .bool true), ("bridge", .bool true), ("thin_pool", .bool true),
    ("ca_hostname_https", .bool true), ("local_gateway_required", .bool false)]

/-- The command that asks for the page of the API. -/
def curlCommand (c : Config) : List String :=
  let host := ((Url.urlsplit nfkc c.apiUrl).bind (·.hostname)).getD []
  ["curl", "--noproxy", "*", "--fail", "--silent", "--show-error", "--connect-timeout", "5", "--max-time", "15",
    "--cacert", c.caFile, "--resolve", String.ofList host ++ ":8006:" ++ addressStr c.apiAddress, c.apiUrl ++ "/",
    "-o", "/dev/null", "-w", "%\x7bhttp_code\x7d"]

/-- The size and the free space of the thin pool in bytes. -/
def poolBytes (c : Config) (storage row : Json) : Except RegistrationExn (Int × Int) := do
  let total ← positiveInt (storage.getOrNull "total") "storage total" 1
  require ((← decimal (← row.item "lv_size")) = some (total : ℚ)) "LVM and PVE disagree on the physical thin-pool size"
  let available ← positiveInt (storage.getOrNull "avail") "storage available" 0
  require (c.reserveDiskGb * 1024 ^ 3 ≤ available) "Available thin-pool space is below the required reserve"
  return (total, available)

/-- The measured dimensions. -/
def measure (status : Json) (total : Int) : Except RegistrationExn Dimensions := do
  let cpus ← positiveInt (← get "cpus" .null (← get "cpuinfo" (.dict []) status)) "CPU threads" 1
  let memory ← positiveInt (← get "total" .null (← get "memory" (.dict []) status)) "memory total" 1
  return ⟨cpus, memory / 1024 ^ 2, total / 1024 ^ 3⟩

/-- `collect` -/
def collect (m : Machine) (c : Config) : Except RegistrationExn Json := do
  require (m.euid = 0 && onNode m.hostname c.node) "Collect as root on the exact expected Proxmox node"
  checkCluster c (← m.api T "/cluster/status")
  checkBridge c (← parseJson T (← m.run ["ip", "-j", "-d", "link", "show", "dev", c.bridge]))
  checkAddress c (← parseJson T (← m.run ["ip", "-j", "-4", "address"]))
  let status ← m.api T ("/nodes/" ++ c.node ++ "/status")
  let storage ← m.api T ("/nodes/" ++ c.node ++ "/storage/" ++ c.storage ++ "/status")
  let (vg, pool) ← thinPool storage (← m.api T ("/storage/" ++ c.storage))
  let row ← volumeRow vg pool (← parseJson T (← m.run ["lvs", "--reportformat", "json", "--units", "b", "--nosuffix",
    "-o", "vg_name,lv_name,lv_size,segtype,lv_active", vg ++ "/" ++ pool]))
  let (total, available) ← poolBytes c storage row
  let page ← m.run (curlCommand nfkc c)
  require (page = "200") "CA and hostname verified Proxmox HTTPS did not return 200"
  let measuredAt := Json.str (Isoformat.isoformat m.now)
  let physical ← measure status total
  let bootId ← m.run ["cat", "/proc/sys/kernel/random/boot_id"]
  let placement ← capacity nfkc physical.json c measuredAt
  let ca ← m.read c.caFile
  return .dict [("schema_version", .int 1), ("config", configDocument c), ("measured_at", measuredAt),
    ("boot_id", .str bootId), ("placement_capacity", placement),
    ("thin_pool", .dict [("vg", .str vg), ("pool", .str pool), ("total_bytes", .int total),
      ("available_bytes", .int available)]),
    ("checks", CHECKS), ("ca_sha256", .str (Sha256.hexdigest ca))]

/-! ## Validating a report -/

/-- `str(uuid.UUID(value)) == value` -/
def checkUuid (message : String) : Json → Except RegistrationExn Unit
  | .str s => require (Url.isCanonicalUuid s) message
  | _      => .error .typeError

/-- `validate_report` -/
def validateReport (report : Json) (now : Isoformat.Utc) : Except RegistrationExn Config := do
  require ((← get "schema_version" .null report).isNumber 1) "Unsupported collection report"
  let config ← fromDict nfkc (← report.item "config")
  let measuredAt ← report.item "measured_at"
  let measured ← momentOf measuredAt
  require (measured.isAware && (0 ≤ now.micros - measured.instant && now.micros - measured.instant ≤ 900 * 1000000))
    "Collect fresh node evidence within 15 minutes before registration"
  let placement ← report.item "placement_capacity"
  validateCapacityDocument placement
  let physical ← placement.item "physical"
  let expected ← capacity nfkc physical config measuredAt
  require (placement.equal expected) "Capacity does not equal measured values, explicit reserves and the CPU policy"
  require ((← report.item "checks").equal CHECKS) "Collection checks did not all pass"
  checkUuid "Invalid collected boot identifier" (← report.item "boot_id")
  let _ ← matching (Text.fullmatch Text.isHex 64 64) "Missing public CA fingerprint" (← report.item "ca_sha256")
  require (intAt "cpu_threads" physical ≤ 2147483647 && intAt "memory_mb" physical ≤ 2147483647)
    "Capacity exceeds the existing database column range"
  let pool ← report.item "thin_pool"
  let covered := "Thin-pool evidence does not cover the disk reserve"
  require (← floorDivEquals (1024 ^ 3) (intAt "disk_gb" physical) (← pool.item "total_bytes")) covered
  require (← atLeast (config.reserveDiskGb * 1024 ^ 3) (← pool.item "available_bytes")) covered
  return config

end Registration
end PickleInfra
