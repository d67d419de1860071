import PickleInfra.Network.Texts
import PickleInfra.Python.Equality
import PickleInfra.Python.Fields
import PickleInfra.Python.Url

/-!
# `Registration.Config` — the configuration and the capacity of `lib/node_registration.py`

`validate` reads the attributes of a configuration in the order of the source and returns it with the types that
the checks gave it. An address may be an integer, which `ipaddress` takes for the address itself. `AttributeError`
counts as `typeError`: no clause of the program catches either.
-/

namespace PickleInfra
namespace Registration

open Python Network

/-- The exceptions: `RegistrationError` with its text, and those of the language. -/
abbrev RegistrationExn := Exn String

/-- `require(condition, message)` -/
def require (condition : Bool) (message : String) : Except RegistrationExn Unit := rejectIf (!condition) message

@[simp] theorem require_eq_ok {condition : Bool} {message : String} {u : Unit} :
    require condition message = .ok u ↔ condition = true := by
  cases condition <;> simp [require]

/-- `positive_int(value, name)`, whose least value is 0 where the source passes `zero=True`. -/
def positiveInt (value : Json) (name : String) (least : Int) : Except RegistrationExn Int :=
  match value with
  | .int n => if least ≤ n then .ok n else .error (.own ("Invalid " ++ name))
  | _      => .error (.own ("Invalid " ++ name))

theorem positiveInt_eq_ok {value : Json} {name : String} {least n : Int} :
    positiveInt value name least = .ok n ↔ value = .int n ∧ least ≤ n := by
  cases value with
  | int m =>
      unfold positiveInt
      dsimp only
      split
      · next hle =>
        constructor
        · intro h
          cases h
          exact ⟨rfl, hle⟩
        · rintro ⟨h, -⟩
          cases h
          rfl
      · next hle =>
        constructor
        · intro h
          cases h
        · rintro ⟨h, h'⟩
          cases h
          exact absurd h' hle
  | null | bool | float | str | list | dict => exact ⟨fun h => (by cases h), fun h => (by cases h.1)⟩

/-! ## Fields -/

/-- A string that the test accepts, else the program's own error. -/
def stringThat (test : String → Bool) (message : String) : Json → Except RegistrationExn String
  | .str s => if test s then .ok s else .error (.own message)
  | _      => .error (.own message)

/-- The same, where only a string is tested at all. -/
def matching (test : String → Bool) (message : String) : Json → Except RegistrationExn String
  | .str s => if test s then .ok s else .error (.own message)
  | _      => .error .typeError

theorem str_of_stringThat {test : String → Bool} {message : String} {v : Json} {s : String}
    (h : stringThat test message v = .ok s) : v = .str s ∧ test s = true := by
  cases v with
  | str t =>
      unfold stringThat at h
      dsimp only at h
      split at h
      · next ht => cases h; exact ⟨rfl, ht⟩
      · cases h
  | null | bool | int | float | list | dict => cases h

theorem str_of_matching {test : String → Bool} {message : String} {v : Json} {s : String}
    (h : matching test message v = .ok s) : v = .str s ∧ test s = true := by
  cases v with
  | str t =>
      unfold matching at h
      dsimp only at h
      split at h
      · next ht => cases h; exact ⟨rfl, ht⟩
      · cases h
  | null | bool | int | float | list | dict => cases h

/-- `[a-z][a-z0-9-]{0,62}` -/
def isName : String → Bool :=
  Text.fullmatchFirst Text.isLower (fun c => Text.isLower c || Text.isDigit c || c = '-') 62

/-- `[a-z][a-z0-9_]{0,62}` -/
def isDatabase : String → Bool :=
  Text.fullmatchFirst Text.isLower (fun c => Text.isLower c || Text.isDigit c || c = '_') 62

def isAlnum (c : Char) : Bool := Url.isAsciiAlpha c || Text.isDigit c

/-- `[a-zA-Z][a-zA-Z0-9_-]{0,14}` -/
def isBridge : String → Bool :=
  Text.fullmatchFirst Url.isAsciiAlpha (fun c => isAlnum c || c = '_' || c = '-') 14

/-- `[a-zA-Z0-9](?:[a-zA-Z0-9-]{0,61}[a-zA-Z0-9])?` -/
def isHostLabel (cs : List Char) : Bool :=
  cs.all (fun c => isAlnum c || c = '-') && cs.head?.any isAlnum && cs.getLast?.any isAlnum && decide (cs.length ≤ 63)

/-- An absolute path without line ends and zero bytes. -/
def isPlainPath (s : String) : Bool :=
  (Text.Path.ofString s).isAbsolute && !s.toList.any ['\n', '\r', Char.ofNat 0].contains

/-- A value that is false without being a string: `urlsplit` takes it for the empty one. -/
def isEmptyValue : Json → Bool
  | .null | .bool false | .list [] | .dict [] => true
  | v                                         => v.numeric = some 0

variable (nfkc : List Char → List Char)

/-- The checks of an API URL: HTTPS at port 8006 without a path or credentials, and host labels. -/
def checkUrl (message hostMessage : String) (u : Url.SplitResult) : Except RegistrationExn Unit :=
  match u.hostname with
  | none      => .error (.own message)
  | some host =>
    if u.scheme = "https".toList then
      match u.port with
      | none   => .error .valueError
      | some p => do
        require (p = some 8006 && u.username.isEmpty && u.password.isEmpty && u.path.isEmpty && u.query.isEmpty
          && u.fragment.isEmpty) message
        require ((host.splitOn '.').all isHostLabel) hostMessage
    else .error (.own message)

def nodeUrl (message hostMessage : String) : Json → Except RegistrationExn String
  | .str s =>
    match Url.urlsplit nfkc s with
    | none   => .error .valueError
    | some u => do
      checkUrl message hostMessage u
      return s
  | v      => if isEmptyValue v then .error (.own message) else .error .typeError

theorem str_of_nodeUrl {message hostMessage : String} {v : Json} {s : String}
    (h : nodeUrl nfkc message hostMessage v = .ok s) :
    v = .str s ∧ ∃ u, Url.urlsplit nfkc s = some u ∧ checkUrl message hostMessage u = .ok () := by
  cases v with
  | str t =>
      unfold nodeUrl at h
      dsimp only at h
      split at h
      · cases h
      · next u hu =>
        obtain ⟨⟨⟩, hcheck, hs⟩ := bind_eq_ok.mp h
        cases hs
        exact ⟨rfl, u, hu, hcheck⟩
  | null | bool | int | float | list | dict =>
      unfold nodeUrl at h
      dsimp only at h
      split at h <;> cases h

/-- A value that `ipaddress` accepts, else its `ValueError`. -/
def parsed {α : Type} : Option α → Except RegistrationExn α
  | some a => .ok a
  | none   => .error .valueError

/-- `None` or a canonical UUID. A text that names a UUID in another form is refused as one that names none. -/
def publicId : Json → Except RegistrationExn (Option String)
  | .null  => .ok none
  | .str s => if Url.isCanonicalUuid s then .ok (some s) else .error .valueError
  | _      => .error .typeError

/-- The value that `publicId` read. -/
def publicIdJson : Option String → Json
  | none   => .null
  | some s => .str s

theorem json_of_publicId {v : Json} {o : Option String} (h : publicId v = .ok o) : v = publicIdJson o := by
  cases v with
  | null => cases h; rfl
  | str s =>
      unfold publicId at h
      dsimp only at h
      split at h
      · cases h; rfl
      · cases h
  | bool | int | float | list | dict => cases h

/-- `type(value) is int and least <= value <= most` -/
def intBetween (least most : Int) (message : String) : Json → Except RegistrationExn Int
  | .int n => if least ≤ n ∧ n ≤ most then .ok n else .error (.own message)
  | _      => .error (.own message)

theorem int_of_intBetween {least most n : Int} {message : String} {v : Json}
    (h : intBetween least most message v = .ok n) : v = .int n ∧ least ≤ n ∧ n ≤ most := by
  cases v with
  | int m =>
      unfold intBetween at h
      dsimp only at h
      split at h
      · next hle => cases h; exact ⟨rfl, hle⟩
      · cases h
  | null | bool | float | str | list | dict => cases h

def boolThat (message : String) : Json → Except RegistrationExn Bool
  | .bool b => .ok b
  | _       => .error (.own message)

theorem bool_of_boolThat {message : String} {v : Json} {b : Bool} (h : boolThat message v = .ok b) : v = .bool b := by
  cases v with
  | bool c => cases h; rfl
  | null | int | float | str | list | dict => cases h

/-! ## The configuration -/

/-- What `cls(**value)` holds before it is checked. -/
@[ext] structure Attributes where
  node : Json
  cluster : Json
  apiUrl : Json
  apiAddress : Json
  caFile : Json
  bridge : Json
  bridgeMtu : Json
  storage : Json
  poolName : Json
  poolCidr : Json
  poolGateway : Json
  reserveCpuThreads : Json
  reserveMemoryMb : Json
  reserveDiskGb : Json
  gpuNode : Json
  database : Json
  databaseHostname : Json
  databaseSystemIdentifier : Json
  databaseSocketDir : Json
  existingPublicId : Json
  cpuAllocationRatio : Json
  committedVcpu : Json

/-- `Config` after `validate`. -/
structure Config where
  node : String
  cluster : String
  apiUrl : String
  apiAddress : Json
  caFile : String
  bridge : String
  bridgeMtu : Int
  storage : String
  poolName : String
  poolCidr : Json
  poolGateway : Json
  reserveCpuThreads : Int
  reserveMemoryMb : Int
  reserveDiskGb : Int
  gpuNode : Bool
  database : String
  databaseHostname : String
  databaseSystemIdentifier : String
  databaseSocketDir : String
  existingPublicId : Option String
  cpuAllocationRatio : Int
  committedVcpu : Int

/-- The attributes of a configuration. -/
def Config.attributes (c : Config) : Attributes where
  node := .str c.node
  cluster := .str c.cluster
  apiUrl := .str c.apiUrl
  apiAddress := c.apiAddress
  caFile := .str c.caFile
  bridge := .str c.bridge
  bridgeMtu := .int c.bridgeMtu
  storage := .str c.storage
  poolName := .str c.poolName
  poolCidr := c.poolCidr
  poolGateway := c.poolGateway
  reserveCpuThreads := .int c.reserveCpuThreads
  reserveMemoryMb := .int c.reserveMemoryMb
  reserveDiskGb := .int c.reserveDiskGb
  gpuNode := .bool c.gpuNode
  database := .str c.database
  databaseHostname := .str c.databaseHostname
  databaseSystemIdentifier := .str c.databaseSystemIdentifier
  databaseSocketDir := .str c.databaseSocketDir
  existingPublicId := publicIdJson c.existingPublicId
  cpuAllocationRatio := .int c.cpuAllocationRatio
  committedVcpu := .int c.committedVcpu

/-- The largest signed integer of 64 bits. -/
def maxBigint : Int := 9223372036854775807

/-- `Config.validate` -/
def validate (a : Attributes) : Except RegistrationExn Config := do
  let node ← stringThat isName "Invalid node" a.node
  let cluster ← stringThat isName "Invalid cluster" a.cluster
  let storage ← stringThat isName "Invalid storage" a.storage
  let poolName ← stringThat isName "Invalid pool_name" a.poolName
  let databaseHostname ← stringThat isName "Invalid database_hostname" a.databaseHostname
  let database ← matching isDatabase "Invalid database name" a.database
  let databaseSystemIdentifier ← matching (Text.fullmatch Text.isDigit 10 20)
    "Supply the expected PostgreSQL system identifier" a.databaseSystemIdentifier
  let bridge ← matching isBridge "Invalid bridge name" a.bridge
  let bridgeMtu ← intBetween 1280 1500 "Invalid bridge MTU" a.bridgeMtu
  let caFile ← stringThat isPlainPath "ca_file must be an absolute path" a.caFile
  let databaseSocketDir ← stringThat isPlainPath "database_socket_dir must be an absolute path" a.databaseSocketDir
  let apiUrl ← nodeUrl nfkc "API URL must be an HTTPS hostname at port 8006 without a path or credentials"
    "Invalid API TLS hostname" a.apiUrl
  let _ ← parsed (address a.apiAddress)
  let pool ← parsed (network a.poolCidr)
  let gateway ← parsed (address a.poolGateway)
  require (usable pool gateway) "Pool gateway is outside the usable pool addresses"
  let reserveCpuThreads ← positiveInt a.reserveCpuThreads "reserve_cpu_threads" 0
  let reserveMemoryMb ← positiveInt a.reserveMemoryMb "reserve_memory_mb" 0
  let reserveDiskGb ← positiveInt a.reserveDiskGb "reserve_disk_gb" 0
  let cpuAllocationRatio ← intBetween 1 2 "CPU allocation ratio must be the integer 1 or 2" a.cpuAllocationRatio
  let committedVcpu ← positiveInt a.committedVcpu "committed_vcpu" 0
  require (committedVcpu ≤ maxBigint) "Committed vCPU exceeds signed 64-bit capacity"
  let gpuNode ← boolThat "gpu_node must explicitly be true or false" a.gpuNode
  let existingPublicId ← publicId a.existingPublicId
  return { node, cluster, apiUrl, apiAddress := a.apiAddress, caFile, bridge, bridgeMtu, storage, poolName,
           poolCidr := a.poolCidr, poolGateway := a.poolGateway, reserveCpuThreads, reserveMemoryMb, reserveDiskGb,
           gpuNode, database, databaseHostname, databaseSystemIdentifier, databaseSocketDir, existingPublicId,
           cpuAllocationRatio, committedVcpu }

/-- The fields that every configuration has. -/
def requiredFields : List String :=
  ["node", "cluster", "api_url", "api_address", "ca_file", "bridge", "bridge_mtu", "storage", "pool_name", "pool_cidr",
    "pool_gateway", "reserve_cpu_threads", "reserve_memory_mb", "reserve_disk_gb", "gpu_node", "database",
    "database_hostname", "database_system_identifier", "database_socket_dir", "existing_public_id"]

def optionalFields : List String := ["cpu_allocation_ratio", "committed_vcpu"]

/-- `cls(**value)` of a dictionary with the right keys. -/
def attributesOf (value : Json) : Attributes where
  node := value.getOrNull "node"
  cluster := value.getOrNull "cluster"
  apiUrl := value.getOrNull "api_url"
  apiAddress := value.getOrNull "api_address"
  caFile := value.getOrNull "ca_file"
  bridge := value.getOrNull "bridge"
  bridgeMtu := value.getOrNull "bridge_mtu"
  storage := value.getOrNull "storage"
  poolName := value.getOrNull "pool_name"
  poolCidr := value.getOrNull "pool_cidr"
  poolGateway := value.getOrNull "pool_gateway"
  reserveCpuThreads := value.getOrNull "reserve_cpu_threads"
  reserveMemoryMb := value.getOrNull "reserve_memory_mb"
  reserveDiskGb := value.getOrNull "reserve_disk_gb"
  gpuNode := value.getOrNull "gpu_node"
  database := value.getOrNull "database"
  databaseHostname := value.getOrNull "database_hostname"
  databaseSystemIdentifier := value.getOrNull "database_system_identifier"
  databaseSocketDir := value.getOrNull "database_socket_dir"
  existingPublicId := value.getOrNull "existing_public_id"
  cpuAllocationRatio := (value.get? "cpu_allocation_ratio").getD (.int 1)
  committedVcpu := (value.get? "committed_vcpu").getD (.int 0)

/-- `Config.from_dict` -/
def fromDict (value : Json) : Except RegistrationExn Config := do
  require (value.hasKeys requiredFields || value.hasKeys (requiredFields ++ optionalFields))
    "Configuration requires every legacy field and either both CPU policy fields or neither"
  validate nfkc (attributesOf value)

/-- The policy that the legacy collector had. -/
def Config.isLegacy (c : Config) : Bool := c.cpuAllocationRatio = 1 && c.committedVcpu = 0

/-- `config_document` -/
def configDocument (c : Config) : Json :=
  .dict ([("node", .str c.node), ("cluster", .str c.cluster), ("api_url", .str c.apiUrl), ("api_address", c.apiAddress),
    ("ca_file", .str c.caFile), ("bridge", .str c.bridge), ("bridge_mtu", .int c.bridgeMtu),
    ("storage", .str c.storage), ("pool_name", .str c.poolName), ("pool_cidr", c.poolCidr),
    ("pool_gateway", c.poolGateway), ("reserve_cpu_threads", .int c.reserveCpuThreads),
    ("reserve_memory_mb", .int c.reserveMemoryMb), ("reserve_disk_gb", .int c.reserveDiskGb),
    ("gpu_node", .bool c.gpuNode), ("database", .str c.database), ("database_hostname", .str c.databaseHostname),
    ("database_system_identifier", .str c.databaseSystemIdentifier),
    ("database_socket_dir", .str c.databaseSocketDir), ("existing_public_id", publicIdJson c.existingPublicId)]
    ++ if c.isLegacy then []
      else [("cpu_allocation_ratio", .int c.cpuAllocationRatio), ("committed_vcpu", .int c.committedVcpu)])

/-! ## What an accepted configuration is -/

/-- What `validate` checked. -/
structure Config.Valid (c : Config) : Prop where
  node : isName c.node = true
  storage : isName c.storage = true
  poolName : isName c.poolName = true
  bridge : isBridge c.bridge = true
  bridgeMtu : 1280 ≤ c.bridgeMtu ∧ c.bridgeMtu ≤ 1500
  apiUrl : ∃ u message hostMessage, Url.urlsplit nfkc c.apiUrl = some u ∧ checkUrl message hostMessage u = .ok ()
  apiAddress : (address c.apiAddress).isSome = true
  poolCidr : (network c.poolCidr).isSome = true
  poolGateway : (address c.poolGateway).isSome = true
  reserves : 0 ≤ c.reserveCpuThreads ∧ 0 ≤ c.reserveMemoryMb ∧ 0 ≤ c.reserveDiskGb
  ratio : 1 ≤ c.cpuAllocationRatio ∧ c.cpuAllocationRatio ≤ 2
  committed : 0 ≤ c.committedVcpu ∧ c.committedVcpu ≤ maxBigint

variable {nfkc}

theorem parsed_eq_ok {α : Type} {o : Option α} {x : α} : parsed o = .ok x ↔ o = some x := by
  cases o with
  | none => exact ⟨fun h => (by cases h), fun h => (by cases h)⟩
  | some y => exact ⟨fun h => congrArg some (Except.ok.inj h), fun h => congrArg Except.ok (Option.some.inj h)⟩

/-- **What `validate` returned has the attributes it was given**, and passed the checks. -/
theorem validate_spec {a : Attributes} {c : Config} (h : validate nfkc a = .ok c) : c.attributes = a ∧ c.Valid nfkc := by
  unfold validate at h
  simp only [bind_eq_ok] at h
  obtain ⟨node, hnode, cluster, hcluster, storage, hstorage, poolName, hpoolName, databaseHostname, hhostname,
    database, hdatabase, identifier, hidentifier, bridge, hbridge, bridgeMtu, hmtu, caFile, hcaFile, socketDir, hsocket,
    apiUrl, hurl, _, haddress, pool, hpool, gateway, hgateway, _, husable, cpu, hcpu, memory, hmemory, disk, hdisk,
    ratio, hratio, committed, hcommitted, _, hmost, gpuNode, hgpu, existing, hexisting, hc⟩ := h
  cases hc
  obtain ⟨hnode, hnode'⟩ := str_of_stringThat hnode
  obtain ⟨hcluster, -⟩ := str_of_stringThat hcluster
  obtain ⟨hstorage, hstorage'⟩ := str_of_stringThat hstorage
  obtain ⟨hpoolName, hpoolName'⟩ := str_of_stringThat hpoolName
  obtain ⟨hhostname, -⟩ := str_of_stringThat hhostname
  obtain ⟨hdatabase, -⟩ := str_of_matching hdatabase
  obtain ⟨hidentifier, -⟩ := str_of_matching hidentifier
  obtain ⟨hbridge, hbridge'⟩ := str_of_matching hbridge
  obtain ⟨hmtu, hmtu'⟩ := int_of_intBetween hmtu
  obtain ⟨hcaFile, -⟩ := str_of_stringThat hcaFile
  obtain ⟨hsocket, -⟩ := str_of_stringThat hsocket
  obtain ⟨hurl, u, hu, hcheck⟩ := str_of_nodeUrl nfkc hurl
  obtain ⟨hcpu, hcpu'⟩ := positiveInt_eq_ok.mp hcpu
  obtain ⟨hmemory, hmemory'⟩ := positiveInt_eq_ok.mp hmemory
  obtain ⟨hdisk, hdisk'⟩ := positiveInt_eq_ok.mp hdisk
  obtain ⟨hratio, hratio'⟩ := int_of_intBetween hratio
  obtain ⟨hcommitted, hcommitted'⟩ := positiveInt_eq_ok.mp hcommitted
  have hmost' := of_decide_eq_true (require_eq_ok.mp hmost)
  constructor
  · exact Attributes.ext hnode.symm hcluster.symm hurl.symm rfl hcaFile.symm hbridge.symm hmtu.symm hstorage.symm
      hpoolName.symm rfl rfl hcpu.symm hmemory.symm hdisk.symm (bool_of_boolThat hgpu).symm hdatabase.symm hhostname.symm
      hidentifier.symm hsocket.symm (json_of_publicId hexisting).symm hratio.symm hcommitted.symm
  · exact { node := hnode', storage := hstorage', poolName := hpoolName', bridge := hbridge', bridgeMtu := hmtu',
            apiUrl := ⟨u, _, _, hu, hcheck⟩,
            apiAddress := by rw [parsed_eq_ok.mp haddress]; rfl,
            poolCidr := by rw [parsed_eq_ok.mp hpool]; rfl,
            poolGateway := by rw [parsed_eq_ok.mp hgateway]; rfl,
            reserves := ⟨hcpu', hmemory', hdisk'⟩, ratio := hratio', committed := ⟨hcommitted', hmost'⟩ }

theorem validate_attributes {a : Attributes} {c : Config} (h : validate nfkc a = .ok c) :
    validate nfkc c.attributes = .ok c := by
  rw [(validate_spec h).1]
  exact h

/-- The document of a configuration has its attributes, also those that the legacy form leaves out. -/
theorem attributesOf_configDocument (c : Config) : attributesOf (configDocument c) = c.attributes := by
  unfold attributesOf configDocument Config.attributes Config.isLegacy
  by_cases hlegacy : c.cpuAllocationRatio = 1 ∧ c.committedVcpu = 0
  · simp [Json.getOrNull, Json.get?, Json.lookup, hlegacy.1, hlegacy.2]
  · have hnot : (decide (c.cpuAllocationRatio = 1) && decide (c.committedVcpu = 0)) = false := by
      rw [← Bool.not_eq_true, Bool.and_eq_true, decide_eq_true_eq, decide_eq_true_eq]
      exact hlegacy
    simp [Json.getOrNull, Json.get?, Json.lookup, hnot]

theorem configDocument_keys (c : Config) : (configDocument c).hasKeys requiredFields = true ∨
    (configDocument c).hasKeys (requiredFields ++ optionalFields) = true := by
  unfold configDocument
  cases c.isLegacy with
  | true => exact .inl (by simp [Json.hasKeys, requiredFields])
  | false => exact .inr (by simp [Json.hasKeys, requiredFields, optionalFields])

theorem validate_of_fromDict {value : Json} {c : Config} (h : fromDict nfkc value = .ok c) :
    validate nfkc (attributesOf value) = .ok c := by
  unfold fromDict at h
  obtain ⟨_, -, h⟩ := bind_eq_ok.mp h
  exact h

/-- **The document of an accepted configuration is accepted**, as the same configuration. -/
theorem fromDict_configDocument {value : Json} {c : Config} (h : fromDict nfkc value = .ok c) :
    fromDict nfkc (configDocument c) = .ok c := by
  unfold fromDict
  refine bind_eq_ok.mpr ⟨(), require_eq_ok.mpr ?_, ?_⟩
  · rw [Bool.or_eq_true]
    exact configDocument_keys c
  · rw [attributesOf_configDocument]
    exact validate_attributes (validate_of_fromDict h)

end Registration
end PickleInfra
