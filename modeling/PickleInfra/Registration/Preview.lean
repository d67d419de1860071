import PickleInfra.Registration.Report

/-!
# `Registration.Preview` — `preview` of a node registration

The report has passed `validate_report`, so the numbers of its capacity are integers. The snapshot is what the
database printed.
-/

namespace PickleInfra
namespace Registration

open Python Network

variable (nfkc : List Char → List Char)

/-- `validate_database` -/
def validateDatabase (c : Config) (identity : Json) : Except RegistrationExn Unit :=
  require (identity.equal (.dict [("database", .str c.database), ("user", .str "postgres"), ("local_socket", .bool true),
    ("primary", .bool true), ("system_identifier", .str c.databaseSystemIdentifier)]))
    "Wrong PostgreSQL database, system identifier, connection, role or recovery state"

/-- The pool of the snapshot, which must be the one of the configuration. -/
def checkPool (c : Config) (pool : Json) : Except RegistrationExn Unit := do
  let message := "The existing pool name, CIDR and gateway must match; this tool never creates or edits pools"
  if pool.isNull then .error (.own message)
  else do
    require ((← pool.item "name").equal (.str c.poolName)) message
    require ((← pool.item "cidr").equal c.poolCidr) message
    let gateway ← parsed (interfaceIp (← pool.item "gateway"))
    require ((Json.str gateway).equal c.poolGateway) message

def nicRequirements (c : Config) : Json :=
  .dict [("schema_version", .int 1), ("mtu", .int c.bridgeMtu), ("firewall", .bool true)]

/-- `type(value) is bool and value == b` -/
def isBool (b : Bool) : Json → Bool
  | .bool x => x = b
  | _       => false

/-- The requirements that a label holds are the ones of the configuration, with their types. -/
def isNic (c : Config) (v : Json) : Bool :=
  v.equal (nicRequirements c) && (v.getOrNull "schema_version").asInt?.isSome && (v.getOrNull "mtu").asInt?.isSome
    && isBool true (v.getOrNull "firewall")

/-- `{key: value for key, value in value.items() if key != name}` -/
def without (name : String) (v : Json) : Json := .dict (v.members.filter fun m => m.1 ≠ name)

/-- `cap[group][key]` of a report that was validated. -/
def capacityInt (cap : Json) (group key : String) : Except RegistrationExn Int := do
  match (← (← cap.item group).item key) with
  | .int n => .ok n
  | _      => .error .typeError

/-- The row repeats the capacity of the report. -/
def unchanged (old oldCapacity cap : Json) : Except RegistrationExn Bool :=
  if (without "measured_at" oldCapacity).equal (without "measured_at" cap) then do
    let cpu ← old.item "cpu_threads"
    let memory ← old.item "memory_mb"
    let disk ← old.item "disk_capacity_gb"
    return cpu.equal (.int (← capacityInt cap "physical" "cpu_threads"))
      && memory.equal (.int (← capacityInt cap "allocatable" "memory_mb"))
      && disk.equal (.int (← capacityInt cap "physical" "disk_gb"))
  else .ok false

/-- The row is the one that the configuration names. -/
def checkRouting (c : Config) (pool old : Json) : Except RegistrationExn Unit := do
  require ((publicIdJson c.existingPublicId).equal (← old.item "public_id"))
    "Supply the exact existing public UUID before re-registering a node"
  let apiHost ← old.item "api_host"
  let bridge ← old.item "vm_bridge"
  let storage ← old.item "storage"
  let poolId ← old.item "ip_pool_id"
  let id ← pool.item "id"
  require (apiHost.equal (.str c.apiUrl) && bridge.equal (.str c.bridge) && storage.equal (.str c.storage)
    && poolId.equal id) "Existing node routing/storage identity differs; refusing an implicit move"

/-- The checks of the labels of the row. They return what `node_registration` holds, and the stored capacity. -/
def checkLabels (c : Config) (labels : List (String × Json)) : Except RegistrationExn (List (String × Json) × Json) := do
  let origin := (Json.lookup "node_registration" labels).getD (.dict [])
  require origin.isDict "Existing node_registration is not an object; preserve it for review"
  require (origin.members.isEmpty || (origin.getOrNull "cluster").equal (.str c.cluster))
    "Existing node belongs to another recorded cluster"
  let stored := Json.lookup "placement_capacity" labels
  stored.forM validateCapacityDocument
  require ((Json.lookup "vm_nic_requirements" labels).all (isNic c))
    "Existing VM NIC requirements differ; re-registration does not change them"
  require (isBool c.gpuNode ((Json.lookup "gpu" labels).getD (.bool false)))
    "The declared GPU node role differs; re-registration does not change an existing role"
  return (origin.members, stored.getD (.dict []))

/-- What the registered VMs hold is left to them. -/
def checkAllocated (snapshot cap : Json) : Except RegistrationExn Unit := do
  require (← atMost (← capacityInt cap "allocatable" "memory_mb") (← snapshot.item "allocated_memory_mb"))
    "Registered VM memory exceeds the proposed allocatable memory"
  require (← atMost (← capacityInt cap "allocatable" "cpu_threads") (← snapshot.item "allocated_vcpu"))
    "Registered VM CPU exceeds the proposed allocatable CPU"
  require (← atMost (← capacityInt cap "allocatable" "disk_gb") (← snapshot.item "allocated_disk_gb"))
    "Registered VM disks exceed the proposed allocatable disk budget"

/-- The labels that a registration writes over the existing ones. -/
def newLabels (c : Config) (cap : Json) (origin : List (String × Json)) : List (String × Json) :=
  [("gpu", .bool c.gpuNode), ("placement_capacity", cap),
    ("node_registration", .dict (Json.merge origin [("cluster", .str c.cluster)]))]

/-- The labels of a node that exists. -/
def existingLabels (c : Config) (pool cap snapshot old : Json) : Except RegistrationExn (List (String × Json)) := do
  checkRouting c pool old
  let labels ← old.item "labels"
  require labels.isDict "Existing node labels are not an object"
  let (origin, oldCapacity) ← checkLabels c labels.members
  let same ← unchanged old oldCapacity cap
  require (!(← old.item "status").isStr "ACTIVE" || same)
    "Park the node in MAINTENANCE before changing placement reserves, CPU policy or capacity"
  checkAllocated snapshot cap
  return Json.merge labels.members (newLabels c cap origin)

/-- The desired row. -/
def desiredRow (c : Config) (status cpu memory disk poolId publicId : Json) (labels : List (String × Json)) : Json :=
  .dict [("name", .str c.node), ("api_host", .str c.apiUrl), ("status", status), ("cpu_threads", cpu),
    ("memory_mb", memory), ("disk_capacity_gb", disk), ("vm_bridge", .str c.bridge), ("storage", .str c.storage),
    ("ip_pool_id", poolId), ("labels", .dict labels), ("public_id", publicId)]

/-- `preview` -/
def preview (report snapshot : Json) : Except RegistrationExn Json := do
  let c ← fromDict nfkc (← report.item "config")
  validateDatabase c (← snapshot.item "identity")
  let pool := snapshot.getOrNull "pool"
  let old := snapshot.getOrNull "node"
  checkPool c pool
  let cap ← report.item "placement_capacity"
  let cpu ← capacityInt cap "physical" "cpu_threads"
  let memory ← capacityInt cap "allocatable" "memory_mb"
  let disk ← capacityInt cap "physical" "disk_gb"
  let poolId ← pool.item "id"
  if old.isNull then do
    require c.existingPublicId.isNone "The explicitly identified existing node is absent"
    return desiredRow c (.str "MAINTENANCE") (.int cpu) (.int memory) (.int disk) poolId .null
      (newLabels c cap [] ++ [("vm_nic_requirements", nicRequirements c)])
  else do
    let labels ← existingLabels c pool cap snapshot old
    return desiredRow c (← old.item "status") (.int cpu) (.int memory) (.int disk) poolId (← old.item "public_id") labels

end Registration
end PickleInfra
