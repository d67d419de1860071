import PickleInfra.Readiness.Ranges
import PickleInfra.Registration.Apply

/-!
# `Readiness.Apply` — the configurations and the statements of `lib/inventory_readiness.py`

The texts that `_readiness_identity_sql` joins are parts of the statements.
-/

namespace PickleInfra
namespace Readiness

open Python JsonText Network Registration

/-! ## Fields -/

/-- `_canonical_uuid`. A text that names a UUID in another form is refused as one that names none. -/
def canonicalUuid (label : String) : Json → Except RegistrationExn String
  | .str s => if Url.isCanonicalUuid s then .ok s else .error .valueError
  | _      => .error (.own (label ++ " must be a canonical UUID"))

/-- `None`, or what `_canonical_uuid` returns. -/
def optionalUuid (label : String) : Json → Except RegistrationExn (Option String)
  | .null => .ok none
  | v     => some <$> canonicalUuid label v

/-- `_database_fields` -/
structure DatabaseFields where
  database : String
  hostname : String
  systemIdentifier : String
  socketDir : String

def databaseFields (value : Json) : Except RegistrationExn DatabaseFields := do
  let database ← stringThat isDatabase "Invalid database name" (value.getOrNull "database")
  let hostname ← stringThat isName "Invalid database hostname" (value.getOrNull "database_hostname")
  let systemIdentifier ← stringThat (Text.fullmatch Text.isDigit 10 20) "Supply the expected PostgreSQL system identifier"
    (value.getOrNull "database_system_identifier")
  let socketDir ← stringThat isPlainPath "Database socket directory must be an absolute path"
    (value.getOrNull "database_socket_dir")
  return { database, hostname, systemIdentifier, socketDir }

/-- The network, of which the text is the canonical one. -/
def poolNetwork (v : Json) : Except RegistrationExn Subnet := do
  let n ← parsed (network v)
  require ((Json.str n.text).equal v) "Pool CIDR must use canonical prefix notation"
  require (n.prefixlen ≤ 30) "Pool must contain usable IPv4 addresses"
  return n

def poolGateway (n : Subnet) (v : Json) : Except RegistrationExn IPv4 := do
  let gateway ← parsed (address v)
  require ((Json.str (addressText gateway)).equal v && usable n gateway) "Gateway is outside the usable pool addresses"
  return gateway

def poolDns : Json → Except RegistrationExn (List String)
  | .list items => do
    require (1 ≤ items.length && items.length ≤ 8) "Supply one to eight DNS addresses"
    let canonical := (← items.mapM fun item => parsed (address item)).map addressText
    require ((Json.list (canonical.map Json.str)).equal (.list items) && decide canonical.Nodup)
      "DNS addresses must be canonical, unique IPv4 addresses"
    return canonical
  | _           => .error (.own "Supply one to eight DNS addresses")

/-! ## The configurations -/

/-- `IpPoolConfig` after `validate`. -/
structure IpPoolConfig where
  name : String
  cidr : String
  gateway : String
  dns : List String
  reservedRanges : Json
  database : DatabaseFields
  existingPublicId : Option String

def poolFields : List String :=
  ["name", "cidr", "gateway", "dns", "reserved_ranges", "database", "database_hostname", "database_system_identifier",
    "database_socket_dir", "existing_public_id"]

/-- `IpPoolConfig.from_dict` -/
def IpPoolConfig.fromDict (value : Json) : Except RegistrationExn IpPoolConfig := do
  require (value.hasKeys poolFields) "Configuration fields differ from the documented shape"
  let name ← stringThat isName "Invalid pool name" (value.getOrNull "name")
  let network ← poolNetwork (value.getOrNull "cidr")
  let gateway ← poolGateway network (value.getOrNull "gateway")
  let dns ← poolDns (value.getOrNull "dns")
  let reservedRanges := value.getOrNull "reserved_ranges"
  checkReservedRanges network reservedRanges
  let database ← databaseFields value
  let existingPublicId ← optionalUuid "Existing pool public identifier" (value.getOrNull "existing_public_id")
  return { name, cidr := network.text, gateway := addressText gateway, dns, reservedRanges, database, existingPublicId }

/-- `VmFirewallNodeConfig` after `validate`. -/
structure VmFirewallNodeConfig where
  node : String
  nodePublicId : String
  apiHost : String
  bridge : String
  storage : String
  bridgeMtu : Int
  capabilityEvidenceId : String
  database : DatabaseFields

def nodeFields : List String :=
  ["node", "node_public_id", "api_host", "bridge", "storage", "bridge_mtu", "capability_evidence_id", "database",
    "database_hostname", "database_system_identifier", "database_socket_dir"]

/-- `[a-zA-Z0-9][a-zA-Z0-9._:-]{7,127}`, and not a placeholder. -/
def isEvidenceId (s : String) : Bool :=
  s.toList.head?.any isAlnum && s.toList.all (fun c => isAlnum c || ['.', '_', ':', '-'].contains c)
    && decide (8 ≤ s.length) && decide (s.length ≤ 128)
    && !(["placeholder", "changeme", "example-evidence"].contains (String.ofList (s.toList.map Url.asciiLower)))

section Firewall

variable (nfkc : List Char → List Char)

/-- `VmFirewallNodeConfig.from_dict` -/
def VmFirewallNodeConfig.fromDict (value : Json) : Except RegistrationExn VmFirewallNodeConfig := do
  require (value.hasKeys nodeFields) "Configuration fields differ from the documented shape"
  let node ← stringThat isName "Invalid node" (value.getOrNull "node")
  let storage ← stringThat isName "Invalid storage" (value.getOrNull "storage")
  let bridge ← stringThat isBridge "Invalid bridge" (value.getOrNull "bridge")
  let apiHost ← nodeUrl nfkc "Expected an HTTPS Proxmox API hostname at port 8006 without credentials or a path"
    "Invalid Proxmox API hostname" (value.getOrNull "api_host")
  let bridgeMtu ← intBetween 1280 1500 "Invalid bridge MTU" (value.getOrNull "bridge_mtu")
  let nodePublicId ← canonicalUuid "Node public identifier" (value.getOrNull "node_public_id")
  let capabilityEvidenceId ← stringThat isEvidenceId "Supply the reviewed live capability evidence identifier"
    (value.getOrNull "capability_evidence_id")
  let database ← databaseFields value
  return { node, nodePublicId, apiHost, bridge, storage, bridgeMtu, capabilityEvidenceId, database }

end Firewall

/-! ## The statements -/

/-- What `ip_pool_apply_sql` reads of the snapshot. -/
structure PoolRows where
  identity : Json
  pool : Json
  pools : Json
  nodes : Json
  allocations : Json

/-- The text of `ip_pool_apply_sql`. -/
def ipPoolScript (c : IpPoolConfig) (r : PoolRows) : Script where
  before := "BEGIN;
SET LOCAL lock_timeout='5s';
SET LOCAL statement_timeout='30s';
SET LOCAL standard_conforming_strings=on;
SET LOCAL search_path=pg_catalog,public;
DO "
  tag := "ip_pool_registration"
  body := [.text "
DECLARE current_pool jsonb; current_pools jsonb; current_nodes jsonb; current_allocations jsonb;
BEGIN
  IF ",
    .text "(",
    .text identitySql,
    .text " || jsonb_build_object('server_version_num',current_setting('server_version_num')::integer))",
    .text " IS DISTINCT FROM ",
    .hole (.json r.identity),
    .text " THEN
    RAISE EXCEPTION 'PostgreSQL identity changed before apply';
  END IF;
  PERFORM pg_advisory_xact_lock(hashtextextended('ip-pool-registration',0));
  PERFORM 1 FROM public.ip_pools ORDER BY id FOR SHARE;
  SELECT to_jsonb(p) INTO current_pool FROM public.ip_pools p WHERE p.name=",
    .hole (.literal c.name),
    .text " FOR UPDATE;
  SELECT coalesce(jsonb_agg(jsonb_build_object('id',p.id,'public_id',p.public_id,'name',p.name,'cidr',p.cidr)
    ORDER BY p.id),'[]'::jsonb) INTO current_pools FROM public.ip_pools p;
  IF current_pool IS DISTINCT FROM ",
    .hole (.json r.pool),
    .text "
     OR current_pools IS DISTINCT FROM ",
    .hole (.json r.pools),
    .text " THEN
    RAISE EXCEPTION 'IP pool inventory changed since preview';
  END IF;
  SELECT coalesce(jsonb_agg(to_jsonb(n) ORDER BY n.id),'[]'::jsonb) INTO current_nodes
    FROM public.nodes n WHERE n.ip_pool_id=(SELECT p.id FROM public.ip_pools p WHERE p.name=",
    .hole (.literal c.name),
    .text ");
  SELECT coalesce(jsonb_agg(to_jsonb(a) ORDER BY a.id),'[]'::jsonb) INTO current_allocations
    FROM public.ip_allocations a WHERE a.pool_id=(SELECT p.id FROM public.ip_pools p WHERE p.name=",
    .hole (.literal c.name),
    .text ");
  IF current_nodes IS DISTINCT FROM ",
    .hole (.json r.nodes),
    .text "
     OR current_allocations IS DISTINCT FROM ",
    .hole (.json r.allocations),
    .text " THEN
    RAISE EXCEPTION 'Pool references changed since preview';
  END IF;
  IF current_pool IS NULL THEN
    IF EXISTS (SELECT 1 FROM public.ip_allocations a WHERE a.ip << ",
    .hole (.literal c.cidr),
    .text "::cidr) THEN
      RAISE EXCEPTION 'Existing allocation entered the requested CIDR';
    END IF;
    INSERT INTO public.ip_pools(name,cidr,gateway,dns,reserved_ranges)
    VALUES (",
    .hole (.literal c.name),
    .text ",",
    .hole (.literal c.cidr),
    .text "::cidr,",
    .hole (.literal c.gateway),
    .text "::inet,
      ",
    .hole (.json (.list (c.dns.map Json.str))),
    .text ",",
    .hole (.json c.reservedRanges),
    .text ");
  END IF;
END
"]
  after := [.text ";
SELECT jsonb_build_object('pool',to_jsonb(p),'node_count',(SELECT count(*) FROM public.nodes n WHERE n.ip_pool_id=p.id),
 'allocation_count',(SELECT count(*) FROM public.ip_allocations a WHERE a.pool_id=p.id))
FROM public.ip_pools p WHERE p.name=",
    .hole (.literal c.name),
    .text ";
COMMIT;
"]

/-- `ip_pool_apply_sql` -/
def ipPoolApplySql (c : IpPoolConfig) (snapshot : Json) : Except RegistrationExn Script := do
  let identity ← snapshot.item "identity"
  let pool := snapshot.getOrNull "pool"
  let pools ← snapshot.item "pools"
  let nodes ← snapshot.item "nodes"
  let allocations ← snapshot.item "allocations"
  return ipPoolScript c { identity, pool, pools, nodes, allocations }

/-- What `vm_firewall_node_apply_sql` reads of the snapshot and of the desired row. -/
structure NodeRows where
  identity : Json
  node : Json
  labels : Json

/-- The text of `vm_firewall_node_apply_sql`. -/
def vmFirewallNodeScript (c : VmFirewallNodeConfig) (r : NodeRows) : Script where
  before := "BEGIN;
SET LOCAL lock_timeout='5s';
SET LOCAL statement_timeout='30s';
SET LOCAL standard_conforming_strings=on;
SET LOCAL search_path=pg_catalog,public;
DO "
  tag := "vm_firewall_node"
  body := [.text "
DECLARE n public.nodes%ROWTYPE;
BEGIN
  IF ",
    .text "(",
    .text identitySql,
    .text " || jsonb_build_object('server_version_num',current_setting('server_version_num')::integer))",
    .text " IS DISTINCT FROM ",
    .hole (.json r.identity),
    .text " THEN
    RAISE EXCEPTION 'PostgreSQL identity changed before apply';
  END IF;
  PERFORM pg_advisory_xact_lock(hashtextextended('vm-firewall-node:' || ",
    .hole (.literal c.node),
    .text ",0));
  SELECT * INTO n FROM public.nodes WHERE name=",
    .hole (.literal c.node),
    .text " FOR UPDATE;
  IF to_jsonb(n) IS DISTINCT FROM ",
    .hole (.json r.node),
    .text " THEN
    RAISE EXCEPTION 'Node changed since preview';
  END IF;
  IF n.status::text <> 'MAINTENANCE' OR n.public_id::text <> ",
    .hole (.literal c.nodePublicId),
    .text "
     OR n.api_host <> ",
    .hole (.literal c.apiHost),
    .text " OR n.vm_bridge <> ",
    .hole (.literal c.bridge),
    .text "
     OR n.storage <> ",
    .hole (.literal c.storage),
    .text " THEN
    RAISE EXCEPTION 'Node identity or parked state changed';
  END IF;
  IF n.labels IS DISTINCT FROM ",
    .hole (.json r.labels),
    .text " THEN
    UPDATE public.nodes SET labels=",
    .hole (.json r.labels),
    .text ",updated_at=now() WHERE id=n.id;
  END IF;
END
"]
  after := [.text ";
SELECT jsonb_build_object('node',to_jsonb(n)) FROM public.nodes n WHERE n.name=",
    .hole (.literal c.node),
    .text ";
COMMIT;
"]

/-- `vm_firewall_node_apply_sql` -/
def vmFirewallNodeApplySql (c : VmFirewallNodeConfig) (snapshot desired : Json) : Except RegistrationExn Script := do
  let identity ← snapshot.item "identity"
  let node ← snapshot.item "node"
  let labels ← desired.item "labels"
  return vmFirewallNodeScript c { identity, node, labels }

end Readiness
end PickleInfra
