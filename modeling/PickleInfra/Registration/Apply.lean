import PickleInfra.Registration.Preview
import PickleInfra.Registration.Scanned

/-!
# `Registration.Apply` — `apply_sql` of a node registration

What the text takes of its two documents is read first, in the order of the f-string, and then the parts are those of the
f-string.
-/

namespace PickleInfra
namespace Registration

open Python JsonText

/-- `identity_sql` -/
def identitySql : String :=
  "jsonb_build_object(
      'database', current_database(), 'user', current_user,
      'local_socket', inet_server_addr() IS NULL, 'primary', NOT pg_is_in_recovery(),
      'system_identifier', (SELECT system_identifier::text FROM pg_control_system()))"

/-- What `apply_sql` reads of the snapshot and of the desired row. -/
structure Rows where
  node : Json
  identity : Json
  pool : Json
  memoryMb : Json
  allocatableThreads : Json
  allocatableDisk : Json
  cpuThreads : Json
  diskCapacityGb : Json
  labels : Json

def rowsOf (snapshot desired : Json) : Except RegistrationExn Rows := do
  let node := snapshot.getOrNull "node"
  let identity ← snapshot.item "identity"
  let pool ← snapshot.item "pool"
  let memoryMb ← desired.item "memory_mb"
  let labels ← desired.item "labels"
  let allocatable ← (← labels.item "placement_capacity").item "allocatable"
  let allocatableThreads ← allocatable.item "cpu_threads"
  let allocatableDisk ← allocatable.item "disk_gb"
  let cpuThreads ← desired.item "cpu_threads"
  let diskCapacityGb ← desired.item "disk_capacity_gb"
  return { node, identity, pool, memoryMb, allocatableThreads, allocatableDisk, cpuThreads, diskCapacityGb, labels }

/-- The text of `apply_sql`. -/
def applyScript (c : Config) (r : Rows) : Script where
  before := "BEGIN;
SET LOCAL lock_timeout = '5s';
SET LOCAL statement_timeout = '30s';
SET LOCAL standard_conforming_strings = on;
SET LOCAL search_path = pg_catalog, public;
DO "
  tag := "node_registration"
  body := [.text "
DECLARE p public.ip_pools%ROWTYPE; n public.nodes%ROWTYPE; current_node jsonb;
BEGIN
  IF ",
    .text identitySql,
    .text " IS DISTINCT FROM ",
    .hole (.json r.identity),
    .text " THEN
    RAISE EXCEPTION 'PostgreSQL identity changed before apply';
  END IF;
  PERFORM pg_advisory_xact_lock(hashtextextended('node-registration:' || ",
    .hole (.literal c.node),
    .text ", 0));
  SELECT * INTO p FROM public.ip_pools WHERE name = ",
    .hole (.literal c.poolName),
    .text " FOR SHARE;
  IF to_jsonb(p) IS DISTINCT FROM ",
    .hole (.json r.pool),
    .text " THEN
    RAISE EXCEPTION 'IP pool changed since the preview';
  END IF;
  SELECT * INTO n FROM public.nodes WHERE name = ",
    .hole (.literal c.node),
    .text " FOR UPDATE;
  current_node := CASE WHEN n.id IS NULL THEN NULL ELSE to_jsonb(n) END;
  IF current_node IS DISTINCT FROM ",
    .hole (.json r.node),
    .text " THEN
    RAISE EXCEPTION 'Node changed since the preview';
  END IF;
  IF n.id IS NOT NULL AND (SELECT coalesce(sum(memory_mb),0) FROM public.vms
       WHERE node_id=n.id AND deleted_at IS NULL AND status <> 'DELETED') > ",
    .hole (.raw r.memoryMb),
    .text " THEN
    RAISE EXCEPTION 'VM memory changed beyond the reserved capacity';
  END IF;
  IF n.id IS NOT NULL AND (SELECT coalesce(sum(vcpu),0) FROM public.vms
       WHERE node_id=n.id AND deleted_at IS NULL AND status <> 'DELETED') > ",
    .hole (.raw r.allocatableThreads),
    .text " THEN
    RAISE EXCEPTION 'VM CPU changed beyond the reserved capacity';
  END IF;
  IF n.id IS NOT NULL AND (SELECT coalesce(sum(disk_gb),0) FROM public.vms
       WHERE node_id=n.id AND deleted_at IS NULL AND status <> 'DELETED') > ",
    .hole (.raw r.allocatableDisk),
    .text " THEN
    RAISE EXCEPTION 'VM disks changed beyond the reserved capacity';
  END IF;
  IF n.id IS NULL THEN
    INSERT INTO public.nodes(name,api_host,status,cpu_threads,memory_mb,disk_capacity_gb,vm_bridge,storage,ip_pool_id,labels)
    VALUES (",
    .hole (.literal c.node),
    .text ",",
    .hole (.literal c.apiUrl),
    .text ",'MAINTENANCE',",
    .hole (.raw r.cpuThreads),
    .text ",
      ",
    .hole (.raw r.memoryMb),
    .text ",",
    .hole (.raw r.diskCapacityGb),
    .text ",",
    .hole (.literal c.bridge),
    .text ",",
    .hole (.literal c.storage),
    .text ",p.id,",
    .hole (.json r.labels),
    .text ");
  ELSE
    UPDATE public.nodes SET cpu_threads=",
    .hole (.raw r.cpuThreads),
    .text ", memory_mb=",
    .hole (.raw r.memoryMb),
    .text ",
      disk_capacity_gb=",
    .hole (.raw r.diskCapacityGb),
    .text ", labels=",
    .hole (.json r.labels),
    .text ", updated_at=now()
      WHERE id=n.id;
  END IF;
END
"]
  after := [.text ";
SELECT jsonb_build_object('node', to_jsonb(n)) FROM public.nodes n WHERE name=",
    .hole (.literal c.node),
    .text ";
COMMIT;
"]

/-- `apply_sql` -/
def applySql (c : Config) (snapshot desired : Json) : Except RegistrationExn Script := do
  return applyScript c (← rowsOf snapshot desired)

end Registration
end PickleInfra
