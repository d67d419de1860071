import PickleInfra.Registration.Apply

/-!
# `Registration.Image` — the configuration and the statement of `lib/image_registration.py`
-/

namespace PickleInfra
namespace Registration
namespace Image

open Python JsonText

/-! ## Fields -/

/-- `[a-z][a-z0-9._-]{0,63}` -/
def isImageName : String → Bool :=
  Text.fullmatchFirst Text.isLower (fun c => Text.isLower c || Text.isDigit c || ['.', '_', '-'].contains c) 63

/-- `[a-z_][a-z0-9_-]{0,62}` -/
def isAccount : String → Bool :=
  Text.fullmatchFirst (fun c => Text.isLower c || c = '_') (fun c => Text.isLower c || Text.isDigit c || c = '_' || c = '-')
    62

/-- `[0-9]+(?:\.[0-9]+)*` -/
def isRelease (s : String) : Bool := (s.toList.splitOn '.').all fun part => !part.isEmpty && part.all Text.isDigit

/-- A text of one to 128 characters without control characters. -/
def isDisplayName (s : String) : Bool := 0 < s.length && s.length ≤ 128 && s.toList.all fun c => 32 ≤ c.toNat

/-- `None`, or a string that the test accepts. -/
def optionalText (test : String → Bool) (message : String) : Json → Except RegistrationExn (Option String)
  | .null => .ok none
  | v     => some <$> stringThat test message v

/-- A positive integer that its column can hold. -/
def columnInt (value : Json) (name : String) : Except RegistrationExn Int := do
  let n ← positiveInt value name 1
  require (n ≤ 2147483647) (name ++ " exceeds its database range")
  return n

def urlMessage : String := "Expected an HTTPS node URL at port 8006 without credentials or a path"

/-- The checks of the parts of the API URL, which leave the labels of its host. -/
def checkApiUrl (u : Url.SplitResult) : Except RegistrationExn Unit :=
  match u.hostname with
  | none   => .error (.own urlMessage)
  | some _ =>
    if u.scheme = "https".toList then
      match u.port with
      | none   => .error .valueError
      | some p => require (p = some 8006 && u.username.isEmpty && u.password.isEmpty && u.path.isEmpty && u.query.isEmpty
          && u.fragment.isEmpty) urlMessage
    else .error (.own urlMessage)

variable (nfkc : List Char → List Char)

def apiUrl : Json → Except RegistrationExn String
  | .str s =>
    match Url.urlsplit nfkc s with
    | none   => .error .valueError
    | some u => do
      checkApiUrl u
      return s
  | v      => if isEmptyValue v then .error (.own urlMessage) else .error .typeError

/-! ## The configuration -/

/-- `Config` after `from_dict`. -/
structure Config where
  node : String
  nodePublicId : String
  cluster : String
  apiUrl : String
  storage : String
  bridgeMtu : Int
  templateVmid : Int
  name : String
  version : Int
  displayName : String
  osFamily : String
  osVersion : String
  sshUsername : String
  minDiskGb : Int
  notes : Option String
  buildManifestFile : Option String
  database : String
  databaseHostname : String
  databaseSystemIdentifier : String
  databaseSocketDir : Option String
  existingPublicId : Option String

def fields : List String :=
  ["node", "node_public_id", "cluster", "api_url", "storage", "bridge_mtu", "template_vmid", "name", "version",
    "display_name", "os_family", "os_version", "ssh_username", "min_disk_gb", "notes", "build_manifest_file", "database",
    "database_hostname", "database_system_identifier", "database_socket_dir", "existing_public_id"]

/-- `Config.from_dict` -/
def fromDict (value : Json) : Except RegistrationExn Config := do
  require (value.hasKeys fields) "Configuration fields differ from the documented shape"
  let node ← stringThat isName "Invalid node" (value.getOrNull "node")
  let cluster ← stringThat isName "Invalid cluster" (value.getOrNull "cluster")
  let storage ← stringThat isName "Invalid storage" (value.getOrNull "storage")
  let osFamily ← stringThat isName "Invalid os_family" (value.getOrNull "os_family")
  let databaseHostname ← stringThat isName "Invalid database_hostname" (value.getOrNull "database_hostname")
  let name ← stringThat isImageName "Invalid image name" (value.getOrNull "name")
  let database ← stringThat isAccount "Invalid database" (value.getOrNull "database")
  let sshUsername ← stringThat isAccount "Invalid ssh_username" (value.getOrNull "ssh_username")
  let osVersion ← matching isRelease "Invalid OS release" (value.getOrNull "os_version")
  let displayName ← stringThat isDisplayName "Invalid display name" (value.getOrNull "display_name")
  let notes ← optionalText (·.length ≤ 4096) "Invalid notes" (value.getOrNull "notes")
  let version ← columnInt (value.getOrNull "version") "version"
  let minDiskGb ← columnInt (value.getOrNull "min_disk_gb") "min_disk_gb"
  let templateVmid ← columnInt (value.getOrNull "template_vmid") "template_vmid"
  require (100 ≤ templateVmid ∧ templateVmid < 100000) "Template VMID must be outside the managed guest sequence"
  let bridgeMtu ← intBetween 1280 1500 "Invalid bridge MTU" (value.getOrNull "bridge_mtu")
  let nodePublicId ← publicId (value.getOrNull "node_public_id")
  let existingPublicId ← publicId (value.getOrNull "existing_public_id")
  match nodePublicId with
  | none              => .error (.own "An existing node UUID is required")
  | some nodePublicId => do
    let apiUrl ← apiUrl nfkc (value.getOrNull "api_url")
    let databaseSystemIdentifier ← matching (Text.fullmatch Text.isDigit 10 20)
      "The observed PostgreSQL system identifier is required" (value.getOrNull "database_system_identifier")
    let databaseSocketDir ← optionalText isPlainPath "Expected an absolute file or socket path"
      (value.getOrNull "database_socket_dir")
    let buildManifestFile ← optionalText isPlainPath "Expected an absolute file or socket path"
      (value.getOrNull "build_manifest_file")
    return { node, nodePublicId, cluster, apiUrl, storage, bridgeMtu, templateVmid, name, version, displayName, osFamily,
             osVersion, sshUsername, minDiskGb, notes, buildManifestFile, database, databaseHostname,
             databaseSystemIdentifier, databaseSocketDir, existingPublicId }

/-! ## The statement -/

/-- `node_scoped_unique_sql` -/
def nodeScopedUniqueSql : String :=
  "(EXISTS (SELECT 1 FROM pg_constraint c WHERE c.conrelid='public.os_images'::regclass
      AND c.contype='u' AND (SELECT array_agg(a.attname::text ORDER BY a.attname)
       FROM pg_attribute a WHERE a.attrelid=c.conrelid AND a.attnum=ANY(c.conkey)) = ARRAY['name','node_id','version']::text[])
      AND NOT EXISTS (SELECT 1 FROM pg_constraint c WHERE c.conrelid='public.os_images'::regclass
       AND c.contype='u' AND (SELECT array_agg(a.attname::text ORDER BY a.attname)
        FROM pg_attribute a WHERE a.attrelid=c.conrelid AND a.attnum=ANY(c.conkey)) = ARRAY['name','version']::text[]))"

/-- What `apply_sql` reads of the snapshot, and the desired row. -/
structure Rows where
  desired : Json
  identity : Json
  node : Json
  images : Json

/-- The text of `apply_sql`. -/
def applyScript (c : Config) (r : Rows) : Script where
  before := "BEGIN;
SET LOCAL lock_timeout='5s';
SET LOCAL statement_timeout='30s';
SET LOCAL search_path=pg_catalog,public;
DO "
  tag := "image_registration"
  body := [.text "
DECLARE n public.nodes%ROWTYPE; current_images jsonb; d jsonb := ",
    .hole (.json r.desired),
    .text ";
BEGIN
 IF ",
    .text identitySql,
    .text " IS DISTINCT FROM ",
    .hole (.json r.identity),
    .text " OR NOT (",
    .text nodeScopedUniqueSql,
    .text ") THEN
   RAISE EXCEPTION 'Database identity or catalog uniqueness changed';
 END IF;
 PERFORM pg_advisory_xact_lock(hashtextextended('image-registration:' || ",
    .hole (.literal c.name),
    .text " || ':' || ",
    .hole (.literal (toString c.version)),
    .text ",0));
 PERFORM id FROM public.os_images WHERE name=",
    .hole (.literal c.name),
    .text " AND version=",
    .hole (.raw (.int c.version)),
    .text " ORDER BY id FOR UPDATE;
 SELECT * INTO n FROM public.nodes WHERE name=",
    .hole (.literal c.node),
    .text " FOR UPDATE;
 IF to_jsonb(n) IS DISTINCT FROM ",
    .hole (.json r.node),
    .text " OR n.status::text <> 'MAINTENANCE' THEN
   RAISE EXCEPTION 'Node changed since the preview';
 END IF;
 SELECT coalesce(jsonb_agg(to_jsonb(i) ORDER BY i.id),'[]'::jsonb) INTO current_images FROM public.os_images i
   WHERE i.name=",
    .hole (.literal c.name),
    .text " AND i.version=",
    .hole (.raw (.int c.version)),
    .text ";
 IF current_images IS DISTINCT FROM ",
    .hole (.json r.images),
    .text " THEN
   RAISE EXCEPTION 'Image revision changed since the preview';
 END IF;
 IF d->>'public_id' IS NULL THEN
   INSERT INTO public.os_images(name,display_name,os_family,os_version,ssh_username,proxmox_vmid,node_id,version,min_disk_gb,status,notes)
   VALUES(d->>'name',d->>'display_name',d->>'os_family',d->>'os_version',d->>'ssh_username',
     (d->>'proxmox_vmid')::integer,n.id,(d->>'version')::integer,(d->>'min_disk_gb')::integer,'DISABLED',d->>'notes');
 END IF;
END
"]
  after := [.text ";
SELECT jsonb_build_object('image',to_jsonb(i)) FROM public.os_images i
 WHERE i.node_id=(SELECT id FROM public.nodes WHERE name=",
    .hole (.literal c.node),
    .text ") AND i.name=",
    .hole (.literal c.name),
    .text " AND i.version=",
    .hole (.raw (.int c.version)),
    .text ";
COMMIT;
"]

/-- `apply_sql` -/
def applySql (c : Config) (snapshot desired : Json) : Except RegistrationExn Script := do
  let identity ← snapshot.item "identity"
  let node ← snapshot.item "node"
  let images ← snapshot.item "images"
  return applyScript c { desired, identity, node, images }

end Image
end Registration
end PickleInfra
