import SensorFusion.Nodes.Config

/-!
# The create, patch and delete handlers

`create_node`, `patch_one` and `delete_node` up to the point where they start a
refresh round.  Each computes the list of entries to write, or fails before it has
touched the file; `serve` adds the write that the three have in common.
-/

namespace SensorFusion.Nodes

/-- An exception that a handler lets out: `HTTPException`, or any other one, which
is answered with a bare 500. -/
inductive Failure where
  | http (status_code : ℕ) (detail : String)
  | exception (text : String)
deriving DecidableEq, Repr

/-- The status that a failure is answered with. -/
def Failure.status : Failure → ℕ
  | .http status_code _ => status_code
  | .exception _ => 500

/-! ## Request bodies -/

/-- `Field(min_length=lo, max_length=hi)`. -/
def Str (lo hi : ℕ) := {s : String // lo ≤ s.length ∧ s.length ≤ hi}

/-- `Field(ge=1, le=65535)`. -/
def Port := {n : ℕ // 1 ≤ n ∧ n ≤ 65535}

def Str.json {lo hi : ℕ} (s : Str lo hi) : Json := .str s.val

def Port.json (p : Port) : Json := .int p.val

/-- The optional fields that `NodeCreate` and `NodePatch` share. -/
structure NodeFields where
  port : Option Port
  services : Option (List String)
  kind : Option (Str 0 64)
  probe : Option Bool
  health_path : Option (Str 0 128)
  probe_kind : Option (Str 0 16)
  admin_port : Option Port
  protocol : Option (Str 0 16)
  description : Option (Str 0 4096)
  db_kind : Option (Str 0 32)
  db_user : Option (Str 0 128)
  db_password : Option (Str 0 256)
  db_database : Option (Str 0 128)

/-- The body of `POST /nodes`. -/
structure NodeCreate extends NodeFields where
  id : Str 1 64
  type : Str 1 32
  name : Str 1 128
  host : Str 1 253

/-- The body of `PATCH /nodes/{node_id}`, which has no `id` and no `type`. -/
structure NodePatch extends NodeFields where
  name : Option (Str 1 128)
  host : Option (Str 1 253)

/-- No optional field given. -/
def NodeFields.none : NodeFields :=
  ⟨.none, .none, .none, .none, .none, .none, .none, .none, .none, .none, .none, .none, .none⟩

/-- The shared fields in the order of the class bodies. -/
def NodeFields.dump (r : NodeFields) : List (String × Option Json) :=
  [("port", r.port.map Port.json),
   ("services", r.services.map fun l ↦ .arr (l.map .str)),
   ("kind", r.kind.map Str.json),
   ("probe", r.probe.map .bool),
   ("health_path", r.health_path.map Str.json),
   ("probe_kind", r.probe_kind.map Str.json),
   ("admin_port", r.admin_port.map Port.json),
   ("protocol", r.protocol.map Str.json),
   ("description", r.description.map Str.json),
   ("db_kind", r.db_kind.map Str.json),
   ("db_user", r.db_user.map Str.json),
   ("db_password", r.db_password.map Str.json),
   ("db_database", r.db_database.map Str.json)]

def NodeCreate.dump (r : NodeCreate) : List (String × Option Json) :=
  [("id", some r.id.json), ("type", some r.type.json), ("name", some r.name.json),
   ("host", some r.host.json)] ++ r.toNodeFields.dump

def NodePatch.dump (r : NodePatch) : List (String × Option Json) :=
  [("name", r.name.map Str.json), ("host", r.host.map Str.json)] ++ r.toNodeFields.dump

/-- Drop the fields that are `None`. -/
def excludeNone (dump : List (String × Option Json)) : Entry :=
  Dict.ofList (dump.filterMap fun (f, v) ↦ v.map fun j ↦ (f, j))

/-- `req.model_dump(exclude_none=True)`. -/
def NodeCreate.modelDump (r : NodeCreate) : Entry := excludeNone r.dump

/-- `req.model_dump(exclude_none=True)`. -/
def NodePatch.modelDump (r : NodePatch) : Entry := excludeNone r.dump

/-! ## `_validate_id` -/

/-- `[a-zA-Z0-9]`. -/
def isAlnum (c : Char) : Bool :=
  ('a'.toNat ≤ c.toNat && c.toNat ≤ 'z'.toNat) || ('A'.toNat ≤ c.toNat && c.toNat ≤ 'Z'.toNat) ||
    ('0'.toNat ≤ c.toNat && c.toNat ≤ '9'.toNat)

/-- `_ID_RE.match`. -/
def ID_RE (node_id : String) : Bool :=
  match Text.beforeDollar node_id.toList with
  | [] => false
  | c :: word =>
      isAlnum c && decide (word.length ≤ 63) && word.all fun c ↦ isAlnum c || c == '_' || c == '-'

def validateId (cfg : Settings) (node_id : String) : Except Failure Unit :=
  if ID_RE node_id then .ok ()
  else .error (.http 400 ("invalid id " ++ cfg.repr (.str node_id) ++
    ": must be alphanumeric, dash, underscore; 1–64 chars; can't start with -/_"))

/-! ## `_validate_type_specific` -/

def KNOWN_TYPES : List String := ["edge-node", "middleware", "service", "tak-server"]

/-- The services of an edge node that are not known. -/
def unknownServices (services : List Json) : List Json :=
  services.filter fun s ↦ !(s.eqStr "ntp" || s.eqStr "gps")

/-- The part of `_validate_type_specific` after the type is known to be in
`KNOWN_TYPES`. -/
def validateKnown (cfg : Settings) (entry : Entry) (t : Json) : Except Failure Unit :=
  let probesTcp : Bool := ((entry.get? "probe_kind").getD .null).eqStr "tcp"
  if t.eqStr "edge-node" then
    let services := (entry.get? "services").getD .null
    match if services.truthy then services else .arr [] with
    | .arr l =>
        if (unknownServices l).isEmpty then .ok ()
        else .error (.http 400 ("unknown edge-node services: " ++
          cfg.repr (.arr (unknownServices l))))
    | _ => .error (.http 400 "services must be a list")
  else if t.eqStr "middleware" then
    if "port" ∉ entry then .error (.http 400 "middleware requires port") else .ok ()
  else if t.eqStr "service" then
    if "port" ∉ entry then .error (.http 400 "service requires port")
    else if "health_path" ∉ entry ∧ probesTcp = false then
      .error (.http 400 ("service requires either health_path (HTTP probe) " ++
        "or probe_kind=\"tcp\""))
    else .ok ()
  else if t.eqStr "tak-server" then
    if "port" ∉ entry then .error (.http 400 "tak-server requires port")
    else if probesTcp = true ∧ "admin_port" ∉ entry then
      .error (.http 400 ("tak-server with probe_kind=tcp needs admin_port " ++
        "(TCP admin port, e.g. 8089) — the CoT port itself is UDP"))
    else .ok ()
  else .ok ()

/-- `_validate_type_specific`.  The membership test hashes the type, which raises
`TypeError` for a list or an object. -/
def validateTypeSpecific (cfg : Settings) (entry : Entry) : Except Failure Unit :=
  let t := (entry.get? "type").getD .null
  match t.key? with
  | none => .error (.exception t.unhashable)
  | some _ =>
      if KNOWN_TYPES.any t.eqStr then validateKnown cfg entry t
      else .error (.http 400 ("unknown type " ++ cfg.repr t ++
        "; must be one of ['edge-node', 'middleware', 'service', 'tak-server']"))

/-! ## The handlers -/

/-- `_load_config` as the handlers call it. -/
def loadOr500 (cfg : Settings) (file : ConfigFile) : Except Failure (List Entry) :=
  match loadConfig cfg file with
  | .ok entries => .ok entries
  | .error exc => .error (.http 500 ("config: " ++ exc))

/-- `create_node` up to its `_save_config`: the entries to write. -/
def createNode (cfg : Settings) (req : NodeCreate) (file : ConfigFile) :
    Except Failure (List Entry) := do
  validateId cfg req.id.val
  let entries ← loadOr500 cfg file
  if entries.any fun e ↦ (e.field "id").eqStr req.id.val then
    .error (.http 409 ("node " ++ cfg.repr req.id.json ++ " already exists"))
  else
    let newEntry := req.modelDump.setdefault "description" (.str "")
    validateTypeSpecific cfg newEntry
    .ok (entries ++ [newEntry])

/-- `delete_node` up to its `_save_config`. -/
def deleteNode (cfg : Settings) (node_id : String) (file : ConfigFile) :
    Except Failure (List Entry) := do
  let entries ← loadOr500 cfg file
  match entries.find? fun e ↦ (e.field "id").eqStr node_id with
  | none => .error (.http 404 ("unknown node: " ++ node_id))
  | some _ => .ok (entries.filter fun e ↦ !(e.field "id").eqStr node_id)

/-- Write to the first entry with a given id, which is an object that the list
holds. -/
def mutate (node_id : String) (f : Entry → Entry) : List Entry → List Entry
  | [] => []
  | e :: es => if (e.field "id").eqStr node_id then f e :: es else e :: mutate node_id f es

/-- `merged` of `patch_one`: the entry under the updates, with its host stripped
when it is one of them. -/
def merged (target updates : Entry) : Entry :=
  let merged := target.update updates
  match updates.get? "host" with
  | some (.str host) => merged.set "host" (.str (String.ofList (Text.strip host.toList)))
  | _ => merged

/-- `patch_one` up to its `_save_config`. -/
def patchOne (cfg : Settings) (node_id : String) (req : NodePatch) (file : ConfigFile) :
    Except Failure (List Entry) := do
  let updates := req.modelDump
  if updates.items.isEmpty then .error (.http 400 "provide at least one field to update")
  else
    let entries ← loadOr500 cfg file
    match entries.find? fun e ↦ (e.field "id").eqStr node_id with
    | none => .error (.http 404 ("unknown node: " ++ node_id))
    | some target =>
        let merged := merged target updates
        validateTypeSpecific cfg merged
        .ok (mutate node_id (fun target ↦ target.update merged) entries)

/-- A request that writes the configuration. -/
inductive Request where
  | create (req : NodeCreate)
  | patch (node_id : String) (req : NodePatch)
  | delete (node_id : String)

/-- The entries that a request wants written. -/
def Request.entries (cfg : Settings) (file : ConfigFile) : Request → Except Failure (List Entry)
  | .create req => createNode cfg req file
  | .patch node_id req => patchOne cfg node_id req file
  | .delete node_id => deleteNode cfg node_id file

/-- A request up to the start of its refresh round: how it fails, and the file
afterwards. -/
def serve (cfg : Settings) (r : Request) (w : Write) (file : ConfigFile) :
    Except Failure Unit × ConfigFile :=
  match r.entries cfg file with
  | .error f => (.error f, file)
  | .ok entries =>
      match saveConfig entries w with
      | (none, file') => (.ok (), file')
      | (some exc, file') =>
          (.error (.http 500 ("write config: " ++ exc ++ " (is the volume rw?)")), file')

end SensorFusion.Nodes
