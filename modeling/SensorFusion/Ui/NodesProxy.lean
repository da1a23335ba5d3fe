import SensorFusion.Nodes.Refinement

/-!
# The nodes drawer as a proxy

The user interface has its own `NodeCreate` and `NodePatch`, dumps what they keep of a
request body and sends that on to the nodes service, which reads it with models of its own.
A field is read back from a dump as the value it was dumped from, so the second reading
loses nothing; what is lost is lost in the first, where the four database fields of the
nodes service are not declared.
-/

namespace SensorFusion

open Nodes

/-! ## How `pydantic` reads a body -/

/-- The conversions of `pydantic` that go beyond a value's own type; a value that already
has the type is kept. -/
structure Pydantic where
  int : Json → Option ℤ
  bool : Json → Option Bool
  int_int : ∀ n, int (.int n) = some n
  bool_bool : ∀ b, bool (.bool b) = some b

/-- A field `T | None = None`: an absent one and a `null` read as `None`. -/
def optional {α : Type} (parse : Json → Option α) (body : Entry) (f : String) : Option (Option α) :=
  match body.get? f with
  | none | some .null => some none
  | some j => (parse j).map some

/-- A field without a default. -/
def required {α : Type} (parse : Json → Option α) (body : Entry) (f : String) : Option α :=
  (body.get? f).bind parse

namespace Nodes

/-- A string field with a minimal and a maximal length. -/
def Str.ofJson {lo hi : ℕ} : Json → Option (Str lo hi)
  | .str s => if h : lo ≤ s.length ∧ s.length ≤ hi then some ⟨s, h⟩ else none
  | _ => none

/-- An integer field from 1 to 65535. -/
def Port.ofJson (py : Pydantic) (j : Json) : Option Port :=
  (py.int j).bind fun n ↦
    if h : 1 ≤ n.toNat ∧ n.toNat ≤ 65535 then some ⟨n.toNat, h⟩ else none

/-- A field of type `list[str]`. -/
def servicesOfJson : Json → Option (List String)
  | .arr items => items.mapM fun
      | .str s => some s
      | _ => none
  | _ => none

/-- The optional fields that both models of the nodes service declare. -/
def NodeFields.ofJson (py : Pydantic) (body : Entry) : Option NodeFields := do
  let port ← optional (Port.ofJson py) body "port"
  let services ← optional servicesOfJson body "services"
  let kind ← optional Str.ofJson body "kind"
  let probe ← optional py.bool body "probe"
  let health_path ← optional Str.ofJson body "health_path"
  let probe_kind ← optional Str.ofJson body "probe_kind"
  let admin_port ← optional (Port.ofJson py) body "admin_port"
  let protocol ← optional Str.ofJson body "protocol"
  let description ← optional Str.ofJson body "description"
  let db_kind ← optional Str.ofJson body "db_kind"
  let db_user ← optional Str.ofJson body "db_user"
  let db_password ← optional Str.ofJson body "db_password"
  let db_database ← optional Str.ofJson body "db_database"
  some ⟨port, services, kind, probe, health_path, probe_kind, admin_port, protocol, description,
    db_kind, db_user, db_password, db_database⟩

/-- `NodeCreate` of the nodes service. -/
def NodeCreate.ofJson (py : Pydantic) (body : Entry) : Option NodeCreate := do
  let id ← required Str.ofJson body "id"
  let type ← required Str.ofJson body "type"
  let name ← required Str.ofJson body "name"
  let host ← required Str.ofJson body "host"
  let fields ← NodeFields.ofJson py body
  some { fields with id := id, type := type, name := name, host := host }

/-- `NodePatch` of the nodes service. -/
def NodePatch.ofJson (py : Pydantic) (body : Entry) : Option NodePatch := do
  let name ← optional Str.ofJson body "name"
  let host ← optional Str.ofJson body "host"
  let fields ← NodeFields.ofJson py body
  some { fields with name := name, host := host }

end Nodes

/-! ## The models of the user interface -/

namespace Ui

/-- The optional fields of both models: those of the nodes service without the database. -/
structure Fields where
  port : Option Port
  services : Option (List String)
  kind : Option (Str 0 64)
  probe : Option Bool
  health_path : Option (Str 0 128)
  probe_kind : Option (Str 0 16)
  admin_port : Option Port
  protocol : Option (Str 0 16)
  description : Option (Str 0 4096)

/-- `NodeCreate`. -/
structure NodeCreate extends Fields where
  id : Str 1 64
  type : Str 1 32
  name : Str 1 128
  host : Str 1 253

/-- `NodePatch`. -/
structure NodePatch extends Fields where
  name : Option (Str 1 128)
  host : Option (Str 1 253)

def Fields.dump (u : Fields) : List (String × Option Json) :=
  [("port", u.port.map Port.json),
   ("services", u.services.map fun l ↦ .arr (l.map .str)),
   ("kind", u.kind.map Str.json),
   ("probe", u.probe.map .bool),
   ("health_path", u.health_path.map Str.json),
   ("probe_kind", u.probe_kind.map Str.json),
   ("admin_port", u.admin_port.map Port.json),
   ("protocol", u.protocol.map Str.json),
   ("description", u.description.map Str.json)]

def NodeCreate.dump (u : NodeCreate) : List (String × Option Json) :=
  [("id", some u.id.json), ("type", some u.type.json), ("name", some u.name.json),
   ("host", some u.host.json)] ++ u.toFields.dump

def NodePatch.dump (u : NodePatch) : List (String × Option Json) :=
  [("name", u.name.map Str.json), ("host", u.host.map Str.json)] ++ u.toFields.dump

/-- `req.model_dump(exclude_none=True)`. -/
def NodeCreate.modelDump (u : NodeCreate) : Entry := excludeNone u.dump

/-- `req.model_dump(exclude_none=True)`. -/
def NodePatch.modelDump (u : NodePatch) : Entry := excludeNone u.dump

def Fields.ofJson (py : Pydantic) (body : Entry) : Option Fields := do
  let port ← optional (Port.ofJson py) body "port"
  let services ← optional servicesOfJson body "services"
  let kind ← optional Str.ofJson body "kind"
  let probe ← optional py.bool body "probe"
  let health_path ← optional Str.ofJson body "health_path"
  let probe_kind ← optional Str.ofJson body "probe_kind"
  let admin_port ← optional (Port.ofJson py) body "admin_port"
  let protocol ← optional Str.ofJson body "protocol"
  let description ← optional Str.ofJson body "description"
  some ⟨port, services, kind, probe, health_path, probe_kind, admin_port, protocol, description⟩

def NodeCreate.ofJson (py : Pydantic) (body : Entry) : Option NodeCreate := do
  let id ← required Str.ofJson body "id"
  let type ← required Str.ofJson body "type"
  let name ← required Str.ofJson body "name"
  let host ← required Str.ofJson body "host"
  let fields ← Fields.ofJson py body
  some { fields with id := id, type := type, name := name, host := host }

def NodePatch.ofJson (py : Pydantic) (body : Entry) : Option NodePatch := do
  let name ← optional Str.ofJson body "name"
  let host ← optional Str.ofJson body "host"
  let fields ← Fields.ofJson py body
  some { fields with name := name, host := host }

end Ui

/-! ## Reading a dump back -/

theorem optional_of_get? {α : Type} {parse : Json → Option α} {json : α → Json}
    (hparse : ∀ a, parse (json a) = some a) (hnull : ∀ a, json a ≠ .null) {body : Entry}
    {f : String} {v : Option α} (h : body.get? f = v.map json) :
    optional parse body f = some v := by
  rw [optional, h]
  cases v with
  | none => rfl
  | some a =>
      have ha := hnull a
      rw [Option.map_some]
      split
      · rename_i heq
        cases heq
      · rename_i heq
        exact absurd (Option.some.inj heq) ha
      · rename_i j _ heq
        cases heq
        rw [hparse, Option.map_some]

theorem required_of_get? {α : Type} {parse : Json → Option α} {json : α → Json}
    (hparse : ∀ a, parse (json a) = some a) {body : Entry} {f : String} {a : α}
    (h : body.get? f = some (json a)) : required parse body f = some a := by
  rw [required, h, Option.bind_some, hparse]

namespace Nodes

theorem Str.ofJson_json {lo hi : ℕ} (s : Str lo hi) : Str.ofJson s.json = some s :=
  dif_pos s.property

theorem Port.ofJson_json (py : Pydantic) (p : Port) : Port.ofJson py p.json = some p := by
  rw [Port.ofJson, Port.json, py.int_int, Option.bind_some]
  exact dif_pos p.property

theorem servicesOfJson_json (l : List String) : servicesOfJson (.arr (l.map .str)) = some l := by
  rw [servicesOfJson, List.mapM_map]
  induction l with
  | nil => rfl
  | cons s l ih =>
      rw [List.mapM_cons, ih]
      rfl

theorem optional_str {lo hi : ℕ} {body : Entry} {f : String} {v : Option (Str lo hi)}
    (h : body.get? f = v.map Str.json) : optional Str.ofJson body f = some v :=
  optional_of_get? Str.ofJson_json (fun _ h ↦ nomatch h) h

theorem optional_port {py : Pydantic} {body : Entry} {f : String} {v : Option Port}
    (h : body.get? f = v.map Port.json) : optional (Port.ofJson py) body f = some v :=
  optional_of_get? (Port.ofJson_json py) (fun _ h ↦ nomatch h) h

/-- The fields of a dictionary that holds a dump. -/
theorem NodeFields.ofJson_of_get? (py : Pydantic) (n : NodeFields) {body : Entry}
    (h : ∀ a ∈ n.dump, body.get? a.1 = a.2) : NodeFields.ofJson py body = some n := by
  simp only [NodeFields.dump, List.forall_mem_cons, List.not_mem_nil, false_imp_iff,
    implies_true, and_true] at h
  obtain ⟨port, services, kind, probe, health_path, probe_kind, admin_port, protocol, description,
    db_kind, db_user, db_password, db_database⟩ := h
  have hservices : optional servicesOfJson body "services" = some n.services :=
    optional_of_get? servicesOfJson_json (fun _ ↦ Json.noConfusion) services
  have hprobe : optional py.bool body "probe" = some n.probe :=
    optional_of_get? py.bool_bool (fun _ ↦ Json.noConfusion) probe
  rw [NodeFields.ofJson, optional_port port, hservices, optional_str kind, hprobe,
    optional_str health_path, optional_str probe_kind, optional_port admin_port,
    optional_str protocol, optional_str description, optional_str db_kind, optional_str db_user,
    optional_str db_password, optional_str db_database]
  rfl

/-- A dump holds its fields. -/
theorem get?_of_mem_dump {dump : List (String × Option Json)} (h : (dump.map Prod.fst).Nodup)
    {a : String × Option Json} (ha : a ∈ dump) : (excludeNone dump).get? a.1 = a.2 := by
  rw [get?_excludeNone h, Dict.lookup_eq_some_of_mem h ha]
  rfl

/-- The nodes service reads back what a body of its own is dumped to. -/
theorem NodeCreate.ofJson_modelDump (py : Pydantic) (r : NodeCreate) :
    NodeCreate.ofJson py r.modelDump = some r := by
  have h : ∀ a ∈ r.dump, r.modelDump.get? a.1 = a.2 := fun a ha ↦
    get?_of_mem_dump r.nodup_dump ha
  rw [NodeCreate.dump, List.forall_mem_append] at h
  obtain ⟨hown, hfields⟩ := h
  simp only [List.forall_mem_cons, List.not_mem_nil, false_imp_iff, implies_true, and_true] at hown
  obtain ⟨id, type, name, host⟩ := hown
  rw [NodeCreate.ofJson, required_of_get? Str.ofJson_json id, required_of_get? Str.ofJson_json type,
    required_of_get? Str.ofJson_json name, required_of_get? Str.ofJson_json host,
    r.toNodeFields.ofJson_of_get? py hfields]
  rfl

theorem NodePatch.ofJson_modelDump (py : Pydantic) (r : NodePatch) :
    NodePatch.ofJson py r.modelDump = some r := by
  have h : ∀ a ∈ r.dump, r.modelDump.get? a.1 = a.2 := fun a ha ↦
    get?_of_mem_dump r.nodup_dump ha
  rw [NodePatch.dump, List.forall_mem_append] at h
  obtain ⟨hown, hfields⟩ := h
  simp only [List.forall_mem_cons, List.not_mem_nil, false_imp_iff, implies_true, and_true] at hown
  obtain ⟨name, host⟩ := hown
  rw [NodePatch.ofJson, optional_str name, optional_str host,
    r.toNodeFields.ofJson_of_get? py hfields]
  rfl

/-! ## What the user interface keeps of a body -/

/-- The fields of which only the nodes service knows. -/
def database : List String := ["db_kind", "db_user", "db_password", "db_database"]

/-- What the user interface reads of a body. -/
def NodeFields.shared (n : NodeFields) : Ui.Fields :=
  ⟨n.port, n.services, n.kind, n.probe, n.health_path, n.probe_kind, n.admin_port, n.protocol,
    n.description⟩

/-- What the nodes service is sent of a body. -/
def NodeFields.forwarded (n : NodeFields) : NodeFields :=
  { n with db_kind := .none, db_user := .none, db_password := .none, db_database := .none }

def NodeCreate.shared (r : NodeCreate) : Ui.NodeCreate :=
  { r.toNodeFields.shared with id := r.id, type := r.type, name := r.name, host := r.host }

def NodeCreate.forwarded (r : NodeCreate) : NodeCreate :=
  { r with toNodeFields := r.toNodeFields.forwarded }

def NodePatch.shared (r : NodePatch) : Ui.NodePatch :=
  { r.toNodeFields.shared with name := r.name, host := r.host }

def NodePatch.forwarded (r : NodePatch) : NodePatch :=
  { r with toNodeFields := r.toNodeFields.forwarded }

/-- The user interface reads the shared fields of a body as the nodes service does. -/
theorem NodeFields.ofJson_shared {py : Pydantic} {body : Entry} {n : NodeFields}
    (h : NodeFields.ofJson py body = some n) : Ui.Fields.ofJson py body = some n.shared := by
  obtain ⟨_, port, h⟩ := Option.bind_eq_some_iff.mp h
  obtain ⟨_, services, h⟩ := Option.bind_eq_some_iff.mp h
  obtain ⟨_, kind, h⟩ := Option.bind_eq_some_iff.mp h
  obtain ⟨_, probe, h⟩ := Option.bind_eq_some_iff.mp h
  obtain ⟨_, health_path, h⟩ := Option.bind_eq_some_iff.mp h
  obtain ⟨_, probe_kind, h⟩ := Option.bind_eq_some_iff.mp h
  obtain ⟨_, admin_port, h⟩ := Option.bind_eq_some_iff.mp h
  obtain ⟨_, protocol, h⟩ := Option.bind_eq_some_iff.mp h
  obtain ⟨_, description, h⟩ := Option.bind_eq_some_iff.mp h
  obtain ⟨_, -, h⟩ := Option.bind_eq_some_iff.mp h
  obtain ⟨_, -, h⟩ := Option.bind_eq_some_iff.mp h
  obtain ⟨_, -, h⟩ := Option.bind_eq_some_iff.mp h
  obtain ⟨_, -, h⟩ := Option.bind_eq_some_iff.mp h
  cases h
  rw [Ui.Fields.ofJson, port, services, kind, probe, health_path, probe_kind, admin_port, protocol,
    description]
  rfl

theorem NodeCreate.ofJson_shared {py : Pydantic} {body : Entry} {r : NodeCreate}
    (h : NodeCreate.ofJson py body = some r) : Ui.NodeCreate.ofJson py body = some r.shared := by
  simp only [NodeCreate.ofJson, Option.bind_eq_bind, Option.bind_eq_some_iff] at h
  obtain ⟨_, id, _, type, _, name, _, host, _, fields, h⟩ := h
  cases h
  rw [Ui.NodeCreate.ofJson, id, type, name, host, NodeFields.ofJson_shared fields]
  rfl

theorem NodePatch.ofJson_shared {py : Pydantic} {body : Entry} {r : NodePatch}
    (h : NodePatch.ofJson py body = some r) : Ui.NodePatch.ofJson py body = some r.shared := by
  simp only [NodePatch.ofJson, Option.bind_eq_bind, Option.bind_eq_some_iff] at h
  obtain ⟨_, name, _, host, _, fields, h⟩ := h
  cases h
  rw [Ui.NodePatch.ofJson, name, host, NodeFields.ofJson_shared fields]
  rfl

/-- The database fields of a dump. -/
def NodeFields.databaseDump (n : NodeFields) : List (String × Option Json) :=
  [("db_kind", n.db_kind.map Str.json), ("db_user", n.db_user.map Str.json),
   ("db_password", n.db_password.map Str.json), ("db_database", n.db_database.map Str.json)]

theorem NodeCreate.dump_eq (r : NodeCreate) :
    r.dump = r.shared.dump ++ r.toNodeFields.databaseDump := rfl

theorem NodePatch.dump_eq (r : NodePatch) :
    r.dump = r.shared.dump ++ r.toNodeFields.databaseDump := rfl

/-- Fields that are `None` leave no trace in a dump. -/
theorem excludeNone_append_none (dump : List (String × Option Json)) (fs : List String) :
    excludeNone (dump ++ fs.map fun f ↦ (f, none)) = excludeNone dump := by
  unfold excludeNone
  rw [List.filterMap_append, List.filterMap_map]
  refine congrArg Dict.ofList (Eq.trans (congrArg _ ?_) (List.append_nil _))
  exact List.filterMap_eq_nil_iff.mpr fun _ _ ↦ rfl

/-- The dump of what the user interface reads is that of what the nodes service is sent. -/
theorem NodeCreate.modelDump_shared (r : NodeCreate) :
    r.shared.modelDump = r.forwarded.modelDump :=
  (excludeNone_append_none r.shared.dump database).symm

theorem NodePatch.modelDump_shared (r : NodePatch) :
    r.shared.modelDump = r.forwarded.modelDump :=
  (excludeNone_append_none r.shared.dump database).symm

/-! ## The requests -/

/-- The answer to a body that a model does not accept. -/
def unprocessable : Failure := .http 422 "Unprocessable Content"

/-- `POST /nodes` of the nodes service. -/
def postNodes (py : Pydantic) (cfg : Settings) (body : Entry) (w : Write) (file : ConfigFile) :
    Except Failure Unit × ConfigFile :=
  match NodeCreate.ofJson py body with
  | none => (.error unprocessable, file)
  | some req => serve cfg (.create req) w file

/-- `PATCH /nodes/{node_id}` of the nodes service. -/
def patchNodes (py : Pydantic) (cfg : Settings) (node_id : String) (body : Entry) (w : Write)
    (file : ConfigFile) : Except Failure Unit × ConfigFile :=
  match NodePatch.ofJson py body with
  | none => (.error unprocessable, file)
  | some req => serve cfg (.patch node_id req) w file

end Nodes

namespace Ui

/-- `_proxy_error`, of an answer that is an error.  A body that is not JSON has the text of
the `HTTPError` for its detail. -/
def proxyError : Failure → Failure
  | .http status_code detail => .http status_code detail
  | .exception _ => .http 500 "HTTP Error 500: Internal Server Error"

/-- `_proxy_error`, of any other exception of the client. -/
def badGateway (exc : String) : Failure := .http 502 ("nodes service: " ++ exc)

/-- How sending a request to the nodes service turns out: it is answered, or the client
gives up with an exception of its own, and the service may have dealt with the request. -/
inductive Exchange where
  | answered
  | lost (processed : Bool) (exc : String)

/-- Sending a request to the nodes service, with `_proxy_error` around it. -/
def send (x : Exchange) (w : Write) (file : ConfigFile)
    (service : Write → ConfigFile → Except Failure Unit × ConfigFile) :
    Except Failure Unit × ConfigFile :=
  match x with
  | .answered => ((service w file).1.mapError proxyError, (service w file).2)
  | .lost processed exc => (.error (badGateway exc), if processed then (service w file).2 else file)

/-- `POST /api/nodes`. -/
def createNode (py : Pydantic) (cfg : Settings) (body : Entry) (x : Exchange) (w : Write)
    (file : ConfigFile) : Except Failure Unit × ConfigFile :=
  match NodeCreate.ofJson py body with
  | none => (.error unprocessable, file)
  | some req => send x w file (postNodes py cfg req.modelDump)

/-- `PATCH /api/nodes/{node_id}`.  The id goes into the URL without quoting; `carry` is what
comes of it there: the id that the nodes service finds, or the exception of a URL that
cannot be sent. -/
def patchNode (py : Pydantic) (cfg : Settings) (carry : String → Except String String)
    (node_id : String) (body : Entry) (x : Exchange) (w : Write) (file : ConfigFile) :
    Except Failure Unit × ConfigFile :=
  match NodePatch.ofJson py body with
  | none => (.error unprocessable, file)
  | some req =>
      if req.modelDump.items.isEmpty then
        (.error (.http 400 "provide at least one field to update"), file)
      else
        match carry node_id with
        | .error exc => (.error (badGateway exc), file)
        | .ok node_id => send x w file (patchNodes py cfg node_id req.modelDump)

end Ui

end SensorFusion
