import SensorFusion.Ui.Router
import SensorFusion.Ui.Targets

/-!
# The state that the router's panel shows

`state` looks the router up, reads its configuration in two threads and asks three others, and
puts together what they give (`edge/routes.py`).  `_api_get` gives nothing when a read fails,
and the two readers fill in defaults for it; so what they return is never empty, and the test
for a router that gave nothing at all does not see one.
-/

namespace SensorFusion.Ui.Router

/-! ## What it finds -/

/-- An exception: `HTTPException`, or any other one. -/
inductive Raised where
  | http (status_code : ℕ) (detail : String)
  | other (exc : String)

/-- What raises no `HTTPException`. -/
def other {α : Type} (x : Except String α) : Except Raised α := x.mapError .other

/-- The threads of `state`. -/
inductive Thread where
  | read_ntp
  | read_gps
  | sntp_probe
  | read_reception
  | local_ipv4s
deriving DecidableEq

/-- What `state` is given by its surroundings. -/
structure Answers where
  /-- `nodes_client.fetch_current`. -/
  fetch_current : Except String Json
  /-- `_api_get`, which returns `null` for `None`. -/
  api_get : Json → String → Except Raised Json
  sntp_probe : Json → Except String (Dict String Json)
  read_reception : Except String (Dict String Json)
  local_ipv4s : Except String (List String)
  /-- The reading of the clock moved by an offset, as it is shown. -/
  router_time_iso : Json → Except String String
  /-- The threads in the order in which they end. -/
  order : List Thread
  all_end : ∀ t, t ∈ order

/-- `d.get(f)`. -/
def field (d : Dict String Json) (f : String) : Json := (d.get? f).getD .null

/-! ## `_node` -/

def NODE_ID : String := "router"

/-- The loop over the nodes. -/
def findNode : List Json → Except Raised Json
  | [] => .error (.http 404 ("node '" ++ NODE_ID ++ "' not found in registry"))
  | n :: nodes => do
      let id ← other (n.get "id")
      if id.eqStr NODE_ID then .ok n else findNode nodes

/-- `_node`. -/
def node (a : Answers) : Except Raised Json := do
  let payload ← other a.fetch_current
  let nodes ← other (getD payload "nodes" (.arr []))
  findNode (← other nodes.iter)

/-- The host that the router is reached at. -/
def routerHost (a : Answers) : Except Raised Json := do
  other (getD (← node a) "host" (.str "192.168.201.1"))

/-! ## `_read_ntp` and `_read_gps` -/

/-- `_first`. -/
def first : Json → Dict String Json
  | .arr (.obj members :: _) => Dict.ofList members
  | .obj members => Dict.ofList members
  | _ => ∅

/-- The values of a field in those rows that are objects. -/
def column (f : String) (rows : List Json) : List Json :=
  rows.filterMap fun
    | .obj members => some (field (Dict.ofList members) f)
    | _ => none

/-- `_read_ntp`. -/
def readNtp (get : String → Except Raised Json) : Except Raised (Dict String Json) := do
  let client := first (← get "/api/date_time/ntp/client/config")
  let server := first (← get "/api/date_time/ntp/server/config")
  let srv_list := (← get "/api/date_time/ntp/client/server/config").or (.arr [])
  let rows ← other srv_list.iter
  .ok (Dict.ofList
    [("client_enabled", .bool ((field client "enabled").eqStr "1")),
     ("client_id", (field client "id").or (.str "ntpclient")),
     ("server_enabled", .bool ((field server "enabled").eqStr "1")),
     ("server_id", (field server "id").or (.str "general")),
     ("zone_name", field client "zoneName"),
     ("timezone", field client "timezone"),
     ("servers", .arr ((column "hostname" rows).filter Json.truthy))])

/-- An entry of `targets`. -/
def Target.json (t : Target) : Json :=
  .obj [("host", .str (String.ofList t.host)), ("port", (t.port.map Json.int).getD .null),
    ("proto", (t.proto.map fun proto ↦ Json.str (String.ofList proto)).getD .null)]

/-- The normalisation of a `host_info` entry. -/
def normalise (raw : Json) : Except String Json :=
  match raw.or (.str "") with
  | .str s =>
      match readTarget s.toList with
      | some t => .ok (Target.json t)
      | none => .error "invalid literal for int() with base 10"
  | j => .error ("'" ++ j.className ++ "' object has no attribute 'split'")

/-- `_f`, which catches `TypeError` and `ValueError`; an integer that is too large raises
`OverflowError`. -/
def toFloat (env : Env) : Json → Except String Json
  | .null => .ok .null
  | .int n => ((Json.int n).float? env.repr).map .float
  | x =>
      match x.float? env.repr with
      | .ok v => .ok (.float v)
      | .error _ => .ok .null

/-- The rules that are forwarded. -/
def forwarded (rows : List Json) : List Json :=
  rows.filter fun
    | .obj members => (field (Dict.ofList members) "forwarding_enabled").eqStr "1"
    | _ => false

/-- `_read_gps`. -/
def readGps (env : Env) (get : String → Except Raised Json) :
    Except Raised (Dict String Json) := do
  let fwd := first (← get "/api/gps/nmea/config")
  let rules := (← get "/api/gps/nmea/rules/config").or (.arr [])
  let pos := (← get "/api/gps/position/status").or (.obj [])
  let targets ← other ((← other ((field fwd "host_info").or (.arr [])).iter).mapM normalise)
  let rows ← other rules.iter
  let fix_status ← other (pos.get "fix_status")
  let satellites ← other (((← other (pos.get "satellites")).or (.int 0)).int? env.repr)
  let latitude ← other (toFloat env (← other (pos.get "latitude")))
  let longitude ← other (toFloat env (← other (pos.get "longitude")))
  let altitude ← other (toFloat env (← other (pos.get "altitude")))
  let accuracy ← other (toFloat env (← other (pos.get "accuracy")))
  .ok (Dict.ofList
    [("forwarding_enabled", .bool ((field fwd "enabled").eqStr "1")),
     ("forwarding_id", (field fwd "id").or (.str "nmea_forwarding")),
     ("send_prefix", field fwd "send_prefix"),
     ("targets", .arr targets),
     ("sentences_known", .arr (column "id" rows)),
     ("sentences_forwarded", .arr (column "id" (forwarded rows))),
     ("fix", .obj [("fix_status", fix_status), ("satellites", .int satellites),
       ("latitude", latitude), ("longitude", longitude), ("altitude", altitude),
       ("accuracy", accuracy)])])

/-! ## `state` -/

/-- The exception that something ends in, if it does. -/
def error? {α : Type} : Except Raised α → Option Raised
  | .ok _ => none
  | .error exc => some exc

/-- What a thread raises. -/
def raisedBy (env : Env) (a : Answers) (host : Json) : Thread → Option Raised
  | .read_ntp => error? (readNtp (a.api_get host))
  | .read_gps => error? (readGps env (a.api_get host))
  | .sntp_probe => error? (other (a.sntp_probe host))
  | .read_reception => error? (other a.read_reception)
  | .local_ipv4s => error? (other a.local_ipv4s)

/-- What the threads give. -/
structure Gathered where
  ntp_cfg : Dict String Json
  gps_cfg : Dict String Json
  sntp : Dict String Json
  recv : Dict String Json
  local_ips : List String

/-- `asyncio.gather`, which raises what is raised first. -/
def gather (env : Env) (a : Answers) (host : Json) : Except Raised Gathered :=
  match a.order.findSome? (raisedBy env a host) with
  | some exc => .error exc
  | none => do
      let ntp_cfg ← readNtp (a.api_get host)
      let gps_cfg ← readGps env (a.api_get host)
      let sntp ← other (a.sntp_probe host)
      let recv ← other a.read_reception
      let local_ips ← other a.local_ipv4s
      .ok ⟨ntp_cfg, gps_cfg, sntp, recv, local_ips⟩

/-- An answer that the router is not available. -/
def unavailable (reason : String) (host : Json) : Dict String Json :=
  Dict.ofList [("available", .bool false), ("reason", .str reason), ("host", host)]

/-- `router_time_iso`, which is shown only for a probe that was answered. -/
def routerTime (a : Answers) (sntp : Dict String Json) : Except String Json :=
  match field sntp "offset_s" with
  | .null => .ok .null
  | offset =>
      if (field sntp "ok").truthy then (a.router_time_iso offset).map .str else .ok .null

/-- An answer with what the threads gave. -/
def available (env : Env) (host : Json) (g : Gathered) (router_time_iso : Json) :
    Dict String Json :=
  let ntp := (((((g.ntp_cfg.set "responding" (.bool (field g.sntp "ok").truthy)).set
    "sntp_severity" (field g.sntp "severity")).set
    "sntp_error" (field g.sntp "error")).set
    "offset_s" (field g.sntp "offset_s")).set
    "rtt_s" (field g.sntp "rtt_s")).set
    "router_time_iso" router_time_iso
  let gps := (g.gps_cfg.set "local_ips" (.arr (g.local_ips.map .str))).set
    "local_reception" (.obj g.recv.items)
  Dict.ofList [("available", .bool true), ("host", host),
    ("web_url", .str ("https://" ++ host.toText env.repr ++ "/")), ("ntp", .obj ntp.items),
    ("gps", .obj gps.items)]

/-- `state`. -/
def state (env : Env) (a : Answers) : Except Raised (Dict String Json) := do
  let host ← routerHost a
  match gather env a host with
  | .error (.http _ detail) => .ok (unavailable detail host)
  | .error (.other exc) => .error (.other exc)
  | .ok g =>
      if g.ntp_cfg.items.isEmpty && !(field g.gps_cfg "fix").truthy then
        .ok (unavailable "router API unreachable" host)
      else .ok (available env host g (← other (routerTime a g.sntp)))

/-! ## A router that gives nothing -/

/-- The paths that are read. -/
def PATHS : List String :=
  ["/api/date_time/ntp/client/config", "/api/date_time/ntp/server/config",
    "/api/date_time/ntp/client/server/config", "/api/gps/nmea/config",
    "/api/gps/nmea/rules/config", "/api/gps/position/status"]

/-- No read of the router gives anything. -/
def Unread (a : Answers) : Prop :=
  ∀ host, routerHost a = .ok host → ∀ path ∈ PATHS, a.api_get host path = .ok .null

/-- The router is shown as not available. -/
def ShownUnavailable (r : Except Raised (Dict String Json)) : Prop :=
  ∃ s, r = .ok s ∧ s.get? "available" = some (.bool false)

/-- What the two readers make of nothing. -/
def noNtp : Dict String Json :=
  Dict.ofList [("client_enabled", .bool false), ("client_id", .str "ntpclient"),
    ("server_enabled", .bool false), ("server_id", .str "general"), ("zone_name", .null),
    ("timezone", .null), ("servers", .arr [])]

def noGps : Dict String Json :=
  Dict.ofList [("forwarding_enabled", .bool false), ("forwarding_id", .str "nmea_forwarding"),
    ("send_prefix", .null), ("targets", .arr []), ("sentences_known", .arr []),
    ("sentences_forwarded", .arr []), ("fix", .obj [("fix_status", .null),
      ("satellites", .int 0), ("latitude", .null), ("longitude", .null), ("altitude", .null),
      ("accuracy", .null)])]

variable {env : Env} {a : Answers} {host : Json}

theorem readNtp_of_null {get : String → Except Raised Json}
    (h : ∀ path ∈ PATHS, get path = .ok .null) : readNtp get = .ok noNtp := by
  rw [readNtp, h _ (by decide), h _ (by decide), h _ (by decide)]
  rfl

theorem readGps_of_null {get : String → Except Raised Json}
    (h : ∀ path ∈ PATHS, get path = .ok .null) : readGps env get = .ok noGps := by
  rw [readGps, h _ (by decide), h _ (by decide), h _ (by decide)]
  rfl

/-! ### What is raised -/

theorem error?_other {α : Type} {x : Except String α} {exc : Raised}
    (h : error? (other x) = some exc) : ∃ text, exc = .other text := by
  cases x with
  | ok v => cases h
  | error text =>
      cases h
      exact ⟨text, rfl⟩

theorem ok_of_error? {α : Type} {x : Except Raised α} (h : error? x = none) : ∃ v, x = .ok v := by
  cases x with
  | ok v => exact ⟨v, rfl⟩
  | error exc => cases h

/-- When no thread raises, all that they give is there. -/
theorem gather_of_quiet (h : a.order.findSome? (raisedBy env a host) = none) :
    ∃ g, gather env a host = .ok g ∧ readNtp (a.api_get host) = .ok g.ntp_cfg ∧
      readGps env (a.api_get host) = .ok g.gps_cfg := by
  rw [List.findSome?_eq_none_iff] at h
  obtain ⟨ntp_cfg, hntp⟩ := ok_of_error? (h .read_ntp (a.all_end _))
  obtain ⟨gps_cfg, hgps⟩ := ok_of_error? (h .read_gps (a.all_end _))
  obtain ⟨sntp, hsntp⟩ := ok_of_error? (h .sntp_probe (a.all_end _))
  obtain ⟨recv, hrecv⟩ := ok_of_error? (h .read_reception (a.all_end _))
  obtain ⟨local_ips, hips⟩ := ok_of_error? (h .local_ipv4s (a.all_end _))
  refine ⟨⟨ntp_cfg, gps_cfg, sntp, recv, local_ips⟩, ?_, hntp, hgps⟩
  rw [gather, List.findSome?_eq_none_iff.mpr h]
  simp only [hntp, hgps, hsntp, hrecv, hips, bind, Except.bind]

/-- What `_read_ntp` returns is never empty. -/
theorem readNtp_nonempty {get : String → Except Raised Json} {d : Dict String Json}
    (h : readNtp get = .ok d) : d.items.isEmpty = false := by
  obtain ⟨client, -, h⟩ := bind_eq_ok.mp h
  obtain ⟨server, -, h⟩ := bind_eq_ok.mp h
  obtain ⟨srv_list, -, h⟩ := bind_eq_ok.mp h
  obtain ⟨rows, -, h⟩ := bind_eq_ok.mp h
  cases h
  rfl

/-- The router is shown as not available exactly when an `HTTPException` is raised first. -/
theorem shownUnavailable_iff (env : Env) (a : Answers) :
    ShownUnavailable (state env a) ↔ ∃ host status detail, routerHost a = .ok host ∧
      a.order.findSome? (raisedBy env a host) = some (.http status detail) := by
  cases hhost : routerHost a with
  | error exc =>
      rw [ShownUnavailable, state, hhost]
      refine iff_of_false ?_ ?_
      · rintro ⟨s, hs, -⟩
        cases hs
      · rintro ⟨host, status, detail, heq, -⟩
        cases heq
  | ok host =>
      have hstate : state env a = (match gather env a host with
          | .error (.http _ detail) => .ok (unavailable detail host)
          | .error (.other exc) => .error (.other exc)
          | .ok g =>
              if g.ntp_cfg.items.isEmpty && !(field g.gps_cfg "fix").truthy then
                .ok (unavailable "router API unreachable" host)
              else do .ok (available env host g (← other (routerTime a g.sntp)))) := by
        rw [state, hhost]
        rfl
      cases hraised : a.order.findSome? (raisedBy env a host) with
      | some exc =>
          have hgather : gather env a host = .error exc := by rw [gather, hraised]
          rw [ShownUnavailable, hstate, hgather]
          cases exc with
          | http status detail =>
              exact iff_of_true ⟨_, rfl, rfl⟩ ⟨host, status, detail, rfl, hraised⟩
          | other text =>
              refine iff_of_false ?_ ?_
              · rintro ⟨s, hs, -⟩
                cases hs
              · rintro ⟨host', status, detail, heq, h⟩
                cases heq
                rw [hraised] at h
                cases h
      | none =>
          obtain ⟨g, hgather, hntp, -⟩ := gather_of_quiet hraised
          refine iff_of_false ?_ ?_
          · rintro ⟨s, hs, hfalse⟩
            rw [hstate, hgather] at hs
            simp only [readNtp_nonempty hntp, Bool.false_and, Bool.false_eq_true, if_false] at hs
            obtain ⟨iso, -, hs⟩ := bind_eq_ok.mp hs
            cases hs
            cases hfalse
          · rintro ⟨host', status, detail, heq, h⟩
            cases heq
            rw [hraised] at h
            cases h

theorem quiet_readers (h : ∀ path ∈ PATHS, a.api_get host path = .ok .null) {status : ℕ}
    {detail : String} :
    a.order.findSome? (raisedBy env a host) ≠ some (.http status detail) := by
  intro hraised
  obtain ⟨t, -, ht⟩ := List.exists_of_findSome?_eq_some hraised
  cases t with
  | read_ntp =>
      rw [raisedBy, readNtp_of_null h] at ht
      cases ht
  | read_gps =>
      rw [raisedBy, readGps_of_null h] at ht
      cases ht
  | sntp_probe =>
      obtain ⟨text, heq⟩ := error?_other ht
      cases heq
  | read_reception =>
      obtain ⟨text, heq⟩ := error?_other ht
      cases heq
  | local_ipv4s =>
      obtain ⟨text, heq⟩ := error?_other ht
      cases heq

/-- What is shown when the threads do not raise. -/
theorem state_of_gather {g : Gathered} {s : Dict String Json} (hhost : routerHost a = .ok host)
    (hgather : gather env a host = .ok g) (hntp : g.ntp_cfg.items.isEmpty = false)
    (hs : state env a = .ok s) : ∃ iso, s = available env host g iso := by
  rw [state, hhost] at hs
  simp only [bind, Except.bind, hgather, hntp, Bool.false_and, Bool.false_eq_true, if_false] at hs
  cases hiso : other (routerTime a g.sntp) with
  | error exc =>
      rw [hiso] at hs
      cases hs
  | ok iso =>
      rw [hiso] at hs
      cases hs
      exact ⟨iso, rfl⟩

/-- A router of which no read gives anything is never shown as not available.  It is shown as
available, with NTP off on both sides and no targets. -/
theorem unread_not_unavailable (env : Env) (a : Answers) (h : Unread a) :
    ¬ ShownUnavailable (state env a) ∧
    ∀ s, state env a = .ok s → s.get? "available" = some (.bool true) ∧
      ∃ ntp gps, s.get? "ntp" = some (.obj ntp) ∧ s.get? "gps" = some (.obj gps) ∧
        (Dict.ofList ntp).get? "client_enabled" = some (.bool false) ∧
        (Dict.ofList ntp).get? "server_enabled" = some (.bool false) ∧
        (Dict.ofList gps).get? "targets" = some (.arr []) := by
  have hno : ¬ ShownUnavailable (state env a) := by
    rw [shownUnavailable_iff]
    rintro ⟨host, status, detail, hhost, hraised⟩
    exact quiet_readers (h host hhost) hraised
  refine ⟨hno, fun s hs ↦ ?_⟩
  obtain ⟨host, hhost, hrest⟩ := bind_eq_ok.mp hs
  have hnull := h host hhost
  cases hraised : a.order.findSome? (raisedBy env a host) with
  | some exc =>
      have hgather : gather env a host = .error exc := by rw [gather, hraised]
      cases exc with
      | http status detail => exact absurd hraised (quiet_readers hnull)
      | other text =>
          rw [hgather] at hrest
          cases hrest
  | none =>
      obtain ⟨g, hgather, hntp, hgps⟩ := gather_of_quiet hraised
      obtain ⟨iso, rfl⟩ := state_of_gather hhost hgather (readNtp_nonempty hntp) hs
      have hg : g.ntp_cfg = noNtp := by
        rw [readNtp_of_null hnull] at hntp
        exact (Except.ok.inj hntp).symm
      have hg' : g.gps_cfg = noGps := by
        rw [readGps_of_null hnull] at hgps
        exact (Except.ok.inj hgps).symm
      refine ⟨rfl, _, _, rfl, rfl, ?_, ?_, ?_⟩
      · rw [Dict.ofList_items, hg]
        rfl
      · rw [Dict.ofList_items, hg]
        rfl
      · rw [Dict.ofList_items, hg']
        rfl

/-- A router that is off, while the token of the controller is still good. -/
def silent : Answers where
  fetch_current := .ok (.obj [("nodes", .arr [.obj [("id", .str "router"),
    ("host", .str "192.168.201.1")]])])
  api_get _ _ := other (apiCall ⟨"pw".toList, fun _ ↦ ""⟩ ⟨.str "token", .fin 299⟩
    ⟨0, .unreachable "timed out", 0, .unreachable "timed out"⟩
    ⟨0, .unreachable "timed out", 0, .unreachable "timed out"⟩).result
  sntp_probe _ := .ok (Dict.ofList [("ok", .bool false), ("severity", .str "fail"),
    ("error", .str "timed out"), ("offset_s", .null), ("rtt_s", .null)])
  read_reception := .ok (Dict.ofList [("receiving", .bool false), ("age_s", .null),
    ("sender", .null)])
  local_ipv4s := .ok ["192.168.201.2"]
  router_time_iso _ := .ok ""
  order := [.local_ipv4s, .read_reception, .sntp_probe, .read_ntp, .read_gps]
  all_end t := by cases t <;> decide

theorem unread_silent : Unread silent := by
  intro host hhost path hpath
  rfl

theorem silent_not_unavailable : ¬ ShownUnavailable (state ⟨"pw".toList, fun _ ↦ ""⟩ silent) :=
  (unread_not_unavailable _ silent unread_silent).1

/-- It is shown as available. -/
theorem silent_available : Unread silent ∧
    (∃ s, state ⟨"pw".toList, fun _ ↦ ""⟩ silent = .ok s ∧
      s.get? "available" = some (.bool true)) ∧
    ¬ ShownUnavailable (state ⟨"pw".toList, fun _ ↦ ""⟩ silent) := by
  refine ⟨fun host hhost path hpath ↦ rfl, ⟨_, rfl, rfl⟩, ?_⟩
  rintro ⟨s, hs, hfalse⟩
  cases hs
  cases hfalse

end SensorFusion.Ui.Router
