import SensorFusion.Nodes.Handlers

/-!
# Probe strategies

The four strategies of the `probes` package.  A probe either answers at once or
hands a blocking attempt to a thread and answers when the thread is done; what the
attempt runs into is the environment's choice.  Every strategy answers with a
dictionary over its own fields, never with an entry's identity
(`probe_noView`).
-/

namespace SensorFusion.Nodes

/-- What a probe adds to its entry. -/
abbrev Extras := Dict String Json

/-- What a blocking attempt runs into. -/
inductive Attempt where
  /-- The TCP connection is made, or the HTTP exchange gives a response. -/
  | success
  | timeout
  /-- An `OSError`, as `type(exc).__name__: exc`. -/
  | os_error (text : String)
  /-- An exception that the probe does not catch. -/
  | other (text : String)

/-- An attempt, the time it took, and the status of an HTTP response. -/
structure Answer where
  rtt : ℚ
  status : ℕ
  attempt : Attempt

/-- How a probe goes: it answers at once, or a thread has to come back first. -/
inductive Call where
  | returned (extras : Extras)
  | blocked (thread : Answer → Except String Extras)

/-- The upstreams that the edge-node probe needs; `null` when a fetch failed. -/
structure Ctx where
  ntp_sources : Json
  gps_fix : Json

/-- `entry[f]`, or the text of the `KeyError`. -/
def Entry.item (e : Entry) (f : String) : Except String Json :=
  match e.get? f with
  | some v => .ok v
  | none => .error ("'" ++ f ++ "'")

/-- `entry.get(f)`. -/
def Entry.getD (e : Entry) (f : String) : Json := (e.get? f).getD .null

/-! ## Blocking attempts -/

/-- The result of an attempt. -/
structure Res where
  ok : Bool
  severity : String
  rtt : ℚ
  error : Option String

def Res.status (r : Res) : Json :=
  .obj [("ok", .bool r.ok), ("severity", .str r.severity), ("rtt_s", .float (.fin r.rtt)),
    ("error", match r.error with | none => .null | some text => .str text)]

/-- `WARN_AFTER_S`, the same in all three modules. -/
def WARN_AFTER_S : ℚ := 1 / 2

/-- `_classify_rtt`. -/
def classifyRtt (rtt : ℚ) : String := if WARN_AFTER_S < rtt then "warn" else "ok"

/-- The end of an attempt that failed; `timeout` is what the module says about a
timeout. -/
def failed (timeout : String) (a : Answer) : Except String Res :=
  match a.attempt with
  | .success => .ok ⟨false, "fail", a.rtt, some ("HTTP " ++ toString a.status)⟩
  | .timeout => .ok ⟨false, "fail", a.rtt, some timeout⟩
  | .os_error text => .ok ⟨false, "fail", a.rtt, some text⟩
  | .other text => .error text

/-- `_tcp_probe`. -/
def tcpProbe (timeout : String) (a : Answer) : Except String Res :=
  match a.attempt with
  | .success => .ok ⟨true, classifyRtt a.rtt, a.rtt, none⟩
  | _ => failed timeout a

/-- `_http_probe` of the service module; a status outside the 200s fails whether it
comes as a response or as an `HTTPError`. -/
def httpProbe (timeout : String) (a : Answer) : Except String Res :=
  match a.attempt with
  | .success =>
      if 200 ≤ a.status ∧ a.status < 300 then .ok ⟨true, classifyRtt a.rtt, a.rtt, none⟩
      else failed timeout a
  | _ => failed timeout a

/-! ## Service, middleware and TAK server -/

/-- `probe` of the service module. -/
def serviceProbe (repr : Json → String) (entry : Entry) : Except String Call := do
  let reply (kind : String) (res : Res) : Extras := Dict.ofList
    [("probe_kind", .str kind), ("status", res.status), ("severity", .str res.severity),
     ("ok", .bool res.ok)]
  if (entry.getD "health_path").truthy then
    let _ ← (← entry.item "port").int? repr
    .ok (.blocked fun a ↦ (httpProbe "TimeoutError: timed out" a).map (reply "http"))
  else if (entry.getD "probe_kind").eqStr "tcp" then
    let _ ← (← entry.item "port").int? repr
    .ok (.blocked fun a ↦ (tcpProbe "TimeoutError: timed out" a).map (reply "tcp"))
  else
    .ok (.returned (Dict.ofList
      [("probe_kind", .null),
       ("status", .obj [("ok", .bool false), ("severity", .str "unknown"), ("rtt_s", .null),
         ("error", .str "no probe configured (need health_path or probe_kind=tcp)")]),
       ("severity", .str "unknown"), ("ok", .bool false)]))

/-- `probe_port` of the middleware module: the admin port when there is one. -/
def probePort (repr : Json → String) (entry : Entry) : Except String ℤ := do
  let port ← if (entry.getD "admin_port").truthy then .ok (entry.getD "admin_port")
    else entry.item "port"
  port.int? repr

/-- `probe` of the middleware module. -/
def middlewareProbe (repr : Json → String) (entry : Entry) : Except String Call := do
  if !((entry.get? "probe").getD (.bool true)).truthy then
    .ok (.returned (Dict.ofList
      [("kind", entry.getD "kind"),
       ("status", .obj [("ok", .bool false), ("severity", .str "unknown"), ("rtt_s", .null),
         ("error", .str "probing disabled in config")]),
       ("severity", .str "unknown"), ("ok", .bool false)]))
  else
    let _ ← probePort repr entry
    .ok (.blocked fun a ↦ (tcpProbe "timeout after 1.5s" a).map fun res ↦ Dict.ofList
      [("kind", entry.getD "kind"), ("status", res.status), ("severity", .str res.severity),
       ("ok", .bool res.ok)])

/-- `probe` of the TAK server module. -/
def takServerProbe (repr : Json → String) (entry : Entry) : Except String Call := do
  if (entry.getD "probe_kind").eqStr "tcp" && (entry.getD "admin_port").truthy then
    let admin_port ← (entry.getD "admin_port").int? repr
    .ok (.blocked fun a ↦ (tcpProbe "TimeoutError: timed out" a).map fun res ↦ Dict.ofList
      [("probe_kind", .str "tcp"), ("admin_port", .int admin_port), ("status", res.status),
       ("severity", .str res.severity), ("ok", .bool res.ok)])
  else
    .ok (.returned (Dict.ofList
      [("probe_kind", .null),
       ("status", .obj [("ok", .bool false), ("severity", .str "unknown"), ("rtt_s", .null),
         ("error", .str ("UDP CoT ingest cannot be probed at the protocol level; " ++
           "add 'probe_kind': 'tcp' + 'admin_port' to TCP-check the TAK admin port instead"))]),
       ("severity", .str "unknown"), ("ok", .bool false)]))

/-! ## Edge node -/

/-- `_ntp_status_for_host`. -/
def ntpStatusForHost (repr : Json → String) (host ntp_sources : Json) : Except String Json := do
  let results ← (match (ntp_sources.or (.obj [])) with
    | .obj members => .ok (((Dict.ofList members).get? "results").getD (.obj []))
    | j => .error ("'" ++ j.className ++ "' object has no attribute 'get'"))
  let entry ← match results with
    | .obj members => do
        let key ← host.hash
        .ok (match key with
          | .str s => ((Dict.ofList members).get? s).getD .null
          | _ => .null)
    | j => .error ("'" ++ j.className ++ "' object has no attribute 'get'")
  match entry with
  | .null => .ok (.obj [("ok", .bool false), ("severity", .str "unknown"),
      ("error", .str ("host " ++ repr host ++ " not in ntp's configured servers"))])
  | entry => do
      let ok ← entry.get "ok"
      let severity ← entry.get "severity"
      let offset ← entry.get "offset_s"
      let rtt ← entry.get "rtt_s"
      let error ← entry.get "error"
      let last ← entry.get "last_ok_at"
      .ok (.obj [("ok", .bool ok.truthy), ("severity", severity.or (.str "unknown")),
        ("offset_s", offset), ("rtt_s", rtt), ("error", error), ("last_ok_at", last)])

/-- `GPS_FRESH_S`. -/
def GPS_FRESH_S : ℚ := 8

/-- `not isinstance(age, (int, float)) or age > GPS_FRESH_S`. -/
def ageStale : Json → Bool
  | .bool _ => false
  | .int n => decide (GPS_FRESH_S < n)
  | .float x => x.gt (.fin GPS_FRESH_S)
  | _ => true

/-- The sender named in a fix's source: the text after the first `"from "`, less
closing brackets and blanks; a source that does not contain `"from "` names none. -/
def seenFrom (source : Json) : Except String (Option String) :=
  match source with
  | .str s =>
      .ok ((Text.splitOnce "from ".toList s.toList).map fun (_, after) ↦
        String.ofList (Text.rstripBy (fun c ↦ c == ')' || c == ' ') after))
  | .arr items =>
      if items.any fun i ↦ i.eqStr "from " then .error "'list' object has no attribute 'split'"
      else .ok none
  | .obj members =>
      if "from " ∈ (Dict.ofList members).keys then .error "'dict' object has no attribute 'split'"
      else .ok none
  | j => .error ("argument of type '" ++ j.className ++ "' is not iterable")

/-- `_gps_status_for_host`. -/
def gpsStatusForHost (repr : Json → String) (host gps_fix : Json) : Except String Json := do
  let fail (error : String) : List (String × Json) :=
    [("ok", .bool false), ("severity", .str "fail"), ("error", .str error)]
  if !gps_fix.truthy then .ok (.obj (fail "gps unreachable"))
  else
    let source ← gps_fix.get "source"
    match ← seenFrom (source.or (.str "")) with
    | none => .ok (.obj (fail "no NMEA received yet"))
    | some seen_from =>
        if !host.eqStr seen_from then
          .ok (.obj (fail ("latest NMEA is from " ++ seen_from ++ ", not " ++ host.toText repr)))
        else
          let age ← gps_fix.get "age_s"
          if ageStale age then
            .ok (.obj (fail ("NMEA stale (" ++ age.toText repr ++ "s ago, threshold 8.0s)") ++
              [("age_s", age)]))
          else
            let ok ← gps_fix.get "ok"
            if !ok.truthy then
              let error ← gps_fix.get "error"
              .ok (.obj [("ok", .bool false), ("severity", .str "fail"),
                ("error", error.or (.str "fix invalid")), ("age_s", age)])
            else
              let fix_status ← gps_fix.get "fix_status"
              let satellites ← gps_fix.get "satellites"
              .ok (.obj [("ok", .bool true), ("severity", .str "ok"), ("fix_status", fix_status),
                ("satellites", satellites), ("age_s", age)])

/-- `SEV_RANK.get(s, 99)`. -/
def sevRank (s : Json) : Except String ℕ := do
  let key ← s.hash
  .ok (match key with
    | .str "ok" => 0
    | .str "warn" => 1
    | .str "fail" => 2
    | .str "unknown" => 3
    | _ => 99)

/-- The first of the severities with the greatest rank, starting from one. -/
def worstFrom (best : Json) : List Json → Except String Json
  | [] => do
      let _ ← sevRank best
      .ok best
  | s :: rest => do
      let r ← sevRank best
      let r' ← sevRank s
      worstFrom (if r < r' then s else best) rest

/-- `_worst`. -/
def worst : List Json → Except String Json
  | [] => .ok (.str "unknown")
  | s :: rest => worstFrom s rest

/-- How a dictionary key prints as a JSON object key. -/
def keyText (repr : Json → String) : Key → String
  | .str s => s
  | .null => "null"
  | .num x => repr (.float x)

/-- The loop over an edge node's services. -/
def edgeNodeServices (repr : Json → String) (entry : Entry) (ctx : Ctx) :
    List Json → Dict Key Json → Except String (Dict Key Json)
  | [], services => .ok services
  | kind :: kinds, services => do
      let host := entry.field "host"
      let status ←
        if kind.eqStr "ntp" then ntpStatusForHost repr host (ctx.ntp_sources.or (.obj []))
        else if kind.eqStr "gps" then gpsStatusForHost repr host (ctx.gps_fix.or (.obj []))
        else .ok (.obj [("ok", .bool false), ("severity", .str "unknown"),
          ("error", .str ("no probe for service " ++ repr kind))])
      let key ← kind.hash
      edgeNodeServices repr entry ctx kinds (services.set key status)

/-- `probe` of the edge-node module. -/
def edgeNodeProbe (repr : Json → String) (entry : Entry) (ctx : Ctx) : Except String Call := do
  let kinds ← ((entry.get? "services").getD (.arr [])).iter
  let services ← edgeNodeServices repr entry ctx kinds ∅
  let severities ← services.items.mapM fun (_, s) ↦ do
    .ok ((← s.get "severity").or (.str "unknown"))
  let overall ← worst severities
  .ok (.returned (Dict.ofList
    [("services_enabled", .arr kinds),
     ("services", .obj (services.items.map fun (k, s) ↦ (keyText repr k, s))),
     ("severity", overall), ("ok", .bool (overall.eqStr "ok"))]))

/-! ## The registry of strategies -/

/-- A strategy. -/
inductive ProbeFn where
  | edge_node
  | middleware
  | service
  | tak_server
deriving DecidableEq, Repr

/-- `for_type`: the lookup hashes the type, which raises `TypeError` for a list or
an object. -/
def forType (type_name : Json) : Except String (Option ProbeFn) := do
  let key ← type_name.hash
  .ok (match key with
    | .str "edge-node" => some .edge_node
    | .str "middleware" => some .middleware
    | .str "service" => some .service
    | .str "tak-server" => some .tak_server
    | _ => none)

/-- `probe_fn(entry, ctx)`, up to the point where it answers or waits for a thread. -/
def probe (cfg : Settings) (entry : Entry) (ctx : Ctx) : ProbeFn → Except String Call
  | .edge_node => edgeNodeProbe cfg.repr entry ctx
  | .middleware => middlewareProbe cfg.repr entry
  | .service => serviceProbe cfg.repr entry
  | .tak_server => takServerProbe cfg.repr entry

/-! ## What a probe leaves alone -/

/-- The fields that identify a node and say where it is. -/
def VIEW : List String := ["id", "type", "name", "host", "port"]

/-- A dictionary that gives none of those fields. -/
def NoView (x : Extras) : Prop := ∀ f ∈ VIEW, f ∉ x

/-- What a call can answer with. -/
def Call.Yields (x : Extras) : Call → Prop
  | .returned y => x = y
  | .blocked thread => ∃ a, thread a = .ok x

/-- A call that only answers with such dictionaries. -/
def Call.NoView (c : Call) : Prop := ∀ x, c.Yields x → Nodes.NoView x

theorem noView_ofList {l : List (String × Json)} (h : ∀ f ∈ VIEW, f ∉ l.map Prod.fst) :
    NoView (Dict.ofList l) :=
  fun f hf hmem ↦ h f hf (Dict.mem_of_mem_ofList hmem)

theorem noView_returned {x : Extras} (h : NoView x) : (Call.returned x).NoView := by
  rintro _ rfl
  exact h

theorem noView_blocked {attempt : Answer → Except String Res} {reply : Res → Extras}
    (h : ∀ res, NoView (reply res)) : (Call.blocked fun a ↦ (attempt a).map reply).NoView := by
  rintro x ⟨a, ha⟩
  cases hres : attempt a with
  | error text => simp [hres, Except.map] at ha
  | ok res =>
      simp only [hres, Except.map, Except.ok.injEq] at ha
      exact ha ▸ h res

theorem noView_service {repr : Json → String} {e : Entry} {c : Call}
    (h : serviceProbe repr e = .ok c) : c.NoView := by
  simp only [serviceProbe] at h
  split at h
  · obtain ⟨_, -, h⟩ := bind_eq_ok.mp h
    obtain ⟨_, -, h⟩ := bind_eq_ok.mp h
    cases h
    exact noView_blocked fun res ↦ noView_ofList (by simp [VIEW])
  · split at h
    · obtain ⟨_, -, h⟩ := bind_eq_ok.mp h
      obtain ⟨_, -, h⟩ := bind_eq_ok.mp h
      cases h
      exact noView_blocked fun res ↦ noView_ofList (by simp [VIEW])
    · cases h
      exact noView_returned (noView_ofList (by simp [VIEW]))

theorem noView_middleware {repr : Json → String} {e : Entry} {c : Call}
    (h : middlewareProbe repr e = .ok c) : c.NoView := by
  simp only [middlewareProbe] at h
  split at h
  · cases h
    exact noView_returned (noView_ofList (by simp [VIEW]))
  · obtain ⟨_, -, h⟩ := bind_eq_ok.mp h
    cases h
    exact noView_blocked fun res ↦ noView_ofList (by simp [VIEW])

theorem noView_takServer {repr : Json → String} {e : Entry} {c : Call}
    (h : takServerProbe repr e = .ok c) : c.NoView := by
  simp only [takServerProbe] at h
  split at h
  · obtain ⟨_, -, h⟩ := bind_eq_ok.mp h
    cases h
    exact noView_blocked fun res ↦ noView_ofList (by simp [VIEW])
  · cases h
    exact noView_returned (noView_ofList (by simp [VIEW]))

theorem noView_edgeNode {repr : Json → String} {e : Entry} {ctx : Ctx} {c : Call}
    (h : edgeNodeProbe repr e ctx = .ok c) : c.NoView := by
  simp only [edgeNodeProbe] at h
  obtain ⟨_, -, h⟩ := bind_eq_ok.mp h
  obtain ⟨_, -, h⟩ := bind_eq_ok.mp h
  obtain ⟨_, -, h⟩ := bind_eq_ok.mp h
  obtain ⟨_, -, h⟩ := bind_eq_ok.mp h
  cases h
  exact noView_returned (noView_ofList (by simp [VIEW]))

/-- No probe answers with a field of an entry's identity. -/
theorem probe_noView {cfg : Settings} {e : Entry} {ctx : Ctx} {p : ProbeFn} {c : Call}
    (h : probe cfg e ctx p = .ok c) : c.NoView := by
  cases p with
  | edge_node => exact noView_edgeNode h
  | middleware => exact noView_middleware h
  | service => exact noView_service h
  | tak_server => exact noView_takServer h

end SensorFusion.Nodes
