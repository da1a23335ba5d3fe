import SensorFusion.Nodes.Registry

/-!
# The handlers refine the ordered map

One lemma for each thing a handler relies on: what a request body becomes, when
`_validate_type_specific` passes, and what the merge of `patch_one` computes.
Then each handler, up to its refresh round, is matched with a step of the map.

There is one way for a handler to do something that the map does not: the
membership test on an entry's type raises `TypeError` when the type is a list or
an object, which only `patch_one` can meet.
-/

namespace SensorFusion.Nodes

/-! ## Request bodies -/

/-- Dropping fields leaves a sublist of the names. -/
theorem names_excludeNone (dump : List (String × Option Json)) :
    ((dump.filterMap fun (f, v) ↦ v.map fun j ↦ (f, j)).map Prod.fst).Sublist
      (dump.map Prod.fst) := by
  induction dump with
  | nil => exact List.Sublist.refl _
  | cons a l ih =>
      obtain ⟨f, v⟩ := a
      cases v with
      | none => exact ih.cons f
      | some j => exact ih.cons_cons f

theorem lookup_excludeNone {dump : List (String × Option Json)} (h : (dump.map Prod.fst).Nodup)
    (f : String) :
    (dump.filterMap fun (f, v) ↦ v.map fun j ↦ (f, j)).lookup f = (dump.lookup f).join := by
  induction dump with
  | nil => rfl
  | cons a l ih =>
      obtain ⟨f', v⟩ := a
      rw [List.map_cons, List.nodup_cons] at h
      rw [List.lookup_cons]
      by_cases hf : f = f'
      · subst hf
        rw [beq_self_eq_true]
        cases v with
        | some j => simp
        | none =>
            -- A field that is given as `None` has no second mention.
            have hnot : l.lookup f = none := by
              rw [List.lookup_eq_none_iff]
              intro b hb
              simpa using fun hbf : f = b.1 ↦ h.1 (List.mem_map.mpr ⟨b, hb, hbf.symm⟩)
            have hih := ih h.2
            rw [hnot] at hih
            simpa using hih
      · rw [beq_eq_false_iff_ne.mpr hf]
        cases v with
        | none => exact ih h.2
        | some j =>
            change List.lookup f ((f', j) :: List.filterMap _ l) = _
            rw [List.lookup_cons, beq_eq_false_iff_ne.mpr hf]
            exact ih h.2

/-- A body's dictionary holds the fields that are given. -/
theorem get?_excludeNone {dump : List (String × Option Json)} (h : (dump.map Prod.fst).Nodup)
    (f : String) : (excludeNone dump).get? f = (dump.lookup f).join := by
  rw [excludeNone, Dict.get?_ofList (h.sublist (names_excludeNone dump)), lookup_excludeNone h]

namespace NodeCreate

theorem nodup_dump (r : NodeCreate) : (r.dump.map Prod.fst).Nodup := by
  change List.Nodup ["id", "type", "name", "host", "port", "services", "kind", "probe",
    "health_path", "probe_kind", "admin_port", "protocol", "description", "db_kind", "db_user",
    "db_password", "db_database"]
  decide

theorem get?_entry (r : NodeCreate) {f : String} (h : f ≠ "description") :
    r.entry.get? f = (r.dump.lookup f).join := by
  rw [entry, Entry.describe, Dict.get?_setdefault_ne _ _ h, modelDump,
    get?_excludeNone r.nodup_dump]

@[simp] theorem get?_entry_id (r : NodeCreate) : r.entry.get? "id" = some r.id.json :=
  r.get?_entry (by decide)

@[simp] theorem get?_entry_type (r : NodeCreate) : r.entry.get? "type" = some r.type.json :=
  r.get?_entry (by decide)

@[simp] theorem key_entry (r : NodeCreate) : r.entry.key = .str r.id.val := by
  rw [Entry.key, Entry.field, get?_entry_id]
  rfl

theorem sound_entry (r : NodeCreate) : r.entry.Sound where
  required f hf := by
    rw [← Dict.get?_isSome_iff]
    simp only [REQUIRED, List.mem_cons, List.not_mem_nil, or_false] at hf
    rcases hf with rfl | rfl | rfl | rfl
    · rw [get?_entry_id]; rfl
    · rw [get?_entry_type]; rfl
    · rw [get?_entry r (by decide)]; rfl
    · rw [get?_entry r (by decide)]; rfl
  hashable := by
    rw [key_entry, Entry.field, get?_entry_id]
    rfl

end NodeCreate

namespace NodePatch

theorem nodup_dump (r : NodePatch) : (r.dump.map Prod.fst).Nodup := by
  change List.Nodup ["name", "host", "port", "services", "kind", "probe", "health_path",
    "probe_kind", "admin_port", "protocol", "description", "db_kind", "db_user", "db_password",
    "db_database"]
  decide

theorem get?_modelDump (r : NodePatch) (f : String) :
    r.modelDump.get? f = (r.dump.lookup f).join :=
  get?_excludeNone r.nodup_dump f

theorem get?_modelDump_host (r : NodePatch) :
    r.modelDump.get? "host" = r.host.map Str.json :=
  r.get?_modelDump "host"

/-- A patch never gives an id. -/
theorem given_id (r : NodePatch) : r.given "id" = none := by
  rw [given, if_neg (by decide), get?_modelDump]
  rfl

/-- A patch never gives a type. -/
theorem given_type (r : NodePatch) : r.given "type" = none := by
  rw [given, if_neg (by decide), get?_modelDump]
  rfl

theorem given_isSome_iff (r : NodePatch) (f : String) :
    (r.given f).isSome = (r.modelDump.get? f).isSome := by
  rw [given]
  by_cases h : f = "host"
  · rw [if_pos h, h, get?_modelDump_host, Option.isSome_map, Option.isSome_map]
  · rw [if_neg h]

/-- The test of `patch_one` for an empty patch. -/
theorem isEmpty_modelDump_iff (r : NodePatch) :
    r.modelDump.items.isEmpty = true ↔ r.Empty := by
  rw [List.isEmpty_iff]
  constructor
  · intro h f
    have hnone : r.modelDump.get? f = none := by rw [Dict.get?, h]; rfl
    have hgiven := r.given_isSome_iff f
    rw [hnone] at hgiven
    exact Option.isNone_iff_eq_none.mp (by simpa using hgiven)
  · intro h
    cases hitems : r.modelDump.items with
    | nil => rfl
    | cons a l =>
        have hsome : r.modelDump.get? a.1 = some a.2 :=
          Dict.get?_eq_some_iff.mpr (by rw [hitems]; exact List.mem_cons_self)
        have hgiven := r.given_isSome_iff a.1
        rw [h a.1, hsome] at hgiven
        cases hgiven

end NodePatch

/-! ## The merge of `patch_one` -/

/-- The merge overwrites exactly the given fields. -/
theorem overwrites_merged (r : NodePatch) (e : Entry) :
    Overwrites r e (merged e r.modelDump) := by
  have hget : ∀ f, (merged e r.modelDump).get? f = (r.given f <|> e.get? f) := by
    intro f
    rw [merged, NodePatch.given, r.get?_modelDump_host]
    cases hhost : r.host with
    | none =>
        by_cases hf : f = "host"
        · rw [if_pos hf, hf]
          simp only [Option.map_none]
          rw [Dict.get?_update, r.get?_modelDump_host, hhost]
          rfl
        · rw [if_neg hf]
          simp only [Option.map_none]
          rw [Dict.get?_update]
    | some host =>
        simp only [Option.map_some, Str.json]
        rw [Dict.get?_set]
        by_cases hf : f = "host"
        · rw [if_pos hf, if_pos hf]
          rfl
        · rw [if_neg hf, if_neg hf, Dict.get?_update]
  have horder : e.keys <+: (merged e r.modelDump).keys := by
    have hupdate : e.keys <+: (e.update r.modelDump).keys := by
      rw [Dict.keys_update]
      exact List.prefix_append _ _
    rw [merged, r.get?_modelDump_host]
    cases hhost : r.host with
    | none => exact hupdate
    | some host =>
        simp only [Option.map_some, Str.json]
        rw [Dict.keys_set]
        split
        · exact hupdate
        · exact hupdate.trans (List.prefix_append _ _)
  refine ⟨hget, horder, ?_, ?_⟩
  · rw [hget, r.given_id]; rfl
  · rw [hget, r.given_type]; rfl

/-! ## `_validate_type_specific` -/

theorem unknownServices_isEmpty_iff (l : List Json) :
    (unknownServices l).isEmpty = true ↔ ∀ s ∈ l, s = .str "ntp" ∨ s = .str "gps" := by
  rw [List.isEmpty_iff, unknownServices, List.filter_eq_nil_iff]
  refine forall₂_congr fun s _ ↦ ?_
  rw [← Json.eqStr_iff, ← Json.eqStr_iff]
  cases s.eqStr "ntp" <;> cases s.eqStr "gps" <;> simp

theorem contract_edge_node_iff {e : Entry} (ht : e.get? "type" = some (.str "edge-node")) :
    Contract e ↔ ∀ v, e.get? "services" = some v → v.truthy = true →
      ∃ l, v = .arr l ∧ ∀ s ∈ l, s = .str "ntp" ∨ s = .str "gps" := by
  refine ⟨fun hc ↦ ?_, .edge_node ht⟩
  cases hc with
  | edge_node _ services => exact services
  | middleware type _ => rw [ht] at type; simp at type
  | service type _ _ => rw [ht] at type; simp at type
  | tak_server type _ _ => rw [ht] at type; simp at type

theorem contract_middleware_iff {e : Entry} (ht : e.get? "type" = some (.str "middleware")) :
    Contract e ↔ "port" ∈ e := by
  refine ⟨fun hc ↦ ?_, .middleware ht⟩
  cases hc with
  | middleware _ port => exact port
  | edge_node type _ => rw [ht] at type; simp at type
  | service type _ _ => rw [ht] at type; simp at type
  | tak_server type _ _ => rw [ht] at type; simp at type

theorem contract_service_iff {e : Entry} (ht : e.get? "type" = some (.str "service")) :
    Contract e ↔ "port" ∈ e ∧
      ("health_path" ∈ e ∨ e.get? "probe_kind" = some (.str "tcp")) := by
  refine ⟨fun hc ↦ ?_, fun h ↦ .service ht h.1 h.2⟩
  cases hc with
  | service _ port probe => exact ⟨port, probe⟩
  | edge_node type _ => rw [ht] at type; simp at type
  | middleware type _ => rw [ht] at type; simp at type
  | tak_server type _ _ => rw [ht] at type; simp at type

theorem contract_tak_server_iff {e : Entry} (ht : e.get? "type" = some (.str "tak-server")) :
    Contract e ↔ "port" ∈ e ∧
      (e.get? "probe_kind" = some (.str "tcp") → "admin_port" ∈ e) := by
  refine ⟨fun hc ↦ ?_, fun h ↦ .tak_server ht h.1 h.2⟩
  cases hc with
  | tak_server _ port probe => exact ⟨port, probe⟩
  | edge_node type _ => rw [ht] at type; simp at type
  | middleware type _ => rw [ht] at type; simp at type
  | service type _ _ => rw [ht] at type; simp at type

theorem eqStr_getD_iff (e : Entry) (f s : String) :
    ((e.get? f).getD .null).eqStr s = true ↔ e.get? f = some (.str s) := by
  rw [Json.eqStr_iff]
  cases e.get? f <;> simp

/-- A verdict on a contract: it passes, or it is turned away with a 400. -/
def Judges (result : Except Failure Unit) (p : Prop) : Prop :=
  (result = .ok () ∧ p) ∨ ((∃ detail, result = .error (.http 400 detail)) ∧ ¬ p)

/-- A chain of `if bad: raise HTTPException(400)`, read from its end. -/
theorem Judges.guard {result : Except Failure Unit} {b p q : Prop} [Decidable b]
    {detail : String} (h : Judges result p) (hq : q ↔ ¬ b ∧ p) :
    Judges (if b then .error (.http 400 detail) else result) q := by
  by_cases hbad : b
  · rw [if_pos hbad]
    exact Or.inr ⟨⟨detail, rfl⟩, fun hq' ↦ (hq.mp hq').1 hbad⟩
  · rw [if_neg hbad]
    rcases h with ⟨hr, hp⟩ | ⟨hr, hp⟩
    · exact Or.inl ⟨hr, hq.mpr ⟨hbad, hp⟩⟩
    · exact Or.inr ⟨hr, fun hq' ↦ hp (hq.mp hq').2⟩

theorem judges_ok : Judges (.ok ()) True := Or.inl ⟨rfl, trivial⟩

theorem judges_edge_node (cfg : Settings) {e : Entry}
    (ht : e.get? "type" = some (.str "edge-node")) :
    Judges (validateKnown cfg e (.str "edge-node")) (Contract e) := by
  have heq : (Json.str "edge-node").eqStr "edge-node" = true := rfl
  unfold validateKnown
  dsimp only
  rw [if_pos heq, contract_edge_node_iff ht]
  cases hs : e.get? "services" with
  | none => exact Or.inl ⟨rfl, fun v hv ↦ by cases hv⟩
  | some v =>
      cases htruthy : v.truthy with
      | false =>
          rw [Option.getD_some, htruthy]
          refine Or.inl ⟨rfl, fun v' hv' ht' ↦ ?_⟩
          cases hv'
          rw [htruthy] at ht'
          cases ht'
      | true =>
          rw [Option.getD_some, htruthy, if_pos rfl]
          cases v with
          | arr l =>
              cases hl : (unknownServices l).isEmpty with
              | true =>
                  refine Or.inl ⟨by simp only [hl, if_true], fun v' hv' _ ↦ ?_⟩
                  cases hv'
                  exact ⟨l, rfl, (unknownServices_isEmpty_iff l).mp hl⟩
              | false =>
                  refine Or.inr ⟨⟨_, by simp only [hl]; rfl⟩, fun hc ↦ ?_⟩
                  obtain ⟨l', hl', hmem⟩ := hc _ rfl htruthy
                  cases hl'
                  rw [(unknownServices_isEmpty_iff l).mpr hmem] at hl
                  cases hl
          | _ =>
              refine Or.inr ⟨⟨_, rfl⟩, fun hc ↦ ?_⟩
              obtain ⟨l, hl, -⟩ := hc _ rfl htruthy
              cases hl

/-- Once the type is known, the checks decide the contract. -/
theorem judges_validateKnown (cfg : Settings) {e : Entry} {t : String}
    (ht : e.get? "type" = some (.str t)) (hknown : t ∈ KNOWN_TYPES) :
    Judges (validateKnown cfg e (.str t)) (Contract e) := by
  simp only [KNOWN_TYPES, List.mem_cons, List.not_mem_nil, or_false] at hknown
  rcases hknown with rfl | rfl | rfl | rfl
  · exact judges_edge_node cfg ht
  · refine Judges.guard (b := "port" ∉ e) judges_ok ?_
    rw [contract_middleware_iff ht, not_not, and_true]
  · refine Judges.guard (b := "port" ∉ e) (Judges.guard judges_ok Iff.rfl) ?_
    rw [contract_service_iff ht, ← eqStr_getD_iff]
    simp only [not_not, not_and, Bool.not_eq_false, and_true]
    exact and_congr_right fun _ ↦ or_iff_not_imp_left
  · refine Judges.guard (b := "port" ∉ e) (Judges.guard judges_ok Iff.rfl) ?_
    rw [contract_tak_server_iff ht, ← eqStr_getD_iff]
    simp only [not_not, not_and, and_true]

/-- `_validate_type_specific` decides the contract of every entry whose type has a
hash. -/
theorem judges_validateTypeSpecific (cfg : Settings) {e : Entry}
    (h : (e.field "type").key? ≠ none) :
    Judges (validateTypeSpecific cfg e) (Contract e) := by
  have hfield : (e.get? "type").getD .null = e.field "type" := rfl
  rw [validateTypeSpecific]
  simp only [hfield]
  cases hkey : (e.field "type").key? with
  | none => exact absurd hkey h
  | some k =>
      simp only
      cases hany : KNOWN_TYPES.any (e.field "type").eqStr with
      | true =>
          obtain ⟨t, ht, heq⟩ := List.any_eq_true.mp hany
          have hget := (eqStr_getD_iff e "type" t).mp heq
          rw [if_pos rfl, Json.eqStr_iff.mp heq]
          exact judges_validateKnown cfg hget ht
      | false =>
          refine Or.inr ⟨⟨_, if_neg (by simp)⟩, fun hc ↦ ?_⟩
          have hno : ∀ t ∈ KNOWN_TYPES, e.get? "type" ≠ some (.str t) := fun t ht hget ↦ by
            have htrue := List.any_eq_true.mpr ⟨t, ht, (eqStr_getD_iff e "type" t).mpr hget⟩
            rw [hfield, hany] at htrue
            cases htrue
          cases hc with
          | edge_node type _ => exact hno _ (by decide) type
          | middleware type _ => exact hno _ (by decide) type
          | service type _ _ => exact hno _ (by decide) type
          | tak_server type _ _ => exact hno _ (by decide) type

/-- The membership test raises when the type has no hash. -/
theorem validateTypeSpecific_of_unhashable (cfg : Settings) {e : Entry}
    (h : (e.field "type").key? = none) :
    validateTypeSpecific cfg e = .error (.exception (e.field "type").unhashable) := by
  have hfield : (e.get? "type").getD .null = e.field "type" := rfl
  rw [validateTypeSpecific]
  simp only [hfield, h]

/-! ## One request -/

/-- A patch meets the defect when it gives a field of an entry whose type is a
list or an object. -/
def Clean (cfg : Settings) (file : ConfigFile) : Request → Prop
  | .patch node_id req => ¬ req.Empty → ∀ es, loadConfig cfg file = .ok es →
      ∀ e ∈ es, e.field "id" = .str node_id → (e.field "type").key? ≠ none
  | _ => True

/-- How a request looks to the map: turned away with a status, or carried out. -/
def outcome : Except Failure Unit → Option ℕ
  | .ok () => none
  | .error f => some f.status

/-- A request does a step of the map: it answers as the map does, a request that
is turned away leaves the file as it is, and the file goes on to hold the map. -/
def Steps (cfg : Settings) (file : ConfigFile) (reg : Registry) (r : Request) : Prop :=
  ∃ reg', MapStep reg r (outcome (serve cfg r .done file).1) reg' ∧
    ((outcome (serve cfg r .done file).1).isSome → (serve cfg r .done file).2 = file) ∧
    Represents cfg (serve cfg r .done file).2 reg'

variable {cfg : Settings} {file : ConfigFile} {es : List Entry} {reg : Registry}

theorem serve_error {r : Request} {f : Failure} (h : r.entries cfg file = .error f) (w : Write) :
    serve cfg r w file = (.error f, file) := by
  rw [serve, h]

theorem serve_ok {r : Request} {es' : List Entry} (h : r.entries cfg file = .ok es') :
    serve cfg r .done file = (.ok (), dumped es') := by
  rw [serve, h]
  rfl

/-- A request that is turned away. -/
theorem Steps.rejected {r : Request} {f : Failure} {status : ℕ}
    (hload : loadConfig cfg file = .ok es) (hm : Models es reg)
    (h : r.entries cfg file = .error f) (hstatus : f.status = status)
    (hstep : MapStep reg r (some status) reg) : Steps cfg file reg r := by
  subst hstatus
  refine ⟨reg, ?_, ?_, ?_⟩
  · rw [serve_error h]; exact hstep
  · intro _; rw [serve_error h]
  · rw [serve_error h]; exact ⟨es, hload, hm⟩

/-- A request that is carried out. -/
theorem Steps.accepted {r : Request} {es' : List Entry} {reg' : Registry}
    (h : r.entries cfg file = .ok es') (hm : Models es' reg') (hstep : MapStep reg r none reg') :
    Steps cfg file reg r := by
  refine ⟨reg', ?_, ?_, ?_⟩
  · rw [serve_ok h]; exact hstep
  · rw [serve_ok h]; intro hsome; cases hsome
  · rw [serve_ok h]; exact hm.represents_dumped cfg

theorem loadOr500_ok (hload : loadConfig cfg file = .ok es) : loadOr500 cfg file = .ok es := by
  rw [loadOr500, hload]

/-- `create_node` past its id check and its search. -/
theorem createNode_of_new {req : NodeCreate} (hload : loadConfig cfg file = .ok es)
    (hid : ID_RE req.id.val = true)
    (hnew : (es.any fun e ↦ (e.field "id").eqStr req.id.val) = false) :
    createNode cfg req file =
      (validateTypeSpecific cfg req.entry >>= fun _ ↦ .ok (es ++ [req.entry])) := by
  rw [createNode, validateId, hid, loadOr500_ok hload]
  simp only [bind, Except.bind, if_true, hnew]
  rfl

/-- `patch_one` past its emptiness check and its search. -/
theorem patchOne_of_found {node_id : String} {req : NodePatch} {e : Entry}
    (hload : loadConfig cfg file = .ok es) (hne : req.modelDump.items.isEmpty = false)
    (hfind : (es.find? fun e ↦ (e.field "id").eqStr node_id) = some e) :
    patchOne cfg node_id req file =
      (validateTypeSpecific cfg (merged e req.modelDump) >>= fun _ ↦
        .ok (mutate node_id (fun target ↦ target.update (merged e req.modelDump)) es)) := by
  rw [patchOne]
  simp only [hne, loadOr500_ok hload, bind, Except.bind, hfind]
  rfl

theorem steps_create (hload : loadConfig cfg file = .ok es) (hm : Models es reg)
    (req : NodeCreate) : Steps cfg file reg (.create req) := by
  cases hid : ID_RE req.id.val with
  | false =>
      obtain ⟨detail, h⟩ : ∃ detail, createNode cfg req file = .error (.http 400 detail) := by
        rw [createNode, validateId, hid]
        exact ⟨_, rfl⟩
      exact .rejected hload hm h rfl (.bad_id hid)
  | true =>
      have hany := hm.any_iff_mem req.id.val
      cases hmem : es.any fun e ↦ (e.field "id").eqStr req.id.val with
      | true =>
          obtain ⟨detail, h⟩ : ∃ detail, createNode cfg req file = .error (.http 409 detail) := by
            rw [createNode, validateId, hid, loadOr500_ok hload]
            simp only [bind, Except.bind, if_true, hmem]
            exact ⟨_, rfl⟩
          exact .rejected hload hm h rfl (.present hid (hany.mp hmem))
      | false =>
          have hnew : Key.str req.id.val ∉ reg := fun hin ↦ by
            rw [hany.mpr hin] at hmem
            cases hmem
          have hbody : createNode cfg req file = _ := createNode_of_new hload hid hmem
          have htype : (req.entry.field "type").key? ≠ none := by
            rw [Entry.field, NodeCreate.get?_entry_type]
            intro h
            cases h
          rcases judges_validateTypeSpecific cfg htype with ⟨hv, hc⟩ | ⟨⟨detail, hv⟩, hc⟩
          · have h : createNode cfg req file = .ok (es ++ [req.entry]) := by rw [hbody, hv]; rfl
            have hm' := hm.append req.sound_entry (Dict.mem_setdefault.mpr (Or.inl rfl))
              (by rw [NodeCreate.key_entry]; exact hnew)
            rw [NodeCreate.key_entry] at hm'
            exact .accepted h hm' (.created hid hnew hc)
          · have h : createNode cfg req file = .error (.http 400 detail) := by rw [hbody, hv]; rfl
            exact .rejected hload hm h rfl (.create_contract hid hnew hc)

theorem steps_delete (hload : loadConfig cfg file = .ok es) (hm : Models es reg)
    (node_id : String) : Steps cfg file reg (.delete node_id) := by
  have hfind := hm.find?_eq_get? node_id
  cases hget : reg.get? (.str node_id) with
  | none =>
      have h : deleteNode cfg node_id file = .error (.http 404 ("unknown node: " ++ node_id)) := by
        rw [deleteNode, loadOr500_ok hload]
        simp only [bind, Except.bind, hfind, hget]
      exact .rejected hload hm h rfl (.delete_unknown (Dict.get?_eq_none_iff.mp hget))
  | some e =>
      have h : deleteNode cfg node_id file =
          .ok (es.filter fun e ↦ !(e.field "id").eqStr node_id) := by
        rw [deleteNode, loadOr500_ok hload]
        simp only [bind, Except.bind, hfind, hget]
      exact .accepted h (hm.erase node_id) (.deleted (Dict.mem_iff_get?.mpr ⟨e, hget⟩))

theorem Overwrites.field_type {req : NodePatch} {e e' : Entry} (h : Overwrites req e e') :
    e'.field "type" = e.field "type" :=
  Entry.field_eq_of_get? h.type_eq

theorem Overwrites.key_eq {req : NodePatch} {e e' : Entry} (h : Overwrites req e e') :
    e'.key = e.key :=
  Entry.key_eq_of_field (Entry.field_eq_of_get? h.id_eq)

theorem Overwrites.mem {req : NodePatch} {e e' : Entry} (h : Overwrites req e e') {f : String}
    (hf : f ∈ e) : f ∈ e' :=
  h.order.subset hf

theorem Overwrites.sound {req : NodePatch} {e e' : Entry} (h : Overwrites req e e')
    (hs : e.Sound) : e'.Sound where
  required f hf := h.mem (hs.required f hf)
  hashable := by
    rw [Entry.field_eq_of_get? h.id_eq, h.key_eq]
    exact hs.hashable

theorem isEmpty_modelDump_eq_false {req : NodePatch} (h : ¬ req.Empty) :
    req.modelDump.items.isEmpty = false :=
  Bool.eq_false_iff.mpr (req.isEmpty_modelDump_iff.not.mpr h)

theorem steps_patch (hload : loadConfig cfg file = .ok es) (hm : Models es reg)
    {node_id : String} {req : NodePatch} (hclean : Clean cfg file (.patch node_id req)) :
    Steps cfg file reg (.patch node_id req) := by
  by_cases hempty : req.Empty
  · obtain ⟨detail, h⟩ : ∃ detail,
        patchOne cfg node_id req file = .error (.http 400 detail) := by
      rw [patchOne]
      simp only [req.isEmpty_modelDump_iff.mpr hempty]
      exact ⟨_, rfl⟩
    exact .rejected hload hm h rfl (.empty hempty)
  · have hne := isEmpty_modelDump_eq_false hempty
    have hfind := hm.find?_eq_get? node_id
    cases hget : reg.get? (.str node_id) with
    | none =>
        obtain ⟨detail, h⟩ : ∃ detail,
            patchOne cfg node_id req file = .error (.http 404 detail) := by
          rw [patchOne]
          simp only [hne, loadOr500_ok hload, bind, Except.bind, hfind, hget]
          exact ⟨_, rfl⟩
        exact .rejected hload hm h rfl
          (.patch_unknown hempty (Dict.get?_eq_none_iff.mp hget))
    | some e =>
        rw [hget] at hfind
        have he := List.mem_of_find?_eq_some hfind
        have hid := List.find?_some (p := fun e : Entry ↦ (e.field "id").eqStr node_id) hfind
        rw [Json.eqStr_iff] at hid
        have hover := overwrites_merged req e
        have hbody := patchOne_of_found hload hne hfind
        have htype : ((merged e req.modelDump).field "type").key? ≠ none := by
          rw [hover.field_type]
          exact hclean hempty es hload e he hid
        rcases judges_validateTypeSpecific cfg htype with ⟨hv, hc⟩ | ⟨⟨detail, hv⟩, hc⟩
        · have h : patchOne cfg node_id req file = .ok (mutate node_id
              (fun target ↦ target.update (merged e req.modelDump)) es) := by
            rw [hbody, hv]; rfl
          -- Writing the merge back onto the target leaves exactly the merge.
          have hback : e.update (merged e req.modelDump) = merged e req.modelDump :=
            Dict.update_eq_right hover.order
          have hm' := hm.mutate hget (f := fun target ↦ target.update (merged e req.modelDump))
            (by rw [hback]; exact hover.sound (hm.sound e he))
            (by rw [hback]; exact hover.mem (hm.described e he))
            (by rw [hback]; exact hover.key_eq)
          rw [hback] at hm'
          exact .accepted h hm' (.patched hempty hget hover hc)
        · have h : patchOne cfg node_id req file = .error (.http 400 detail) := by
            rw [hbody, hv]; rfl
          exact .rejected hload hm h rfl (.patch_contract hempty hget hover hc)

/-- Every clean request does a step of the map. -/
theorem steps_of_clean (hload : loadConfig cfg file = .ok es) (hm : Models es reg) {r : Request}
    (hclean : Clean cfg file r) : Steps cfg file reg r := by
  cases r with
  | create req => exact steps_create hload hm req
  | patch node_id req => exact steps_patch hload hm hclean
  | delete node_id => exact steps_delete hload hm node_id

/-- The map never answers with a 500. -/
theorem MapStep.status_ne {r : Request} {reg' : Registry} (h : MapStep reg r (some 500) reg') :
    False := by
  cases h

/-- A request that is not clean is answered with a 500. -/
theorem entries_of_not_clean (hload : loadConfig cfg file = .ok es) (hm : Models es reg)
    {r : Request} (h : ¬ Clean cfg file r) :
    ∃ text, r.entries cfg file = .error (.exception text) := by
  cases r with
  | create req => exact absurd trivial h
  | delete node_id => exact absurd trivial h
  | patch node_id req =>
      rw [Clean] at h
      push Not at h
      obtain ⟨hempty, es', hload', e, he, hid, hkey⟩ := h
      rw [hload] at hload'
      cases hload'
      have hget : reg.get? (.str node_id) = some e := by
        refine Dict.get?_eq_some_iff.mpr ?_
        rw [hm.items_eq]
        have hk : e.key = .str node_id :=
          ((hm.sound e he).eqStr_id node_id).mp (Json.eqStr_iff.mpr hid)
        exact List.mem_map.mpr ⟨e, he, by rw [hk]⟩
      have hfind := hm.find?_eq_get? node_id
      rw [hget] at hfind
      have htype := (overwrites_merged req e).field_type
      refine ⟨(e.field "type").unhashable, ?_⟩
      change patchOne cfg node_id req file = _
      rw [patchOne_of_found hload (isEmpty_modelDump_eq_false hempty) hfind,
        validateTypeSpecific_of_unhashable cfg (by rw [htype, hkey]), htype]
      rfl

/-- A request that does a step of the map is clean. -/
theorem clean_of_mapStep (hload : loadConfig cfg file = .ok es) (hm : Models es reg) {r : Request}
    {reg' : Registry} (hstep : MapStep reg r (outcome (serve cfg r .done file).1) reg') :
    Clean cfg file r := by
  by_contra hclean
  obtain ⟨text, h⟩ := entries_of_not_clean hload hm hclean
  rw [serve_error h] at hstep
  exact hstep.status_ne

/-- What a request wants written is again a registry. -/
theorem represents_of_entries_ok (hload : loadConfig cfg file = .ok es) (hm : Models es reg)
    {r : Request} {es' : List Entry} (h : r.entries cfg file = .ok es') :
    ∃ reg', Represents cfg (dumped es') reg' := by
  have hclean : Clean cfg file r := by
    by_contra hclean
    obtain ⟨text, herr⟩ := entries_of_not_clean hload hm hclean
    rw [h] at herr
    cases herr
  obtain ⟨reg', -, -, hrep⟩ := steps_of_clean hload hm hclean
  rw [serve_ok h] at hrep
  exact ⟨reg', hrep⟩

/-- The types of all entries have a hash. -/
def hashable (es : List Entry) : Bool := es.all fun e ↦ (e.field "type").key?.isSome

theorem ne_none_of_hashable {es : List Entry} (h : hashable es = true) :
    ∀ e ∈ es, (e.field "type").key? ≠ none :=
  fun e he ↦ Option.isSome_iff_ne_none.mp (List.all_eq_true.mp h e he)

/-- The default settings, with the `repr` of a plain string. -/
def defaults : Settings where
  CONFIG_PATH := "/app/config/nodes.json"
  repr
    | .str s => "'" ++ s ++ "'"
    | j => j.className

/-- A configuration with one node of a given type. -/
def oneNode (type : Json) : ConfigFile :=
  .document (.arr [.obj [("id", .str "a"), ("type", type), ("name", .str "A"),
    ("host", .str "10.0.0.1")]])

/-- The body of a create: a middleware under the id `m`. -/
def secondNode : NodeCreate := { NodeFields.none with
  port := some ⟨5020, by decide⟩, id := ⟨"m", by decide⟩, type := ⟨"middleware", by decide⟩,
  name := ⟨"M", by decide⟩, host := ⟨"10.0.0.3", by decide⟩ }

end SensorFusion.Nodes
