import SensorFusion.Nodes.Refinement

/-!
# How a create or a patch is judged

The checks of the two handlers as one relation between a request, the file and a verdict,
and what a request that passes them writes.  `Keeps` says when a request leaves the file as it
is, which besides a request that is turned away can be a write that fails or one that writes
the very same document.
-/

namespace SensorFusion

open Nodes

/-! ## Outcomes -/

/-- What a client gets to know of an answer: that it is a success, the status that it did
something wrong, or that something else is wrong. -/
inductive Verdict where
  | success
  | client (status : ℕ)
  | server
deriving DecidableEq

def verdict {α : Type} : Except Failure α → Verdict
  | .ok _ => .success
  | .error f => if f.status < 500 then .client f.status else .server

/-- The verdict on a request that passes the checks or not, once the file is written. -/
def Verdict.after (w : Write) (v : Verdict) : Verdict :=
  match v, w with
  | .success, .failed _ _ => .server
  | v, _ => v

/-- The same effect on the registry, and the same success or error of the client. -/
def SameEffect (a b : Except Failure Unit × ConfigFile) : Prop :=
  a.2 = b.2 ∧ verdict a.1 = verdict b.1

namespace Nodes

theorem verdict_serve (cfg : Settings) (r : Request) (w : Write) (file : ConfigFile) :
    verdict (serve cfg r w file).1 = (verdict (r.entries cfg file)).after w := by
  rw [serve]
  cases hentries : r.entries cfg file with
  | error f =>
      simp only [verdict]
      split <;> rfl
  | ok entries =>
      cases w with
      | done => rfl
      | failed left exc => rfl

/-! ## The checks of the nodes service -/

/-- The first entry under an id. -/
abbrev entryOf (es : List Entry) (node_id : String) : Option Entry :=
  es.find? fun e ↦ (e.field "id").eqStr node_id

/-- How the nodes service finds a create or a patch before it writes. -/
inductive Judged (cfg : Settings) (file : ConfigFile) : Request → Verdict → Prop where
  | bad_id {req : NodeCreate} (hid : ID_RE req.id.val = false) :
      Judged cfg file (.create req) (.client 400)
  | create_config {req : NodeCreate} {exc : String} (hid : ID_RE req.id.val = true)
      (hload : loadConfig cfg file = .error exc) : Judged cfg file (.create req) .server
  | present {req : NodeCreate} {es : List Entry} {e : Entry} (hid : ID_RE req.id.val = true)
      (hload : loadConfig cfg file = .ok es) (he : entryOf es req.id.val = some e) :
      Judged cfg file (.create req) (.client 409)
  | create_contract {req : NodeCreate} {es : List Entry} (hid : ID_RE req.id.val = true)
      (hload : loadConfig cfg file = .ok es) (he : entryOf es req.id.val = none)
      (hc : ¬ Contract req.entry) : Judged cfg file (.create req) (.client 400)
  | created {req : NodeCreate} {es : List Entry} (hid : ID_RE req.id.val = true)
      (hload : loadConfig cfg file = .ok es) (he : entryOf es req.id.val = none)
      (hc : Contract req.entry) : Judged cfg file (.create req) .success
  | empty {id : String} {req : NodePatch} (hempty : req.Empty) :
      Judged cfg file (.patch id req) (.client 400)
  | patch_config {id : String} {req : NodePatch} {exc : String} (hempty : ¬ req.Empty)
      (hload : loadConfig cfg file = .error exc) : Judged cfg file (.patch id req) .server
  | patch_unknown {id : String} {req : NodePatch} {es : List Entry} (hempty : ¬ req.Empty)
      (hload : loadConfig cfg file = .ok es) (he : entryOf es id = none) :
      Judged cfg file (.patch id req) (.client 404)
  | patch_type {id : String} {req : NodePatch} {es : List Entry} {e : Entry} (hempty : ¬ req.Empty)
      (hload : loadConfig cfg file = .ok es) (he : entryOf es id = some e)
      (htype : (e.field "type").key? = none) : Judged cfg file (.patch id req) .server
  | patch_contract {id : String} {req : NodePatch} {es : List Entry} {e : Entry}
      (hempty : ¬ req.Empty) (hload : loadConfig cfg file = .ok es) (he : entryOf es id = some e)
      (htype : (e.field "type").key? ≠ none) (hc : ¬ Contract (merged e req.modelDump)) :
      Judged cfg file (.patch id req) (.client 400)
  | patched {id : String} {req : NodePatch} {es : List Entry} {e : Entry} (hempty : ¬ req.Empty)
      (hload : loadConfig cfg file = .ok es) (he : entryOf es id = some e)
      (hc : Contract (merged e req.modelDump)) : Judged cfg file (.patch id req) .success

section Checks

variable {cfg : Settings} {file : ConfigFile} {es : List Entry}

theorem loadOr500_error {exc : String} (h : loadConfig cfg file = .error exc) :
    loadOr500 cfg file = .error (.http 500 ("config: " ++ exc)) := by
  rw [loadOr500, h]

theorem any_eq_isSome_entryOf (es : List Entry) (id : String) :
    (es.any fun e ↦ (e.field "id").eqStr id) = (entryOf es id).isSome := by
  rw [Bool.eq_iff_iff, List.find?_isSome, List.any_eq_true]

/-- A type that satisfies a contract has a hash. -/
theorem Contract.key?_type {e : Entry} (h : Contract e) : (e.field "type").key? ≠ none := by
  rw [Entry.field]
  cases h with
  | edge_node type _ => rw [type]; exact Option.some_ne_none _
  | middleware type _ => rw [type]; exact Option.some_ne_none _
  | service type _ _ => rw [type]; exact Option.some_ne_none _
  | tak_server type _ _ => rw [type]; exact Option.some_ne_none _

/-- `_validate_type_specific` lets exactly the contract pass. -/
theorem verdict_validate {e : Entry} (htype : (e.field "type").key? ≠ none) {es : List Entry} :
    (Contract e → (validateTypeSpecific cfg e >>= fun _ ↦ .ok es) = .ok es) ∧
      (¬ Contract e → verdict (validateTypeSpecific cfg e >>= fun _ ↦ Except.ok es) =
        .client 400) := by
  rcases judges_validateTypeSpecific cfg htype with ⟨hv, hc⟩ | ⟨⟨detail, hv⟩, hc⟩
  · rw [hv]
    exact ⟨fun _ ↦ rfl, fun h ↦ absurd hc h⟩
  · rw [hv]
    exact ⟨fun h ↦ absurd h hc, fun _ ↦ rfl⟩

theorem NodeCreate.key?_type_entry (req : NodeCreate) :
    (req.entry.field "type").key? ≠ none := by
  rw [Entry.field, NodeCreate.get?_entry_type]
  exact Option.some_ne_none _

/-- The entries that a create wants written. -/
theorem createNode_of_created {req : NodeCreate} (hid : ID_RE req.id.val = true)
    (hload : loadConfig cfg file = .ok es) (he : entryOf es req.id.val = none)
    (hc : Contract req.entry) : createNode cfg req file = .ok (es ++ [req.entry]) := by
  have hnew : (es.any fun e ↦ (e.field "id").eqStr req.id.val) = false := by
    rw [any_eq_isSome_entryOf, he]
    rfl
  rw [createNode_of_new hload hid hnew]
  exact (verdict_validate req.key?_type_entry).1 hc

theorem key?_type_merged (req : NodePatch) (e : Entry) :
    ((merged e req.modelDump).field "type").key? = (e.field "type").key? := by
  rw [(overwrites_merged req e).field_type]

/-- Writing to the first entry under an id is writing the value that it gets. -/
theorem mutate_eq_of_find? {id : String} {e : Entry} {f : Entry → Entry}
    (he : entryOf es id = some e) : mutate id f es = mutate id (fun _ ↦ f e) es := by
  induction es with
  | nil => rfl
  | cons a es ih =>
      rw [entryOf, List.find?_cons] at he
      rw [mutate, mutate]
      cases ha : (a.field "id").eqStr id with
      | true =>
          rw [ha] at he
          cases he
          rfl
      | false =>
          rw [ha] at he
          rw [if_neg (by simp), if_neg (by simp), ih he]

/-- The entries that a patch wants written. -/
theorem patchOne_of_patched {id : String} {req : NodePatch} {e : Entry} (hempty : ¬ req.Empty)
    (hload : loadConfig cfg file = .ok es) (he : entryOf es id = some e)
    (hc : Contract (merged e req.modelDump)) :
    patchOne cfg id req file = .ok (mutate id (fun _ ↦ merged e req.modelDump) es) := by
  rw [patchOne_of_found hload (isEmpty_modelDump_eq_false hempty) he, mutate_eq_of_find? he,
    Dict.update_eq_right (overwrites_merged req e).order]
  exact (verdict_validate hc.key?_type).1 hc

/-- The checks of the model are those of the handlers. -/
theorem Judged.verdict_eq {r : Request} {v : Verdict} (h : Judged cfg file r v) :
    verdict (r.entries cfg file) = v := by
  cases h with
  | bad_id hid =>
      rw [Request.entries, createNode, validateId, hid]
      rfl
  | create_config hid hload =>
      rw [Request.entries, createNode, validateId, hid, loadOr500_error hload]
      rfl
  | present hid hload he =>
      rw [Request.entries, createNode, validateId, hid, loadOr500_ok hload]
      simp only [bind, Except.bind, if_true, any_eq_isSome_entryOf, he, Option.isSome_some]
      rfl
  | @create_contract req es hid hload he hc =>
      have hnew : (es.any fun e ↦ (e.field "id").eqStr req.id.val) = false := by
        rw [any_eq_isSome_entryOf, he]
        rfl
      rw [Request.entries, createNode_of_new hload hid hnew]
      exact (verdict_validate req.key?_type_entry).2 hc
  | created hid hload he hc =>
      rw [Request.entries, createNode_of_created hid hload he hc]
      rfl
  | @empty id req hempty =>
      rw [Request.entries, patchOne]
      simp only [req.isEmpty_modelDump_iff.mpr hempty]
      rfl
  | patch_config hempty hload =>
      rw [Request.entries, patchOne]
      simp only [isEmpty_modelDump_eq_false hempty, loadOr500_error hload]
      rfl
  | patch_unknown hempty hload he =>
      rw [Request.entries, patchOne]
      simp only [isEmpty_modelDump_eq_false hempty, loadOr500_ok hload, bind, Except.bind, he]
      rfl
  | @patch_type id req es e hempty hload he htype =>
      rw [Request.entries, patchOne_of_found hload (isEmpty_modelDump_eq_false hempty) he,
        validateTypeSpecific_of_unhashable cfg (by rw [key?_type_merged, htype])]
      rfl
  | @patch_contract id req es e hempty hload he htype hc =>
      rw [Request.entries, patchOne_of_found hload (isEmpty_modelDump_eq_false hempty) he]
      exact (verdict_validate (by rwa [key?_type_merged])).2 hc
  | patched hempty hload he hc =>
      rw [Request.entries, patchOne_of_patched hempty hload he hc]
      rfl

theorem exists_judged_create (cfg : Settings) (file : ConfigFile) (req : NodeCreate) :
    ∃ v, Judged cfg file (.create req) v := by
  cases hid : ID_RE req.id.val with
  | false => exact ⟨_, .bad_id hid⟩
  | true =>
      cases hload : loadConfig cfg file with
      | error exc => exact ⟨_, .create_config hid hload⟩
      | ok es =>
          cases he : entryOf es req.id.val with
          | some e => exact ⟨_, .present hid hload he⟩
          | none =>
              by_cases hc : Contract req.entry
              · exact ⟨_, .created hid hload he hc⟩
              · exact ⟨_, .create_contract hid hload he hc⟩

theorem exists_judged_patch (cfg : Settings) (file : ConfigFile) (id : String) (req : NodePatch) :
    ∃ v, Judged cfg file (.patch id req) v := by
  by_cases hempty : req.Empty
  · exact ⟨_, .empty hempty⟩
  · cases hload : loadConfig cfg file with
    | error exc => exact ⟨_, .patch_config hempty hload⟩
    | ok es =>
        cases he : entryOf es id with
        | none => exact ⟨_, .patch_unknown hempty hload he⟩
        | some e =>
            by_cases hc : Contract (merged e req.modelDump)
            · exact ⟨_, .patched hempty hload he hc⟩
            · by_cases htype : (e.field "type").key? = none
              · exact ⟨_, .patch_type hempty hload he htype⟩
              · exact ⟨_, .patch_contract hempty hload he htype hc⟩

/-- The verdict of the handlers is among those of the model. -/
theorem judged_verdict {r : Request} (h : ∃ v, Judged cfg file r v) :
    Judged cfg file r (verdict (r.entries cfg file)) := by
  obtain ⟨v, hv⟩ := h
  rwa [hv.verdict_eq]

end Checks

/-! ## What the requests write -/

theorem keys_excludeNone {dump : List (String × Option Json)} (h : (dump.map Prod.fst).Nodup) :
    (excludeNone dump).keys =
      (dump.filterMap fun (f, v) ↦ v.map fun j ↦ (f, j)).map Prod.fst :=
  Dict.keys_ofList (h.sublist (names_excludeNone dump))

/-- The merge has the keys that the update gives. -/
theorem keys_merged (e : Entry) (r : NodePatch) :
    (merged e r.modelDump).keys = (e.update r.modelDump).keys := by
  rw [merged, r.get?_modelDump_host]
  cases hhost : r.host with
  | none => rfl
  | some host =>
      have hmem : "host" ∈ e.update r.modelDump := by
        rw [Dict.mem_update, Dict.mem_iff_get?, r.get?_modelDump_host, hhost]
        exact Or.inl ⟨_, rfl⟩
      simp only [Option.map_some, Str.json]
      rw [Dict.keys_set, if_pos hmem]

/-- A patch changes nothing when its fields are there already. -/
theorem merged_eq_self_iff (e : Entry) (r : NodePatch) :
    merged e r.modelDump = e ↔ ∀ f v, r.given f = some v → e.get? f = some v := by
  have hover := overwrites_merged r e
  constructor
  · intro h f v hv
    have hget := hover.get?_eq f
    rw [h, hv] at hget
    exact hget
  · intro h
    refine (Dict.eq_of_keys_prefix hover.order fun f ↦ ?_).symm
    rw [hover.get?_eq]
    cases hv : r.given f with
    | none => rfl
    | some v => exact h f v hv

/-! ### Writing to one entry -/

section Mutate

variable {es : List Entry} {id id' : String} {e e' a b : Entry}

theorem mutate_self (he : entryOf es id = some e) : mutate id (fun _ ↦ e) es = es := by
  induction es with
  | nil => rfl
  | cons x es ih =>
      rw [entryOf, List.find?_cons] at he
      rw [mutate]
      cases hx : (x.field "id").eqStr id with
      | true =>
          rw [hx] at he
          cases he
          rw [if_pos rfl]
      | false =>
          rw [hx] at he
          rw [if_neg (by simp), ih he]

theorem mutate_inj (he : entryOf es id = some e) :
    mutate id (fun _ ↦ a) es = mutate id (fun _ ↦ b) es ↔ a = b := by
  refine ⟨fun h ↦ ?_, fun h ↦ by rw [h]⟩
  induction es with
  | nil => cases he
  | cons x es ih =>
      rw [entryOf, List.find?_cons] at he
      rw [mutate, mutate] at h
      cases hx : (x.field "id").eqStr id with
      | true =>
          rw [hx, if_pos rfl, if_pos rfl] at h
          exact (List.cons.inj h).1
      | false =>
          rw [hx] at he
          rw [hx, if_neg (by simp), if_neg (by simp)] at h
          exact ih he (List.cons.inj h).2

theorem mutate_eq_self_iff (he : entryOf es id = some e) :
    mutate id (fun _ ↦ a) es = es ↔ a = e := by
  rw [← mutate_inj he, mutate_self he]

/-- Writing to entries under two ids is the same only when neither changes. -/
theorem mutate_eq_mutate_iff (hid : id ≠ id') (he : entryOf es id = some e)
    (he' : entryOf es id' = some e') :
    mutate id (fun _ ↦ a) es = mutate id' (fun _ ↦ b) es ↔ a = e ∧ b = e' := by
  refine ⟨fun h ↦ ?_, fun ⟨ha, hb⟩ ↦ by rw [ha, hb, mutate_self he, mutate_self he']⟩
  induction es with
  | nil => cases he
  | cons x es ih =>
      rw [entryOf, List.find?_cons] at he he'
      rw [mutate, mutate] at h
      cases hx : (x.field "id").eqStr id with
      | true =>
          have hx' : (x.field "id").eqStr id' = false := by
            rw [Json.eqStr_iff] at hx
            rw [hx]
            exact decide_eq_false hid
          rw [hx] at he
          cases he
          rw [hx'] at he'
          rw [hx, hx', if_pos rfl, if_neg (by simp)] at h
          obtain ⟨hax, hes⟩ := List.cons.inj h
          exact ⟨hax, (mutate_eq_self_iff he').mp hes.symm⟩
      | false =>
          rw [hx] at he
          cases hx' : (x.field "id").eqStr id' with
          | true =>
              rw [hx'] at he'
              cases he'
              rw [hx, hx', if_neg (by simp), if_pos rfl] at h
              obtain ⟨hxb, hes⟩ := List.cons.inj h
              exact ⟨(mutate_eq_self_iff he).mp hes, hxb.symm⟩
          | false =>
              rw [hx'] at he'
              rw [hx, hx', if_neg (by simp), if_neg (by simp)] at h
              exact ih he he' (List.cons.inj h).2

end Mutate

/-! ## What is left of the file -/

/-- The entry under an id has already the values that a patch gives to some of its fields. -/
def AlreadyHas (cfg : Settings) (file : ConfigFile) (id : String) (req : NodePatch)
    (fields : String → Prop) : Prop :=
  ∃ es e, loadConfig cfg file = .ok es ∧ entryOf es id = some e ∧
    ∀ f, fields f → ∀ v, req.given f = some v → e.get? f = some v

/-- A request leaves the file as it is: it is turned away, or the write fails before it has
done anything, or the very same document is written again. -/
inductive Keeps (cfg : Settings) (w : Write) (file : ConfigFile) : Request → Prop where
  | refused {r : Request} {v : Verdict} (h : Judged cfg file r v) (hv : v ≠ .success) :
      Keeps cfg w file r
  | failed {r : Request} {exc : String} (hw : w = .failed file exc) : Keeps cfg w file r
  | rewritten {id : String} {req : NodePatch} {es : List Entry}
      (h : Judged cfg file (.patch id req) .success) (hw : w = .done)
      (hload : loadConfig cfg file = .ok es) (hfile : file = dumped es)
      (has : AlreadyHas cfg file id req fun _ ↦ True) : Keeps cfg w file (.patch id req)

section Files

variable {cfg : Settings} {file : ConfigFile} {es es' : List Entry} {w : Write} {r d f : Request}

theorem dumped_inj : dumped es = dumped es' ↔ es = es' := by
  refine ⟨fun h ↦ ?_, fun h ↦ by rw [h]⟩
  have hinj : Function.Injective fun e : Entry ↦ Json.obj e.items := fun e e' he ↦
    Dict.ext (Json.obj.inj he)
  exact hinj.list_map (Json.arr.inj (ConfigFile.document.inj h))

/-- The entries of a request that passes the checks. -/
inductive Writes (cfg : Settings) (file : ConfigFile) : Request → List Entry → List Entry → Prop
  where
  | create {req : NodeCreate} {es : List Entry} (he : entryOf es req.id.val = none) :
      Writes cfg file (.create req) es (es ++ [req.entry])
  | patch {id : String} {req : NodePatch} {es : List Entry} {e : Entry}
      (he : entryOf es id = some e) :
      Writes cfg file (.patch id req) es (mutate id (fun _ ↦ merged e req.modelDump) es)

theorem Judged.writes (h : Judged cfg file r .success) :
    ∃ es es', loadConfig cfg file = .ok es ∧ r.entries cfg file = .ok es' ∧
      Writes cfg file r es es' ∧ loadConfig cfg (dumped es') = .ok es' := by
  cases h with
  | @created req es hid hload he hc =>
      have hm := models_ofEntries hload
      have hnew : req.entry.key ∉ Registry.ofEntries (loadConfig_spec hload).1 := by
        rw [NodeCreate.key_entry, ← Dict.get?_eq_none_iff, ← hm.find?_eq_get?]
        exact he
      exact ⟨es, _, hload, createNode_of_created hid hload he hc, .create he,
        (hm.append req.sound_entry (Dict.mem_setdefault.mpr (Or.inl rfl)) hnew).loadConfig_dumped
          cfg⟩
  | @patched id req es e hempty hload he hc =>
      have hm := models_ofEntries hload
      have hmem := List.mem_of_find?_eq_some he
      have hover := overwrites_merged req e
      have hget : (Registry.ofEntries (loadConfig_spec hload).1).get? (.str id) = some e := by
        rw [← hm.find?_eq_get?]
        exact he
      have hm' := @Models.mutate _ _ hm _ _ hget (fun _ ↦ merged e req.modelDump)
        (hover.sound (hm.sound e hmem)) (hover.mem (hm.described e hmem)) hover.key_eq
      exact ⟨es, _, hload, patchOne_of_patched hempty hload he hc, .patch he,
        hm'.loadConfig_dumped cfg⟩

theorem Judged.unique {v v' : Verdict} (h : Judged cfg file r v) (h' : Judged cfg file r v') :
    v = v' := by
  rw [← h.verdict_eq, h'.verdict_eq]

theorem verdict_error_ne (fl : Failure) : verdict (.error fl : Except Failure (List Entry)) ≠
    .success := by
  rw [verdict]
  split <;> exact nofun

/-- A write that fails leaves the file as it is when that is what it leaves. -/
theorem keeps_failed_iff (hv : Judged cfg file r .success) {left : ConfigFile} {exc : String} :
    Keeps cfg (.failed left exc) file r ↔ left = file := by
  constructor
  · intro h
    cases h with
    | refused h hne => exact absurd (h.unique hv) hne
    | failed hw => cases hw; rfl
    | rewritten _ hw => cases hw
  · rintro rfl
    exact .failed rfl

/-- A write that is done leaves the file as it is when it writes the same document. -/
theorem keeps_done_iff (hv : Judged cfg file r .success) (hload : loadConfig cfg file = .ok es)
    (hwrites : Writes cfg file r es es') (hback : loadConfig cfg (dumped es') = .ok es') :
    Keeps cfg .done file r ↔ dumped es' = file := by
  constructor
  · intro h
    cases h with
    | refused h hne => exact absurd (h.unique hv) hne
    | failed hw => cases hw
    | rewritten _ _ hload' hfile has =>
        obtain ⟨_, e, hload'', he, hall⟩ := has
        rw [hload] at hload' hload''
        cases hload'
        cases hload''
        cases hwrites with
        | patch he' =>
            rw [he] at he'
            cases he'
            rw [(merged_eq_self_iff e _).mpr fun f v ↦ hall f trivial v, mutate_self he]
            exact hfile.symm
  · intro h
    have hes : es = es' := by
      rw [← h, hback] at hload
      cases hload
      rfl
    cases hwrites with
    | create he =>
        have hlength := congrArg List.length hes
        simp at hlength
    | @patch id req es e he =>
        have hsame := (mutate_eq_self_iff he).mp hes.symm
        refine .rewritten hv rfl hload (hes ▸ h.symm) ⟨es, e, hload, he, fun f _ ↦ ?_⟩
        exact (merged_eq_self_iff e req).mp hsame f

/-- Which requests leave the file as it is. -/
theorem serve_eq_file_iff (hr : ∃ v, Judged cfg file r v) :
    (serve cfg r w file).2 = file ↔ Keeps cfg w file r := by
  have hv := judged_verdict hr
  cases hentries : r.entries cfg file with
  | error fl =>
      rw [hentries] at hv
      rw [serve_error hentries]
      exact iff_of_true rfl (.refused hv (verdict_error_ne fl))
  | ok es₁ =>
      rw [hentries] at hv
      obtain ⟨es, es', hload, hent, hwrites, hback⟩ := hv.writes
      rw [hentries] at hent
      cases hent
      cases w with
      | failed left exc =>
          rw [keeps_failed_iff hv, serve, hentries]
          rfl
      | done =>
          rw [serve_ok hentries, keeps_done_iff hv hload hwrites hback]

end Files

end Nodes

end SensorFusion
