import SensorFusion.Nodes.Judged
import SensorFusion.Ui.NodesProxy

/-!
# When the proxy is transparent

A create or a patch that is sent through the user interface, beside the same body sent to
the nodes service.  `FilesAgree` says when the two leave the same file, and `Transparent` lists
the cases in which nobody can tell the two ways apart.  The one that fails by a slip is that
of a body which gives a database field.
-/

namespace SensorFusion

open Nodes

namespace Nodes

/-! ## What is forwarded -/

/-- What the shared part of a dump holds. -/
theorem get?_excludeNone_shared {dump shared db : List (String × Option Json)}
    (hdump : dump = shared ++ db) (h : (dump.map Prod.fst).Nodup) (f : String) :
    (excludeNone shared).get? f =
      if f ∈ db.map Prod.fst then none else (excludeNone dump).get? f := by
  subst hdump
  have hs : (shared.map Prod.fst).Nodup := by
    rw [List.map_append] at h
    exact h.of_append_left
  rw [get?_excludeNone hs, get?_excludeNone h, List.lookup_append]
  by_cases hf : f ∈ db.map Prod.fst
  · have hnone : shared.lookup f = none := by
      rw [List.map_append, List.nodup_append] at h
      refine List.lookup_eq_none_iff.mpr fun a ha ↦ ?_
      exact bne_iff_ne.mpr fun hfa ↦
        h.2.2 a.1 (List.mem_map.mpr ⟨a, ha, rfl⟩) f hf hfa.symm
    rw [if_pos hf, hnone]
    rfl
  · have hnone : db.lookup f = none := by
      refine List.lookup_eq_none_iff.mpr fun a ha ↦ ?_
      exact bne_iff_ne.mpr fun hfa ↦ hf (List.mem_map.mpr ⟨a, ha, hfa.symm⟩)
    rw [if_neg hf, hnone, Option.or_none]

theorem keys_excludeNone_shared {dump shared db : List (String × Option Json)}
    (hdump : dump = shared ++ db) (h : (dump.map Prod.fst).Nodup) :
    (excludeNone shared).keys <+: (excludeNone dump).keys := by
  subst hdump
  have hs : (shared.map Prod.fst).Nodup := by
    rw [List.map_append] at h
    exact h.of_append_left
  rw [keys_excludeNone hs, keys_excludeNone h, List.filterMap_append, List.map_append]
  exact List.prefix_append _ _

/-- What is forwarded of a body has its values, without the database. -/
theorem NodeCreate.get?_forwarded (r : NodeCreate) (f : String) :
    r.forwarded.modelDump.get? f = if f ∈ database then none else r.modelDump.get? f := by
  rw [← r.modelDump_shared]
  exact get?_excludeNone_shared r.dump_eq r.nodup_dump f

theorem NodePatch.get?_forwarded (r : NodePatch) (f : String) :
    r.forwarded.modelDump.get? f = if f ∈ database then none else r.modelDump.get? f := by
  rw [← r.modelDump_shared]
  exact get?_excludeNone_shared r.dump_eq r.nodup_dump f

theorem NodeCreate.keys_forwarded (r : NodeCreate) :
    r.forwarded.modelDump.keys <+: r.modelDump.keys := by
  rw [← r.modelDump_shared]
  exact keys_excludeNone_shared r.dump_eq r.nodup_dump

theorem NodePatch.keys_forwarded (r : NodePatch) :
    r.forwarded.modelDump.keys <+: r.modelDump.keys := by
  rw [← r.modelDump_shared]
  exact keys_excludeNone_shared r.dump_eq r.nodup_dump

theorem NodePatch.given_forwarded (r : NodePatch) (f : String) :
    r.forwarded.given f = if f ∈ database then none else r.given f := by
  rw [given, given]
  by_cases hf : f = "host"
  · subst hf
    rfl
  · rw [if_neg hf, if_neg hf, r.get?_forwarded]

/-- The entry that a create describes is the one that is forwarded just in case it gives no
database field. -/
theorem NodeCreate.entry_forwarded_iff (r : NodeCreate) :
    r.entry = r.forwarded.entry ↔ ∀ f ∈ database, r.modelDump.get? f = none := by
  constructor
  · intro h f hf
    have hne : f ≠ "description" := fun heq ↦ absurd (heq ▸ hf) (by decide)
    have hget := congrArg (Dict.get? · f) h
    simp only [entry, Entry.describe, Dict.get?_setdefault_ne _ _ hne] at hget
    rw [hget, r.get?_forwarded, if_pos hf]
  · intro h
    have hdump : r.forwarded.modelDump = r.modelDump := by
      refine Dict.eq_of_keys_prefix r.keys_forwarded fun f ↦ ?_
      rw [r.get?_forwarded]
      by_cases hf : f ∈ database
      · rw [if_pos hf, h f hf]
      · rw [if_neg hf]
    rw [entry, entry, hdump]

/-- What is forwarded of a patch does the same as the patch when the database fields are
there already. -/
theorem merged_eq_forwarded_iff (e : Entry) (r : NodePatch) :
    merged e r.modelDump = merged e r.forwarded.modelDump ↔
      ∀ f ∈ database, ∀ v, r.given f = some v → e.get? f = some v := by
  have hover := overwrites_merged r e
  have hfwd := overwrites_merged r.forwarded e
  constructor
  · intro h f hf v hv
    have hget := hover.get?_eq f
    rw [h, hfwd.get?_eq, r.given_forwarded, if_pos hf, hv] at hget
    exact hget
  · intro h
    have hkeys : (merged e r.forwarded.modelDump).keys <+: (merged e r.modelDump).keys := by
      rw [keys_merged, keys_merged, Dict.keys_update, Dict.keys_update]
      exact (List.prefix_append_right_inj _).mpr (r.keys_forwarded.filter _)
    refine (Dict.eq_of_keys_prefix hkeys fun f ↦ ?_).symm
    rw [hover.get?_eq, hfwd.get?_eq, r.given_forwarded]
    by_cases hf : f ∈ database
    · rw [if_pos hf]
      cases hv : r.given f with
      | none => rfl
      | some v => exact h f hf v hv
    · rw [if_neg hf]

/-- A request and what is forwarded of it write the same document. -/
def SameWrites (cfg : Settings) (file : ConfigFile) : Request → Request → Prop
  | .create req, .create _ => ∀ f ∈ database, req.modelDump.get? f = none
  | .patch id req, .patch id' req' =>
      if id = id' then AlreadyHas cfg file id req (· ∈ database)
      else (AlreadyHas cfg file id req fun _ ↦ True) ∧ AlreadyHas cfg file id' req' fun _ ↦ True
  | _, _ => False

/-- Two requests leave the same file. -/
def FilesAgree (cfg : Settings) (w : Write) (file : ConfigFile) (d f : Request) : Prop :=
  (Keeps cfg w file d ∧ Keeps cfg w file f) ∨
    (Judged cfg file d .success ∧ Judged cfg file f .success ∧
      ((∃ left exc, w = .failed left exc) ∨ SameWrites cfg file d f))

/-- What the nodes service is sent of a request by the user interface, if the request can
be sent. -/
def Request.forwarded (carry : String → Except String String) : Request → Except String Request
  | .create req => .ok (.create req.forwarded)
  | .patch id req => (carry id).map fun id ↦ .patch id req.forwarded
  | .delete id => (carry id).map .delete

section Files

variable {cfg : Settings} {file : ConfigFile} {es : List Entry} {w : Write} {d f : Request}

/-- Which requests write the same document as what is forwarded of them. -/
theorem writes_eq_iff {carry : String → Except String String} {es₁ es₂ : List Entry}
    (hload : loadConfig cfg file = .ok es) (hd : Writes cfg file d es es₁)
    (hf : Writes cfg file f es es₂) (hfwd : d.forwarded carry = .ok f) :
    es₁ = es₂ ↔ SameWrites cfg file d f := by
  cases hd with
  | create he =>
      cases hfwd
      cases hf with
      | create he' =>
          rw [List.append_cancel_left_eq, List.cons.injEq, and_iff_left rfl,
            NodeCreate.entry_forwarded_iff, SameWrites]
  | @patch id req es e he =>
      obtain ⟨id', -, rfl⟩ := map_eq_ok.mp hfwd
      cases hf with
      | @patch _ _ _ e' he' =>
          rw [SameWrites]
          by_cases hid : id = id'
          · subst hid
            rw [he] at he'
            cases he'
            rw [if_pos rfl, mutate_inj he, merged_eq_forwarded_iff]
            constructor
            · intro h
              exact ⟨es, e, hload, he, h⟩
            · rintro ⟨_, _, hload', he', h⟩
              rw [hload] at hload'
              cases hload'
              rw [he] at he'
              cases he'
              exact h
          · rw [if_neg hid, mutate_eq_mutate_iff hid he he', merged_eq_self_iff,
              merged_eq_self_iff]
            constructor
            · rintro ⟨h, h'⟩
              exact ⟨⟨es, e, hload, he, fun f _ ↦ h f⟩, ⟨es, e', hload, he', fun f _ ↦ h' f⟩⟩
            · rintro ⟨⟨_, _, hl, hx, h⟩, ⟨_, _, hl', hx', h'⟩⟩
              rw [hload] at hl hl'
              cases hl
              cases hl'
              rw [he] at hx
              rw [he'] at hx'
              cases hx
              cases hx'
              exact ⟨fun f ↦ h f trivial, fun f ↦ h' f trivial⟩

/-- When a request and what is forwarded of it leave the same file. -/
theorem serve_eq_serve_iff {carry : String → Except String String}
    (hd : ∃ v, Judged cfg file d v) (hf : ∃ v, Judged cfg file f v)
    (hfwd : d.forwarded carry = .ok f) :
    (serve cfg d w file).2 = (serve cfg f w file).2 ↔ FilesAgree cfg w file d f := by
  have hkd := serve_eq_file_iff (w := w) hd
  have hkf := serve_eq_file_iff (w := w) hf
  have hvd := judged_verdict hd
  have hvf := judged_verdict hf
  cases hentd : d.entries cfg file with
  | error fl =>
      rw [hentd] at hvd
      have hnot : ¬ Judged cfg file d .success := fun h ↦ verdict_error_ne fl (hvd.unique h)
      rw [serve_error hentd, eq_comm, hkf, FilesAgree]
      constructor
      · intro h
        exact Or.inl ⟨.refused hvd (verdict_error_ne fl), h⟩
      · rintro (⟨-, h⟩ | ⟨h, -⟩)
        exacts [h, absurd h hnot]
  | ok es₁ =>
      cases hentf : f.entries cfg file with
      | error fl =>
          rw [hentf] at hvf
          have hnot : ¬ Judged cfg file f .success := fun h ↦ verdict_error_ne fl (hvf.unique h)
          rw [serve_error hentf, hkd, FilesAgree]
          constructor
          · intro h
            exact Or.inl ⟨h, .refused hvf (verdict_error_ne fl)⟩
          · rintro (⟨h, -⟩ | ⟨-, h, -⟩)
            exacts [h, absurd h hnot]
      | ok es₂ =>
          rw [hentd] at hvd
          rw [hentf] at hvf
          cases w with
          | failed left exc =>
              refine iff_of_true ?_ (Or.inr ⟨hvd, hvf, Or.inl ⟨left, exc, rfl⟩⟩)
              rw [serve, serve, hentd, hentf]
              rfl
          | done =>
              obtain ⟨es, _, hload, hent, hwd, -⟩ := hvd.writes
              obtain ⟨_, _, hload', hent', hwf, -⟩ := hvf.writes
              rw [hload] at hload'
              rw [hentd] at hent
              rw [hentf] at hent'
              cases hload'
              cases hent
              cases hent'
              have hsame := writes_eq_iff hload hwd hwf hfwd
              constructor
              · intro h
                rw [serve_ok hentd, serve_ok hentf] at h
                exact Or.inr ⟨hvd, hvf, Or.inr (hsame.mp (dumped_inj.mp h))⟩
              · rintro (⟨h, h'⟩ | ⟨-, -, ⟨_, _, hw⟩ | h⟩)
                · rw [hkd.mpr h, hkf.mpr h']
                · cases hw
                · rw [serve_ok hentd, serve_ok hentf, hsame.mpr h]

end Files

end Nodes

namespace Ui

/-! ## The two ways -/

/-- A call that adds or edits a node, with its body. -/
inductive Call where
  | create (body : Entry)
  | patch (node_id : String) (body : Entry)

/-- The request that the nodes service reads from the body, if it accepts it. -/
def Call.request? (py : Pydantic) : Call → Option Request
  | .create body => (Nodes.NodeCreate.ofJson py body).map .create
  | .patch node_id body => (Nodes.NodePatch.ofJson py body).map (.patch node_id)

/-- The call sent to the nodes service. -/
def Call.direct (py : Pydantic) (cfg : Settings) (w : Write) (file : ConfigFile) :
    Call → Except Failure Unit × ConfigFile
  | .create body => postNodes py cfg body w file
  | .patch node_id body => patchNodes py cfg node_id body w file

/-- The call sent to the user interface. -/
def Call.proxied (py : Pydantic) (cfg : Settings) (carry : String → Except String String)
    (x : Exchange) (w : Write) (file : ConfigFile) : Call → Except Failure Unit × ConfigFile
  | .create body => createNode py cfg body x w file
  | .patch node_id body => patchNode py cfg carry node_id body x w file

/-- A patch of which nothing is left to forward. -/
def Emptied : Request → Prop
  | .patch _ req => req.forwarded.Empty
  | _ => False

/-- The cases in which a request does the same through the user interface. -/
inductive Transparent (cfg : Settings) (carry : String → Except String String) (x : Exchange)
    (w : Write) (file : ConfigFile) (d : Request) : Prop where
  | emptied (hd : Emptied d) (hj : Judged cfg file d (.client 400))
  | answered {f : Request} {v v' : Verdict} (hd : ¬ Emptied d) (hf : d.forwarded carry = .ok f)
      (hx : x = .answered) (hj : Judged cfg file d v) (hj' : Judged cfg file f v')
      (hv : v.after w = v'.after w) (files : FilesAgree cfg w file d f)
  | processed {f : Request} {v : Verdict} {exc : String} (hd : ¬ Emptied d)
      (hf : d.forwarded carry = .ok f) (hx : x = .lost true exc) (hj : Judged cfg file d v)
      (hv : v.after w = .server) (files : FilesAgree cfg w file d f)
  | unprocessed {v : Verdict} (hd : ¬ Emptied d)
      (hx : (∃ exc, d.forwarded carry = .error exc) ∨ ∃ exc, x = .lost false exc)
      (hj : Judged cfg file d v) (hv : v.after w = .server) (keeps : Keeps cfg w file d)

section Ways

variable {py : Pydantic} {cfg : Settings} {carry : String → Except String String} {x : Exchange}
  {w : Write} {file : ConfigFile} {call : Call} {d f : Request}

theorem Call.request?_eq_some (h : call.request? py = some d) :
    (∃ body req, call = .create body ∧ d = .create req ∧
        Nodes.NodeCreate.ofJson py body = some req) ∨
      ∃ id body req, call = .patch id body ∧ d = .patch id req ∧
        Nodes.NodePatch.ofJson py body = some req := by
  cases call with
  | create body =>
      obtain ⟨req, hreq, rfl⟩ := Option.map_eq_some_iff.mp h
      exact Or.inl ⟨body, req, rfl, rfl, hreq⟩
  | patch id body =>
      obtain ⟨req, hreq, rfl⟩ := Option.map_eq_some_iff.mp h
      exact Or.inr ⟨id, body, req, rfl, rfl, hreq⟩

theorem direct_eq (h : call.request? py = some d) :
    call.direct py cfg w file = serve cfg d w file := by
  rcases Call.request?_eq_some h with ⟨body, req, rfl, rfl, hreq⟩ | ⟨id, body, req, rfl, rfl, hreq⟩
  · rw [Call.direct, postNodes, hreq]
  · rw [Call.direct, patchNodes, hreq]

theorem exists_judged (h : call.request? py = some d) : ∃ v, Judged cfg file d v := by
  rcases Call.request?_eq_some h with ⟨body, req, rfl, rfl, hreq⟩ | ⟨id, body, req, rfl, rfl, hreq⟩
  · exact exists_judged_create cfg file req
  · exact exists_judged_patch cfg file id req

theorem exists_judged_forwarded (h : call.request? py = some d) (hf : d.forwarded carry = .ok f) :
    ∃ v, Judged cfg file f v := by
  rcases Call.request?_eq_some h with ⟨body, req, rfl, rfl, hreq⟩ | ⟨id, body, req, rfl, rfl, hreq⟩
  · cases hf
    exact exists_judged_create cfg file _
  · obtain ⟨id', -, rfl⟩ := map_eq_ok.mp hf
    exact exists_judged_patch cfg file id' _

/-- A patch that gives no shared field is turned away by the user interface. -/
theorem proxied_of_emptied (h : call.request? py = some d) (hd : Emptied d) :
    call.proxied py cfg carry x w file =
      (.error (.http 400 "provide at least one field to update"), file) := by
  rcases Call.request?_eq_some h with ⟨body, req, rfl, rfl, hreq⟩ | ⟨id, body, req, rfl, rfl, hreq⟩
  · exact hd.elim
  · rw [Call.proxied, patchNode, NodePatch.ofJson_shared hreq]
    dsimp only
    rw [req.modelDump_shared, if_pos (req.forwarded.isEmpty_modelDump_iff.mpr hd)]

theorem not_isEmpty_of_not_emptied {id : String} {req : Nodes.NodePatch}
    (hd : ¬ Emptied (.patch id req)) : ¬ req.forwarded.modelDump.items.isEmpty = true :=
  req.forwarded.isEmpty_modelDump_iff.not.mpr hd

/-- A request whose URL cannot be sent. -/
theorem proxied_of_error {exc : String} (h : call.request? py = some d) (hd : ¬ Emptied d)
    (hf : d.forwarded carry = .error exc) :
    call.proxied py cfg carry x w file = (.error (badGateway exc), file) := by
  rcases Call.request?_eq_some h with ⟨body, req, rfl, rfl, hreq⟩ | ⟨id, body, req, rfl, rfl, hreq⟩
  · cases hf
  · rw [Call.proxied, patchNode, NodePatch.ofJson_shared hreq]
    dsimp only
    rw [req.modelDump_shared, if_neg (not_isEmpty_of_not_emptied hd)]
    cases hcarry : carry id with
    | error exc' =>
        rw [Request.forwarded, hcarry] at hf
        cases hf
        rfl
    | ok id' =>
        rw [Request.forwarded, hcarry] at hf
        cases hf

/-- A request that is sent reaches the nodes service without its database fields. -/
theorem proxied_of_ok (h : call.request? py = some d) (hd : ¬ Emptied d)
    (hf : d.forwarded carry = .ok f) :
    call.proxied py cfg carry x w file = send x w file fun w file ↦ serve cfg f w file := by
  rcases Call.request?_eq_some h with ⟨body, req, rfl, rfl, hreq⟩ | ⟨id, body, req, rfl, rfl, hreq⟩
  · cases hf
    rw [Call.proxied, createNode, NodeCreate.ofJson_shared hreq]
    dsimp only
    rw [req.modelDump_shared]
    refine congrArg (send x w file) ?_
    funext w file
    rw [postNodes, NodeCreate.ofJson_modelDump]
  · obtain ⟨id', hcarry, rfl⟩ := map_eq_ok.mp hf
    rw [Call.proxied, patchNode, NodePatch.ofJson_shared hreq]
    dsimp only
    rw [req.modelDump_shared, if_neg (not_isEmpty_of_not_emptied hd), hcarry]
    refine congrArg (send x w file) ?_
    funext w file
    rw [patchNodes, NodePatch.ofJson_modelDump]

/-- The proxy passes the verdict of an answer on. -/
theorem verdict_mapError (a : Except Failure Unit) :
    verdict (a.mapError proxyError) = verdict a := by
  cases a with
  | ok _ => rfl
  | error fl =>
      cases fl with
      | http status_code detail => rfl
      | exception text => rfl

theorem Verdict.after_eq_client_iff {v : Verdict} {status : ℕ} :
    v.after w = .client status ↔ v = .client status := by
  cases v with
  | success => cases w <;> exact ⟨nofun, nofun⟩
  | client _ => rfl
  | server => rfl

/-! What each way of going through the user interface leaves of `Transparent`. -/

theorem transparent_of_emptied (hd : ∃ v, Judged cfg file d v) (he : Emptied d) :
    Transparent cfg carry x w file d ↔
      Keeps cfg w file d ∧ verdict (d.entries cfg file) = .client 400 := by
  constructor
  · intro ht
    cases ht with
    | emptied _ hj => exact ⟨.refused hj nofun, hj.verdict_eq⟩
    | answered hne => exact absurd he hne
    | processed hne => exact absurd he hne
    | unprocessed hne => exact absurd he hne
  · rintro ⟨-, hv⟩
    exact .emptied he (hv ▸ judged_verdict hd)

/-- A request that does not reach the nodes service. -/
theorem transparent_of_unprocessed (hd : ∃ v, Judged cfg file d v) (he : ¬ Emptied d)
    (hx : (∃ exc, d.forwarded carry = .error exc) ∨ ∃ exc, x = .lost false exc) :
    Transparent cfg carry x w file d ↔
      Keeps cfg w file d ∧ (verdict (d.entries cfg file)).after w = .server := by
  constructor
  · intro ht
    cases ht with
    | emptied he' => exact absurd he' he
    | answered _ hf hx' =>
        rcases hx with ⟨_, hf'⟩ | ⟨_, rfl⟩
        · rw [hf] at hf'
          cases hf'
        · cases hx'
    | processed _ hf hx' =>
        rcases hx with ⟨_, hf'⟩ | ⟨_, rfl⟩
        · rw [hf] at hf'
          cases hf'
        · cases hx'
    | unprocessed _ _ hj hv hk => exact ⟨hk, by rw [hj.verdict_eq, hv]⟩
  · rintro ⟨hk, hv⟩
    exact .unprocessed he hx (judged_verdict hd) hv hk

/-- A request that the nodes service answers. -/
theorem transparent_of_answered (hd : ∃ v, Judged cfg file d v) (he : ¬ Emptied d)
    (hf : d.forwarded carry = .ok f) (hjf : ∃ v, Judged cfg file f v) :
    Transparent cfg carry .answered w file d ↔ FilesAgree cfg w file d f ∧
      (verdict (d.entries cfg file)).after w = (verdict (f.entries cfg file)).after w := by
  constructor
  · intro ht
    cases ht with
    | emptied he' => exact absurd he' he
    | answered _ hf' _ hj hj' hv hagree =>
        rw [hf] at hf'
        cases hf'
        exact ⟨hagree, by rw [hj.verdict_eq, hj'.verdict_eq, hv]⟩
    | processed _ _ hx => cases hx
    | unprocessed _ hx =>
        rcases hx with ⟨_, hf'⟩ | ⟨_, hx⟩
        · rw [hf] at hf'
          cases hf'
        · cases hx
  · rintro ⟨hagree, hv⟩
    exact .answered he hf rfl (judged_verdict hd) (judged_verdict hjf) hv hagree

/-- A request that is handled, the answer to which is lost. -/
theorem transparent_of_processed {exc : String} (hd : ∃ v, Judged cfg file d v)
    (he : ¬ Emptied d) (hf : d.forwarded carry = .ok f) :
    Transparent cfg carry (.lost true exc) w file d ↔ FilesAgree cfg w file d f ∧
      (verdict (d.entries cfg file)).after w = .server := by
  constructor
  · intro ht
    cases ht with
    | emptied he' => exact absurd he' he
    | answered _ _ hx => cases hx
    | processed _ hf' _ hj hv hagree =>
        rw [hf] at hf'
        cases hf'
        exact ⟨hagree, by rw [hj.verdict_eq, hv]⟩
    | unprocessed _ hx =>
        rcases hx with ⟨_, hf'⟩ | ⟨_, hx⟩
        · rw [hf] at hf'
          cases hf'
        · cases hx
  · rintro ⟨hagree, hv⟩
    exact .processed he hf rfl (judged_verdict hd) hv hagree

/-- A body that the nodes service accepts does the same through the user interface in
exactly these cases. -/
theorem sameEffect_iff (h : call.request? py = some d) :
    SameEffect (call.direct py cfg w file) (call.proxied py cfg carry x w file) ↔
      Transparent cfg carry x w file d := by
  have hd : ∃ v, Judged cfg file d v := exists_judged h
  have hkeeps := serve_eq_file_iff (w := w) hd
  rw [direct_eq h, SameEffect, verdict_serve]
  by_cases he : Emptied d
  · rw [proxied_of_emptied h he, hkeeps, transparent_of_emptied hd he]
    show _ ∧ _ = Verdict.client 400 ↔ _
    rw [Verdict.after_eq_client_iff]
  · cases hf : d.forwarded carry with
    | error exc =>
        rw [proxied_of_error h he hf, hkeeps,
          transparent_of_unprocessed hd he (Or.inl ⟨exc, hf⟩)]
        exact Iff.rfl
    | ok f =>
        have hjf : ∃ v, Judged cfg file f v := exists_judged_forwarded h hf
        have hfiles := serve_eq_serve_iff (w := w) hd hjf hf
        rw [proxied_of_ok h he hf]
        cases x with
        | answered =>
            rw [transparent_of_answered hd he hf hjf, ← hfiles]
            show _ = (serve cfg f w file).2 ∧ _ = verdict ((serve cfg f w file).1.mapError _) ↔ _
            rw [verdict_mapError, verdict_serve]
        | lost processed exc =>
            cases processed with
            | true =>
                rw [transparent_of_processed hd he hf, ← hfiles]
                exact Iff.rfl
            | false =>
                rw [transparent_of_unprocessed hd he (Or.inr ⟨exc, rfl⟩), ← hkeeps]
                exact Iff.rfl

end Ways

/-! ## A node with a database -/

/-- The conversions without any leniency. -/
def strict : Pydantic where
  int
    | .int n => some n
    | _ => none
  bool
    | .bool b => some b
    | _ => none
  int_int _ := rfl
  bool_bool _ := rfl

/-- The body of a middleware. -/
def middleware : Entry :=
  Dict.ofList [("id", .str "mw-1"), ("type", .str "middleware"), ("name", .str "Apex"),
    ("host", .str "10.0.0.1"), ("port", .int 5020)]

/-- The request that the nodes service reads from it. -/
def middlewareRequest : Nodes.NodeCreate :=
  { Nodes.secondNode with
    id := ⟨"mw-1", by decide⟩, name := ⟨"Apex", by decide⟩, host := ⟨"10.0.0.1", by decide⟩ }

theorem sameEffect_iff_middleware :
    SameEffect (Call.direct strict defaults .done (.document (.arr [])) (.create middleware))
      (Call.proxied strict defaults .ok .answered .done (.document (.arr []))
        (.create middleware)) := by
  have hj : Judged defaults (.document (.arr [])) (.create middlewareRequest) .success :=
    .created (by decide) rfl rfl (.middleware rfl (by decide))
  refine (sameEffect_iff (d := .create middlewareRequest) rfl).mpr
    (.answered id rfl rfl hj hj rfl (Or.inr ⟨hj, hj, Or.inr fun f hf ↦ ?_⟩))
  simp only [database, List.mem_cons, List.not_mem_nil, or_false] at hf
  rcases hf with rfl | rfl | rfl | rfl
  all_goals rfl

/-- The number of fields of the only node. -/
def fieldCount : ConfigFile → ℕ
  | .document (.arr [.obj members]) => members.length
  | _ => 0

/-- A node that is added through the user interface loses its database user. -/
theorem db_user_dropped :
    ∃ (body : Entry) (d : Request), (Call.create body).request? strict = some d ∧
      ¬ SameEffect
        (Call.direct strict defaults .done (.document (.arr [])) (.create body))
        (Call.proxied strict defaults .ok .answered .done (.document (.arr []))
          (.create body)) := by
  refine ⟨middleware.set "db_user" (.str "apex"),
    .create { middlewareRequest with db_user := some ⟨"apex", by decide⟩ }, rfl, ?_⟩
  rintro ⟨hfile, -⟩
  have hcount := congrArg fieldCount hfile
  exact absurd hcount (by decide +kernel)

end Ui

end SensorFusion
