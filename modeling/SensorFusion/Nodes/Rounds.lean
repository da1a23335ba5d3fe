import Mathlib.Data.List.Basic
import SensorFusion.Nodes.Probes
import SensorFusion.Nodes.Refinement

/-!
# Refresh rounds

`_refresh_round` reads the configuration, waits for two fetches and for the probes,
and then replaces the whole of `_STATE`.  The event loop may run anything else while
it waits, so the service is a machine whose labels are a round being started, a
request being served up to the start of its own round, and a waiting round being
given what it waits for.  Everything between two waits is one step.

The poll loop and `POST /nodes/refresh` start a round in the same way, and the
poll loop never has two in flight; `refresh` stands for both.
-/

namespace SensorFusion.Nodes

/-! ## One round -/

/-- What an entry shows when no probe is registered for its type. -/
def unknownExtras (cfg : Settings) (type_name : Json) : Extras :=
  Dict.ofList
    [("severity", .str "unknown"), ("ok", .bool false),
     ("status", .obj [("ok", .bool false), ("severity", .str "unknown"),
       ("error", .str ("no probe registered for type " ++ cfg.repr type_name))])]

/-- What an entry shows when its probe raised. -/
def failExtras (exc : String) : Extras :=
  Dict.ofList
    [("severity", .str "fail"), ("ok", .bool false),
     ("status", .obj [("ok", .bool false), ("severity", .str "fail"),
       ("error", .str ("probe error: " ++ exc))])]

/-- The start of an entry's probe.  Only `for_type` is outside the `try`. -/
def startProbe (cfg : Settings) (ctx : Ctx) (entry : Entry) : Except String Call :=
  match forType (entry.field "type") with
  | .error exc => .error exc
  | .ok none => .ok (.returned (unknownExtras cfg (entry.field "type")))
  | .ok (some probe_fn) =>
      match probe cfg entry ctx probe_fn with
      | .error exc => .ok (.returned (failExtras exc))
      | .ok call => .ok call

/-- `composed`: the entry under what its probe says, with the three times. -/
def compose (entry : Entry) (extras : Extras) (prev : Entry) (now : ℚ) : Entry :=
  let last_ok_at := if (Entry.getD extras "ok").truthy then .float (.fin now)
    else prev.getD "last_ok_at"
  (((entry.update extras).set "last_probed_at" (.float (.fin now))).set
    "last_ok_at" last_ok_at).set
    "first_seen_at" ((prev.getD "first_seen_at").or (.float (.fin now)))

/-- A round that waits for the probe of `entry`; `prev` was read before the wait. -/
structure Probing where
  ctx : Ctx
  now : ℚ
  new_state : Registry
  entry : Entry
  prev : Entry
  thread : Answer → Except String Extras
  rest : List Entry

/-- How far a round gets before it waits again, raises, or is through. -/
inductive Progress where
  | raised (exc : String)
  | waiting (p : Probing)
  | finished (new_state : Registry)

/-- The loop over the entries, up to the next wait. -/
def advance (cfg : Settings) (state : Registry) (ctx : Ctx) (now : ℚ) :
    Registry → List Entry → Progress
  | new_state, [] => .finished new_state
  | new_state, entry :: rest =>
      let prev := (state.get? entry.key).getD ∅
      match startProbe cfg ctx entry with
      | .error exc => .raised exc
      | .ok (.returned extras) =>
          advance cfg state ctx now (new_state.set entry.key (compose entry extras prev now)) rest
      | .ok (.blocked thread) => .waiting ⟨ctx, now, new_state, entry, prev, thread, rest⟩

/-- A probe's thread is done: enter its entry and go on. -/
def Probing.resume (cfg : Settings) (state : Registry) (p : Probing) (a : Answer) : Progress :=
  let extras := match p.thread a with
    | .ok extras => extras
    | .error exc => failExtras exc
  advance cfg state p.ctx p.now
    (p.new_state.set p.entry.key (compose p.entry extras p.prev p.now)) p.rest

/-- What a round waits for. -/
inductive Phase where
  | fetching
  | probing (p : Probing)

/-- A round in flight, with the entries that it read. -/
structure Round where
  entries : List Entry
  loadable : Loadable entries
  phase : Phase

/-! ## The service -/

/-- The service: the file, the module's globals, and the rounds in flight. -/
structure World where
  file : ConfigFile
  /-- `_STATE`. -/
  state : Registry
  /-- `_CONFIG_ERROR`. -/
  config_error : Option String
  /-- `_LAST_REFRESH_AT`. -/
  last_refresh_at : ℚ
  rounds : List Round

/-- What a waiting round is given: the fetched context and the time, or the answer
of a probe's thread. -/
inductive Turn where
  | fetched (ctx : Ctx) (now : ℚ)
  | probed (a : Answer)

/-- What can happen. -/
inductive Label where
  | refresh
  | request (r : Request) (w : Write)
  | resume (i : ℕ) (turn : Turn)

namespace World

/-- Before anything has run. -/
def boot (file : ConfigFile) : World := ⟨file, ∅, none, 0, []⟩

/-- `_refresh_round` up to its first wait. -/
def beginRound (cfg : Settings) (w : World) : World :=
  match h : loadConfig cfg w.file with
  | .ok entries => { w with
      config_error := none
      rounds := w.rounds ++ [⟨entries, (loadConfig_spec h).1, .fetching⟩] }
  | .error exc => { w with config_error := some exc }

/-- A round in flight waits again, leaves, or leaves after replacing `_STATE`. -/
def settle (w : World) (i : ℕ) (r : Round) (now : ℚ) : Progress → World
  | .raised _ => { w with rounds := w.rounds.eraseIdx i }
  | .waiting p => { w with rounds := w.rounds.set i { r with phase := .probing p } }
  | .finished new_state => { w with
      state := Dict.update ∅ new_state
      last_refresh_at := now
      rounds := w.rounds.eraseIdx i }

/-- The machine. -/
def step (cfg : Settings) : Machine World Label
  | w, .refresh => some (w.beginRound cfg)
  | w, .request r write =>
      match serve cfg r write w.file with
      | (.error _, file) => some { w with file := file }
      | (.ok (), file) => some ({ w with file := file }.beginRound cfg)
  | w, .resume i turn =>
      match w.rounds[i]? with
      | none => none
      | some r =>
          match r.phase, turn with
          | .fetching, .fetched ctx now =>
              some (w.settle i r now (advance cfg w.state ctx now ∅ r.entries))
          | .probing p, .probed a => some (w.settle i r p.now (p.resume cfg w.state a))
          | _, _ => none

theorem beginRound_of_ok {cfg : Settings} {w : World} {es : List Entry}
    (h : loadConfig cfg w.file = .ok es) :
    w.beginRound cfg = { w with
      config_error := none
      rounds := w.rounds ++ [⟨es, (loadConfig_spec h).1, .fetching⟩] } := by
  unfold beginRound
  split
  · rename_i es' h'
    rw [h] at h'
    cases h'
    rfl
  · rename_i exc h'
    rw [h] at h'
    cases h'

end World

/-! ## What a round publishes -/

/-- The fields of an entry that identify its node and say where it is. -/
def viewOf (e : Entry) : List (Option Json) := VIEW.map e.get?

/-- Two maps have the same ids, and under each id the same id, type, name, host and
port. -/
structure SameView (d d' : Registry) : Prop where
  ids : ∀ k, k ∈ d ↔ k ∈ d'
  fields : ∀ k e e', d.get? k = some e → d'.get? k = some e' → ∀ f ∈ VIEW, e.get? f = e'.get? f

theorem sameView_iff {d d' : Registry} :
    SameView d d' ↔ ∀ k, (d.get? k).map viewOf = (d'.get? k).map viewOf := by
  constructor
  · intro h k
    have hids := h.ids k
    rw [← Dict.get?_isSome_iff, ← Dict.get?_isSome_iff] at hids
    cases hd : d.get? k with
    | none =>
        cases hd' : d'.get? k with
        | none => rfl
        | some e' => simp [hd, hd'] at hids
    | some e =>
        cases hd' : d'.get? k with
        | none => simp [hd, hd'] at hids
        | some e' => exact congrArg some (List.map_congr_left (h.fields k e e' hd hd'))
  · intro h
    constructor
    · intro k
      have hk := congrArg Option.isSome (h k)
      rw [Option.isSome_map, Option.isSome_map] at hk
      rw [← Dict.get?_isSome_iff, ← Dict.get?_isSome_iff, hk]
    · intro k e e' he he' f hf
      have hk := h k
      rw [he, he', Option.map_some, Option.map_some, Option.some.injEq] at hk
      exact List.map_inj_left.mp hk f hf

theorem SameView.refl (d : Registry) : SameView d d := sameView_iff.mpr fun _ ↦ rfl

theorem SameView.symm {d d' : Registry} (h : SameView d d') : SameView d' d :=
  sameView_iff.mpr fun k ↦ (sameView_iff.mp h k).symm

theorem SameView.trans {d d' d'' : Registry} (h : SameView d d') (h' : SameView d' d'') :
    SameView d d'' :=
  sameView_iff.mpr fun k ↦ (sameView_iff.mp h k).trans (sameView_iff.mp h' k)

/-- A map shows exactly the given entries. -/
def Shows (state : Registry) (es : List Entry) : Prop :=
  ∀ k, (state.get? k).map viewOf = ((es.map fun e ↦ (e.key, e)).lookup k).map viewOf

theorem shows_nil : Shows ∅ [] := fun _ ↦ rfl

theorem Shows.snoc {state : Registry} {es : List Entry} {e c : Entry} (h : Shows state es)
    (hnew : e.key ∉ es.map Entry.key) (hc : viewOf c = viewOf e) :
    Shows (state.set e.key c) (es ++ [e]) := by
  intro k
  rw [Dict.get?_set, List.map_append, List.lookup_append]
  by_cases hk : k = e.key
  · have hnone : (es.map fun e ↦ (e.key, e)).lookup k = none := by
      rw [List.lookup_eq_none_iff]
      intro a ha
      obtain ⟨e', he', rfl⟩ := List.mem_map.mp ha
      simpa [hk] using fun heq ↦ hnew (List.mem_map.mpr ⟨e', he', heq.symm⟩)
    rw [if_pos hk, hnone, hk]
    simp [hc]
  · rw [if_neg hk, h k]
    have hsingle : (([e] : List Entry).map fun e ↦ (e.key, e)).lookup k = none := by
      simp [hk]
    rw [hsingle, Option.or_none]

/-- The composed entry shows what its entry does, as no probe gives any of these
fields. -/
theorem viewOf_compose {e prev : Entry} {x : Extras} {now : ℚ} (h : NoView x) :
    viewOf (compose e x prev now) = viewOf e := by
  refine List.map_congr_left fun f hf ↦ ?_
  have hne : f ≠ "first_seen_at" ∧ f ≠ "last_ok_at" ∧ f ≠ "last_probed_at" := by
    simp only [VIEW, List.mem_cons, List.not_mem_nil, or_false] at hf
    rcases hf with rfl | rfl | rfl | rfl | rfl <;> decide
  rw [compose, Dict.get?_set_ne _ _ hne.1, Dict.get?_set_ne _ _ hne.2.1,
    Dict.get?_set_ne _ _ hne.2.2, Dict.get?_update_of_notMem (h f hf)]

theorem noView_failExtras (exc : String) : NoView (failExtras exc) :=
  noView_ofList (by simp [VIEW])

theorem startProbe_noView {cfg : Settings} {ctx : Ctx} {e : Entry} {c : Call}
    (h : startProbe cfg ctx e = .ok c) : c.NoView := by
  rw [startProbe] at h
  split at h
  · cases h
  · cases h
    exact noView_returned (noView_ofList (by simp [VIEW]))
  · split at h
    · cases h
      exact noView_returned (noView_failExtras _)
    · rename_i call hprobe
      cases h
      exact probe_noView hprobe

/-- Starting a probe raises only when the type has no hash. -/
theorem startProbe_error {cfg : Settings} {ctx : Ctx} {e : Entry} {exc : String}
    (h : startProbe cfg ctx e = .error exc) : (e.field "type").key? = none := by
  rw [startProbe] at h
  split at h
  · rename_i exc' htype
    rw [forType, Json.hash] at htype
    cases hkey : (e.field "type").key? with
    | none => rfl
    | some k =>
        rw [hkey] at htype
        cases htype
  · cases h
  · split at h <;> cases h

/-- An entry whose probe makes a round wait. -/
def Waits (cfg : Settings) (ctx : Ctx) (e : Entry) : Prop :=
  ∃ thread, startProbe cfg ctx e = .ok (.blocked thread)

/-- What is known about a round that waits for a probe: the entries before it are
entered, and its thread answers without touching the identity of the entry. -/
structure Probing.Holds (p : Probing) (entries : List Entry) : Prop where
  entered : ∃ done, entries = done ++ p.entry :: p.rest ∧ Shows p.new_state done
  thread : ∀ a x, p.thread a = .ok x → NoView x

/-- What is known about how far a round gets with the entries `rest` still to do. -/
def Progress.Holds (cfg : Settings) (ctx : Ctx) (entries rest : List Entry) : Progress → Prop
  | .raised _ => ∃ e ∈ rest, (e.field "type").key? = none
  | .waiting p => p.Holds entries
  | .finished new_state => Shows new_state entries ∧ ∀ e ∈ rest, ¬ Waits cfg ctx e

theorem Progress.Holds.cons {cfg : Settings} {ctx : Ctx} {entries rest : List Entry} {e : Entry}
    {p : Progress} (he : ¬ Waits cfg ctx e) (h : p.Holds cfg ctx entries rest) :
    p.Holds cfg ctx entries (e :: rest) := by
  cases p with
  | raised _ =>
      obtain ⟨e', he', hkey⟩ := h
      exact ⟨e', List.mem_cons_of_mem _ he', hkey⟩
  | waiting p => exact h
  | finished s => exact ⟨h.1, List.forall_mem_cons.mpr ⟨he, h.2⟩⟩

theorem Loadable.key_notMem {done rest : List Entry} {e : Entry}
    (h : Loadable (done ++ e :: rest)) : e.key ∉ done.map Entry.key := by
  intro hmem
  have hunique := h.unique
  rw [List.map_append, List.nodup_append] at hunique
  exact hunique.2.2 _ hmem _ List.mem_cons_self rfl

/-- The loop keeps what it has entered in step with the entries it is through
with. -/
theorem advance_holds (cfg : Settings) (state : Registry) (ctx : Ctx) (now : ℚ)
    {rest done : List Entry} {new_state : Registry} (hload : Loadable (done ++ rest))
    (h : Shows new_state done) :
    (advance cfg state ctx now new_state rest).Holds cfg ctx (done ++ rest) rest := by
  induction rest generalizing done new_state with
  | nil => exact ⟨by rwa [List.append_nil], by simp⟩
  | cons e rest ih =>
      rw [advance]
      split
      · rename_i exc hstart
        exact ⟨e, List.mem_cons_self, startProbe_error hstart⟩
      · rename_i extras hstart
        have happend : done ++ e :: rest = (done ++ [e]) ++ rest := by simp
        have hview : viewOf (compose e extras ((state.get? e.key).getD ∅) now) = viewOf e :=
          viewOf_compose (startProbe_noView hstart extras rfl)
        have hnext := ih (happend ▸ hload) (h.snoc hload.key_notMem hview)
        rw [happend]
        refine hnext.cons ?_
        rintro ⟨thread, hthread⟩
        rw [hstart] at hthread
        cases hthread
      · rename_i thread hstart
        exact ⟨⟨done, rfl, h⟩, fun a x hx ↦ startProbe_noView hstart x ⟨a, hx⟩⟩

theorem Probing.Holds.resume {cfg : Settings} {p : Probing} {entries : List Entry}
    (h : p.Holds entries) (hload : Loadable entries) (state : Registry) (a : Answer) :
    (p.resume cfg state a).Holds cfg p.ctx entries p.rest := by
  obtain ⟨done, rfl, hshows⟩ := h.entered
  have happend : done ++ p.entry :: p.rest = (done ++ [p.entry]) ++ p.rest := by simp
  have hnew := hload.key_notMem
  rw [happend] at hload ⊢
  refine advance_holds cfg state p.ctx p.now hload (hshows.snoc hnew (viewOf_compose ?_))
  cases ha : p.thread a with
  | ok x => exact h.thread a x ha
  | error exc => exact noView_failExtras exc

end SensorFusion.Nodes
