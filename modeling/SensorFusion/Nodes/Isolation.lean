import SensorFusion.Nodes.History
import SensorFusion.Nodes.Save

/-!
# Probes do not touch each other's entries

A round goes through the entries of its configuration one by one, and what it enters for
one of them is made of that entry, the fetched context, the answer of its own probe and its
own previous entry.  `play` gives a round what it waits for: `ans` what the thread of each
probe runs into, and `seen` what `_STATE` is when it comes back, which other rounds may have
replaced in the meantime.  No answer stops the round; only a type without a hash does, as
`for_type` is outside the `try`.
-/

namespace SensorFusion.Nodes

variable {cfg : Settings} {ctx : Ctx} {now : ℚ} {ans : Key → Answer}

/-- What a probe says of its entry, given what its thread runs into. -/
def ownExtras (cfg : Settings) (ctx : Ctx) (e : Entry) (a : Answer) : Except String Extras :=
  match startProbe cfg ctx e with
  | .error exc => .error exc
  | .ok (.returned extras) => .ok extras
  | .ok (.blocked thread) =>
      match thread a with
      | .ok extras => .ok extras
      | .error exc => .ok (failExtras exc)

/-- A round is given up to `n` answers. -/
def Progress.play (cfg : Settings) (seen : Key → Registry) (ans : Key → Answer) :
    ℕ → Progress → Progress
  | n + 1, .waiting p =>
      (p.resume cfg (seen p.entry.key) (ans p.entry.key)).play cfg seen ans n
  | _, p => p

@[simp] theorem play_finished (cfg : Settings) (seen : Key → Registry) (ans : Key → Answer) (n : ℕ)
    (out : Registry) : (Progress.finished out).play cfg seen ans n = .finished out := by
  cases n <;> rfl

@[simp] theorem play_raised (cfg : Settings) (seen : Key → Registry) (ans : Key → Answer) (n : ℕ)
    (exc : String) : (Progress.raised exc).play cfg seen ans n = .raised exc := by
  cases n <;> rfl

/-! ## A round on its own

With nothing else running, playing is what the service does. -/

theorem settle_waiting {w : World} {i : ℕ} {r : Round} (hr : w.rounds[i]? = some r) {p : Probing}
    (a : Answer) :
    World.step cfg (w.settle i r p.now (.waiting p)) (.resume i (.probed a)) =
      some (w.settle i r p.now (p.resume cfg w.state a)) := by
  have hlt := (List.getElem?_eq_some_iff.mp hr).1
  simp only [World.step, World.settle, List.getElem?_set_self hlt]
  cases p.resume cfg w.state a with
  | raised exc => simp only [List.eraseIdx_set_eq]
  | waiting p' => simp only [List.set_set]
  | finished out => simp only [List.eraseIdx_set_eq]

/-- The answers that a round plays with, one turn for each. -/
theorem run_play {w : World} {i : ℕ} {r : Round} (hr : w.rounds[i]? = some r) (n : ℕ)
    {p : Progress} (hnow : ∀ p', p = .waiting p' → p'.now = now) :
    ∃ turns : List Label, (∀ l ∈ turns, ∃ k, l = .resume i (.probed (ans k))) ∧
      (World.step cfg).run (w.settle i r now p) turns =
        some (w.settle i r now (p.play cfg (fun _ ↦ w.state) ans n)) := by
  induction n generalizing p with
  | zero => exact ⟨[], fun _ hl ↦ (nomatch hl), rfl⟩
  | succ n ih =>
      cases p with
      | raised exc => exact ⟨[], fun _ hl ↦ (nomatch hl), rfl⟩
      | finished out => exact ⟨[], fun _ hl ↦ (nomatch hl), rfl⟩
      | waiting p =>
          cases hnow p rfl
          obtain ⟨turns, hturns, hrun⟩ := @ih (p.resume cfg w.state (ans p.entry.key))
            fun p' hp' ↦ now_of_waiting hp'
          refine ⟨.resume i (.probed (ans p.entry.key)) :: turns, ?_, ?_⟩
          · exact List.forall_mem_cons.mpr ⟨⟨_, rfl⟩, hturns⟩
          · exact Machine.run_cons_eq_some.mpr ⟨_, settle_waiting hr _, hrun⟩

/-! ## What a round enters -/

/-- What is entered for an entry: what its own probe says, over one of the previous entries
that `_STATE` has shown it. -/
def Refreshed (cfg : Settings) (ctx : Ctx) (now : ℚ) (ans : Key → Answer) (shown : Registry → Prop)
    (e c : Entry) : Prop :=
  ∃ x s, ownExtras cfg ctx e (ans e.key) = .ok x ∧ shown s ∧
    c = compose e x ((s.get? e.key).getD ∅) now

theorem ownExtras_of_returned {e : Entry} {x : Extras} {a : Answer}
    (h : startProbe cfg ctx e = .ok (.returned x)) : ownExtras cfg ctx e a = .ok x := by
  rw [ownExtras, h]

theorem ownExtras_of_blocked {e : Entry} {thread : Answer → Except String Extras} {a : Answer}
    (h : startProbe cfg ctx e = .ok (.blocked thread)) :
    ownExtras cfg ctx e a = .ok (match thread a with
      | .ok extras => extras
      | .error exc => failExtras exc) := by
  rw [ownExtras, h]
  dsimp only
  cases thread a <;> rfl

/-- A round has entered something for each of the entries, and changed nothing else. -/
structure Entered (cfg : Settings) (ctx : Ctx) (now : ℚ) (ans : Key → Answer)
    (shown : Registry → Prop) (entries : List Entry) (before out : Registry) : Prop where
  each : ∀ e ∈ entries, ∃ c, out.get? e.key = some c ∧ Refreshed cfg ctx now ans shown e c
  others : ∀ k, k ∉ entries.map Entry.key → out.get? k = before.get? k

/-- Into nothing a round enters its entries. -/
theorem Entered.mem_iff {shown : Registry → Prop} {entries : List Entry} {out : Registry}
    (h : Entered cfg ctx now ans shown entries ∅ out) (k : Key) :
    k ∈ out ↔ k ∈ entries.map Entry.key := by
  constructor
  · intro hk
    by_contra hno
    rw [← Dict.get?_isSome_iff, h.others k hno] at hk
    cases hk
  · intro hk
    obtain ⟨e, he, rfl⟩ := List.mem_map.mp hk
    obtain ⟨c, hc, -⟩ := h.each e he
    exact Dict.mem_iff_get?.mpr ⟨c, hc⟩

/-- What is entered for an entry stays, as no other entry has its key. -/
theorem Entered.cons {shown : Registry → Prop} {e : Entry} {rest : List Entry} {x : Extras}
    {s before out : Registry} (hnew : e.key ∉ rest.map Entry.key) (hs : shown s)
    (hx : ownExtras cfg ctx e (ans e.key) = .ok x)
    (h : Entered cfg ctx now ans shown rest
      (before.set e.key (compose e x ((s.get? e.key).getD ∅) now)) out) :
    Entered cfg ctx now ans shown (e :: rest) before out where
  each := List.forall_mem_cons.mpr
    ⟨⟨_, (h.others e.key hnew).trans (Dict.get?_set_self ..), x, s, hx, hs, rfl⟩, h.each⟩
  others := by
    intro k hk
    rw [List.map_cons, List.mem_cons, not_or] at hk
    rw [h.others k hk.2, Dict.get?_set_ne _ _ hk.1]

/-- A round over entries whose types all have a hash gets through. -/
theorem play_advance {seen : Key → Registry} {shown : Registry → Prop} (hseen : ∀ k, shown (seen k))
    {rest : List Entry} (hnodup : (rest.map Entry.key).Nodup)
    (htypes : ∀ e ∈ rest, (e.field "type").key? ≠ none) {state : Registry} (hstate : shown state)
    (new_state : Registry) {n : ℕ} (hn : rest.length ≤ n) :
    ∃ out, (advance cfg state ctx now new_state rest).play cfg seen ans n = .finished out ∧
      Entered cfg ctx now ans shown rest new_state out := by
  induction rest generalizing state new_state n with
  | nil => exact ⟨new_state, play_finished .., fun _ he ↦ (nomatch he), fun _ _ ↦ rfl⟩
  | cons e rest ih =>
      obtain ⟨hnew, hnodup⟩ := List.nodup_cons.mp hnodup
      obtain ⟨htype, htypes⟩ := List.forall_mem_cons.mp htypes
      obtain ⟨key, hkey⟩ := Option.ne_none_iff_exists'.mp htype
      have hstart := startProbe_of_key cfg ctx e
      rw [hkey] at hstart
      obtain ⟨call, hcall⟩ := hstart
      rw [advance, hcall]
      cases call with
      | returned x =>
          obtain ⟨out, hplay, hout⟩ := ih hnodup htypes hstate
            (new_state.set e.key (compose e x ((state.get? e.key).getD ∅) now))
            ((Nat.le_succ _).trans hn)
          exact ⟨out, hplay, hout.cons hnew hstate (ownExtras_of_returned hcall)⟩
      | blocked thread =>
          -- one answer for this entry, the others for the rest
          obtain ⟨n, rfl⟩ := Nat.exists_eq_succ_of_ne_zero (Nat.ne_of_gt (Nat.lt_of_lt_of_le
            (Nat.succ_pos _) hn))
          obtain ⟨out, hplay, hout⟩ := ih hnodup htypes (hseen e.key)
            (new_state.set e.key (compose e _ ((state.get? e.key).getD ∅) now))
            (Nat.le_of_succ_le_succ hn)
          exact ⟨out, hplay, hout.cons hnew hstate (ownExtras_of_blocked hcall)⟩

/-- A round that gets through has met no type without a hash. -/
theorem types_of_play_finished {seen : Key → Registry} {rest : List Entry}
    {state new_state out : Registry} {n : ℕ}
    (h : (advance cfg state ctx now new_state rest).play cfg seen ans n = .finished out) :
    ∀ e ∈ rest, (e.field "type").key? ≠ none := by
  induction rest generalizing state new_state n with
  | nil => exact fun _ he ↦ nomatch he
  | cons e rest ih =>
      have hstart := startProbe_of_key cfg ctx e
      rw [advance] at h
      cases hkey : (e.field "type").key? with
      | none =>
          rw [hkey] at hstart
          dsimp only at hstart
          rw [hstart] at h
          rw [play_raised] at h
          cases h
      | some key =>
          rw [hkey] at hstart
          obtain ⟨call, hcall⟩ := hstart
          rw [hcall] at h
          refine List.forall_mem_cons.mpr ⟨by rw [hkey]; exact Option.some_ne_none _, ?_⟩
          cases call with
          | returned x => exact ih h
          | blocked thread =>
              cases n with
              | zero => cases h
              | succ n => exact ih h

/-- In the service, a round that is left alone gets through if the types have a hash, and
publishes what it has entered for each of its entries. -/
theorem refreshes_alone {w : World} {i : ℕ} {r : Round} (hr : w.rounds[i]? = some r)
    (hphase : r.phase = .fetching) (htypes : ∀ e ∈ r.entries, (e.field "type").key? ≠ none) :
    ∃ (turns : List Label) (w' : World),
      (∀ l ∈ turns, ∃ k, l = .resume i (.probed (ans k))) ∧
      (World.step cfg).run w (.resume i (.fetched ctx now) :: turns) = some w' ∧
      (∀ k, k ∈ w'.state ↔ k ∈ r.entries.map Entry.key) ∧
      ∀ e ∈ r.entries, ∃ c, w'.state.get? e.key = some c ∧
        Refreshed cfg ctx now ans (· = w.state) e c := by
  obtain ⟨out, hplay, hentered⟩ := @play_advance cfg ctx now ans (fun _ ↦ w.state)
    (· = w.state) (fun _ ↦ rfl) r.entries r.loadable.unique htypes w.state rfl ∅ _ (le_refl _)
  obtain ⟨turns, hturns, hrun⟩ := @run_play cfg now ans w i r hr r.entries.length
    (advance cfg w.state ctx now ∅ r.entries) fun p' hp' ↦ now_of_waiting hp'
  have hfirst : World.step cfg w (.resume i (.fetched ctx now)) =
      some (w.settle i r now (advance cfg w.state ctx now ∅ r.entries)) := by
    simp only [World.step, hr, hphase]
  rw [hplay] at hrun
  have hstate : ∀ k, (w.settle i r now (.finished out)).state.get? k = out.get? k := by
    intro k
    show (Dict.update ∅ out).get? k = out.get? k
    rw [Dict.get?_update]
    cases out.get? k <;> rfl
  refine ⟨turns, _, hturns, Machine.run_cons_eq_some.mpr ⟨_, hfirst, hrun⟩, fun k ↦ ?_,
    fun e he ↦ ?_⟩
  · rw [← hentered.mem_iff k, ← Dict.get?_isSome_iff, hstate k, Dict.get?_isSome_iff]
  · obtain ⟨c, hc, hrefreshed⟩ := hentered.each e he
    exact ⟨c, (hstate e.key).trans hc, hrefreshed⟩

/-- Whatever the configuration, the answers of the probes and what other rounds publish in
the meantime, a round refreshes every one of its entries by itself if and only if the types of
all of them have a hash. -/
theorem refreshes_iff (cfg : Settings) {file : ConfigFile} {es : List Entry}
    (hload : loadConfig cfg file = .ok es) (ctx : Ctx) (now : ℚ) (ans : Key → Answer)
    (state : Registry) (seen : Key → Registry) :
    (∃ out, (advance cfg state ctx now ∅ es).play cfg seen ans es.length = .finished out ∧
        (∀ k, k ∈ out ↔ k ∈ es.map Entry.key) ∧
        ∀ e ∈ es, ∃ c, out.get? e.key = some c ∧
          Refreshed cfg ctx now ans (fun s ↦ s = state ∨ ∃ k, s = seen k) e c) ↔
      ∀ e ∈ es, (e.field "type").key? ≠ none := by
  constructor
  · rintro ⟨out, hplay, -⟩
    exact types_of_play_finished hplay
  · intro htypes
    obtain ⟨out, hplay, hentered⟩ := @play_advance cfg ctx now ans seen
      (fun s ↦ s = state ∨ ∃ k, s = seen k) (fun k ↦ .inr ⟨k, rfl⟩) es
      (loadConfig_spec hload).1.unique htypes state (.inl rfl) ∅ _ (le_refl _)
    exact ⟨out, hplay, hentered.mem_iff, hentered.each⟩

/-- Two nodes; the second one is a TAK server, which names no port to probe. -/
def twoNodes (type : Json) : ConfigFile :=
  .document (.arr [
    .obj [("id", .str "a"), ("type", type), ("name", .str "A"), ("host", .str "10.0.0.1")],
    .obj [("id", .str "b"), ("type", .str "tak-server"), ("name", .str "B"),
      ("host", .str "10.0.0.2")]])

theorem refreshes_unknown_type :
    ∃ es, loadConfig defaults (twoNodes (.int 7)) = .ok es ∧
      ∃ out, (advance defaults ∅ ⟨.null, .null⟩ 1 ∅ es).play defaults (fun _ ↦ ∅)
          (fun _ ↦ ⟨0, 200, .success⟩) es.length = .finished out ∧
        (∀ k, k ∈ out ↔ k ∈ es.map Entry.key) ∧
        ∀ e ∈ es, ∃ c, out.get? e.key = some c ∧ Refreshed defaults ⟨.null, .null⟩ 1
          (fun _ ↦ ⟨0, 200, .success⟩) (fun s ↦ s = ∅ ∨ ∃ _ : Key, s = ∅) e c := by
  refine ⟨_, rfl, (@refreshes_iff defaults (twoNodes (.int 7)) _ rfl ⟨.null, .null⟩ 1
    (fun _ ↦ ⟨0, 200, .success⟩) ∅ (fun _ ↦ ∅)).mpr ?_⟩
  intro e he
  rcases List.mem_cons.mp he with rfl | he
  · exact nofun
  · cases List.mem_singleton.mp he
    exact nofun

/-- An entry whose type is a list is accepted, and the round ends with the entry after it
not refreshed. -/
theorem list_type_stops_round :
    ∃ es, loadConfig defaults (twoNodes (.arr [])) = .ok es ∧
      es.map Entry.key = [.str "a", .str "b"] ∧
      (¬ ∃ out, (advance defaults ∅ ⟨.null, .null⟩ 1 ∅ es).play defaults (fun _ ↦ ∅)
        (fun _ ↦ ⟨0, 200, .success⟩) es.length = .finished out ∧
        ∀ e ∈ es, ∃ c, out.get? e.key = some c) ∧
      ∃ w, (World.step defaults).run (.boot (twoNodes (.arr [])))
        [.refresh, .resume 0 (fetchedAt 1)] = some w ∧ w.rounds = [] ∧ .str "b" ∉ w.state := by
  refine ⟨_, rfl, rfl, ?_, _, rfl, rfl, ?_⟩
  · rintro ⟨out, hplay, -⟩
    cases hplay
  · intro hb
    cases hb

end SensorFusion.Nodes
