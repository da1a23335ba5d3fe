import SensorFusion.Nodes.Consistency

/-!
# The history of a node

A round takes one timestamp, reads the previous entry of a node when it comes to it, and
replaces the whole of `_STATE` at its end.  So the times that it enters go on from those
that it read, which are not those that it replaces once another round has published in
between.  `Watch` follows the service and remembers of each round in flight whether that
has happened; as long as no such round publishes, and none that read a configuration
without a node that is there, every published time goes on from the one before it.
-/

namespace SensorFusion.Nodes

variable {cfg : Settings}

/-! ## The three times -/

/-- The times of a published entry. -/
structure Times where
  first_seen_at : ℚ
  last_probed_at : ℚ
  last_ok_at : Option ℚ

/-- Times go on: the first one stays, the others do not go back, and a node that was seen
ok stays seen. -/
instance : Preorder Times where
  le t t' := t'.first_seen_at = t.first_seen_at ∧ t.last_probed_at ≤ t'.last_probed_at ∧
    ∀ q, t.last_ok_at = some q → ∃ q', t'.last_ok_at = some q' ∧ q ≤ q'
  le_refl _ := ⟨rfl, le_refl _, fun q hq ↦ ⟨q, hq, le_refl q⟩⟩
  le_trans t t' t'' := by
    rintro ⟨hfirst, hprobed, hok⟩ ⟨hfirst', hprobed', hok'⟩
    refine ⟨hfirst'.trans hfirst, hprobed.trans hprobed', fun q hq ↦ ?_⟩
    obtain ⟨q', hq', hle⟩ := hok q hq
    obtain ⟨q'', hq'', hle'⟩ := hok' q' hq'
    exact ⟨q'', hq'', hle.trans hle'⟩

/-- A time, or `None`. -/
def timeOrNull : Option ℚ → Json
  | none => .null
  | some t => .float (.fin t)

/-- The times that an entry has. -/
structure Entry.Dated (c : Entry) (t : Times) : Prop where
  first_seen_at : c.getD "first_seen_at" = .float (.fin t.first_seen_at)
  last_probed_at : c.getD "last_probed_at" = .float (.fin t.last_probed_at)
  last_ok_at : c.getD "last_ok_at" = timeOrNull t.last_ok_at

theorem timeOrNull_injective : Function.Injective timeOrNull := by
  rintro (_ | q) (_ | q') h
  · rfl
  · cases h
  · cases h
  · cases h
    rfl

theorem Entry.Dated.unique {c : Entry} {t t' : Times} (h : c.Dated t) (h' : c.Dated t') :
    t = t' := by
  obtain ⟨first, probed, ok⟩ := t
  obtain ⟨first', probed', ok'⟩ := t'
  cases h.first_seen_at.symm.trans h'.first_seen_at
  cases h.last_probed_at.symm.trans h'.last_probed_at
  cases timeOrNull_injective (h.last_ok_at.symm.trans h'.last_ok_at)
  rfl

/-- The times lie before a reading of the clock, and the first one is not the epoch, which
`or` takes for none. -/
structure Times.Before (t : Times) (now : ℚ) : Prop where
  seen : t.first_seen_at ≠ 0
  probed : t.last_probed_at ≤ now
  ok : ∀ q, t.last_ok_at = some q → q ≤ now

theorem Times.Before.mono {t : Times} {now now' : ℚ} (h : t.Before now) (hle : now ≤ now') :
    t.Before now' :=
  ⟨h.seen, h.probed.trans hle, fun q hq ↦ (h.ok q hq).trans hle⟩

/-- The times after a probe, which may have been ok. -/
def Times.next (t : Times) (ok : Bool) (now : ℚ) : Times :=
  ⟨t.first_seen_at, now, if ok then some now else t.last_ok_at⟩

/-- The times after the first probe. -/
def Times.fresh (ok : Bool) (now : ℚ) : Times := ⟨now, now, if ok then some now else none⟩

theorem Times.Before.le_next {t : Times} {now : ℚ} (h : t.Before now) (ok : Bool) :
    t ≤ t.next ok now := by
  refine ⟨rfl, h.probed, fun q hq ↦ ?_⟩
  cases ok with
  | true => exact ⟨now, rfl, h.ok q hq⟩
  | false => exact ⟨q, hq, le_refl q⟩

theorem Times.Before.next {t : Times} {now : ℚ} (h : t.Before now) (ok : Bool) :
    (t.next ok now).Before now := by
  refine ⟨h.seen, le_refl now, fun q hq ↦ ?_⟩
  cases ok with
  | true => exact (Option.some.inj hq).ge
  | false => exact h.ok q hq

theorem Times.before_fresh {now : ℚ} (hnow : now ≠ 0) (ok : Bool) :
    (Times.fresh ok now).Before now := by
  refine ⟨hnow, le_refl now, fun q hq ↦ ?_⟩
  cases ok with
  | true => exact (Option.some.inj hq).ge
  | false => cases hq

theorem getD_compose (e : Entry) (x : Extras) (prev : Entry) (now : ℚ) :
    (compose e x prev now).getD "last_probed_at" = .float (.fin now) ∧
    (compose e x prev now).getD "last_ok_at" =
      (if (Entry.getD x "ok").truthy then .float (.fin now) else prev.getD "last_ok_at") ∧
    (compose e x prev now).getD "first_seen_at" =
      (prev.getD "first_seen_at").or (.float (.fin now)) := by
  unfold compose
  dsimp only
  refine ⟨?_, ?_, ?_⟩
  · rw [Entry.getD, Dict.get?_set_ne _ _ (by decide), Dict.get?_set_ne _ _ (by decide),
      Dict.get?_set_self, Option.getD_some]
  · rw [Entry.getD, Dict.get?_set_ne _ _ (by decide), Dict.get?_set_self, Option.getD_some]
  · rw [Entry.getD, Dict.get?_set_self, Option.getD_some]

/-- A node that is new has its first times. -/
theorem dated_compose_fresh (e : Entry) (x : Extras) (now : ℚ) :
    (compose e x ∅ now).Dated (.fresh (Entry.getD x "ok").truthy now) := by
  obtain ⟨hprobed, hok, hfirst⟩ := getD_compose e x ∅ now
  refine ⟨hfirst, hprobed, hok.trans ?_⟩
  unfold Times.fresh
  cases (Entry.getD x "ok").truthy <;> rfl

/-- A node that is known goes on with its times. -/
theorem dated_compose_next {prev : Entry} {t : Times} (h : prev.Dated t)
    (hseen : t.first_seen_at ≠ 0)
    (e : Entry) (x : Extras) (now : ℚ) :
    (compose e x prev now).Dated (t.next (Entry.getD x "ok").truthy now) := by
  obtain ⟨hprobed, hok, hfirst⟩ := getD_compose e x prev now
  refine ⟨hfirst.trans ?_, hprobed, hok.trans ?_⟩
  · have htruthy : (Json.float (.fin t.first_seen_at)).truthy = true :=
      decide_eq_true fun heq ↦ hseen (PyFloat.fin.inj heq)
    rw [h.first_seen_at, Json.or, if_pos htruthy]
    rfl
  · unfold Times.next
    cases (Entry.getD x "ok").truthy with
    | true => rfl
    | false => exact h.last_ok_at

/-! ## What a round builds on -/

/-- Every entry of a map has its times, all of them before a reading of the clock. -/
def Recorded (state : Registry) (now : ℚ) : Prop :=
  ∀ k c, state.get? k = some c → ∃ t, c.Dated t ∧ t.Before now

theorem Recorded.mono {state : Registry} {now now' : ℚ} (h : Recorded state now)
    (hle : now ≤ now') : Recorded state now' := by
  intro k c hc
  obtain ⟨t, ht, hbefore⟩ := h k c hc
  exact ⟨t, ht, hbefore.mono hle⟩

/-- Every entry of the new map was composed over what the state has under its id. -/
def BasedOn (state : Registry) (now : ℚ) (new_state : Registry) : Prop :=
  ∀ k c, new_state.get? k = some c → ∃ e x, c = compose e x ((state.get? k).getD ∅) now

/-- What a waiting round has done so far, and what it has read, it has from the state. -/
structure Probing.BasedOn (state : Registry) (p : Probing) : Prop where
  entered : Nodes.BasedOn state p.now p.new_state
  prev : p.prev = (state.get? p.entry.key).getD ∅

/-- The same of how far a round gets. -/
def Progress.BasedOn (state : Registry) (now : ℚ) : Progress → Prop
  | .raised _ => True
  | .waiting p => p.now = now ∧ p.BasedOn state
  | .finished new_state => Nodes.BasedOn state now new_state

theorem BasedOn.set {state new_state : Registry} {now : ℚ} (h : BasedOn state now new_state)
    (k : Key) (e : Entry) (x : Extras) :
    BasedOn state now (new_state.set k (compose e x ((state.get? k).getD ∅) now)) := by
  intro k' c hc
  rw [Dict.get?_set] at hc
  split at hc
  · rename_i hk
    cases hc
    exact ⟨e, x, by rw [hk]⟩
  · exact h k' c hc

theorem advance_basedOn (cfg : Settings) (state : Registry) (ctx : Ctx) (now : ℚ)
    (rest : List Entry) {new_state : Registry} (h : BasedOn state now new_state) :
    (advance cfg state ctx now new_state rest).BasedOn state now := by
  induction rest generalizing new_state with
  | nil => exact h
  | cons e rest ih =>
      rw [advance]
      split
      · trivial
      · exact ih (h.set e.key e _)
      · exact ⟨rfl, h, rfl⟩

theorem Probing.BasedOn.resume {state : Registry} {p : Probing} (h : p.BasedOn state)
    (cfg : Settings) (a : Answer) : (p.resume cfg state a).BasedOn state p.now := by
  refine advance_basedOn cfg state p.ctx p.now p.rest ?_
  rw [h.prev]
  exact h.entered.set p.entry.key p.entry _

/-- Under an id, the second map goes on with the times of the first. -/
def GoesOn (k : Key) (state state' : Registry) : Prop :=
  ∀ c t, state.get? k = some c → c.Dated t →
    ∃ c' t', state'.get? k = some c' ∧ c'.Dated t' ∧ t ≤ t'

theorem GoesOn.refl (k : Key) (state : Registry) : GoesOn k state state :=
  fun c t hc ht ↦ ⟨c, t, hc, ht, le_refl t⟩

theorem GoesOn.trans {k : Key} {state state' state'' : Registry} (h : GoesOn k state state')
    (h' : GoesOn k state' state'') : GoesOn k state state'' := by
  intro c t hc ht
  obtain ⟨c', t', hc', ht', hle⟩ := h c t hc ht
  obtain ⟨c'', t'', hc'', ht'', hle'⟩ := h' c' t' hc' ht'
  exact ⟨c'', t'', hc'', ht'', hle.trans hle'⟩

/-- What is built on a map has its times, too. -/
theorem BasedOn.recorded {state new_state : Registry} {now : ℚ} (h : BasedOn state now new_state)
    (hstate : Recorded state now) (hnow : now ≠ 0) : Recorded new_state now := by
  intro k c hc
  obtain ⟨e, x, rfl⟩ := h k c hc
  cases hprev : state.get? k with
  | none => exact ⟨_, dated_compose_fresh e x now, Times.before_fresh hnow _⟩
  | some prev =>
      obtain ⟨t, ht, hbefore⟩ := hstate k prev hprev
      exact ⟨_, dated_compose_next ht hbefore.seen e x now, hbefore.next _⟩

/-- And under an id that it has, it goes on with that map. -/
theorem BasedOn.goesOn {state new_state : Registry} {now : ℚ} (h : BasedOn state now new_state)
    (hstate : Recorded state now) {k : Key} (hk : k ∈ new_state) : GoesOn k state new_state := by
  intro c t hc ht
  obtain ⟨c', hc'⟩ := Dict.mem_iff_get?.mp hk
  obtain ⟨e, x, rfl⟩ := h k c' hc'
  obtain ⟨t', ht', hbefore⟩ := hstate k c hc
  cases ht.unique ht'
  rw [hc, Option.getD_some] at hc'
  exact ⟨_, _, hc', dated_compose_next ht hbefore.seen e x now, hbefore.le_next _⟩

/-! ## Watching the service -/

/-- The clock as a turn reads it. -/
def Turn.reading : Turn → Option ℚ
  | .fetched _ now => some now
  | .probed _ => none

/-- What a turn makes of a round in flight: its timestamp, and how far it gets. -/
def Round.take (cfg : Settings) (state : Registry) (r : Round) : Turn → Option (ℚ × Progress)
  | .fetched ctx now =>
      match r.phase with
      | .fetching => some (now, advance cfg state ctx now ∅ r.entries)
      | .probing _ => none
  | .probed a =>
      match r.phase with
      | .fetching => none
      | .probing p => some (p.now, p.resume cfg state a)

/-- The service with what is remembered about it: the last reading of the clock, and of
each round in flight whether another one has published since its timestamp. -/
structure Watch where
  world : World
  clock : ℚ
  stale : List Bool

namespace Watch

/-- Before anything has run. -/
def boot (file : ConfigFile) (clock : ℚ) : Watch := ⟨.boot file, clock, []⟩

/-- A round that has just started is not stale. -/
def begun (s : Watch) (w : World) : Watch :=
  { s with
    world := w
    stale := s.stale ++ List.replicate (w.rounds.length - s.world.rounds.length) false }

/-- What is remembered after a turn of round `i`: a timestamp is taken with the first one,
and publishing makes all other rounds stale. -/
def mark (stale : List Bool) (i : ℕ) (turn : Turn) : Progress → List Bool
  | .raised _ => stale.eraseIdx i
  | .waiting _ => if turn.reading.isSome then stale.set i false else stale
  | .finished _ => (stale.map fun _ ↦ true).eraseIdx i

/-- The service under a clock that does not run back. -/
def step (cfg : Settings) : Machine Watch Label
  | s, .resume i turn =>
      (s.world.rounds[i]?).bind fun r ↦ (r.take cfg s.world.state turn).bind fun (now, p) ↦
        if turn.reading.any (· < s.clock) then none
        else some
          { world := s.world.settle i r now p
            clock := turn.reading.getD s.clock
            stale := mark s.stale i turn p }
  | s, l => (World.step cfg s.world l).map s.begun

/-- What a turn of a round in flight does. -/
theorem step_resume {s s' : Watch} {i : ℕ} {turn : Turn}
    (h : step cfg s (.resume i turn) = some s') :
    ∃ r now p, s.world.rounds[i]? = some r ∧ r.take cfg s.world.state turn = some (now, p) ∧
      (∀ t, turn.reading = some t → s.clock ≤ t) ∧
      s' = ⟨s.world.settle i r now p, turn.reading.getD s.clock, mark s.stale i turn p⟩ := by
  obtain ⟨r, hr, h⟩ := Option.bind_eq_some_iff.mp h
  obtain ⟨⟨now, p⟩, htake, h⟩ := Option.bind_eq_some_iff.mp h
  dsimp only at h
  split at h
  · cases h
  · rename_i hclock
    cases h
    refine ⟨r, now, p, hr, htake, fun t ht ↦ ?_, rfl⟩
    rw [ht, Option.any_some, decide_eq_true_iff] at hclock
    exact not_lt.mp hclock

theorem resume_eq_take {w : World} {i : ℕ} {turn : Turn} {r : Round}
    (hr : w.rounds[i]? = some r) :
    World.step cfg w (.resume i turn) =
      (r.take cfg w.state turn).map fun (now, p) ↦ w.settle i r now p := by
  simp only [World.step, hr]
  cases turn <;> cases hphase : r.phase <;> simp only [Round.take, hphase] <;> rfl

/-- Watching does not interfere: it is the service that takes the step. -/
theorem step_world {s s' : Watch} {l : Label} (h : step cfg s l = some s') :
    World.step cfg s.world l = some s'.world := by
  cases l with
  | refresh =>
      cases h
      rfl
  | request r write =>
      obtain ⟨w, hw, rfl⟩ := Option.map_eq_some_iff.mp h
      exact hw
  | resume i turn =>
      obtain ⟨r, now, p, hr, htake, -, rfl⟩ := step_resume h
      rw [resume_eq_take hr, htake]
      rfl

/-- The clock as a step reads it. -/
def reading : Label → Option ℚ
  | .resume _ turn => turn.reading
  | _ => none

theorem step_clock {s s' : Watch} {l : Label} (h : step cfg s l = some s') :
    (∀ t, reading l = some t → s.clock ≤ t) ∧ s'.clock = (reading l).getD s.clock := by
  cases l with
  | refresh =>
      cases h
      exact ⟨nofun, rfl⟩
  | request r write =>
      obtain ⟨w, -, rfl⟩ := Option.map_eq_some_iff.mp h
      exact ⟨nofun, rfl⟩
  | resume i turn =>
      obtain ⟨r, now, p, -, -, hclock, rfl⟩ := step_resume h
      exact ⟨hclock, rfl⟩

/-- And whatever step the service takes is watched, unless the clock ran back. -/
theorem exists_step {s : Watch} {l : Label} {w : World} (h : World.step cfg s.world l = some w)
    (hclock : ∀ t, reading l = some t → s.clock ≤ t) :
    ∃ s', step cfg s l = some s' ∧ s'.world = w := by
  cases l with
  | refresh => exact ⟨_, congrArg (Option.map s.begun) h, rfl⟩
  | request r write => exact ⟨_, congrArg (Option.map s.begun) h, rfl⟩
  | resume i turn =>
      cases hr : s.world.rounds[i]? with
      | none => simp only [World.step, hr] at h; cases h
      | some r =>
          rw [resume_eq_take hr] at h
          obtain ⟨⟨now, p⟩, htake, rfl⟩ := Option.map_eq_some_iff.mp h
          have hno : turn.reading.any (· < s.clock) = false := by
            cases ht : turn.reading with
            | none => rfl
            | some t => exact decide_eq_false (not_lt.mpr (hclock t ht))
          refine ⟨⟨s.world.settle i r now p, turn.reading.getD s.clock, mark s.stale i turn p⟩, ?_,
            rfl⟩
          simp only [step, hr, htake, Option.bind_some, hno]
          rfl

/-- The runs that are watched are those of the service in which the clock does not run back. -/
theorem exists_run_iff {s : Watch} {ls : List Label} {w : World} :
    (∃ s', (step cfg).run s ls = some s' ∧ s'.world = w) ↔
      (World.step cfg).run s.world ls = some w ∧
        (s.clock :: ls.filterMap reading).IsChain (· ≤ ·) := by
  induction ls generalizing s with
  | nil =>
      constructor
      · rintro ⟨s', hrun, rfl⟩
        cases hrun
        exact ⟨rfl, .singleton _⟩
      · rintro ⟨hrun, -⟩
        exact ⟨s, rfl, Option.some.inj hrun⟩
  | cons l ls ih =>
      -- the next reading is compared with the last one
      have hchain : ∀ s' : Watch, s'.clock = (reading l).getD s.clock →
          ((s.clock :: (l :: ls).filterMap reading).IsChain (· ≤ ·) ↔
            (∀ t, reading l = some t → s.clock ≤ t) ∧
              (s'.clock :: ls.filterMap reading).IsChain (· ≤ ·)) := by
        intro s' hclock
        rw [hclock, List.filterMap_cons]
        cases reading l with
        | none => exact (and_iff_right nofun).symm
        | some t =>
            dsimp only [Option.getD_some]
            rw [List.isChain_cons_cons]
            exact and_congr_left fun _ ↦ ⟨fun h _ ht ↦ Option.some.inj ht ▸ h, fun h ↦ h t rfl⟩
      constructor
      · rintro ⟨s', hrun, hw⟩
        obtain ⟨t, ht, hrun⟩ := Machine.run_cons_eq_some.mp hrun
        obtain ⟨hclock, hnext⟩ := step_clock ht
        obtain ⟨hworld, hrest⟩ := ih.mp ⟨s', hrun, hw⟩
        exact ⟨Machine.run_cons_eq_some.mpr ⟨t.world, step_world ht, hworld⟩,
          (hchain t hnext).mpr ⟨hclock, hrest⟩⟩
      · rintro ⟨hrun, hordered⟩
        obtain ⟨w', hw', hrun⟩ := Machine.run_cons_eq_some.mp hrun
        obtain ⟨t, ht, rfl⟩ := exists_step hw' fun time htime ↦ by
          rw [List.filterMap_cons, htime] at hordered
          exact (List.isChain_cons_cons.mp hordered).1
        obtain ⟨s', hrun', hw⟩ := ih.mpr ⟨hrun, ((hchain t (step_clock ht).2).mp hordered).2⟩
        exact ⟨s', Machine.run_cons_eq_some.mpr ⟨t, ht, hrun'⟩, hw⟩

end Watch

/-! ## Steps in order -/

/-- The probe of an entry answers at once. -/
def Immediate (cfg : Settings) (ctx : Ctx) (e : Entry) : Prop :=
  ∃ x, startProbe cfg ctx e = .ok (.returned x)

/-- With this turn a round gets through and publishes. -/
def Round.Publishes (cfg : Settings) (r : Round) : Turn → Prop
  | .fetched ctx _ => ∀ e ∈ r.entries, Immediate cfg ctx e
  | .probed _ =>
      match r.phase with
      | .fetching => False
      | .probing p => ∀ e ∈ p.rest, Immediate cfg p.ctx e

/-- The configuration file lists an id. -/
def Listed (cfg : Settings) (file : ConfigFile) (k : Key) : Prop :=
  ∃ es, loadConfig cfg file = .ok es ∧ k ∈ es.map Entry.key

/-- A step is in order: no timestamp is the epoch itself; and a round that publishes is not
stale, and read every published id that the file lists. -/
def InOrder (cfg : Settings) (s : Watch) : Label → Prop
  | .refresh | .request .. => True
  | .resume i turn => (∀ t, turn.reading = some t → t ≠ 0) ∧
      ∀ r, s.world.rounds[i]? = some r → r.Publishes cfg turn →
        (turn.reading = none → s.stale[i]? = some false) ∧
        ∀ k ∈ s.world.state, Listed cfg s.world.file k → k ∈ r.entries.map Entry.key

theorem immediate_of_finished {ctx : Ctx} {now : ℚ} {state new_state out : Registry}
    {rest : List Entry} (h : advance cfg state ctx now new_state rest = .finished out) :
    ∀ e ∈ rest, Immediate cfg ctx e := by
  induction rest generalizing new_state with
  | nil => exact fun _ he ↦ nomatch he
  | cons e rest ih =>
      rw [advance] at h
      split at h
      · cases h
      · rename_i x hstart
        exact List.forall_mem_cons.mpr ⟨⟨x, hstart⟩, ih h⟩
      · cases h

theorem now_of_waiting {ctx : Ctx} {now : ℚ} {state new_state : Registry} {rest : List Entry}
    {p : Probing} (h : advance cfg state ctx now new_state rest = .waiting p) : p.now = now := by
  induction rest generalizing new_state with
  | nil => cases h
  | cons e rest ih =>
      rw [advance] at h
      split at h
      · cases h
      · exact ih h
      · cases h
        rfl

/-- Being through means publishing, and waiting leaves the timestamp as it is. -/
theorem Round.take_spec {r : Round} {turn : Turn} {state : Registry} {now : ℚ} {p : Progress}
    (h : r.take cfg state turn = some (now, p)) :
    (∀ out, p = .finished out → r.Publishes cfg turn) ∧ ∀ p', p = .waiting p' → p'.now = now := by
  cases turn with
  | fetched ctx now' =>
      cases hphase : r.phase with
      | fetching =>
          simp only [Round.take, hphase] at h
          cases h
          exact ⟨fun out hout ↦ immediate_of_finished hout, fun p' hp' ↦ now_of_waiting hp'⟩
      | probing p => simp only [Round.take, hphase] at h; cases h
  | probed a =>
      cases hphase : r.phase with
      | fetching => simp only [Round.take, hphase] at h; cases h
      | probing p =>
          simp only [Round.take, hphase] at h
          cases h
          refine ⟨fun out hout ↦ ?_, fun p' hp' ↦ now_of_waiting hp'⟩
          simp only [Round.Publishes, hphase]
          exact immediate_of_finished hout

/-! ## The invariant -/

namespace Watch

/-- What is known of a round that waits for a probe: its timestamp lies before the clock,
and if it is not stale, then it builds on the state, the times of which lie before its
timestamp. -/
structure Timely (state : Registry) (clock : ℚ) (stale : Option Bool) (p : Probing) : Prop where
  seen : p.now ≠ 0
  past : p.now ≤ clock
  fresh : stale = some false → p.BasedOn state ∧ Recorded state p.now

/-- What is known while all steps are in order. -/
structure Inv (s : Watch) : Prop where
  holds : ∀ r ∈ s.world.rounds, r.Holds
  length : s.stale.length = s.world.rounds.length
  recorded : Recorded s.world.state s.clock
  timely : ∀ (i : ℕ) (r : Round) p, s.world.rounds[i]? = some r → r.phase = .probing p →
    Timely s.world.state s.clock s.stale[i]? p

theorem inv_boot (file : ConfigFile) (clock : ℚ) : Inv (.boot file clock) where
  holds _ hr := nomatch hr
  length := rfl
  recorded _ _ hc := nomatch hc
  timely _ _ _ hr := nomatch hr

end Watch

/-- A step that is not a turn of a round leaves the state alone, and starts one round at
most. -/
theorem World.step_begins {w w' : World} {l : Label} (h : World.step cfg w l = some w')
    (hl : ∀ i turn, l ≠ .resume i turn) :
    w'.state = w.state ∧
      (w'.rounds = w.rounds ∨ ∃ r, r.phase = .fetching ∧ w'.rounds = w.rounds ++ [r]) := by
  have hbegin : ∀ w : World, (w.beginRound cfg).state = w.state ∧
      ((w.beginRound cfg).rounds = w.rounds ∨
        ∃ r, r.phase = .fetching ∧ (w.beginRound cfg).rounds = w.rounds ++ [r]) := by
    intro w
    unfold World.beginRound
    split
    · exact ⟨rfl, .inr ⟨_, rfl, rfl⟩⟩
    · exact ⟨rfl, .inl rfl⟩
  cases l with
  | refresh =>
      cases h
      exact hbegin w
  | request r write =>
      simp only [World.step] at h
      split at h
      · cases h
        exact ⟨rfl, .inl rfl⟩
      · cases h
        exact hbegin _
  | resume i turn => exact absurd rfl (hl i turn)

namespace Watch

/-- Nothing has changed for the rounds. -/
theorem inv_unchanged {s : Watch} {w : World} (h : Inv s) (hstate : w.state = s.world.state)
    (hrounds : w.rounds = s.world.rounds) : Inv { s with world := w } := by
  constructor
  · rw [hrounds]
    exact h.holds
  · rw [hrounds]
    exact h.length
  · rw [hstate]
    exact h.recorded
  · rw [hrounds, hstate]
    exact h.timely

/-- A round that has just started waits for no probe. -/
theorem inv_started {s : Watch} {w : World} {r₀ : Round} (h : Inv s)
    (hstate : w.state = s.world.state) (hphase : r₀.phase = .fetching)
    (hrounds : w.rounds = s.world.rounds ++ [r₀]) :
    Inv { s with world := w, stale := s.stale ++ [false] } := by
  constructor
  · rw [hrounds]
    refine List.forall_mem_append.mpr ⟨h.holds, List.forall_mem_singleton.mpr ?_⟩
    unfold Round.Holds
    rw [hphase]
    trivial
  · rw [hrounds, List.length_append, List.length_append, h.length, List.length_singleton,
      List.length_singleton]
  · rw [hstate]
    exact h.recorded
  · rw [hrounds, hstate]
    intro i r p hr hp
    by_cases hi : i < s.world.rounds.length
    · rw [List.getElem?_append_left hi] at hr
      rw [List.getElem?_append_left (h.length ▸ hi)]
      exact h.timely i r p hr hp
    · rw [List.getElem?_append_right (not_lt.mp hi), List.getElem?_singleton] at hr
      split at hr
      · cases hr
        rw [hphase] at hp
        cases hp
      · cases hr

theorem inv_begun {s : Watch} {w : World} {l : Label} (h : Inv s)
    (hs : World.step cfg s.world l = some w) (hl : ∀ i turn, l ≠ .resume i turn) :
    Inv (s.begun w) ∧ w.state = s.world.state := by
  obtain ⟨hstate, hrounds⟩ := World.step_begins hs hl
  refine ⟨?_, hstate⟩
  rcases hrounds with hrounds | ⟨r₀, hphase, hrounds⟩
  · have hbegun : s.begun w = { s with world := w } := by
      rw [begun, hrounds, Nat.sub_self, List.replicate_zero, List.append_nil]
    rw [hbegun]
    exact inv_unchanged h hstate hrounds
  · have hbegun : s.begun w = { s with world := w, stale := s.stale ++ [false] } := by
      rw [begun, hrounds, List.length_append, Nat.add_sub_cancel_left]
      rfl
    rw [hbegun]
    exact inv_started h hstate hphase hrounds

/-- A round that goes on has a timestamp before the clock, and while it is not stale, it
builds on the state. -/
theorem taken_timely {s : Watch} {i : ℕ} {turn : Turn} {r : Round} {now : ℚ} {p : Progress}
    (h : Inv s) (hord : ∀ t, turn.reading = some t → t ≠ 0)
    (hclock : ∀ t, turn.reading = some t → s.clock ≤ t) (hr : s.world.rounds[i]? = some r)
    (htake : r.take cfg s.world.state turn = some (now, p)) :
    now ≠ 0 ∧ now ≤ turn.reading.getD s.clock ∧
      ((turn.reading = none → s.stale[i]? = some false) →
        p.BasedOn s.world.state now ∧ Recorded s.world.state now) := by
  cases turn with
  | fetched ctx now' =>
      cases hphase : r.phase with
      | probing p => simp only [Round.take, hphase] at htake; cases htake
      | fetching =>
          simp only [Round.take, hphase] at htake
          cases htake
          refine ⟨hord _ rfl, le_refl _, fun _ ↦ ⟨?_, h.recorded.mono (hclock _ rfl)⟩⟩
          exact advance_basedOn cfg s.world.state ctx now r.entries fun k c hc ↦ nomatch hc
  | probed a =>
      cases hphase : r.phase with
      | fetching => simp only [Round.take, hphase] at htake; cases htake
      | probing p =>
          simp only [Round.take, hphase] at htake
          cases htake
          have htimely := h.timely i r p hr hphase
          refine ⟨htimely.seen, htimely.past, fun hstale ↦ ?_⟩
          obtain ⟨hbased, hrecorded⟩ := htimely.fresh (hstale rfl)
          exact ⟨hbased.resume cfg a, hrecorded⟩

/-- What a round that gets so far holds. -/
theorem taken_holds {s : Watch} {turn : Turn} {r : Round} {now : ℚ} {p : Progress}
    (hload : r.Holds) (htake : r.take cfg s.world.state turn = some (now, p)) :
    ∃ ctx rest, p.Holds cfg ctx r.entries rest := by
  cases turn with
  | fetched ctx now' =>
      cases hphase : r.phase with
      | probing p => simp only [Round.take, hphase] at htake; cases htake
      | fetching =>
          simp only [Round.take, hphase] at htake
          cases htake
          exact ⟨ctx, r.entries, @advance_holds cfg s.world.state ctx now r.entries [] _ r.loadable
            shows_nil⟩
  | probed a =>
      cases hphase : r.phase with
      | fetching => simp only [Round.take, hphase] at htake; cases htake
      | probing p =>
          simp only [Round.take, hphase] at htake
          cases htake
          unfold Round.Holds at hload
          rw [hphase] at hload
          exact ⟨p.ctx, p.rest, hload.resume r.loadable s.world.state a⟩

theorem Timely.mono {state : Registry} {clock clock' : ℚ} {stale : Option Bool} {p : Probing}
    (h : Timely state clock stale p) (hle : clock ≤ clock') : Timely state clock' stale p :=
  ⟨h.seen, h.past.trans hle, h.fresh⟩

/-- After a round is gone, each of the others stands where it stood before, or one place on. -/
theorem exists_before_erase (rounds : List Round) (stale : List Bool) (i j : ℕ) :
    ∃ j' : ℕ, (rounds.eraseIdx i)[j]? = rounds[j']? ∧ (stale.eraseIdx i)[j]? = stale[j']? := by
  rw [List.getElem?_eraseIdx, List.getElem?_eraseIdx]
  split
  · exact ⟨j, rfl, rfl⟩
  · exact ⟨j + 1, rfl, rfl⟩

/-- A round that raises leaves the others as they are. -/
theorem inv_raised {s : Watch} (h : Inv s) {clock : ℚ} (hle : s.clock ≤ clock) (i : ℕ) :
    Inv ⟨{ s.world with rounds := s.world.rounds.eraseIdx i }, clock, s.stale.eraseIdx i⟩ where
  holds r hr := h.holds r (List.mem_of_mem_eraseIdx hr)
  length := by rw [List.length_eraseIdx, List.length_eraseIdx, h.length]
  recorded := h.recorded.mono hle
  timely j r p hr hp := by
    obtain ⟨j', hround, hstale⟩ := exists_before_erase s.world.rounds s.stale i j
    rw [hstale]
    exact (h.timely j' r p (hround ▸ hr) hp).mono hle

/-- A round that waits again is timely if what it has got is. -/
theorem inv_waiting {s : Watch} (h : Inv s) {clock : ℚ} (hle : s.clock ≤ clock) {i : ℕ}
    {r : Round} (hr : s.world.rounds[i]? = some r) {p : Probing} (hholds : p.Holds r.entries)
    {stale : List Bool} (hlength : stale.length = s.stale.length)
    (hothers : ∀ j, j ≠ i → stale[j]? = s.stale[j]?)
    (hp : Timely s.world.state clock stale[i]? p) :
    Inv ⟨{ s.world with rounds := s.world.rounds.set i { r with phase := .probing p } }, clock,
      stale⟩ where
  holds r' hr' := by
    rcases List.mem_or_eq_of_mem_set hr' with hr' | rfl
    · exact h.holds r' hr'
    · exact hholds
  length := by rw [hlength, h.length, List.length_set]
  recorded := h.recorded.mono hle
  timely j r' p' hr' hp' := by
    by_cases hj : j = i
    · subst hj
      rw [List.getElem?_set_self (List.getElem?_eq_some_iff.mp hr).1] at hr'
      cases hr'
      cases hp'
      exact hp
    · rw [List.getElem?_set_ne (Ne.symm hj)] at hr'
      rw [hothers j hj]
      exact (h.timely j r' p' hr' hp').mono hle

/-- A round that publishes makes the others stale. -/
theorem inv_finished {s : Watch} (h : Inv s) {clock : ℚ} (hle : s.clock ≤ clock) (i : ℕ)
    {state : Registry} (hstate : Recorded state clock) (now : ℚ) :
    Inv ⟨{ s.world with
        state := state
        last_refresh_at := now
        rounds := s.world.rounds.eraseIdx i }, clock, (s.stale.map fun _ ↦ true).eraseIdx i⟩ where
  holds r hr := h.holds r (List.mem_of_mem_eraseIdx hr)
  length := by rw [List.length_eraseIdx, List.length_eraseIdx, List.length_map, h.length]
  recorded := hstate
  timely j r p hr hp := by
    obtain ⟨j', hround, hstale⟩ := exists_before_erase s.world.rounds (s.stale.map fun _ ↦ true) i j
    obtain ⟨hseen, hpast, -⟩ := h.timely j' r p (hround ▸ hr) hp
    refine ⟨hseen, hpast.trans hle, fun hfalse ↦ ?_⟩
    rw [hstale, List.getElem?_map] at hfalse
    obtain ⟨b, -, htrue⟩ := Option.map_eq_some_iff.mp hfalse
    cases htrue

theorem get?_update_empty (new_state : Registry) (k : Key) :
    (Dict.update ∅ new_state).get? k = new_state.get? k := by
  rw [Dict.get?_update, Dict.get?_empty]
  cases new_state.get? k <;> rfl

/-- A map that shows some entries has the id of each. -/
theorem mem_of_shows {state : Registry} {es : List Entry} (h : Shows state es) {k : Key}
    (hk : k ∈ es.map Entry.key) : k ∈ state := by
  have hlookup : ((es.map fun e ↦ (e.key, e)).lookup k).isSome := by
    rw [Option.isSome_iff_ne_none, ne_eq, List.lookup_eq_none_iff]
    intro hno
    obtain ⟨e, he, rfl⟩ := List.mem_map.mp hk
    simpa using hno _ (List.mem_map.mpr ⟨e, he, rfl⟩)
  have hview := congrArg Option.isSome (h k)
  rw [Option.isSome_map, Option.isSome_map, hlookup] at hview
  exact Dict.get?_isSome_iff.mp hview

/-- A turn of a round in order keeps the invariant, and under every id that the file lists
the times go on. -/
theorem inv_resume {s s' : Watch} {i : ℕ} {turn : Turn} (h : Inv s)
    (hord : InOrder cfg s (.resume i turn)) (hs : step cfg s (.resume i turn) = some s') :
    Inv s' ∧ ∀ k, Listed cfg s.world.file k → GoesOn k s.world.state s'.world.state := by
  obtain ⟨r, now, p, hr, htake, hclock, rfl⟩ := step_resume hs
  obtain ⟨hepoch, hpublish⟩ := hord
  obtain ⟨hseen, hpast, hfresh⟩ := taken_timely h hepoch hclock hr htake
  obtain ⟨ctx, rest, hholds⟩ := taken_holds (h.holds r (List.mem_of_getElem? hr)) htake
  obtain ⟨hfinished, hwaiting⟩ := Round.take_spec htake
  have hle : s.clock ≤ turn.reading.getD s.clock := by
    cases ht : turn.reading with
    | none => exact le_refl _
    | some t => exact hclock t ht
  cases p with
  | raised exc => exact ⟨inv_raised h hle i, fun k _ ↦ GoesOn.refl k _⟩
  | waiting p =>
      cases hwaiting p rfl
      have hmark : mark s.stale i turn (.waiting p) =
          if turn.reading.isSome then s.stale.set i false else s.stale := rfl
      refine ⟨inv_waiting h hle hr hholds ?_ ?_ ⟨hseen, hpast, fun hstale ↦ ?_⟩,
        fun k _ ↦ GoesOn.refl k _⟩
      · rw [hmark]
        split
        · exact List.length_set
        · rfl
      · intro j hj
        rw [hmark]
        split
        · exact List.getElem?_set_ne (Ne.symm hj)
        · rfl
      · obtain ⟨⟨-, hbased⟩, hrecorded⟩ := hfresh fun hreading ↦ by
          simpa [hmark, hreading] using hstale
        exact ⟨hbased, hrecorded⟩
  | finished new_state =>
      obtain ⟨hstale, hlists⟩ := hpublish r hr (hfinished new_state rfl)
      obtain ⟨hbased, hrecorded⟩ := hfresh hstale
      have hlookup := get?_update_empty new_state
      refine ⟨inv_finished h hle i (fun k c hc ↦ ?_) now, fun k hk c t hc ht ↦ ?_⟩
      · rw [hlookup] at hc
        obtain ⟨t, ht, hbefore⟩ := hbased.recorded hrecorded hseen k c hc
        exact ⟨t, ht, hbefore.mono hpast⟩
      · have hmem : k ∈ new_state :=
          mem_of_shows hholds.1 (hlists k (Dict.mem_iff_get?.mpr ⟨c, hc⟩) hk)
        obtain ⟨c', t', hc', ht', hgoes⟩ := hbased.goesOn hrecorded hmem c t hc ht
        exact ⟨c', t', (hlookup k).trans hc', ht', hgoes⟩

/-- A step in order keeps the invariant, and under every id that the file lists the times
go on. -/
theorem inv_step {s s' : Watch} {l : Label} (h : Inv s) (hord : InOrder cfg s l)
    (hs : step cfg s l = some s') :
    Inv s' ∧ ∀ k, Listed cfg s.world.file k → GoesOn k s.world.state s'.world.state := by
  have hbegins : ∀ w, World.step cfg s.world l = some w → (∀ i turn, l ≠ .resume i turn) →
      s' = s.begun w →
      Inv s' ∧ ∀ k, Listed cfg s.world.file k → GoesOn k s.world.state s'.world.state := by
    rintro w hw hl rfl
    obtain ⟨hinv, hstate⟩ := inv_begun h hw hl
    refine ⟨hinv, fun k _ ↦ ?_⟩
    show GoesOn k s.world.state w.state
    rw [hstate]
    exact GoesOn.refl k _
  cases l with
  | refresh =>
      cases hs
      exact hbegins _ rfl nofun rfl
  | request r write =>
      obtain ⟨w, hw, heq⟩ := Option.map_eq_some_iff.mp hs
      exact hbegins w hw nofun heq.symm
  | resume i turn => exact inv_resume h hord hs

end Watch

/-! ## Every run -/

/-- In every run whose steps are in order, under a clock that does not run back, an entry
that is published goes on being published while its id stays in the configuration, and its
times go on: it is seen first when it was, it is not probed or ok earlier than it was, and
once ok it has been ok. -/
theorem history_goes_on (cfg : Settings) {file : ConfigFile} {clock : ℚ} {ls ls' : List Label}
    (hord : (Watch.step cfg).Meets (InOrder cfg) (.boot file clock) (ls ++ ls')) {s s' : Watch}
    (hrun : (Watch.step cfg).run (.boot file clock) ls = some s)
    (hrun' : (Watch.step cfg).run s ls' = some s') {k : Key}
    (hstays : (Watch.step cfg).Always (fun s ↦ Listed cfg s.world.file k) s ls') {c : Entry}
    (hc : s.world.state.get? k = some c) :
    ∃ c' t t', s'.world.state.get? k = some c' ∧ c.Dated t ∧ c'.Dated t' ∧ t ≤ t' := by
  obtain ⟨hbefore, hafter⟩ := (Machine.meets_append hrun).mp hord
  have hinv : s.Inv := hbefore.invariant (fun _ _ _ hI hG hs ↦ (Watch.inv_step hI hG hs).1)
    (Watch.inv_boot file clock) hrun
  have hgoes : GoesOn k s.world.state s'.world.state := by
    refine (hafter.and hstays.meets).related (R := fun s s' ↦ GoesOn k s.world.state s'.world.state)
      (fun s ↦ GoesOn.refl k _) GoesOn.trans ?_ hinv hrun'
    rintro s l s' hI ⟨hG, hlisted⟩ hs
    obtain ⟨hI', hall⟩ := Watch.inv_step hI hG hs
    exact ⟨hI', hall k hlisted⟩
  obtain ⟨t, ht, -⟩ := hinv.recorded k c hc
  obtain ⟨c', t', hc', ht', hle⟩ := hgoes c t hc ht
  exact ⟨c', t, t', hc', ht, ht', hle⟩

/-- A round that reads the present configuration, and publishes at once, is in order. -/
theorem inOrder_fetchedAt {s : Watch} {i : ℕ} {now : ℚ} (hnow : now ≠ 0)
    (hcurrent : ∀ r es, s.world.rounds[i]? = some r → loadConfig cfg s.world.file = .ok es →
      r.entries = es) : InOrder cfg s (.resume i (fetchedAt now)) := by
  refine ⟨fun t ht ↦ ?_, fun r hr _ ↦ ⟨nofun, fun k _ hk ↦ ?_⟩⟩
  · cases ht
    exact hnow
  · obtain ⟨es, hload, hk⟩ := hk
    rwa [hcurrent r es hr hload]

theorem history_goes_on_twice :
    ∃ s s' c, (Watch.step defaults).run (.boot (oneNode (.str "tak-server")) 0)
        [.refresh, .resume 0 (fetchedAt 1)] = some s ∧
      (Watch.step defaults).run s [.refresh, .resume 0 (fetchedAt 2)] = some s' ∧
      s.world.state.get? (.str "a") = some c ∧
      ∃ c' t t', s'.world.state.get? (.str "a") = some c' ∧ c.Dated t ∧ c'.Dated t' ∧ t ≤ t' := by
  refine ⟨_, _, _, rfl, rfl, rfl, ?_⟩
  refine @history_goes_on defaults (oneNode (.str "tak-server")) 0
    [.refresh, .resume 0 (fetchedAt 1)] [.refresh, .resume 0 (fetchedAt 2)] ?_ _ _ rfl rfl
    (.str "a") ?_ _ rfl
  · refine (Machine.meets_cons rfl).mpr ⟨trivial, (Machine.meets_cons rfl).mpr ⟨?_,
      (Machine.meets_cons rfl).mpr ⟨trivial, (Machine.meets_cons rfl).mpr ⟨?_, trivial⟩⟩⟩⟩
    · refine inOrder_fetchedAt (by decide) fun r es hr hes ↦ ?_
      cases hr
      cases hes
      rfl
    · refine inOrder_fetchedAt (by decide) fun r es hr hes ↦ ?_
      cases hr
      cases hes
      rfl
  · have hlisted : Listed defaults (oneNode (.str "tak-server")) (.str "a") :=
      ⟨_, rfl, List.mem_cons_self⟩
    exact (Machine.always_cons rfl).mpr ⟨hlisted, (Machine.always_cons rfl).mpr ⟨hlisted,
      Machine.always_nil.mpr hlisted⟩⟩

/-- A configuration with one service, which is probed over HTTP. -/
def oneService : ConfigFile :=
  .document (.arr [.obj [("id", .str "a"), ("type", .str "service"), ("name", .str "A"),
    ("host", .str "10.0.0.1"), ("port", .int 8090), ("health_path", .str "/health")]])

/-- The probe of the service finds it in good health. -/
def healthy : Turn := .probed ⟨0, 200, .success⟩

/-- Two rounds overlap: the second one has its timestamp before the first one publishes. -/
theorem overlapping_rounds_forget :
    ∃ s s' c, (Watch.step defaults).run (.boot oneService 0)
        [.refresh, .refresh, .resume 0 (fetchedAt 1), .resume 1 (fetchedAt 2),
          .resume 0 healthy] = some s ∧
      (Watch.step defaults).run s [.resume 0 healthy] = some s' ∧
      (Watch.step defaults).Always (fun s ↦ Listed defaults s.world.file (.str "a")) s
        [.resume 0 healthy] ∧
      s.world.state.get? (.str "a") = some c ∧
      ¬ ∃ c' t t', s'.world.state.get? (.str "a") = some c' ∧ c.Dated t ∧ c'.Dated t' ∧ t ≤ t' := by
  refine ⟨_, _, _, rfl, rfl, ?_, rfl, ?_⟩
  · have hlisted : Listed defaults oneService (.str "a") := ⟨_, rfl, List.mem_cons_self⟩
    exact (Machine.always_cons rfl).mpr ⟨hlisted, Machine.always_nil.mpr hlisted⟩
  · rintro ⟨c', t, t', hc', ht, ht', hle⟩
    cases hc'
    have hfirst : t = ⟨1, 1, some 1⟩ := ht.unique ⟨rfl, rfl, rfl⟩
    have hsecond : t' = ⟨2, 2, some 2⟩ := ht'.unique ⟨rfl, rfl, rfl⟩
    rw [hfirst, hsecond] at hle
    exact absurd hle.1 (by decide)

end SensorFusion.Nodes
