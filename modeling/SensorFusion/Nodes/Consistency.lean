import SensorFusion.Nodes.Rounds

/-!
# The state cache follows the configuration

A round publishes what it read when it started.  If the configuration has moved on
since, publishing is harmless only as long as a round that read the present
configuration is still to come: `Orderly` asks that of every step, and under it
`Inv` is kept, which is that the cache is in step with the file unless a round
that will bring it there is in flight.
-/

namespace SensorFusion.Nodes

variable {cfg : Settings}

/-- A round read a configuration that looks like the present one. -/
def Round.Current (cfg : Settings) (file : ConfigFile) (r : Round) : Prop :=
  ∃ reg, Represents cfg file reg ∧ SameView (Registry.ofEntries r.loadable) reg

/-- The cache has the ids of the configuration file, and under each id the id, type,
name, host and port that the file gives it. -/
def World.Synced (cfg : Settings) (w : World) : Prop :=
  ∃ reg, Represents cfg w.file reg ∧ SameView w.state reg

/-- After this turn a round waits for nothing more. -/
def Round.LastTurn (cfg : Settings) (r : Round) (turn : Turn) : Prop :=
  match r.phase, turn with
  | .fetching, .fetched ctx _ => ∀ e ∈ r.entries, ¬ Waits cfg ctx e
  | .probing p, .probed _ => ∀ e ∈ p.rest, ¬ Waits cfg p.ctx e
  | _, _ => False

/-- A step keeps to the order of the configurations: a write that fails leaves the
file looking as it did, a round that goes on read no type without a hash, and a
round that read an older configuration takes its last turn only while one that
read the present configuration is in flight. -/
def Orderly (cfg : Settings) (w : World) : Label → Prop
  | .refresh => True
  | .request _ write => ∀ left exc, write = .failed left exc → ∀ reg, Represents cfg w.file reg →
      ∃ reg', Represents cfg left reg' ∧ SameView reg' reg
  | .resume i turn => ∀ r, w.rounds[i]? = some r →
      (∀ e ∈ r.entries, (e.field "type").key? ≠ none) ∧
      (r.LastTurn cfg turn → r.Current cfg w.file ∨
        ∃ j r', j ≠ i ∧ w.rounds[j]? = some r' ∧ r'.Current cfg w.file)

/-- What is known about a round in flight. -/
def Round.Holds (r : Round) : Prop :=
  match r.phase with
  | .fetching => True
  | .probing p => p.Holds r.entries

/-- The invariant: the file is a registry, and the cache is in step with it or a
round in flight will bring it there. -/
structure Inv (cfg : Settings) (w : World) : Prop where
  file : ∃ reg, Represents cfg w.file reg
  rounds : ∀ r ∈ w.rounds, r.Holds
  fresh : w.Synced cfg ∨ ∃ r ∈ w.rounds, r.Current cfg w.file

/-- The file decides the registry that it holds. -/
theorem Represents.unique {file : ConfigFile} {reg reg' : Registry}
    (h : Represents cfg file reg) (h' : Represents cfg file reg') : reg = reg' := by
  obtain ⟨es, hload, hm⟩ := h
  obtain ⟨es', hload', hm'⟩ := h'
  rw [hload] at hload'
  cases hload'
  exact Dict.ext (hm.items_eq.trans hm'.items_eq.symm)

/-- Being current survives a change of the file that leaves it looking the same. -/
theorem Round.Current.transport {file file' : ConfigFile} {reg reg' : Registry} {r : Round}
    (h : r.Current cfg file) (hreg : Represents cfg file reg) (hreg' : Represents cfg file' reg')
    (hsame : SameView reg' reg) : r.Current cfg file' := by
  obtain ⟨reg₀, hrep, hview⟩ := h
  rw [hrep.unique hreg] at hview
  exact ⟨reg', hreg', hview.trans hsame.symm⟩

/-! ## Starting a round -/

theorem current_of_load {file : ConfigFile} {es : List Entry} (h : loadConfig cfg file = .ok es)
    (hl : Loadable es) (phase : Phase) : Round.Current cfg file ⟨es, hl, phase⟩ :=
  ⟨_, ⟨es, h, models_ofEntries h⟩, SameView.refl _⟩

/-- A round that has just started read the present configuration. -/
theorem inv_beginRound {w : World} (hfile : ∃ reg, Represents cfg w.file reg)
    (hrounds : ∀ r ∈ w.rounds, r.Holds) : Inv cfg (w.beginRound cfg) := by
  obtain ⟨reg, es, hload, hm⟩ := hfile
  rw [World.beginRound_of_ok hload]
  refine ⟨⟨reg, es, hload, hm⟩, ?_, Or.inr ⟨_, List.mem_append_right _ List.mem_cons_self, ?_⟩⟩
  · intro r hr
    rcases List.mem_append.mp hr with hr | hr
    · exact hrounds r hr
    · rw [List.mem_singleton.mp hr]
      trivial
  · exact current_of_load hload _ _

/-! ## Requests -/

theorem inv_request {w w' : World} {r : Request} {write : Write} (h : Inv cfg w)
    (hord : Orderly cfg w (.request r write)) (hs : World.step cfg w (.request r write) = some w') :
    Inv cfg w' := by
  obtain ⟨reg, hreg⟩ := h.file
  obtain ⟨es, hload, hm⟩ := id hreg
  cases hentries : r.entries cfg w.file with
  | error f =>
      -- Turned away before the write: nothing has changed.
      simp only [World.step, serve_error hentries write] at hs
      cases hs
      exact h
  | ok es' =>
      cases write with
      | done =>
          simp only [World.step, serve_ok hentries] at hs
          cases hs
          exact inv_beginRound (represents_of_entries_ok hload hm hentries) h.rounds
      | failed left exc =>
          obtain ⟨reg', hreg', hsame⟩ := hord left exc rfl reg hreg
          simp only [World.step, serve, hentries, saveConfig] at hs
          cases hs
          refine ⟨⟨reg', hreg'⟩, h.rounds, ?_⟩
          rcases h.fresh with ⟨reg₀, hrep, hview⟩ | ⟨r₀, hr₀, hcur⟩
          · rw [hrep.unique hreg] at hview
            exact Or.inl ⟨reg', hreg', hview.trans hsame.symm⟩
          · exact Or.inr ⟨r₀, hr₀, hcur.transport hreg hreg' hsame⟩

/-! ## A round going on -/

/-- The three ways in which a round goes on, given what is known about how far it
gets. -/
theorem inv_settle {w : World} {i : ℕ} {r : Round} {now : ℚ} {p : Progress} {ctx : Ctx}
    {rest : List Entry} (h : Inv cfg w) (hi : w.rounds[i]? = some r)
    (hp : p.Holds cfg ctx r.entries rest) (hsub : ∀ e ∈ rest, e ∈ r.entries)
    (htypes : ∀ e ∈ r.entries, (e.field "type").key? ≠ none)
    (hlast : (∀ e ∈ rest, ¬ Waits cfg ctx e) → r.Current cfg w.file ∨
      ∃ j r', j ≠ i ∧ w.rounds[j]? = some r' ∧ r'.Current cfg w.file) :
    Inv cfg (w.settle i r now p) := by
  cases p with
  | raised exc =>
      obtain ⟨e, he, hkey⟩ := hp
      exact absurd hkey (htypes e (hsub e he))
  | waiting p =>
      refine ⟨h.file, ?_, ?_⟩
      · intro r' hr'
        rcases List.mem_or_eq_of_mem_set hr' with hr' | rfl
        · exact h.rounds r' hr'
        · exact hp
      · rcases h.fresh with hsync | ⟨r₀, hr₀, hcur⟩
        · exact Or.inl hsync
        · refine Or.inr ?_
          obtain ⟨j, hj⟩ := List.mem_iff_getElem?.mp hr₀
          by_cases hji : j = i
          · subst hji
            rw [hi] at hj
            cases hj
            refine ⟨{ r with phase := .probing p }, ?_, hcur⟩
            exact List.mem_set (List.getElem?_eq_some_iff.mp hi).1 _
          · refine ⟨r₀, List.mem_iff_getElem?.mpr ⟨j, ?_⟩, hcur⟩
            rw [← hj]
            exact List.getElem?_set_ne fun hij ↦ hji hij.symm
  | finished new_state =>
      obtain ⟨hshows, hwaits⟩ := hp
      refine ⟨h.file, fun r' hr' ↦ h.rounds r' (List.mem_of_mem_eraseIdx hr'), ?_⟩
      rcases hlast hwaits with ⟨reg, hrep, hview⟩ | ⟨j, r', hji, hj, hcur⟩
      · refine Or.inl ⟨reg, hrep, SameView.trans (sameView_iff.mpr fun k ↦ ?_) hview⟩
        have hupdate : (Dict.update ∅ new_state).get? k = new_state.get? k := by
          rw [Dict.get?_update, Dict.get?_empty]
          cases new_state.get? k <;> rfl
        change ((Dict.update ∅ new_state).get? k).map viewOf = _
        rw [hupdate]
        exact hshows k
      · exact Or.inr ⟨r', List.mem_eraseIdx_iff_getElem?.mpr ⟨j, hji, hj⟩, hcur⟩

theorem inv_resume {w w' : World} {i : ℕ} {turn : Turn} (h : Inv cfg w)
    (hord : Orderly cfg w (.resume i turn)) (hs : World.step cfg w (.resume i turn) = some w') :
    Inv cfg w' := by
  cases hi : w.rounds[i]? with
  | none => simp only [World.step, hi] at hs; cases hs
  | some r =>
      obtain ⟨htypes, hlast⟩ := hord r hi
      have hholds := h.rounds r (List.mem_of_getElem? hi)
      simp only [World.step, hi] at hs
      unfold Round.Holds at hholds
      unfold Round.LastTurn at hlast
      cases hphase : r.phase with
      | fetching =>
          cases turn with
          | probed a => rw [hphase] at hs; cases hs
          | fetched ctx now =>
              rw [hphase] at hs hlast
              cases hs
              have hp := @advance_holds cfg w.state ctx now r.entries [] _ r.loadable shows_nil
              exact inv_settle h hi hp (fun _ he ↦ he) htypes hlast
      | probing p =>
          rw [hphase] at hs hlast hholds
          cases turn with
          | fetched ctx now => cases hs
          | probed a =>
              cases hs
              have hp := @Probing.Holds.resume cfg p r.entries hholds r.loadable w.state a
              obtain ⟨done, hentries, -⟩ := hholds.entered
              refine inv_settle h hi hp (fun e he ↦ ?_) htypes hlast
              rw [hentries]
              exact List.mem_append_right _ (List.mem_cons_of_mem _ he)

/-! ## Every run -/

/-- An orderly step keeps the invariant. -/
theorem inv_step {w w' : World} {l : Label} (h : Inv cfg w) (hord : Orderly cfg w l)
    (hs : World.step cfg w l = some w') : Inv cfg w' := by
  cases l with
  | refresh => cases hs; exact inv_beginRound h.file h.rounds
  | request r write => exact inv_request h hord hs
  | resume i turn => exact inv_resume h hord hs

/-- In every run that begins with the start-up round on a loadable configuration
and whose steps are all orderly, the cache is in step with the file whenever no
round is in flight. -/
theorem synced_of_orderly (cfg : Settings) {file : ConfigFile} {es : List Entry}
    (hload : loadConfig cfg file = .ok es) {ls : List Label}
    (hord : (World.step cfg).Meets (Orderly cfg) (.boot file) (.refresh :: ls)) {w : World}
    (hrun : (World.step cfg).run (.boot file) (.refresh :: ls) = some w)
    (hidle : w.rounds = []) : w.Synced cfg := by
  obtain ⟨w₀, hstart, hrest⟩ := Machine.run_cons_eq_some.mp hrun
  have hfile : ∃ reg, Represents cfg (World.boot file).file reg :=
    ⟨_, es, hload, models_ofEntries hload⟩
  have hinv₀ : Inv cfg w₀ := by
    cases hstart
    exact inv_beginRound hfile (by simp [World.boot])
  have hinv := ((Machine.meets_cons hstart).mp hord).2.invariant
    (fun _ _ _ hI hG hs ↦ inv_step hI hG hs) hinv₀ hrest
  rcases hinv.fresh with hsync | ⟨r, hr, -⟩
  · exact hsync
  · rw [hidle] at hr
    exact absurd hr List.not_mem_nil

/-- The fetches of a round come back empty-handed at time `now`. -/
def fetchedAt (now : ℚ) : Turn := .fetched ⟨.null, .null⟩ now

/-- The probe of a middleware connects at once. -/
def probedWell : Turn := .probed ⟨1 / 100, 0, .success⟩

/-- A create overtakes a poll round, whose old configuration is published while the round of the
create still waits for a probe; then the first node is deleted. -/
def overlapping : List Label :=
  [.refresh, .resume 0 (fetchedAt 1), .refresh, .request (.create secondNode) .done,
   .resume 1 (fetchedAt 2), .resume 0 (fetchedAt 3), .resume 0 probedWell,
   .request (.delete "a") .done, .resume 0 (fetchedAt 4), .resume 0 probedWell]

theorem overlapping_orderly :
    (World.step defaults).Meets (Orderly defaults) (.boot (oneNode (.str "tak-server")))
      overlapping := by
  have hdone : ∀ {w : World} {r : Request}, Orderly defaults w (.request r .done) :=
    fun _ _ h ↦ by cases h
  refine (Machine.meets_cons rfl).mpr ⟨trivial, (Machine.meets_cons rfl).mpr ⟨?_,
    (Machine.meets_cons rfl).mpr ⟨trivial, (Machine.meets_cons rfl).mpr ⟨hdone,
    (Machine.meets_cons rfl).mpr ⟨?_, (Machine.meets_cons rfl).mpr ⟨?_,
    (Machine.meets_cons rfl).mpr ⟨?_, (Machine.meets_cons rfl).mpr ⟨hdone,
    (Machine.meets_cons rfl).mpr ⟨?_, (Machine.meets_cons rfl).mpr ⟨?_, trivial⟩⟩⟩⟩⟩⟩⟩⟩⟩⟩
  all_goals
    intro r hr
    cases hr
  · exact ⟨ne_none_of_hashable (by decide), fun _ ↦ .inl (current_of_load rfl _ _)⟩
  · exact ⟨ne_none_of_hashable (by decide), fun _ ↦ .inl (current_of_load rfl _ _)⟩
  · -- The poll round is out of date, but the round of the create is not.
    exact ⟨ne_none_of_hashable (by decide),
      fun _ ↦ .inr ⟨1, _, by decide, rfl, current_of_load rfl _ _⟩⟩
  all_goals exact ⟨ne_none_of_hashable (by decide), fun _ ↦ .inl (current_of_load rfl _ _)⟩

theorem synced_of_orderly_overlapping :
    ∃ w, (World.step defaults).run (.boot (oneNode (.str "tak-server"))) overlapping = some w ∧
      w.state.keys = [.str "m"] ∧ w.Synced defaults :=
  ⟨_, rfl, rfl, synced_of_orderly defaults rfl overlapping_orderly rfl rfl⟩

/-- A create that overtakes a poll round: the poll round read the configuration
before the new node was in it, and publishes it last. -/
def overtaken : List Label :=
  [.refresh, .resume 0 (fetchedAt 1), .refresh,
   .request (.create { NodeFields.none with
     port := some ⟨6969, by decide⟩, id := ⟨"b", by decide⟩, type := ⟨"tak-server", by decide⟩,
     name := ⟨"B", by decide⟩, host := ⟨"10.0.0.2", by decide⟩ }) .done,
   .resume 1 (fetchedAt 2), .resume 0 (fetchedAt 3)]

/-- The node that was created is not in the cache, and nothing is in flight that
would bring it there. -/
theorem overtaken_not_synced :
    ∃ w, (World.step defaults).run (.boot (oneNode (.str "tak-server"))) overtaken = some w ∧
      w.rounds = [] ∧ ¬ w.Synced defaults := by
  refine ⟨_, rfl, rfl, ?_⟩
  rintro ⟨reg, ⟨es, hload, hm⟩, hview⟩
  have hreg : Key.str "b" ∈ reg := by
    cases hload
    rw [Dict.mem_def, Dict.keys, hm.items_eq]
    exact List.mem_cons_of_mem _ List.mem_cons_self
  have hstate := (hview.ids (.str "b")).mpr hreg
  rcases List.mem_cons.mp hstate with h | h
  · exact absurd h (by decide)
  · exact absurd h List.not_mem_nil

end SensorFusion.Nodes
