import SensorFusion.Cot.Bridge
import SensorFusion.Lib.Machine

/-!
# The bridge's counters

Every connection runs `handle_client` as a task of its own, and all of them count in the one
`_stats`.  A frame is handled without an await, so the tasks interleave frame by frame, and
the bridge is a machine whose labels say on which connection the next frame is read.  A
frame that is counted in is counted out by exactly one of the four outcomes, unless it
cannot be parsed or an exception leaves `_convert_and_send`.
-/

namespace SensorFusion.Cot

open Proto (Message)

variable {parse : List UInt8 → Option Message} {fb : Fallback}

/-! ## The machine -/

/-- One turn of the loop of `handle_client`: the statistics after it, and whether the loop
goes on. -/
def handleFrame (parse : List UInt8 → Option Message) (fb : Fallback) (f : List UInt8 × Answer)
    (stats : Stats) : Stats × Bool :=
  let stats := { stats with frames_in := stats.frames_in + 1 }
  match parse f.1 with
  | none => (stats, true)
  | some m =>
      let (stats, sent) := convertAndSend fb m f.2 stats
      (stats, sent.isOk)

/-- The bridge: its statistics, how many connections it has accepted, and which of them are
open. -/
structure Bridge where
  stats : Stats
  accepted : ℕ
  clients : List ℕ
deriving DecidableEq

/-- Before anything has connected. -/
def Bridge.start : Bridge := ⟨⟨0, 0, 0, 0, 0⟩, 0, []⟩

/-- What can happen: a client connects, `read_frames` yields a frame on a connection, or a
connection ends without one. -/
inductive Event where
  | connect
  | frame (client : ℕ) (f : List UInt8 × Answer)
  | leave (client : ℕ)

/-- The bridge as a machine. -/
def Bridge.step (parse : List UInt8 → Option Message) (fb : Fallback) : Machine Bridge Event
  | b, .connect => some { b with
      accepted := b.accepted + 1
      clients := b.clients ++ [b.accepted] }
  | b, .frame client f =>
      if client ∈ b.clients then
        let (stats, goes_on) := handleFrame parse fb f b.stats
        some { b with
          stats := stats
          clients := if goes_on then b.clients else b.clients.erase client }
      else none
  | b, .leave client =>
      if client ∈ b.clients then some { b with clients := b.clients.erase client } else none

/-- The frames of one connection, one after the other. -/
theorem handleClient_cons (f : List UInt8 × Answer) (frames : List (List UInt8 × Answer))
    (stats : Stats) :
    (handleClient parse fb stats (f :: frames)).1 =
      if (handleFrame parse fb f stats).2 then
        (handleClient parse fb (handleFrame parse fb f stats).1 frames).1
      else (handleFrame parse fb f stats).1 := by
  obtain ⟨payload, ans⟩ := f
  rw [handleClient, handleFrame]
  dsimp only
  cases parse payload with
  | none => rfl
  | some m =>
      rcases hsend : convertAndSend fb m ans { stats with frames_in := stats.frames_in + 1 } with
        ⟨stats', e | h⟩
      · simp only [hsend]
        rfl
      · simp only [hsend]
        rfl

/-- `handleClient` is what the bridge does with a connection that is left alone: its
statistics are those after the frames that the connection lives to see. -/
theorem handleClient_alone {b : Bridge} {client : ℕ} (hopen : client ∈ b.clients)
    (frames : List (List UInt8 × Answer)) :
    ∃ seen b', seen <+: frames ∧
      (Bridge.step parse fb).run b (seen.map (.frame client)) = some b' ∧
      b'.stats = (handleClient parse fb b.stats frames).1 := by
  induction frames generalizing b with
  | nil => exact ⟨[], b, List.prefix_rfl, rfl, rfl⟩
  | cons f frames ih =>
      have hstep : Bridge.step parse fb b (.frame client f) = some { b with
          stats := (handleFrame parse fb f b.stats).1
          clients := if (handleFrame parse fb f b.stats).2 then b.clients
            else b.clients.erase client } := if_pos hopen
      rw [handleClient_cons]
      cases hgo : (handleFrame parse fb f b.stats).2 with
      | false =>
          refine ⟨[f], _, List.cons_prefix_cons.mpr ⟨rfl, List.nil_prefix⟩,
            Machine.run_cons_eq_some.mpr ⟨_, hstep, rfl⟩, rfl⟩
      | true =>
          rw [hgo, if_pos rfl] at hstep
          obtain ⟨seen, b', hseen, hrun, hstats⟩ :=
            @ih ⟨(handleFrame parse fb f b.stats).1, b.accepted, b.clients⟩ hopen
          exact ⟨f :: seen, b', List.cons_prefix_cons.mpr ⟨rfl, hseen⟩,
            Machine.run_cons_eq_some.mpr ⟨_, hstep, hrun⟩, hstats⟩

/-! ## The balance -/

/-- Every frame that came in has one outcome. -/
def Stats.Balanced (s : Stats) : Prop :=
  s.frames_in = s.cot_out + s.skipped_no_position + s.skipped_no_mapping + s.send_errors

instance (s : Stats) : Decidable s.Balanced := inferInstanceAs (Decidable (_ = _))

/-- A frame that can be parsed and does no harm. -/
def Accountable (parse : List UInt8 → Option Message) (fb : Fallback) (f : List UInt8 × Answer) :
    Prop :=
  (parse f.1).isSome ∧ Harmless parse fb f

/-- A message that ends well moves one of the four outcomes by one, and one that does not
moves none. -/
theorem convertAndSend_balance (m : Message) (ans : Answer) {stats : Stats}
    (h : stats.frames_in = stats.cot_out + stats.skipped_no_position +
      stats.skipped_no_mapping + stats.send_errors + 1) :
    (convertAndSend fb m ans stats).1.Balanced ↔
      ∃ r, (convertAndSend fb m ans stats).2 = .ok r := by
  unfold convertAndSend Stats.Balanced
  cases convert fb ans.now m with
  | error e =>
      refine iff_of_false ?_ fun ⟨r, hr⟩ ↦ nomatch hr
      dsimp only
      omega
  | ok xml =>
      cases xml with
      | none =>
          dsimp only
          split
          · refine iff_of_true ?_ ⟨_, rfl⟩
            dsimp only
            omega
          · refine iff_of_true ?_ ⟨_, rfl⟩
            dsimp only
            omega
      | some xml =>
          dsimp only
          rcases ans.socket with exc | exc | ⟨⟩
          · refine iff_of_false ?_ fun ⟨r, hr⟩ ↦ nomatch hr
            dsimp only
            omega
          · refine iff_of_true ?_ ⟨_, rfl⟩
            dsimp only
            omega
          · refine iff_of_true ?_ ⟨_, rfl⟩
            dsimp only
            omega

/-- A frame keeps the balance exactly when it is accountable. -/
theorem handleFrame_balance (f : List UInt8 × Answer) {stats : Stats} (h : stats.Balanced) :
    (handleFrame parse fb f stats).1.Balanced ↔ Accountable parse fb f := by
  obtain ⟨payload, ans⟩ := f
  unfold Stats.Balanced at h
  rw [handleFrame]
  dsimp only
  cases hparse : parse payload with
  | none =>
      refine iff_of_false ?_ fun hacc ↦ ?_
      · unfold Stats.Balanced
        dsimp only
        omega
      · have hsome : (parse payload).isSome := hacc.1
        rw [hparse] at hsome
        cases hsome
  | some m =>
      dsimp only
      rw [convertAndSend_balance m ans (by dsimp only; omega), convertAndSend_ok_iff fb m ans]
      unfold Accountable Harmless
      dsimp only
      rw [hparse]
      constructor
      · intro hok
        refine ⟨rfl, fun m' hm' hpos ↦ ?_⟩
        cases hm'
        exact hok hpos
      · rintro ⟨-, hharm⟩
        exact hharm m rfl

/-- An event that brings no frame, or an accountable one. -/
def Event.Accountable (parse : List UInt8 → Option Message) (fb : Fallback) : Event → Prop
  | .frame _ f => Cot.Accountable parse fb f
  | .connect | .leave _ => True

theorem step_balance {b b' : Bridge} {e : Event} (h : b.stats.Balanced)
    (hs : Bridge.step parse fb b e = some b') :
    b'.stats.Balanced ↔ e.Accountable parse fb := by
  cases e with
  | connect =>
      cases hs
      exact iff_of_true h trivial
  | leave client =>
      simp only [Bridge.step] at hs
      split at hs
      · cases hs
        exact iff_of_true h trivial
      · cases hs
  | frame client f =>
      simp only [Bridge.step] at hs
      split at hs
      · cases hs
        exact handleFrame_balance f h
      · cases hs

/-- So `handle_client` keeps the balance of a bridge that has nothing else to do, as long as the
frames are accountable. -/
theorem handleClient_balance {stats : Stats} (h : stats.Balanced)
    {frames : List (List UInt8 × Answer)} (hframes : ∀ f ∈ frames, Accountable parse fb f) :
    (handleClient parse fb stats frames).1.Balanced := by
  have hopen : 0 ∈ (⟨stats, 1, [0]⟩ : Bridge).clients := List.mem_singleton_self 0
  obtain ⟨seen, b, hseen, hrun, hstats⟩ : ∃ seen b, seen <+: frames ∧
      (Bridge.step parse fb).run ⟨stats, 1, [0]⟩ (seen.map (.frame 0)) = some b ∧
      b.stats = (handleClient parse fb stats frames).1 := handleClient_alone hopen frames
  have hmeets := (Machine.meets_iff_forall (P := Event.Accountable parse fb) hrun).mpr <| by
    intro e he
    obtain ⟨f, hf, rfl⟩ := List.mem_map.mp he
    exact hframes f (hseen.subset hf)
  rw [← hstats]
  exact hmeets.invariant (I := fun b ↦ b.stats.Balanced)
    (fun _ _ _ hbalanced hevent hs ↦ (step_balance hbalanced hs).mpr hevent) h hrun

/-- Whatever the connections and however their frames interleave, the counters balance in
every state of a run if and only if every frame that comes is accountable. -/
theorem balanced_iff_accountable {parse : List UInt8 → Option Message} {fb : Fallback}
    {es : List Event} {b : Bridge} (hrun : (Bridge.step parse fb).run .start es = some b) :
    (Bridge.step parse fb).Always (fun b ↦ b.stats.Balanced) .start es ↔
      ∀ e ∈ es, e.Accountable parse fb := by
  rw [← Machine.meets_iff_forall hrun]
  have hstart : Bridge.start.stats.Balanced := rfl
  exact Machine.always_iff_meets_of_invariant (J := fun _ ↦ True) (fun _ _ _ _ _ ↦ trivial)
    (fun _ _ _ _ h hs ↦ (step_balance h hs).symm) trivial hstart hrun

/-- An empty status report, for which there is no position. -/
def emptyReport : List UInt8 × Answer := ([0x32, 0], ⟨0, .ok (.ok ())⟩)

/-- Two clients send one each, and the first one leaves in between. -/
def twoClients : List Event :=
  [.connect, .connect, .frame 1 emptyReport, .leave 1, .frame 0 emptyReport]

theorem balanced_iff_accountable_twoClients :
    (Bridge.step parseTwo (fallbackOf none none none)).Always (fun b ↦ b.stats.Balanced) .start
      twoClients := by
  obtain ⟨b, hrun⟩ : ∃ b, (Bridge.step parseTwo (fallbackOf none none none)).run .start twoClients =
      some b := ⟨_, rfl⟩
  have hreport : Accountable parseTwo (fallbackOf none none none) emptyReport := by
    refine ⟨rfl, fun m hm _ ↦ ?_⟩
    cases hm
    exact ⟨by decide, .ok (), rfl⟩
  refine (balanced_iff_accountable hrun).mpr fun e he ↦ ?_
  simp only [twoClients, List.mem_cons, List.not_mem_nil, or_false] at he
  rcases he with rfl | rfl | rfl | rfl | rfl
  exacts [trivial, trivial, hreport, trivial, hreport]

/-- A frame of one byte, which is no message, is counted in and never out. -/
theorem truncated_frame_disappears :
    (Bridge.step parseTwo (fallbackOf none none none)).run .start
      [.connect, .frame 0 ([0xFF], ⟨0, .ok (.ok ())⟩)] = some ⟨⟨1, 0, 0, 0, 0⟩, 1, [0]⟩ ∧
    ¬ (Bridge.step parseTwo (fallbackOf none none none)).Always (fun b ↦ b.stats.Balanced) .start
      [.connect, .frame 0 ([0xFF], ⟨0, .ok (.ok ())⟩)] := by
  have hrun : (Bridge.step parseTwo (fallbackOf none none none)).run .start
      [.connect, .frame 0 ([0xFF], ⟨0, .ok (.ok ())⟩)] = some ⟨⟨1, 0, 0, 0, 0⟩, 1, [0]⟩ := rfl
  refine ⟨hrun, fun h ↦ ?_⟩
  have hlast : (⟨1, 0, 0, 0, 0⟩ : Stats).Balanced := h _ _ List.prefix_rfl hrun
  exact absurd hlast (by decide)

end SensorFusion.Cot
