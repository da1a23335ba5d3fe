import SensorFusion.Flow.Matching
import SensorFusion.Flow.Sending

/-!
# What a flow has received

A frame comes through the reader task, the inbox and one of the two receive loops before it
is in the transcript.  None of them can change the order: what has been recorded, followed by
what is still to be looked at, is what has arrived.  Only a frame that cannot be shown falls
out of this account, and it ends the flow.

Between two frames the main task may go on to another step, never back to an earlier one.
-/

namespace SensorFusion.Flow

open Proto (Message)
open Wire (Bytes)

variable {D : Type} {pb : Protobuf D} {p : Params}

/-! ## What the transcript should say -/

/-- The parseable frame that completes with a label. -/
def inbound (pb : Protobuf D) : Label → List (Bytes × Message)
  | .arrive payload => ((pb.parse payload).map fun m ↦ (payload, m)).toList
  | _ => []

/-- The parseable frames of a run, in the order of their arrival. -/
def parseable (pb : Protobuf D) (ls : List Label) : List (Bytes × Message) :=
  ls.flatMap (inbound pb)

/-- The received entries of a transcript. -/
def received (transcript : List (Entry D)) : List (Entry D) :=
  transcript.filter fun e ↦ e.direction = .recv

/-- An entry is that of a frame. -/
structure Entry.Shows (pb : Protobuf D) (e : Entry D) (f : Bytes × Message) : Prop where
  bytes : e.bytes = f.1.length
  content : e.content = Sapient.content f.2
  message : pb.toDict f.2 = .ok e.message

/-- The received entries are those of the first of the frames, one for each, and the steps do
not go back. -/
structure InOrder (pb : Protobuf D) (frames : List (Bytes × Message))
    (transcript : List (Entry D)) : Prop where
  shown : ∃ taken, taken <+: frames ∧
    List.Forall₂ (Entry.Shows pb) (received transcript) taken
  steps : ((received transcript).map Entry.step).Pairwise (· ≤ ·)

@[simp] theorem received_snoc_sent (transcript : List (Entry D)) {e : Entry D}
    (h : e.direction = .sent) : received (transcript ++ [e]) = received transcript := by
  rw [received, List.filter_append, List.filter_singleton, h]
  exact List.append_nil _

@[simp] theorem received_snoc_recv (transcript : List (Entry D)) {e : Entry D}
    (h : e.direction = .recv) : received (transcript ++ [e]) = received transcript ++ [e] := by
  rw [received, List.filter_append, List.filter_singleton, h]
  rfl

/-! ## What the main task does to the transcript -/

/-- The step that the main task plays, or comes to next. -/
def Task.reached (t : Task D) : ℕ :=
  match t.pc with
  | .connecting => 0
  | .stepping idx => idx
  | _ => t.record.index

/-- The main task goes on without receiving anything. -/
structure Passes (t t' : Task D) : Prop where
  received : received t'.transcript = received t.transcript
  reached : t.reached ≤ t'.reached
  stays_over : t.pc.over → t'.pc.over
  returned : ∀ r, t'.pc = .returned r → r.transcript = t'.transcript

namespace Passes

variable {t : Task D}

/-- The main task goes from one point of a step to another. -/
theorem within {t' : Task D} (hover : ¬ t.pc.over) (hreached : t.reached = t.record.index)
    (hreceived : Flow.received t'.transcript = Flow.received t.transcript)
    (hindex : t'.reached = t.record.index) (hreturned : ∀ r, t'.pc ≠ .returned r) :
    Passes t t' where
  received := hreceived
  reached := by rw [hreached, hindex]
  stays_over := fun h ↦ absurd h hover
  returned := fun r hr ↦ absurd hr (hreturned r)

theorem connect (hpc : t.pc = .connecting) (o : Connect) (end_utc : String) (saved : Bool) :
    Passes t (t.connect p o end_utc saved) := by
  have hzero : t.reached = 0 := by rw [Task.reached, hpc]
  have hle (n : ℕ) : t.reached ≤ n := hzero.le.trans (Nat.zero_le n)
  have hover : ¬ t.pc.over := by rw [hpc]; exact id
  rcases Task.connect_cases p t o end_utc saved with ⟨exc, heq⟩ | ⟨-, heq⟩ | ⟨exc, heq⟩
  · rw [heq]
    exact ⟨rfl, hle _, fun h ↦ absurd h hover, nofun⟩
  · rw [heq]
    exact ⟨rfl, hle _, fun h ↦ absurd h hover, nofun⟩
  · rw [heq]
    refine ⟨rfl, hle _, fun h ↦ absurd h hover, ?_⟩
    rintro _ ⟨rfl⟩
    rfl

theorem beginStep {idx : ℕ} (hpc : t.pc = .stepping idx) (step : Step) (now : ℚ) :
    Passes t (t.beginStep idx step now) := by
  have hreached : t.reached = idx := by rw [Task.reached, hpc]
  have hover : ¬ t.pc.over := by rw [hpc]; exact id
  by_cases hgap : 0 < step.gap_before_s
  · have hpc' : (t.beginStep idx step now).pc = .sleeping := if_pos hgap
    refine ⟨rfl, ?_, fun h ↦ absurd h hover, fun r hr ↦ nomatch hpc'.symm.trans hr⟩
    rw [hreached, Task.reached, hpc']
    exact le_rfl
  · have hpc' : (t.beginStep idx step now).pc = .rendering := if_neg hgap
    refine ⟨rfl, ?_, fun h ↦ absurd h hover, fun r hr ↦ nomatch hpc'.symm.trans hr⟩
    rw [hreached, Task.reached, hpc']
    exact le_rfl

theorem rendered (hpc : t.pc = .rendering) (c : ℕ) (pending : List (Option String)) (r : Rendered)
    (now : ℚ) (write : Except String Unit) :
    Passes t (t.rendered pb p c pending r now write).1 := by
  have hreached : t.reached = t.record.index := by rw [Task.reached, hpc]
  have hover : ¬ t.pc.over := by rw [hpc]; exact id
  rcases Task.rendered_cases pb p c pending t r now write with
    ⟨errs, error, overall, heq, -⟩ | ⟨errs, m, heq, -, -⟩
  · rw [heq]
    exact within hover hreached rfl rfl nofun
  · rw [heq]
    rcases Task.send_cases pb c pending (t.note errs) m now write with
      ⟨exc, -, hsend⟩ | ⟨decoded, -, -, ⟨-, hsend⟩ | ⟨-, text, hsend⟩⟩
    · rw [hsend]
      exact within hover hreached rfl rfl nofun
    · rw [hsend]
      exact within hover hreached (received_snoc_sent _ rfl) rfl nofun
    · rw [hsend]
      exact within hover hreached (received_snoc_sent _ rfl) rfl nofun

theorem flushed (hpc : t.pc = .flushing) (o : Except String Unit) (now : ℚ) :
    Passes t (t.flushed o now) := by
  have hreached : t.reached = t.record.index := by rw [Task.reached, hpc]
  have hover : ¬ t.pc.over := by rw [hpc]; exact id
  cases o with
  | error exc => exact within hover hreached rfl rfl nofun
  | ok u => exact within hover hreached rfl rfl nofun

theorem leaveLoop (hover : ¬ t.pc.over) (hreached : t.reached = t.record.index) (drain : Bool) :
    Passes t (t.leaveLoop drain) := by
  cases drain with
  | false => exact within hover hreached rfl rfl nofun
  | true => exact within hover hreached rfl rfl nofun

theorem next (hpc : t.pc = .received) (now : ℚ) : Passes t (t.next now) := by
  have hreached : t.reached = t.record.index := by rw [Task.reached, hpc]
  have hover : ¬ t.pc.over := by rw [hpc]; exact id
  unfold Task.next
  split
  · exact within hover hreached rfl rfl nofun
  · exact within hover hreached rfl rfl nofun

theorem endStep (hpc : t.pc = .ending) (now : ℚ) : Passes t (t.endStep p now) := by
  have hreached : t.reached = t.record.index := by rw [Task.reached, hpc]
  have hover : ¬ t.pc.over := by rw [hpc]; exact id
  obtain ⟨ms, ⟨text, heq⟩ | heq⟩ := Task.endStep_cases p t now
  · rw [heq]
    exact within hover hreached rfl rfl nofun
  · rw [heq]
    by_cases hlast : t.record.index + 1 < p.steps.length
    · rw [if_pos hlast]
      exact ⟨rfl, hreached ▸ Nat.le_succ _, fun h ↦ absurd h hover, nofun⟩
    · rw [if_neg hlast]
      exact within hover hreached rfl rfl nofun

theorem close {exc : Option String} (hpc : t.pc = .closing exc) (reader : Reader)
    (end_utc : String) (saved : Bool) : Passes t (t.close p reader exc end_utc saved) := by
  have hreached : t.reached = t.record.index := by rw [Task.reached, hpc]
  rcases Task.close_cases p reader t exc end_utc saved with ⟨exc', heq⟩ | ⟨-, heq⟩
  · rw [heq]
    exact ⟨rfl, hreached.le, fun _ ↦ trivial, nofun⟩
  · rw [heq]
    refine ⟨rfl, hreached.le, fun _ ↦ trivial, ?_⟩
    rintro _ ⟨rfl⟩
    rfl

end Passes

/-- A frame that is taken from the inbox is recorded as it is, for the step being played, or
it cannot be shown and ends the flow. -/
theorem take_received {t : Task D} (hover : ¬ t.pc.over) (hreached : t.reached = t.record.index)
    (drain : Bool) (deadline now : ℚ) (item : Inbound) :
    (Passes t (t.take pb drain deadline now item) ∧ (t.take pb drain deadline now item).pc.over) ∨
    ∃ e : Entry D, e.Shows pb (item.payload, item.message) ∧ e.step = t.record.index ∧
      received (t.take pb drain deadline now item).transcript = received t.transcript ++ [e] ∧
      (t.take pb drain deadline now item).reached = t.record.index ∧
      ∀ r, (t.take pb drain deadline now item).pc ≠ .returned r := by
  unfold Task.take
  cases hd : pb.toDict item.message with
  | error exc => exact .inl ⟨.within hover hreached rfl rfl nofun, trivial⟩
  | ok decoded =>
      refine .inr ⟨stamp now .recv (Sapient.content item.message) item.payload decoded
        t.record.index, ⟨rfl, rfl, hd⟩, rfl, ?_⟩
      dsimp only
      split
      · split
        · exact ⟨received_snoc_recv _ rfl, rfl, nofun⟩
        · exact ⟨received_snoc_recv _ rfl, rfl, nofun⟩
      · exact ⟨received_snoc_recv _ rfl, rfl, nofun⟩

/-! ## The account -/

/-- What has been recorded, followed by what is still to be looked at, is what has arrived;
between them is at most what has ended the flow. -/
structure Account (pb : Protobuf D) (s : State D) (frames : List (Bytes × Message)) : Prop where
  split : ∃ taken lost,
    frames = taken ++ lost ++ (backlog pb s.conn).map (fun i ↦ (i.payload, i.message)) ∧
    List.Forall₂ (Entry.Shows pb) (received s.task.transcript) taken ∧
    (lost = [] ∨ s.task.pc.over)
  steps : ((received s.task.transcript).map Entry.step).Pairwise (· ≤ ·)
  reached : ∀ e ∈ received s.task.transcript, e.step ≤ s.task.reached
  returned : ∀ r, s.task.pc = .returned r → r.transcript = s.task.transcript

theorem account_start : Account pb (State.start : State D) [] :=
  ⟨⟨[], [], rfl, .nil, .inl rfl⟩, .nil, nofun, nofun⟩

namespace Account

variable {s : State D} {frames : List (Bytes × Message)}

/-- Only the connection changes. -/
theorem conn (h : Account pb s frames) {c : Conn} {xs : List (Bytes × Message)}
    (hc : (backlog pb c).map (fun i ↦ (i.payload, i.message)) =
      (backlog pb s.conn).map (fun i ↦ (i.payload, i.message)) ++ xs) :
    Account pb ⟨s.task, c⟩ (frames ++ xs) := by
  obtain ⟨⟨taken, lost, rfl, hshows, hlost⟩, hsteps, hreached, hreturned⟩ := h
  refine ⟨⟨taken, lost, ?_, hshows, hlost⟩, hsteps, hreached, hreturned⟩
  rw [hc, List.append_assoc]

/-- The main task goes on without receiving anything. -/
theorem pass (h : Account pb s frames) {t : Task D} (ht : Passes s.task t) :
    Account pb ⟨t, s.conn⟩ (frames ++ []) := by
  obtain ⟨⟨taken, lost, rfl, hshows, hlost⟩, hsteps, hreached, -⟩ := h
  refine ⟨⟨taken, lost, List.append_nil _, ?_, hlost.imp_right ht.stays_over⟩, ?_, ?_, ht.returned⟩
  · rwa [ht.received]
  · rwa [ht.received]
  · rw [ht.received]
    exact fun e he ↦ (hreached e he).trans ht.reached

/-- The main task takes a frame. -/
theorem take (h : Account pb s frames) (hover : ¬ s.task.pc.over)
    (hidx : s.task.reached = s.task.record.index) (drain : Bool) (deadline now : ℚ)
    {item : Inbound} {inbox : List Inbound} (hinbox : s.conn.inbox = item :: inbox) :
    Account pb ⟨s.task.take pb drain deadline now item, { s.conn with inbox := inbox }⟩
      (frames ++ []) := by
  obtain ⟨⟨taken, lost, rfl, hshows, hlost⟩, hsteps, hreached, -⟩ := h
  rw [backlog_take hinbox, List.map_cons, List.append_nil]
  rcases take_received hover hidx drain deadline now item with
    ⟨hpass, hended⟩ | ⟨e, he, hstep, hreceived, hidx', hreturned⟩
  · refine ⟨⟨taken, lost ++ [(item.payload, item.message)], ?_, ?_, .inr hended⟩, ?_, ?_,
      hpass.returned⟩
    · simp only [List.append_assoc, List.singleton_append]
    · rwa [hpass.received]
    · rwa [hpass.received]
    · rw [hpass.received]
      exact fun e he ↦ (hreached e he).trans hpass.reached
  · have hnone : lost = [] := hlost.resolve_right hover
    subst hnone
    have hle : ∀ e' ∈ received s.task.transcript, e'.step ≤ e.step := by
      rw [hstep, ← hidx]
      exact hreached
    refine ⟨⟨taken ++ [(item.payload, item.message)], [], ?_, ?_, .inl rfl⟩, ?_, ?_,
      fun r hr ↦ absurd hr (hreturned r)⟩
    · simp only [List.append_assoc, List.nil_append, List.singleton_append]
    · rw [hreceived]
      exact List.rel_append hshows (.cons he .nil)
    · rw [hreceived, List.map_append, List.pairwise_append]
      refine ⟨hsteps, List.pairwise_singleton _ _, ?_⟩
      simpa using hle
    · rw [hreceived, hidx', ← hstep]
      intro e' he'
      rcases List.mem_append.mp he' with he' | he'
      · exact hle e' he'
      · rw [List.mem_singleton.mp he']

end Account

/-! ## The run -/

/-- Every step keeps the account. -/
theorem account_step (s : State D) (l : Label) (s' : State D) (frames : List (Bytes × Message))
    (h : Account pb s frames) (hs : State.step pb p s l = some s') :
    Account pb s' (frames ++ inbound pb l) := by
  cases l with
  | arrive payload =>
      rw [State.step_arrive hs]
      refine h.conn ?_
      rw [backlog_arrive, List.map_append]
      cases hm : pb.parse payload <;> simp [inbound, hm]
  | feed_eof =>
      rw [State.step_feed_eof hs]
      exact h.conn (List.append_nil _).symm
  | signal e =>
      rw [State.step_signal hs]
      exact h.conn (by cases e <;> exact (List.append_nil _).symm)
  | read =>
      rw [State.step_read hs]
      refine h.conn ?_
      rw [backlog_read]
      exact (List.append_nil _).symm
  | connect o end_utc saved =>
      obtain ⟨hpc, rfl⟩ := State.step_connect hs
      exact h.pass (.connect hpc ..)
  | begin_step now =>
      obtain ⟨idx, step, hpc, -, rfl⟩ := State.step_begin hs
      exact h.pass (.beginStep hpc ..)
  | woke =>
      obtain ⟨hpc, rfl⟩ := State.step_woke hs
      exact h.pass (.within (by rw [hpc]; exact id) (by rw [Task.reached, hpc]) rfl rfl nofun)
  | rendered r now write =>
      obtain ⟨hpc, rfl⟩ := State.step_rendered hs
      exact h.pass (.rendered hpc ..)
  | flushed o now =>
      obtain ⟨hpc, rfl⟩ := State.step_flushed hs
      exact h.pass (.flushed hpc ..)
  | poll now stamped =>
      obtain ⟨drain, deadline, hpc, hcase⟩ := State.step_poll hs
      have hover : ¬ s.task.pc.over := by rw [hpc]; exact id
      have hidx : s.task.reached = s.task.record.index := by rw [Task.reached, hpc]
      rcases hcase with rfl | rfl | ⟨item, inbox, hinbox, rfl⟩
      · exact h.pass (.leaveLoop hover hidx drain)
      · exact h.pass (.within hover hidx rfl rfl nofun)
      · exact h.take hover hidx drain deadline stamped hinbox
  | got stamped =>
      obtain ⟨drain, deadline, item, inbox, hpc, hinbox, rfl⟩ := State.step_got hs
      have hover : ¬ s.task.pc.over := by rw [hpc]; exact id
      have hidx : s.task.reached = s.task.record.index := by rw [Task.reached, hpc]
      exact h.take hover hidx drain deadline stamped hinbox
  | timeout =>
      obtain ⟨drain, deadline, hpc, rfl⟩ := State.step_timeout hs
      exact h.pass (.leaveLoop (by rw [hpc]; exact id) (by rw [Task.reached, hpc]) drain)
  | next now =>
      obtain ⟨hpc, rfl⟩ := State.step_next hs
      exact h.pass (.next hpc now)
  | end_step now =>
      obtain ⟨hpc, rfl⟩ := State.step_end hs
      exact h.pass (.endStep hpc now)
  | close end_utc saved =>
      obtain ⟨exc, hpc, rfl⟩ := State.step_close hs
      exact h.pass (.close hpc ..)

/-- At any point of any run the received entries of the transcript are the first of the
parseable frames that have arrived, in order and one for each, and so they are in the result
that a run returns. -/
theorem recv_inOrder {ls : List Label} {s : State D}
    (hrun : (State.step pb p).run State.start ls = some s) :
    InOrder pb (parseable pb ls) s.task.transcript ∧
      ∀ r, s.task.pc = .returned r → InOrder pb (parseable pb ls) r.transcript := by
  have h := Machine.outputs_invariant (I := Account pb) account_step account_start hrun
  rw [Machine.outputs_of_label hrun] at h
  obtain ⟨⟨taken, lost, hframes, hshows, -⟩, hsteps, -, hreturned⟩ := h
  have hinOrder : InOrder pb (parseable pb ls) s.task.transcript := by
    refine ⟨⟨taken, ?_, hshows⟩, hsteps⟩
    rw [List.append_assoc] at hframes
    exact ⟨_, hframes.symm⟩
  refine ⟨hinOrder, fun r hr ↦ ?_⟩
  rw [hreturned r hr]
  exact hinOrder

/-- Three frames arrive during the first step, one of them unparseable; the second step
records the last one. -/
def threeFrames : List Label :=
  [.connect .connected "" true, .begin_step 0, .rendered (.message []) 0 (.ok ()),
    .flushed (.ok ()) 0, .poll 0 0, .arrive [0xFF], .arrive [0x2A, 2, 8, 1],
    .arrive [0x2A, 2, 8, 1], .read, .read, .read, .got 1, .next 1, .end_step 1, .begin_step 1,
    .rendered (.message []) 1 (.ok ()), .flushed (.ok ()) 1, .poll 1 1]

theorem recv_inOrder_threeFrames : ∃ s,
    (State.step fewMessages twoSteps).run State.start threeFrames = some s ∧
    (received s.task.transcript).map Entry.step = [0, 1] ∧
    InOrder fewMessages (parseable fewMessages threeFrames) s.task.transcript := by
  have hrun : ((State.step fewMessages twoSteps).run State.start threeFrames).map
      (fun s ↦ (received s.task.transcript).map Entry.step) = some [0, 1] := by decide +kernel
  obtain ⟨s, hs, hsteps⟩ := Option.map_eq_some_iff.mp hrun
  exact ⟨s, hs, hsteps, (recv_inOrder hs).1⟩

end SensorFusion.Flow
