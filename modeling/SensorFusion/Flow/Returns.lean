import SensorFusion.Flow.Sending

/-!
# Does a flow return?

`run_flow` is meant to return a result whatever happens on the connection.  Every turn of its
main task lowers a rank, which only an arriving frame raises, so that it comes to rest.  It may
do so before its end: `drain` and `wait_closed` have no timeout, and a peer that takes nothing
of what is written keeps it there.  And how it ends is another matter.  `message_to_dict` is
called on what the peer sends with nothing to catch its exceptions, so one message that cannot
be shown takes the whole record of the run with it.  `Recordable` is what has to go well in
each step, and a run that has come to rest has returned exactly if it went well in all of them
and the transport has come round.
-/

namespace SensorFusion.Flow

open Proto (Message)

variable {D : Type} {pb : Protobuf D} {p : Params}

/-! ## Turns of the main task -/

/-- A turn of the main task, and not of the reader task or the connection. -/
def Label.main : Label → Bool
  | .arrive _ | .feed_eof | .signal _ | .read => false
  | _ => true

/-- The turn of the main task that a label is, if it is one. -/
def turn (_ : State D) (l : Label) : List Label := if l.main then [l] else []

/-- The turns that the main task takes in a run. -/
def turns (pb : Protobuf D) (p : Params) (ls : List Label) : List Label :=
  (State.step pb p).outputs turn State.start ls

/-- The main task has returned or raised. -/
def Pc.ended : Pc D → Prop
  | .returned _ | .raised _ => True
  | _ => False

/-- How many turns the main task still takes if it is given no frame: ten for each step
that is still to come. -/
def rank (p : Params) (t : Task D) : ℕ :=
  let steps := p.steps.length - t.results.length
  match t.pc with
  | .connecting => 10 * steps + 2
  | .stepping _ => 10 * steps + 1
  | .sleeping => 10 * steps
  | .rendering => 10 * steps - 1
  | .flushing => 10 * steps - 2
  | .receiving false _ => 10 * steps - 3
  | .waiting false _ => 10 * steps - 4
  | .received => 10 * steps - 5
  | .receiving true _ => 10 * steps - 6
  | .waiting true _ => 10 * steps - 7
  | .ending => 10 * steps - 8
  | .closing _ => 1
  | .returned _ | .raised _ => 0

/-- The frames that the main task may still take. -/
def pending (c : Conn) : ℕ := c.inbox.length + c.stream.length

/-- A step that is being played is still to come in the count. -/
theorem Playing.pos {t : Task D} {sent : Bool} (h : Playing p t sent) :
    1 ≤ p.steps.length - t.results.length := by
  have hlt := (List.getElem?_eq_some_iff.mp h.step).1
  omega

theorem rank_fail (t : Task D) (error overall : String) : rank p (t.fail error overall) = 1 := rfl

theorem rank_take {t : Task D} (h : Playing p t true) (drain : Bool) (deadline now : ℚ)
    (item : Inbound) :
    rank p (t.take pb drain deadline now item) ≤
      rank p { t with pc := .receiving drain deadline } := by
  have hpos := h.pos
  rcases Task.take_cases pb t drain deadline now item with ⟨exc, heq⟩ | ⟨e, -, -, hcase⟩
  · rw [heq]
    cases drain <;> simp only [rank] <;> omega
  · rcases hcase with ⟨w, rfl, -, -, heq⟩ | ⟨-, heq⟩
    · rw [heq]
      simp only [rank, Task.stamped, Task.counted]
      omega
    · rw [heq]
      exact le_rfl

theorem rank_connect {t : Task D} (hpc : t.pc = .connecting) (o : Connect) (end_utc : String)
    (saved : Bool) : rank p (t.connect p o end_utc saved) + 1 ≤ rank p t := by
  have hrank : rank p t = 10 * (p.steps.length - t.results.length) + 2 := by rw [rank, hpc]
  rw [hrank]
  rcases Task.connect_cases p t o end_utc saved with ⟨exc, heq⟩ | ⟨-, heq⟩ | ⟨exc, heq⟩
  · rw [heq]
    exact Nat.le_add_left _ _
  · rw [heq]
    show 10 * (p.steps.length - t.results.length) + 1 + 1 ≤ _
    exact le_rfl
  · rw [heq]
    exact Nat.le_add_left _ _

theorem rank_beginStep {t : Task D} {idx : ℕ} (hpc : t.pc = .stepping idx) (step : Step) (now : ℚ) :
    rank p (t.beginStep idx step now) + 1 ≤ rank p t := by
  have hrank : rank p t = 10 * (p.steps.length - t.results.length) + 1 := by rw [rank, hpc]
  rw [hrank]
  by_cases hgap : 0 < step.gap_before_s
  · have hpc : (t.beginStep idx step now).pc = .sleeping := if_pos hgap
    rw [rank, hpc]
    exact le_rfl
  · have hpc : (t.beginStep idx step now).pc = .rendering := if_neg hgap
    rw [rank, hpc]
    show 10 * (p.steps.length - t.results.length) - 1 + 1 ≤ _
    omega

theorem rank_rendered {t : Task D} (h : Playing p t false) (hpc : t.pc = .rendering) (c : ℕ)
    (pending : List (Option String)) (r : Rendered) (now : ℚ) (write : Except String Unit) :
    rank p (t.rendered pb p c pending r now write).1 + 1 ≤ rank p t := by
  have hpos := h.pos
  have hrank : rank p t = 10 * (p.steps.length - t.results.length) - 1 := by rw [rank, hpc]
  rcases Task.rendered_cases pb p c pending t r now write with
    ⟨errs, error, overall, heq, -⟩ | ⟨errs, m, heq, -, -⟩
  · rw [heq, rank_fail]
    omega
  · rw [heq, hrank]
    rcases Task.send_cases pb c pending (t.note errs) m now write with
      ⟨exc, -, hsend⟩ | ⟨decoded, -, -, ⟨-, hsend⟩ | ⟨-, text, hsend⟩⟩
    · rw [hsend]
      simp only [rank]
      omega
    · rw [hsend]
      simp only [rank, Task.stamped, Task.note]
      omega
    · rw [hsend, rank_fail]
      omega

theorem rank_flushed {t : Task D} (h : Playing p t false) (hpc : t.pc = .flushing)
    (o : Except String Unit) (now : ℚ) : rank p (t.flushed o now) + 1 ≤ rank p t := by
  have hpos := h.pos
  have hrank : rank p t = 10 * (p.steps.length - t.results.length) - 2 := by rw [rank, hpc]
  cases o with
  | error exc =>
      rw [Task.flushed, rank_fail]
      omega
  | ok u =>
      simp only [Task.flushed, rank] at hrank ⊢
      omega

theorem rank_leaveLoop {t : Task D} (h : Playing p t true) {drain : Bool} {deadline : ℚ}
    (hpc : t.pc = .receiving drain deadline ∨ t.pc = .waiting drain deadline) :
    rank p (t.leaveLoop drain) + 1 ≤ rank p t := by
  have hpos := h.pos
  rcases hpc with hpc | hpc <;> cases drain <;>
    simp only [rank, hpc, Task.leaveLoop, if_true, if_false, Bool.false_eq_true] <;> omega

theorem rank_next {t : Task D} (h : Playing p t true) (hpc : t.pc = .received) (now : ℚ) :
    rank p (t.next now) + 1 ≤ rank p t := by
  have hpos := h.pos
  have hrank : rank p t = 10 * (p.steps.length - t.results.length) - 5 := by rw [rank, hpc]
  rw [Task.next]
  split
  · simp only [rank] at hrank ⊢
    omega
  · simp only [rank] at hrank ⊢
    omega

theorem rank_endStep {t : Task D} (h : Playing p t true) (hpc : t.pc = .ending) (now : ℚ) :
    rank p (t.endStep p now) + 1 ≤ rank p t := by
  have hpos := h.pos
  have hrank : rank p t = 10 * (p.steps.length - t.results.length) - 8 := by rw [rank, hpc]
  obtain ⟨ms, hcase⟩ := Task.endStep_cases p t now
  rcases hcase with ⟨text, heq⟩ | heq
  · rw [heq, rank_fail]
    omega
  · rw [heq, hrank]
    by_cases hlast : t.record.index + 1 < p.steps.length
    · rw [if_pos hlast]
      simp only [rank, List.length_append, List.length_singleton]
      omega
    · rw [if_neg hlast]
      simp only [rank]
      omega

theorem rank_close {t : Task D} {exc : Option String} (hpc : t.pc = .closing exc) (reader : Reader)
    (end_utc : String) (saved : Bool) :
    rank p (t.close p reader exc end_utc saved) + 1 ≤ rank p t := by
  have hrank : rank p t = 1 := by rw [rank, hpc]
  rw [hrank]
  rcases Task.close_cases p reader t exc end_utc saved with ⟨exc', heq⟩ | ⟨-, heq⟩
  · rw [heq]
    exact le_rfl
  · rw [heq]
    exact le_rfl

/-- A frame that the reader task takes is at most still to be taken by the main task. -/
theorem pending_read (c : Conn) :
    pending (State.read pb c) ≤ pending c ∧ (State.read pb c).arrivals = c.arrivals := by
  rw [State.read]
  split
  · exact ⟨le_rfl, rfl⟩
  · rename_i f stream hstream
    split
    · exact ⟨by simp [pending, hstream], rfl⟩
    · refine ⟨?_, rfl⟩
      simp only [pending, hstream, List.length_append, List.length_cons, List.length_nil]
      omega

/-- A frame that is taken pays for the turn and for the wait before it. -/
theorem rank_taken (pb : Protobuf D) {t : Task D} {c : Conn} {item : Inbound}
    {inbox : List Inbound} {drain : Bool} {deadline : ℚ} (hp : Playing p t true)
    (hinbox : c.inbox = item :: inbox)
    (hpc : t.pc = .receiving drain deadline ∨ t.pc = .waiting drain deadline) (stamped : ℚ) :
    rank p (t.take pb drain deadline stamped item) + 2 * pending { c with inbox := inbox } + 1 ≤
      rank p t + 2 * pending c := by
  have hpos := hp.pos
  have hone : rank p { t with pc := .receiving drain deadline } ≤ rank p t + 1 := by
    rcases hpc with hpc | hpc <;> cases drain <;> simp only [rank, hpc] <;> omega
  have hle : rank p (t.take pb drain deadline stamped item) ≤ rank p t + 1 :=
    (rank_take hp drain deadline stamped item).trans hone
  simp only [pending, hinbox, List.length_cons]
  omega

/-- A turn of the main task lowers the rank, or takes a frame. -/
theorem rank_step {s s' : State D} {l : Label} {k : ℕ} (h : Stands p s.task k)
    (hs : State.step pb p s l = some s') :
    rank p s'.task + 2 * pending s'.conn + 2 * s.conn.arrivals + (if l.main then 1 else 0) ≤
      rank p s.task + 2 * pending s.conn + 2 * s'.conn.arrivals := by
  have hgo {t : Task D} (hrank : rank p t + 1 ≤ rank p s.task) :
      rank p t + 2 * pending s.conn + 2 * s.conn.arrivals + 1 ≤
        rank p s.task + 2 * pending s.conn + 2 * s.conn.arrivals := by omega
  cases l with
  | arrive payload =>
      rw [State.step_arrive hs]
      simp only [pending, Label.main, List.length_append, List.length_singleton,
        Bool.false_eq_true, if_false]
      omega
  | feed_eof => rw [State.step_feed_eof hs]; exact le_rfl
  | signal e =>
      rw [State.step_signal hs]
      cases e <;> exact le_rfl
  | read =>
      rw [State.step_read hs]
      obtain ⟨hle, harrivals⟩ := @pending_read _ pb s.conn
      simp only [Label.main, Bool.false_eq_true, if_false]
      omega
  | connect o end_utc saved =>
      obtain ⟨hpc, rfl⟩ := State.step_connect hs
      exact hgo (rank_connect hpc o end_utc saved)
  | begin_step now =>
      obtain ⟨idx, step, hpc, -, rfl⟩ := State.step_begin hs
      exact hgo (rank_beginStep hpc step now)
  | woke =>
      obtain ⟨hpc, rfl⟩ := State.step_woke hs
      simp only [Stands, hpc] at h
      have hpos := h.2.pos
      refine hgo ?_
      simp only [rank, hpc]
      omega
  | rendered r now write =>
      obtain ⟨hpc, rfl⟩ := State.step_rendered hs
      simp only [Stands, hpc] at h
      exact hgo (rank_rendered h.2 hpc _ _ r now write)
  | flushed o now =>
      obtain ⟨hpc, rfl⟩ := State.step_flushed hs
      simp only [Stands, hpc] at h
      exact hgo (rank_flushed h.2 hpc o now)
  | poll now stamped =>
      obtain ⟨drain, deadline, hpc, hcase⟩ := State.step_poll hs
      simp only [Stands, hpc] at h
      rcases hcase with rfl | rfl | ⟨item, inbox, hinbox, rfl⟩
      · exact hgo (rank_leaveLoop h.2 (.inl hpc))
      · have hpos := h.2.pos
        refine hgo ?_
        cases drain <;> simp only [rank, hpc] <;> omega
      · have htaken := rank_taken pb h.2 hinbox (.inl hpc) stamped
        simp only [Label.main, if_true]
        omega
  | got stamped =>
      obtain ⟨drain, deadline, item, inbox, hpc, hinbox, rfl⟩ := State.step_got hs
      simp only [Stands, hpc] at h
      have htaken := rank_taken pb h.2 hinbox (.inr hpc) stamped
      simp only [Label.main, if_true]
      omega
  | timeout =>
      obtain ⟨drain, deadline, hpc, rfl⟩ := State.step_timeout hs
      simp only [Stands, hpc] at h
      exact hgo (rank_leaveLoop h.2 (.inr hpc))
  | next now =>
      obtain ⟨hpc, rfl⟩ := State.step_next hs
      simp only [Stands, hpc] at h
      exact hgo (rank_next h.2 hpc now)
  | end_step now =>
      obtain ⟨hpc, rfl⟩ := State.step_end hs
      simp only [Stands, hpc] at h
      exact hgo (rank_endStep h.2 hpc now)
  | close end_utc saved =>
      obtain ⟨exc, hpc, rfl⟩ := State.step_close hs
      exact hgo (rank_close hpc s.conn.reader end_utc saved)

/-- The turns taken, and those still to come, are at most ten for each step and two for
each frame. -/
def Spent (pb : Protobuf D) (p : Params) (s : State D) (ts : List Label) : Prop :=
  (∃ as, Wired pb p s.task as) ∧
    ts.length + rank p s.task + 2 * pending s.conn ≤ 10 * p.steps.length + 2 + 2 * s.conn.arrivals

theorem spent_step (s : State D) (l : Label) (s' : State D) (ts : List Label)
    (h : Spent pb p s ts) (hs : State.step pb p s l = some s') :
    Spent pb p s' (ts ++ turn s l) := by
  obtain ⟨⟨as, hwired⟩, hle⟩ := h
  obtain ⟨hs', us, -, hstands, -⟩ := hwired.split
  have hstep := rank_step hstands hs
  have hlen : (ts ++ turn s l).length = ts.length + if l.main then 1 else 0 := by
    rw [List.length_append, turn]
    split <;> rfl
  refine ⟨⟨_, wired_step s l s' as hwired hs⟩, ?_⟩
  rw [hlen]
  omega

/-- The number of turns of the main task is bounded in every run. -/
theorem spent_run {ls : List Label} {s : State D}
    (hrun : (State.step pb p).run State.start ls = some s) : Spent pb p s (turns pb p ls) := by
  have hstart : Spent pb p State.start [] := 
    ⟨⟨[], wired_start⟩, by simp [rank, pending, State.start, Task.start]⟩
  exact Machine.outputs_invariant (I := Spent pb p) spent_step hstart hrun

/-- The main task waits for the transport, and the transport has not come round: the writing
is paused, or the connection that is to be closed is still there. -/
def State.Blocked (s : State D) : Prop :=
  match s.task.pc with
  | .flushing => s.conn.paused = true ∧ s.conn.lost = false
  | .closing _ => s.conn.lost = false
  | _ => False

/-- The main task takes no turn, whatever it is given. -/
def State.AtRest (pb : Protobuf D) (p : Params) (s : State D) : Prop :=
  ∀ l, l.main = true → State.step pb p s l = none

/-- A main task that is neither at its end nor waiting for the transport can go on: what else
it waits for has a timeout. -/
theorem can_go_on {s : State D} {k : ℕ} (h : Stands p s.task k) (hended : ¬ s.task.pc.ended)
    (hblocked : ¬ s.Blocked) : ∃ l, l.main = true ∧ (State.step pb p s l).isSome := by
  cases hpc : s.task.pc with
  | connecting => exact ⟨.connect .connected "" true, rfl, by simp [State.step, hpc, State.go]⟩
  | stepping idx =>
      simp only [Stands, hpc] at h
      obtain ⟨step, hstep⟩ : ∃ step, p.steps[idx]? = some step :=
        ⟨_, List.getElem?_eq_getElem h.2.2.2.2⟩
      exact ⟨.begin_step 0, rfl, by simp [State.step, hpc, State.go, hstep]⟩
  | sleeping => exact ⟨.woke, rfl, by simp [State.step, hpc, State.go]⟩
  | rendering =>
      exact ⟨.rendered (.not_found "") 0 (.ok ()), rfl, by simp [State.step, hpc, State.go]⟩
  | flushing =>
      rw [State.Blocked, hpc] at hblocked
      exact ⟨.flushed (.ok ()) 0, rfl, by simp [State.step, hpc, State.go, hblocked]⟩
  | receiving drain deadline =>
      exact ⟨.poll deadline 0, rfl, by simp [State.step, hpc, State.go]⟩
  | waiting drain deadline => exact ⟨.timeout, rfl, by simp [State.step, hpc, State.go]⟩
  | received => exact ⟨.next 0, rfl, by simp [State.step, hpc, State.go]⟩
  | ending => exact ⟨.end_step 0, rfl, by simp [State.step, hpc, State.go]⟩
  | closing exc =>
      rw [State.Blocked, hpc] at hblocked
      exact ⟨.close "" true, rfl, by simp [State.step, hpc, State.go, hblocked]⟩
  | returned r => exact absurd (by rw [hpc]; trivial) hended
  | raised exc => exact absurd (by rw [hpc]; trivial) hended

/-- The main task rests at its end, and while it waits for the transport. -/
theorem atRest_iff {s : State D} {k : ℕ} (h : Stands p s.task k) :
    s.AtRest pb p ↔ s.task.pc.ended ∨ s.Blocked := by
  constructor
  · intro hrest
    by_contra hno
    rw [not_or] at hno
    have hgo : ∃ l, l.main = true ∧ (State.step pb p s l).isSome := can_go_on h hno.1 hno.2
    obtain ⟨l, hl, hstep⟩ := hgo
    rw [hrest l hl] at hstep
    cases hstep
  · intro hcase l hl
    unfold Pc.ended State.Blocked at hcase
    cases hpc : s.task.pc <;> simp only [hpc, or_self, or_false, false_or] at hcase
    all_goals cases l <;> simp [Label.main] at hl <;> simp [State.step, hpc, hcase]

/-- What the main task has raised, if it has. -/
def State.exception (s : State D) : Option String :=
  match s.task.pc with
  | .raised exc => some exc
  | _ => none

theorem State.pc_of_exception {s : State D} {exc : String} (h : s.exception = some exc) :
    s.task.pc = .raised exc := by
  unfold State.exception at h
  split at h
  · rename_i hpc
    cases h
    exact hpc
  · cases h

/-! ## What has to go well -/

/-- `message_to_dict` does not raise on `m`. -/
def Showable (pb : Protobuf D) (m : Message) : Prop := ∃ decoded, pb.toDict m = .ok decoded

instance (pb : Protobuf D) (m : Message) : Decidable (Showable pb m) :=
  match h : pb.toDict m with
  | .ok decoded => isTrue ⟨decoded, h⟩
  | .error _ => isFalse fun ⟨_, hok⟩ ↦ nomatch h.symm.trans hok

/-- The deadline of the receive loop that the main task is at the top of. -/
def Pc.deadline? : Pc D → Option ℚ
  | .receiving _ deadline => some deadline
  | _ => none

/-- What has to go well in a step: the run's directory can be made, the connection attempt
ends in one of the exceptions it is caught for or in none, every message that is about to be
stamped can be shown, and when the run is over the reader task has had a turn and
`result.json` can be written. -/
def Recordable (pb : Protobuf D) (p : Params) (s : State D) : Label → Prop
  | .connect (.unmade _) _ _ => False
  | .connect .connected _ _ => True
  | .connect (.failed _) _ saved => saved = true
  | .connect (.raised _) _ _ => False
  | .rendered (.message m) _ _ =>
      (p.validate_before_send = true → Sapient.validate m = []) → Showable pb m
  | .poll now _ => ∀ deadline ∈ s.task.pc.deadline?, now < deadline →
      ∀ item ∈ s.conn.inbox.head?, Showable pb item.message
  | .got _ => ∀ item ∈ s.conn.inbox.head?, Showable pb item.message
  | .close _ saved => s.conn.reader ≠ .created ∧ saved = true
  | _ => True

instance (pb : Protobuf D) (p : Params) (s : State D) :
    (l : Label) → Decidable (Recordable pb p s l)
  | .connect (.unmade _) _ _ | .connect (.raised _) _ _ => inferInstanceAs (Decidable False)
  | .connect (.failed _) _ saved => inferInstanceAs (Decidable (saved = true))
  | .rendered (.message m) _ _ => inferInstanceAs (Decidable
      ((p.validate_before_send = true → Sapient.validate m = []) → Showable pb m))
  | .poll now _ => inferInstanceAs (Decidable (∀ deadline ∈ s.task.pc.deadline?, now < deadline →
      ∀ item ∈ s.conn.inbox.head?, Showable pb item.message))
  | .got _ => inferInstanceAs (Decidable (∀ item ∈ s.conn.inbox.head?, Showable pb item.message))
  | .close _ saved => inferInstanceAs (Decidable (s.conn.reader ≠ .created ∧ saved = true))
  | .connect .connected _ _ | .arrive _ | .feed_eof | .signal _ | .read | .begin_step _ | .woke
  | .rendered (.not_found _) _ _ | .rendered (.failed _) _ _ | .flushed _ _ | .timeout | .next _
  | .end_step _ => inferInstanceAs (Decidable True)

/-- No exception is on its way out, and what is returned has the transcript. -/
def Sound (t : Task D) : Prop :=
  match t.pc with
  | .closing (some _) | .raised _ => False
  | .returned r => r.transcript = t.transcript
  | _ => True

/-- An exception is on its way out, or has left. -/
def Lost (t : Task D) : Prop :=
  match t.pc with
  | .closing (some _) | .raised _ => True
  | _ => False

theorem sound_start : Sound (State.start : State D).task := trivial

/-- A message that can be shown raises nothing when it is taken, and one that cannot does. -/
theorem take_sound {t : Task D} (drain : Bool) (deadline now : ℚ) (item : Inbound) :
    (Showable pb item.message → Sound (t.take pb drain deadline now item)) ∧
    (¬ Showable pb item.message → Lost (t.take pb drain deadline now item)) := by
  rw [Task.take]
  cases hd : pb.toDict item.message with
  | error exc =>
      refine ⟨fun hshow ↦ ?_, fun _ ↦ trivial⟩
      obtain ⟨decoded, hdecoded⟩ := hshow
      cases hd.symm.trans hdecoded
  | ok decoded =>
      refine ⟨fun _ ↦ ?_, fun hno ↦ absurd ⟨decoded, hd⟩ hno⟩
      dsimp only
      split
      · split <;> trivial
      · trivial

theorem rendered_sound {t : Task D} (c : ℕ) (pending : List (Option String)) (r : Rendered)
    (now : ℚ) (write : Except String Unit) (s : State D) :
    (Recordable pb p s (.rendered r now write) → Sound (t.rendered pb p c pending r now write).1) ∧
    (¬ Recordable pb p s (.rendered r now write) →
      Lost (t.rendered pb p c pending r now write).1) := by
  rcases Task.rendered_cases pb p c pending t r now write with
    ⟨errs, error, overall, heq, herrs⟩ | ⟨errs, m, heq, rfl, hvalid⟩
  · rw [heq]
    refine ⟨fun _ ↦ trivial, fun hno ↦ absurd ?_ hno⟩
    cases r with
    | not_found exc => trivial
    | failed exc => trivial
    | message m =>
        obtain ⟨hv, hne⟩ := herrs m rfl
        exact fun hvalid ↦ absurd (hvalid hv) hne
  · rw [heq]
    rcases Task.send_cases pb c pending (t.note errs) m now write with
      ⟨exc, hexc, hsend⟩ | ⟨decoded, hdecoded, -, hsend⟩
    · rw [hsend]
      refine ⟨fun hok ↦ ?_, fun _ ↦ trivial⟩
      obtain ⟨decoded, hdecoded⟩ := hok hvalid
      cases hexc.symm.trans hdecoded
    · refine ⟨fun _ ↦ ?_, fun hno ↦ absurd (fun _ ↦ ⟨decoded, hdecoded⟩) hno⟩
      rcases hsend with ⟨-, hsend⟩ | ⟨-, text, hsend⟩
      · rw [hsend]
        trivial
      · rw [hsend]
        trivial

theorem connect_sound (hhost : p.host ≠ "") (hsteps : p.steps ≠ []) {t : Task D} (o : Connect)
    (end_utc : String) (saved : Bool) (s : State D) :
    (Recordable pb p s (.connect o end_utc saved) → Sound (t.connect p o end_utc saved)) ∧
    (¬ Recordable pb p s (.connect o end_utc saved) → Lost (t.connect p o end_utc saved)) := by
  unfold Task.connect
  rw [if_neg hhost, if_neg hsteps]
  cases o with
  | unmade exc => exact ⟨False.elim, fun _ ↦ trivial⟩
  | connected => exact ⟨fun _ ↦ trivial, fun hno ↦ absurd trivial hno⟩
  | raised exc => exact ⟨False.elim, fun _ ↦ trivial⟩
  | failed exc =>
      cases saved with
      | true => exact ⟨fun _ ↦ rfl, fun hno ↦ absurd rfl hno⟩
      | false => exact ⟨fun hok ↦ (nomatch hok), fun _ ↦ trivial⟩

theorem close_sound {s : State D} (exc : Option String) (hexc : exc = none)
    (end_utc : String) (saved : Bool) :
    (Recordable pb p s (.close end_utc saved) →
      Sound (s.task.close p s.conn.reader exc end_utc saved)) ∧
    (¬ Recordable pb p s (.close end_utc saved) →
      Lost (s.task.close p s.conn.reader exc end_utc saved)) := by
  subst hexc
  rw [Task.close]
  by_cases hreader : s.conn.reader = .created
  · rw [if_pos hreader]
    exact ⟨fun hok ↦ absurd hreader hok.1, fun _ ↦ trivial⟩
  · rw [if_neg hreader]
    cases saved with
    | true => exact ⟨fun _ ↦ rfl, fun hno ↦ absurd ⟨hreader, rfl⟩ hno⟩
    | false => exact ⟨fun hok ↦ absurd hok.2 Bool.false_ne_true, fun _ ↦ trivial⟩

/-- At the top of a receive loop only the head of the inbox is looked at, and only in
time. -/
theorem poll_sound {s s' : State D} {now stamped : ℚ}
    (hs : State.step pb p s (.poll now stamped) = some s') :
    (Recordable pb p s (.poll now stamped) → Sound s'.task) ∧
    (¬ Recordable pb p s (.poll now stamped) → Lost s'.task) := by
  simp only [State.step] at hs
  split at hs
  · rename_i drain deadline hpc
    split at hs
    · rename_i hlate
      cases hs
      refine ⟨fun _ ↦ by cases drain <;> trivial, fun hno ↦ absurd ?_ hno⟩
      intro deadline' hdeadline hin
      rw [hpc] at hdeadline
      cases hdeadline
      exact absurd (sub_nonpos.mp hlate) (not_le.mpr hin)
    · rename_i hin
      split at hs
      · rename_i hinbox
        cases hs
        refine ⟨fun _ ↦ trivial, fun hno ↦ absurd ?_ hno⟩
        intro _ _ _ item hitem
        rw [hinbox] at hitem
        cases hitem
      · rename_i item inbox hinbox
        cases hs
        obtain ⟨hshow, hlost⟩ := @take_sound _ pb s.task drain deadline stamped item
        refine ⟨fun hok ↦ hshow ?_, fun hno ↦ hlost fun hitem ↦ hno ?_⟩
        · exact hok deadline (by rw [hpc]; rfl) (not_le.mp (mt sub_nonpos.mpr hin)) item
            (by rw [hinbox]; rfl)
        · intro _ _ _ item' hitem'
          rw [hinbox] at hitem'
          cases hitem'
          exact hitem
  · cases hs

/-- A step in which all goes well loses nothing; a step in which something does not loses
the run. -/
theorem sound_step (hhost : p.host ≠ "") (hsteps : p.steps ≠ []) {s s' : State D} {l : Label}
    (h : Sound s.task) (hs : State.step pb p s l = some s') :
    (Recordable pb p s l → Sound s'.task) ∧ (¬ Recordable pb p s l → Lost s'.task) := by
  cases l with
  | arrive payload => rw [State.step_arrive hs]; exact ⟨fun _ ↦ h, fun hno ↦ absurd trivial hno⟩
  | feed_eof => rw [State.step_feed_eof hs]; exact ⟨fun _ ↦ h, fun hno ↦ absurd trivial hno⟩
  | signal e => rw [State.step_signal hs]; exact ⟨fun _ ↦ h, fun hno ↦ absurd trivial hno⟩
  | read => rw [State.step_read hs]; exact ⟨fun _ ↦ h, fun hno ↦ absurd trivial hno⟩
  | connect o end_utc saved =>
      obtain ⟨-, rfl⟩ := State.step_connect hs
      exact connect_sound hhost hsteps o end_utc saved s
  | begin_step now =>
      obtain ⟨idx, step, hpc, -, rfl⟩ := State.step_begin hs
      refine ⟨fun _ ↦ ?_, fun hno ↦ absurd trivial hno⟩
      by_cases hgap : 0 < step.gap_before_s
      · have hpc : (s.task.beginStep idx step now).pc = .sleeping := if_pos hgap
        simp only [Sound, hpc]
      · have hpc : (s.task.beginStep idx step now).pc = .rendering := if_neg hgap
        simp only [Sound, hpc]
  | woke =>
      obtain ⟨-, rfl⟩ := State.step_woke hs
      exact ⟨fun _ ↦ trivial, fun hno ↦ absurd trivial hno⟩
  | rendered r now write =>
      obtain ⟨-, rfl⟩ := State.step_rendered hs
      exact rendered_sound _ _ r now write s
  | flushed o now =>
      obtain ⟨-, rfl⟩ := State.step_flushed hs
      refine ⟨fun _ ↦ ?_, fun hno ↦ absurd trivial hno⟩
      cases o <;> trivial
  | poll now stamped => exact poll_sound hs
  | got stamped =>
      obtain ⟨drain, deadline, item, inbox, -, hinbox, rfl⟩ := State.step_got hs
      obtain ⟨hshow, hno⟩ := @take_sound _ pb s.task drain deadline stamped item
      have hiff : Recordable pb p s (.got stamped) ↔ Showable pb item.message := by
        simp [Recordable, hinbox]
      exact ⟨fun hok ↦ hshow (hiff.mp hok), fun h ↦ hno (mt hiff.mpr h)⟩
  | timeout =>
      obtain ⟨drain, deadline, -, rfl⟩ := State.step_timeout hs
      refine ⟨fun _ ↦ ?_, fun hno ↦ absurd trivial hno⟩
      cases drain <;> trivial
  | next now =>
      obtain ⟨-, rfl⟩ := State.step_next hs
      refine ⟨fun _ ↦ ?_, fun hno ↦ absurd trivial hno⟩
      rw [Task.next]
      split <;> trivial
  | end_step now =>
      obtain ⟨-, rfl⟩ := State.step_end hs
      refine ⟨fun _ ↦ ?_, fun hno ↦ absurd trivial hno⟩
      obtain ⟨ms, ⟨text, heq⟩ | heq⟩ := Task.endStep_cases p s.task now
      · rw [heq]
        trivial
      · rw [heq]
        by_cases hlast : s.task.record.index + 1 < p.steps.length
        · rw [if_pos hlast]
          trivial
        · rw [if_neg hlast]
          trivial
  | close end_utc saved =>
      obtain ⟨exc, hpc, rfl⟩ := State.step_close hs
      refine close_sound exc ?_ end_utc saved
      cases exc with
      | none => rfl
      | some exc =>
          simp only [Sound, hpc] at h

/-- A run that is lost stays lost. -/
theorem lost_step (s : State D) (l : Label) (s' : State D) (h : Lost s.task)
    (hs : State.step pb p s l = some s') : Lost s'.task := by
  have hpc : (∃ exc, s.task.pc = .closing (some exc)) ∨ ∃ exc, s.task.pc = .raised exc := by
    unfold Lost at h
    split at h
    · exact .inl ⟨_, ‹_›⟩
    · exact .inr ⟨_, ‹_›⟩
    · exact h.elim
  cases l with
  | arrive payload => rw [State.step_arrive hs]; exact h
  | feed_eof => rw [State.step_feed_eof hs]; exact h
  | signal e => rw [State.step_signal hs]; exact h
  | read => rw [State.step_read hs]; exact h
  | close end_utc saved =>
      obtain ⟨exc, hclosing, rfl⟩ := State.step_close hs
      rcases hpc with ⟨exc', hpc⟩ | ⟨exc', hpc⟩
      · cases hpc.symm.trans hclosing
        trivial
      · cases hpc.symm.trans hclosing
  | _ =>
      rcases hpc with ⟨exc, hpc⟩ | ⟨exc, hpc⟩
      all_goals simp only [State.step, hpc] at hs
      all_goals cases hs

/-- **A flow returns.**  With a host and steps, the main task of `run_flow` takes at most
ten turns for each step and two for each frame and two more, and it comes to rest only at its
end or while it waits for the transport.  When it has come to rest, it has returned a result
with the whole transcript if and only if all went well in every step and it does not wait for
the transport. -/
theorem run_flow_returns (hhost : p.host ≠ "") (hsteps : p.steps ≠ []) {ls : List Label}
    {s : State D} (hrun : (State.step pb p).run State.start ls = some s) :
    (turns pb p ls).length ≤ 10 * p.steps.length + 2 + 2 * s.conn.arrivals ∧
    (s.AtRest pb p ↔ s.task.pc.ended ∨ s.Blocked) ∧
    (s.AtRest pb p →
      ((∃ r, s.task.pc = .returned r ∧ r.transcript = s.task.transcript) ↔
        (State.step pb p).Meets (Recordable pb p) State.start ls ∧ ¬ s.Blocked)) := by
  obtain ⟨⟨as, hwired⟩, hspent⟩ := spent_run hrun
  obtain ⟨hs, us, -, hstands, -⟩ := hwired.split
  refine ⟨by omega, atRest_iff hstands, fun hrest ↦ ⟨fun ⟨r, hpc, _⟩ ↦ ⟨?_, ?_⟩, ?_⟩⟩
  · by_contra hno
    have hlost : Lost s.task := Machine.spoiled
      (fun _ _ _ (h : Sound (State.task _)) hl hs ↦ (sound_step hhost hsteps h hs).1 hl)
      (fun _ _ _ h hl hs ↦ (sound_step hhost hsteps h hs).2 hl) lost_step hno sound_start hrun
    simp only [Lost, hpc] at hlost
  · rw [State.Blocked, hpc]
    exact id
  · rintro ⟨hok, hblocked⟩
    have hended := ((atRest_iff hstands).mp hrest).resolve_right hblocked
    have hsound : Sound s.task := Machine.Meets.invariant
      (fun _ _ _ (h : Sound (State.task _)) hl hs ↦ (sound_step hhost hsteps h hs).1 hl) hok
      sound_start
      hrun
    cases hpc : s.task.pc with
    | returned r => exact ⟨r, rfl, by simpa only [Sound, hpc] using hsound⟩
    | raised exc => simp only [Sound, hpc] at hsound
    | _ =>
        rw [hpc] at hended
        exact hended.elim

/-- The peer acknowledges both registrations and the connection is closed: all goes well, so
the flow returns. -/
theorem run_flow_returns_acknowledged : ∃ s r,
    (State.step fewMessages twoSteps).run State.start acknowledged = some s ∧
    s.task.pc = .returned r ∧ r.transcript = s.task.transcript ∧ s.conn.arrivals = 2 := by
  obtain ⟨r, hr⟩ := Option.isSome_iff_exists.mp (show Option.isSome
    (((State.step fewMessages twoSteps).run State.start acknowledged).bind State.result) = true
    by decide +kernel)
  obtain ⟨s, hs, hres⟩ := Option.bind_eq_some_iff.mp hr
  have hpc := State.pc_of_result hres
  have harrivals : ((State.step fewMessages twoSteps).run State.start acknowledged).map
      (fun s ↦ s.conn.arrivals) = some 2 := by decide +kernel
  rw [hs] at harrivals
  obtain ⟨-, hrest, hiff⟩ := run_flow_returns (by decide) (by decide) hs
  have hok : (State.step fewMessages twoSteps).Meets (Recordable fewMessages twoSteps) State.start
      acknowledged := by decide +kernel
  obtain ⟨r', hr', htranscript⟩ :=
    (hiff (hrest.mpr (.inl (by rw [hpc]; trivial)))).mpr ⟨hok, by rw [State.Blocked, hpc]; exact id⟩
  exact ⟨s, r', hs, hr', htranscript, Option.some.inj harrivals⟩

/-! ## A timestamp that cannot be shown -/

/-- A message that was sent in the year 10000. -/
def year10000 : Message := [("timestamp", .msg [("seconds", .int 253402300800)])]

/-- A protobuf library that is only ever shown the empty message and `year10000`.  A
`Timestamp` after 9999-12-31T23:59:59Z can be parsed, and cannot be shown. -/
def timestamps : Protobuf Json where
  parse := fun payload ↦
    if payload = [0x0A, 7, 8, 128, 131, 209, 255, 175, 7] then some year10000
    else if payload = [] then some [] else none
  serialize := fun m ↦
    if m.has "timestamp" then [0x0A, 7, 8, 128, 131, 209, 255, 175, 7] else []
  toDict := fun m ↦
    if 253402300799 < (m.sub "timestamp").num "seconds" then .error "Timestamp is not valid"
    else .ok (.obj [])

/-- The peer answers with a message from the year 10000. -/
def answeredLate : List Label :=
  [.connect .connected "" true, .begin_step 0, .read, .rendered (.message []) 0 (.ok ()),
   .flushed (.ok ()) 0, .poll 0 0, .arrive [0x0A, 7, 8, 128, 131, 209, 255, 175, 7], .read, .got 1,
   .signal .connection_lost, .close "" true]

/-- The peer takes nothing of what is written. -/
def notTaken : List Label :=
  [.connect .connected "" true, .begin_step 0, .read, .rendered (.message []) 0 (.ok ()),
   .signal .pause_writing]

/-- With such an answer the main task ends and does not return, and for such a peer it waits
for ever. -/
theorem year10000_lost : twoSteps.host ≠ "" ∧ twoSteps.steps ≠ [] ∧
    (∃ s, (State.step timestamps twoSteps).run State.start answeredLate = some s ∧
      s.task.pc.ended ∧ ∀ r, s.task.pc ≠ .returned r) ∧
    ∃ s, (State.step timestamps twoSteps).run State.start notTaken = some s ∧
      s.AtRest timestamps twoSteps ∧ ¬ s.task.pc.ended := by
  refine ⟨by decide, by decide, ?_, ?_⟩
  · have hrun : ((State.step timestamps twoSteps).run State.start answeredLate).bind
        State.exception = some "Timestamp is not valid" := by
      decide +kernel
    obtain ⟨s, hs, hexc⟩ := Option.bind_eq_some_iff.mp hrun
    have hpc := State.pc_of_exception hexc
    refine ⟨s, hs, by rw [hpc]; trivial, fun r hr ↦ ?_⟩
    cases hpc.symm.trans hr
  · refine ⟨_, rfl, ?_, id⟩
    obtain ⟨⟨as, hwired⟩, -⟩ := @spent_run _ timestamps twoSteps notTaken _ rfl
    obtain ⟨hs, us, -, hstands, -⟩ := hwired.split
    exact (atRest_iff hstands).mpr (.inr ⟨rfl, rfl⟩)

end SensorFusion.Flow
