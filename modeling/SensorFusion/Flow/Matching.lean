import SensorFusion.Flow.Run
import SensorFusion.Lib.Queue

/-!
# Which reply a step matches

A step waits for a reply of a given content, but the inbox it takes frames from is the
connection's, not the step's.  Frames that an earlier step left there come first.

The frames that are still to be looked at, in the inbox and in front of the reader task,
form one queue, and a step sets a mark in it when its message is written.  `Tracked`
follows the queue from the mark.  What a step matches is then a frame that completed
after its message was written exactly when no frame of the awaited content was left over
at that moment.
-/

namespace SensorFusion.Flow

open Proto (Message)

variable {D : Type} {pb : Protobuf D} {p : Params}

/-- Every record with a match has it in the log, and every frame in the log completed
after the message of its step was written. -/
structure Fresh (t : Task D) : Prop where
  logged : ∀ r ∈ t.results ++ [t.record], ∀ c, r.matched_wait_for = some c →
    ∃ m ∈ t.log, m.index = r.index ∧ m.awaited = c
  fresh : ∀ m ∈ t.log, m.mark ≤ m.seq

/-- Nothing is left over when a message is written: none of the frames that are still to
be looked at has the content that its step awaits. -/
def NothingLeft (pb : Protobuf D) (p : Params) (s : State D) : Label → Prop
  | .rendered (.message m) _ (.ok ()) =>
      (p.validate_before_send = true → Sapient.validate m = []) →
        (∃ decoded, pb.toDict m = .ok decoded) → (∃ b, Wire.encode (pb.serialize m) = .ok b) →
          ∀ w, s.task.step.awaited = some w → some w ∉ (State.unseen pb s.conn).map Prod.snd
  | _ => True

/-! ## The queue of frames -/

/-- The parsed frames that are still to be looked at: those in the inbox, and those that the
reader task will put there. -/
def backlog (pb : Protobuf D) (c : Conn) : List Inbound :=
  c.inbox ++ c.stream.filterMap fun f ↦ (pb.parse f.payload).map fun m ↦ ⟨f.seq, f.payload, m⟩

theorem unseen_eq (c : Conn) :
    State.unseen pb c = (backlog pb c).map fun i ↦ (i.seq, Sapient.content i.message) := by
  rw [State.unseen, backlog, List.map_append, List.map_filterMap]
  simp only [Option.map_map, Function.comp_def]

/-- The reader task moves frames along without changing what is still to be looked at. -/
theorem backlog_read (c : Conn) : backlog pb (State.read pb c) = backlog pb c := by
  unfold State.read
  split
  · rename_i hstream
    simp [backlog, hstream]
  · rename_i f stream hstream
    split
    · rename_i hparse
      simp [backlog, hstream, hparse]
    · rename_i m hparse
      simp [backlog, hstream, hparse]

/-- A frame that completes goes to the end, if it can be parsed. -/
theorem backlog_arrive (c : Conn) (f : Frame) (n : ℕ) :
    backlog pb { c with stream := c.stream ++ [f], arrivals := n } =
      backlog pb c ++ ((pb.parse f.payload).map fun m ↦ ⟨f.seq, f.payload, m⟩).toList := by
  unfold backlog
  rw [List.filterMap_append, List.append_assoc]
  cases h : pb.parse f.payload <;> simp [h]

/-- A frame that is taken comes off the front. -/
theorem backlog_take {c : Conn} {item : Inbound} {inbox : List Inbound}
    (h : c.inbox = item :: inbox) :
    backlog pb c = item :: backlog pb { c with inbox := inbox } := by
  rw [backlog, h]
  rfl

theorem unseen_read (c : Conn) : State.unseen pb (State.read pb c) = State.unseen pb c := by
  rw [unseen_eq, unseen_eq, backlog_read]

theorem unseen_arrive (c : Conn) (f : Frame) (n : ℕ) :
    State.unseen pb { c with stream := c.stream ++ [f], arrivals := n } =
      State.unseen pb c ++
        ((pb.parse f.payload).map fun m ↦ (f.seq, Sapient.content m)).toList := by
  rw [unseen_eq, unseen_eq, backlog_arrive, List.map_append]
  cases pb.parse f.payload <;> rfl

theorem unseen_take {c : Conn} {item : Inbound} {inbox : List Inbound}
    (h : c.inbox = item :: inbox) :
    State.unseen pb c =
      (item.seq, Sapient.content item.message) :: State.unseen pb { c with inbox := inbox } := by
  rw [unseen_eq, unseen_eq, backlog_take h, List.map_cons]

/-! ## Following the queue -/

/-- A message is being written, or its reply awaited. -/
def Pc.awaits : Pc D → Prop
  | .flushing | .receiving false _ | .waiting false _ => True
  | _ => False

/-- A content that a step passes over. -/
def Step.Skips (step : Step) (c : Option String) : Prop :=
  ∀ w, step.awaited = some w → c ≠ some w

/-- The match of a record is in the log. -/
def Logged (log : List Match) (r : Record) : Prop :=
  ∀ c, r.matched_wait_for = some c → ∃ m ∈ log, m.index = r.index ∧ m.awaited = c

/-- The main task with `queue` still to be looked at, after `n` frames have completed;
if `clean` then nothing was left over at any write. -/
structure Tracked (clean : Prop) (n : ℕ) (queue : List (ℕ × Option String)) (t : Task D) :
    Prop where
  window : t.pc.awaits → t.mark ≤ n ∧ Window t.mark t.pending t.step.Skips queue
  unclaimed : clean → t.pc.awaits → ∀ w, t.step.awaited = some w → some w ∉ t.pending
  log : ∀ m ∈ t.log, (m.mark ≤ m.seq ↔ some m.awaited ∉ m.pending)
  clean_log : clean → ∀ m ∈ t.log, some m.awaited ∉ m.pending
  results : ∀ r ∈ t.results, Logged t.log r
  record : Logged t.log t.record

/-- The frames still to be looked at are numbered below the number of frames that have
completed, and the main task is tracked. -/
structure Follows (clean : Prop) (pb : Protobuf D) (s : State D) : Prop where
  numbered : ∀ x ∈ State.unseen pb s.conn, x.1 < s.conn.arrivals
  tracked : Tracked clean s.conn.arrivals (State.unseen pb s.conn) s.task

theorem follows_start (clean : Prop) : Follows clean pb (State.start : State D) where
  numbered := fun _ hx ↦ (nomatch hx)
  tracked := ⟨False.elim, fun _ h ↦ h.elim, fun _ hm ↦ (nomatch hm), fun _ _ hm ↦ (nomatch hm),
    fun _ hr ↦ (nomatch hr), fun _ hc ↦ (nomatch hc)⟩

theorem Logged.mono {log : List Match} {r : Record} (h : Logged log r) (m : Match) :
    Logged (log ++ [m]) r := by
  intro c hc
  obtain ⟨m', hm', hindex, hawaited⟩ := h c hc
  exact ⟨m', List.mem_append_left _ hm', hindex, hawaited⟩

namespace Tracked

variable {clean : Prop} {n : ℕ} {queue : List (ℕ × Option String)} {t t' : Task D}

/-- Outside the first receive loop only the log matters. -/
theorem idle (h : Tracked clean n queue t) (hpc : ¬ t'.pc.awaits) (hlog : t'.log = t.log)
    (hresults : ∀ r ∈ t'.results, Logged t.log r) (hrecord : Logged t.log t'.record) :
    Tracked clean n queue t' where
  window := fun hw ↦ absurd hw hpc
  unclaimed := fun _ hw ↦ absurd hw hpc
  log := hlog ▸ h.log
  clean_log := hlog ▸ h.clean_log
  results := hlog ▸ hresults
  record := hlog ▸ hrecord

/-- A record joins the results. -/
theorem results_snoc (h : Tracked clean n queue t) {r : Record} (hr : Logged t.log r) :
    ∀ r' ∈ t.results ++ [r], Logged t.log r' := by
  intro r' hr'
  rcases List.mem_append.mp hr' with hr' | hr'
  · exact h.results r' hr'
  · rw [List.mem_singleton.mp hr']
    exact hr

/-- Later frames do not disturb a step that waits. -/
theorem put (h : Tracked clean n queue t) (xs : List (ℕ × Option String))
    (hxs : ∀ x ∈ xs, x.1 = n) : Tracked clean (n + 1) (queue ++ xs) t := by
  refine { h with window := ?_ }
  intro hw
  obtain ⟨hmark, hwindow⟩ := h.window hw
  exact ⟨Nat.le_succ_of_le hmark, hwindow.put fun x hx ↦ (hxs x hx).symm ▸ hmark⟩

theorem rendered (h : Tracked clean n queue t) (hnumbered : ∀ x ∈ queue, x.1 < n) {r : Rendered}
    {now : ℚ} {write : Except String Unit}
    (hleft : clean → ∀ m, r = .message m → write = .ok () →
      (p.validate_before_send = true → Sapient.validate m = []) →
        (∃ decoded, pb.toDict m = .ok decoded) → (∃ b, Wire.encode (pb.serialize m) = .ok b) →
          ∀ w, t.step.awaited = some w → some w ∉ queue.map Prod.snd) :
    Tracked clean n queue (t.rendered pb p n (queue.map Prod.snd) r now write).1 := by
  rcases Task.rendered_cases pb p n (queue.map Prod.snd) t r now write with
    ⟨errs, error, overall, heq, -⟩ | ⟨errs, m, heq, hm, hvalid⟩
  · rw [heq]
    exact h.idle (fun hw ↦ hw) rfl (h.results_snoc h.record) h.record
  · rw [heq]
    rcases Task.send_cases pb n (queue.map Prod.snd) (t.note errs) m now write with
      ⟨exc, -, hsend⟩ | ⟨decoded, hdecoded, -, ⟨⟨hb, hw⟩, hsend⟩ | ⟨-, text, hsend⟩⟩
    · rw [hsend]
      exact h.idle (fun hw ↦ hw) rfl h.results h.record
    · rw [hsend]
      exact { h with
        window := fun _ ↦ ⟨le_rfl, Window.set_mark hnumbered⟩
        unclaimed := fun hclean _ ↦ hleft hclean m hm hw hvalid ⟨decoded, hdecoded⟩ hb }
    · rw [hsend]
      exact h.idle (fun hw ↦ hw) rfl (h.results_snoc h.record) h.record

theorem take {x : ℕ × Option String} {drain : Bool} {deadline now : ℚ} {item : Inbound}
    (h : Tracked clean n (x :: queue) t) (hx : x = (item.seq, Sapient.content item.message))
    (hpc : drain = false → t.pc.awaits) :
    Tracked clean n queue (t.take pb drain deadline now item) := by
  subst hx
  rcases Task.take_cases pb t drain deadline now item with
    ⟨exc, heq⟩ | ⟨e, -, -, ⟨w, hdrain, hawaited, hcontent, heq⟩ | ⟨hskip, heq⟩⟩
  · rw [heq]
    exact ⟨False.elim, fun _ ↦ False.elim, h.log, h.clean_log, h.results, h.record⟩
  · rw [heq]
    obtain ⟨-, hwindow⟩ := h.window (hpc hdrain)
    have hfresh : t.mark ≤ item.seq ↔ some w ∉ t.pending := by
      rw [← hcontent]
      refine hwindow.mark_le_iff fun a ha ↦ ?_
      rw [hcontent]
      exact ha w hawaited
    refine ⟨False.elim, fun _ ↦ False.elim, ?_, ?_, fun r hr ↦ (h.results r hr).mono _, ?_⟩
    · intro m hm
      rcases List.mem_append.mp hm with hm | hm
      · exact h.log m hm
      · rw [List.mem_singleton.mp hm]
        exact hfresh
    · intro hclean m hm
      rcases List.mem_append.mp hm with hm | hm
      · exact h.clean_log hclean m hm
      · rw [List.mem_singleton.mp hm]
        exact h.unclaimed hclean (hpc hdrain) w hawaited
    · rintro c ⟨rfl⟩
      exact ⟨_, List.mem_append_right _ (List.mem_singleton.mpr rfl), rfl, rfl⟩
  · rw [heq]
    cases drain with
    | true => exact ⟨False.elim, fun _ ↦ False.elim, h.log, h.clean_log, h.results, h.record⟩
    | false =>
        obtain ⟨hmark, hwindow⟩ := h.window (hpc rfl)
        exact ⟨fun _ ↦ ⟨hmark, hwindow.skip (hskip rfl)⟩,
          fun hclean _ ↦ h.unclaimed hclean (hpc rfl), h.log, h.clean_log, h.results, h.record⟩

theorem connect (h : Tracked clean n queue t) (o : Connect) (end_utc : String) (saved : Bool) :
    Tracked clean n queue (t.connect p o end_utc saved) := by
  rcases Task.connect_cases p t o end_utc saved with ⟨exc, heq⟩ | ⟨-, heq⟩ | ⟨exc, heq⟩
  · rw [heq]
    exact h.idle id rfl h.results h.record
  · rw [heq]
    exact h.idle id rfl h.results h.record
  · rw [heq]
    exact h.idle id rfl h.results h.record

/-- A fresh record has no match. -/
theorem beginStep (h : Tracked clean n queue t) (idx : ℕ) (step : Step) (now : ℚ) :
    Tracked clean n queue (t.beginStep idx step now) := by
  refine h.idle ?_ rfl h.results fun _ hc ↦ (nomatch hc)
  unfold Task.beginStep
  dsimp only
  split <;> exact id

theorem flushed (h : Tracked clean n queue t) (hpc : t.pc = .flushing) (o : Except String Unit)
    (now : ℚ) : Tracked clean n queue (t.flushed o now) := by
  cases o with
  | error exc => exact h.idle id rfl (h.results_snoc h.record) h.record
  | ok u =>
      have hawaits : t.pc.awaits := by rw [hpc]; trivial
      exact { h with
        window := fun _ ↦ h.window hawaits
        unclaimed := fun hclean _ ↦ h.unclaimed hclean hawaits }

/-- The two points of a receive loop await alike. -/
theorem waiting (h : Tracked clean n queue t) {drain : Bool} {deadline : ℚ}
    (hpc : t.pc = .receiving drain deadline) :
    Tracked clean n queue { t with pc := .waiting drain deadline } := by
  have hawaits (hw : (Pc.waiting drain deadline : Pc D).awaits) : t.pc.awaits := by
    rw [hpc]
    cases drain with
    | false => trivial
    | true => exact hw
  exact { h with
    window := fun hw ↦ h.window (hawaits hw)
    unclaimed := fun hclean hw ↦ h.unclaimed hclean (hawaits hw) }

theorem leaveLoop (h : Tracked clean n queue t) (drain : Bool) :
    Tracked clean n queue (t.leaveLoop drain) := by
  cases drain with
  | false => exact h.idle id rfl h.results h.record
  | true => exact h.idle id rfl h.results h.record

theorem next (h : Tracked clean n queue t) (now : ℚ) : Tracked clean n queue (t.next now) := by
  unfold Task.next
  split
  · exact h.idle id rfl h.results h.record
  · exact h.idle id rfl h.results h.record

theorem endStep (h : Tracked clean n queue t) (now : ℚ) :
    Tracked clean n queue (t.endStep p now) := by
  obtain ⟨ms, ⟨text, heq⟩ | heq⟩ := Task.endStep_cases p t now
  · rw [heq]
    exact h.idle id rfl (h.results_snoc h.record) h.record
  · rw [heq]
    refine h.idle ?_ rfl (h.results_snoc h.record) h.record
    dsimp only
    split <;> exact id

theorem close (h : Tracked clean n queue t) (reader : Reader) (exc : Option String)
    (end_utc : String) (saved : Bool) :
    Tracked clean n queue (t.close p reader exc end_utc saved) := by
  rcases Task.close_cases p reader t exc end_utc saved with ⟨exc', heq⟩ | ⟨-, heq⟩
  · rw [heq]
    exact h.idle id rfl h.results h.record
  · rw [heq]
    exact h.idle id rfl h.results h.record

end Tracked

/-! ## The run -/

namespace Follows

variable {clean : Prop} {s : State D}

/-- A frame is numbered by the number of frames that have completed. -/
theorem arrive (h : Follows clean pb s) (payload : Wire.Bytes) :
    Follows clean pb ⟨s.task, { s.conn with
      stream := s.conn.stream ++ [⟨s.conn.arrivals, payload⟩]
      arrivals := s.conn.arrivals + 1 }⟩ := by
  have hseq : ∀ x ∈ ((pb.parse payload).map fun m ↦
      (s.conn.arrivals, Sapient.content m)).toList, x.1 = s.conn.arrivals := by
    intro x hx
    obtain ⟨m, -, rfl⟩ := Option.map_eq_some_iff.mp (Option.mem_toList.mp hx)
    rfl
  refine ⟨?_, ?_⟩
  · rw [unseen_arrive]
    intro x hx
    rcases List.mem_append.mp hx with hx | hx
    · exact Nat.lt_succ_of_lt (h.numbered x hx)
    · exact (hseq x hx).symm ▸ Nat.lt_succ_self _
  · rw [unseen_arrive]
    exact h.tracked.put _ hseq

theorem read (h : Follows clean pb s) : Follows clean pb ⟨s.task, State.read pb s.conn⟩ := by
  have harrivals : (State.read pb s.conn).arrivals = s.conn.arrivals := by
    unfold State.read
    split
    · rfl
    · split <;> rfl
  refine ⟨?_, ?_⟩
  · rw [unseen_read, harrivals]
    exact h.numbered
  · rw [unseen_read, harrivals]
    exact h.tracked

/-- A frame comes off the front of the queue. -/
theorem take (h : Follows clean pb s) {drain : Bool} {deadline now : ℚ} {item : Inbound}
    {inbox : List Inbound} (hinbox : s.conn.inbox = item :: inbox)
    (hpc : drain = false → s.task.pc.awaits) :
    Follows clean pb
      ⟨s.task.take pb drain deadline now item, { s.conn with inbox := inbox }⟩ := by
  have hunseen := @unseen_take D pb _ _ _ hinbox
  have htracked := h.tracked
  rw [hunseen] at htracked
  exact ⟨fun x hx ↦ h.numbered x (hunseen ▸ List.mem_cons_of_mem _ hx), htracked.take rfl hpc⟩

end Follows

/-- A step keeps track of the queue. -/
theorem follows_step (clean : Prop) (s : State D) (l : Label) (s' : State D)
    (h : Follows clean pb s) (hl : clean → NothingLeft pb p s l)
    (hs : State.step pb p s l = some s') : Follows clean pb s' := by
  have ht := h.tracked
  cases l with
  | arrive payload =>
      rw [State.step_arrive hs]
      exact h.arrive payload
  | feed_eof =>
      rw [State.step_feed_eof hs]
      exact ⟨h.numbered, ht⟩
  | signal e =>
      rw [State.step_signal hs]
      cases e <;> exact ⟨h.numbered, ht⟩
  | read =>
      rw [State.step_read hs]
      exact h.read
  | connect o end_utc saved =>
      obtain ⟨-, rfl⟩ := State.step_connect hs
      exact ⟨h.numbered, ht.connect ..⟩
  | begin_step now =>
      obtain ⟨idx, step, -, -, rfl⟩ := State.step_begin hs
      exact ⟨h.numbered, ht.beginStep ..⟩
  | woke =>
      obtain ⟨-, rfl⟩ := State.step_woke hs
      exact ⟨h.numbered, ht.idle id rfl ht.results ht.record⟩
  | rendered r now write =>
      obtain ⟨-, rfl⟩ := State.step_rendered hs
      refine ⟨h.numbered, ht.rendered h.numbered ?_⟩
      rintro hclean m rfl rfl
      exact hl hclean
  | flushed o now =>
      obtain ⟨hpc, rfl⟩ := State.step_flushed hs
      exact ⟨h.numbered, ht.flushed hpc ..⟩
  | poll now stamped =>
      obtain ⟨drain, deadline, hpc, rfl | rfl | ⟨item, inbox, hinbox, rfl⟩⟩ := State.step_poll hs
      · exact ⟨h.numbered, ht.leaveLoop drain⟩
      · exact ⟨h.numbered, ht.waiting hpc⟩
      · exact h.take hinbox (by rintro rfl; rw [hpc]; trivial)
  | got stamped =>
      obtain ⟨drain, deadline, item, inbox, hpc, hinbox, rfl⟩ := State.step_got hs
      exact h.take hinbox (by rintro rfl; rw [hpc]; trivial)
  | timeout =>
      obtain ⟨drain, deadline, -, rfl⟩ := State.step_timeout hs
      exact ⟨h.numbered, ht.leaveLoop drain⟩
  | next now =>
      obtain ⟨-, rfl⟩ := State.step_next hs
      exact ⟨h.numbered, ht.next now⟩
  | end_step now =>
      obtain ⟨-, rfl⟩ := State.step_end hs
      exact ⟨h.numbered, ht.endStep now⟩
  | close end_utc saved =>
      obtain ⟨exc, -, rfl⟩ := State.step_close hs
      exact ⟨h.numbered, ht.close ..⟩

/-- In a run in which nothing was left over at any write every match is fresh.  In any
run, a match is fresh if and only if no frame of its content was left over when the
message of its step was written. -/
theorem matches_fresh {ls : List Label} {s : State D}
    (hrun : (State.step pb p).run State.start ls = some s) :
    ((State.step pb p).Meets (NothingLeft pb p) State.start ls → Fresh s.task) ∧
      ∀ m ∈ s.task.log, (m.mark ≤ m.seq ↔ some m.awaited ∉ m.pending) := by
  constructor
  · intro hleft
    have h := (hleft.invariant (fun s l s' h hl ↦ follows_step True s l s' h fun _ ↦ hl)
      (follows_start True) hrun).tracked
    exact ⟨h.results_snoc h.record, fun m hm ↦ (h.log m hm).mpr (h.clean_log trivial m hm)⟩
  · have h := Machine.invariant (fun s l s' h ↦ follows_step False s l s' h False.elim)
      (follows_start False) hrun
    exact h.tracked.log

/-! ## Leftover acknowledgements -/

/-- One acknowledgement comes after the message is written, and is matched. -/
theorem matches_fresh_once : ∃ s,
    (State.step fewMessages twoSteps).run State.start
      [.connect .connected "" true, .begin_step 0, .rendered (.message []) 0 (.ok ()),
        .flushed (.ok ()) 0, .poll 0 0, .arrive [0x2A, 2, 8, 1], .read, .got 1] = some s ∧
    s.task.record.matched_wait_for = some "registration_ack" ∧ Fresh s.task := by
  have hrun : ((State.step fewMessages twoSteps).run State.start
      [.connect .connected "" true, .begin_step 0, .rendered (.message []) 0 (.ok ()),
        .flushed (.ok ()) 0, .poll 0 0, .arrive [0x2A, 2, 8, 1], .read, .got 1]).map
      (fun s ↦ s.task.record.matched_wait_for) = some (some "registration_ack") := by
    decide +kernel
  obtain ⟨s, hs, hmatched⟩ := Option.map_eq_some_iff.mp hrun
  refine ⟨s, hs, hmatched, (matches_fresh hs).1 ?_⟩
  refine ⟨trivial, fun s₁ h₁ ↦ ⟨trivial, fun s₂ h₂ ↦ ⟨?_, fun _ _ ↦ ⟨trivial, fun _ _ ↦ ⟨trivial,
    fun _ _ ↦ ⟨trivial, fun _ _ ↦ ⟨trivial, fun _ _ ↦ ⟨trivial, fun _ _ ↦ trivial⟩⟩⟩⟩⟩⟩⟩⟩
  obtain ⟨-, rfl⟩ := State.step_connect h₁
  obtain ⟨idx, step, -, -, rfl⟩ := State.step_begin h₂
  intro _ _ _ w _ hw
  exact nomatch hw

/-- Two acknowledgements come for the first step, and the second step matches the one
that was left over: frame 1, when two had completed before its message was written. -/
theorem leftover_ack_matched : ∃ s,
    (State.step fewMessages twoSteps).run State.start
      [.connect .connected "" true, .begin_step 0, .rendered (.message []) 0 (.ok ()),
        .flushed (.ok ()) 0, .poll 0 0, .arrive [0x2A, 2, 8, 1], .arrive [0x2A, 2, 8, 1],
        .read, .read, .got 1, .next 1, .end_step 1, .begin_step 1,
        .rendered (.message []) 1 (.ok ()), .flushed (.ok ()) 1, .poll 1 1] = some s ∧
    s.task.record.index = 1 ∧ s.task.record.matched_wait_for = some "registration_ack" ∧
    ¬ Fresh s.task := by
  have hrun : ((State.step fewMessages twoSteps).run State.start
      [.connect .connected "" true, .begin_step 0, .rendered (.message []) 0 (.ok ()),
        .flushed (.ok ()) 0, .poll 0 0, .arrive [0x2A, 2, 8, 1], .arrive [0x2A, 2, 8, 1],
        .read, .read, .got 1, .next 1, .end_step 1, .begin_step 1,
        .rendered (.message []) 1 (.ok ()), .flushed (.ok ()) 1, .poll 1 1]).map
      (fun s ↦ (s.task.record.index, s.task.record.matched_wait_for,
        s.task.log.all fun m ↦ decide (m.mark ≤ m.seq))) =
      some (1, some "registration_ack", false) := by
    decide +kernel
  obtain ⟨s, hs, hval⟩ := Option.map_eq_some_iff.mp hrun
  obtain ⟨hindex, hval⟩ := Prod.mk.inj hval
  obtain ⟨hmatched, hall⟩ := Prod.mk.inj hval
  refine ⟨s, hs, hindex, hmatched, fun h ↦ ?_⟩
  rw [List.all_eq_true.mpr fun m hm ↦ decide_eq_true (h.fresh m hm)] at hall
  cases hall

end SensorFusion.Flow
