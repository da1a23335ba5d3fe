import SensorFusion.Flow.Accounting
import SensorFusion.Wire.Garbage

/-!
# What a flow puts on the wire

The bytes that `run_flow` hands to the `StreamWriter`, over a whole run.  Each message that
is rendered is an `Attempt`, and an attempt that gets as far as `writer.write` hands over one
frame.  The invariant is that the attempts are numbered as the steps are, and that only the
last one can have handed over nothing; where the main task stands says whether the last
frame is already booked as sent.

A receiver that is fed these bytes, or any initial part of them, reads the messages back:
this is where the runner and `read_frames` meet.
-/

namespace SensorFusion.Flow

open Proto (Message)
open Wire (Bytes)

variable {D : Type} {pb : Protobuf D} {p : Params}

/-! ## What is handed over -/

/-- A message that has been rendered, for which step, and what `writer.write` was called
with because of it, if it was called. -/
structure Attempt where
  index : ℕ
  step : Step
  message : Message
  handed : Option Bytes

/-- The attempt that a label makes. -/
def attempt (pb : Protobuf D) (p : Params) (s : State D) : Label → List Attempt
  | .rendered (.message m) now write => [⟨s.task.record.index, s.task.step, m,
      (s.task.rendered pb p s.conn.arrivals ((State.unseen pb s.conn).map Prod.snd) (.message m)
        now write).2⟩]
  | _ => []

/-- The attempts of a run of `run_flow`. -/
def attempts (pb : Protobuf D) (p : Params) (ls : List Label) : List Attempt :=
  (State.step pb p).outputs (attempt pb p) State.start ls

/-- The bytes that a run hands to the `StreamWriter`, one call of `write` after the other. -/
def written (pb : Protobuf D) (p : Params) (ls : List Label) : Bytes :=
  ((attempts pb p ls).filterMap Attempt.handed).flatten

/-- The records so far, with that of the step being played. -/
def Task.recorded (t : Task D) : List Record :=
  if t.record.index = t.results.length then t.results ++ [t.record] else t.results

/-- The first `n` records are the ones booked as sent. -/
structure Sent (recs : List Record) (n : ℕ) : Prop where
  le : n ≤ recs.length
  iff : ∀ i r, recs[i]? = some r → (r.sent = true ↔ i < n)

/-- The write of step `n` has failed. -/
def WriteFailed (recs : List Record) (n : ℕ) : Prop :=
  ∃ r exc, recs[n]? = some r ∧ r.error = some ("write failed: " ++ exc)

namespace Sent

variable {recs : List Record} {r : Record}

theorem nil : Sent [] 0 := ⟨Nat.zero_le _, fun _ _ hr ↦ nomatch hr⟩

/-- A record that is not booked as sent, after records that all are. -/
theorem snoc_unsent (h : Sent recs recs.length) (hr : r.sent = false) :
    Sent (recs ++ [r]) recs.length := by
  refine ⟨by rw [List.length_append]; exact Nat.le_add_right _ _, fun i x hx ↦ ?_⟩
  rcases Nat.lt_trichotomy i recs.length with hi | rfl | hi
  · rw [List.getElem?_append_left hi] at hx
    exact h.iff i x hx
  · rw [List.getElem?_concat_length] at hx
    cases hx
    simp [hr]
  · rw [List.getElem?_eq_none (by rw [List.length_append]; exact hi)] at hx
    cases hx

/-- A record that is booked as sent, after records that all are. -/
theorem snoc_sent (h : Sent recs recs.length) (hr : r.sent = true) :
    Sent (recs ++ [r]) (recs.length + 1) := by
  refine ⟨by rw [List.length_append]; exact le_rfl, fun i x hx ↦ ?_⟩
  have hi := (List.getElem?_eq_some_iff.mp hx).1
  rw [List.length_append] at hi
  rcases Nat.lt_or_eq_of_le (Nat.le_of_lt_succ hi) with hlt | rfl
  · rw [List.getElem?_append_left hlt] at hx
    rw [h.iff i x hx]
    exact ⟨fun _ ↦ hi, fun _ ↦ hlt⟩
  · rw [List.getElem?_concat_length] at hx
    cases hx
    simp [hr]

end Sent

/-! ## Where the main task stands -/

/-- The step being played is number `t.results.length`, and all before it are booked as
sent; `sent` says whether it is booked as sent itself. -/
structure Playing (p : Params) (t : Task D) (sent : Bool) : Prop where
  results : Sent t.results t.results.length
  index : t.record.index = t.results.length
  sent : t.record.sent = sent
  step : p.steps[t.results.length]? = some t.step

/-- How many frames have been handed over, `k` of them, at each point of the loop. -/
def Stands (p : Params) (t : Task D) (k : ℕ) : Prop :=
  match t.pc with
  | .connecting => k = 0 ∧ t.results = [] ∧ t.record.sent = false
  | .stepping idx => k = idx ∧ t.results.length = idx ∧ Sent t.results idx ∧
      (t.record.index = idx → t.record.sent = false) ∧ idx < p.steps.length
  | .sleeping | .rendering => k = t.results.length ∧ Playing p t false
  | .flushing => k = t.results.length + 1 ∧ Playing p t false
  | .receiving _ _ | .waiting _ _ | .received | .ending =>
      k = t.results.length + 1 ∧ Playing p t true
  | .closing _ | .returned _ | .raised _ => ∃ n, Sent t.recorded n ∧
      (k = n ∨ k = n + 1 ∧ WriteFailed t.recorded n)

/-- The loop is left. -/
def Pc.over : Pc D → Prop
  | .closing _ | .returned _ | .raised _ => True
  | _ => False

/-- The attempts of a run: all but the last have handed over the frame of their message,
and that message is valid if the flow asks for it. -/
structure Wired (pb : Protobuf D) (p : Params) (t : Task D) (as : List Attempt) : Prop where
  numbered : ∀ (i : ℕ) (a : Attempt), as[i]? = some a → a.index = i ∧ p.steps[i]? = some a.step
  split : ∃ hs us, as = hs ++ us ∧ Stands p t hs.length ∧ (us = [] ∨ t.pc.over) ∧
    (∀ a ∈ hs, ∃ b, Wire.encode (pb.serialize a.message) = .ok b ∧ a.handed = some b ∧
      (p.validate_before_send = true → Sapient.validate a.message = [])) ∧
    ∀ a ∈ us, a.handed = none

namespace Playing

variable {t : Task D} {sent : Bool}

theorem recorded_eq (h : Playing p t sent) : t.recorded = t.results ++ [t.record] := by
  rw [Task.recorded, if_pos h.index]

/-- How many records are booked as sent while a step is being played. -/
theorem sent_snoc (h : Playing p t sent) {r : Record} (hr : r.sent = sent) :
    Sent (t.results ++ [r]) (t.results.length + if sent then 1 else 0) := by
  cases sent with
  | false => exact h.results.snoc_unsent hr
  | true => exact h.results.snoc_sent hr

/-- A step that fails is recorded as it is booked. -/
theorem recorded_fail (h : Playing p t sent) (error overall : String) :
    (t.fail error overall).recorded = t.results ++ [{ t.record with error := some error }] := by
  have hne : t.record.index ≠ (t.results ++ [{ t.record with error := some error }]).length := by
    rw [h.index, List.length_append]
    exact Nat.ne_of_lt (Nat.lt_succ_self _)
  rw [Task.recorded]
  exact if_neg hne

theorem fail (h : Playing p t sent) (error overall : String) :
    Stands p (t.fail error overall) (t.results.length + if sent then 1 else 0) := by
  refine ⟨_, ?_, .inl rfl⟩
  rw [h.recorded_fail]
  exact h.sent_snoc (r := { t.record with error := some error }) h.sent

/-- A step whose write fails is not booked as sent. -/
theorem fail_write (h : Playing p t false) (exc : String) :
    Stands p (t.fail ("write failed: " ++ exc) ("write failed: " ++ exc))
      (t.results.length + 1) := by
  refine ⟨t.results.length, ?_, .inr ⟨rfl, ?_⟩⟩
  · rw [h.recorded_fail]
    exact h.results.snoc_unsent h.sent
  · rw [h.recorded_fail]
    exact ⟨_, exc, List.getElem?_concat_length, rfl⟩

/-- An exception leaves the record where it was. -/
theorem raise (h : Playing p t sent) (exc : String) :
    Stands p { t with pc := .closing (some exc) } (t.results.length + if sent then 1 else 0) := by
  refine ⟨_, ?_, .inl rfl⟩
  have hrec : Task.recorded { t with pc := .closing (some exc) } = t.results ++ [t.record] :=
    h.recorded_eq
  rw [hrec]
  exact h.sent_snoc h.sent

end Playing

/-! ## Every step keeps the count -/

namespace Stands

variable {t : Task D} {k : ℕ}

theorem connect (h : Stands p t k) (hpc : t.pc = .connecting) (o : Connect) (end_utc : String)
    (saved : Bool) : Stands p (t.connect p o end_utc saved) k := by
  simp only [Stands, hpc] at h
  obtain ⟨rfl, hresults, hsent⟩ := h
  have hrec : Sent t.recorded 0 := by
    rw [Task.recorded, hresults]
    split
    · exact Sent.nil.snoc_unsent hsent
    · exact Sent.nil
  rcases Task.connect_cases p t o end_utc saved with ⟨exc, heq⟩ | ⟨hsteps, heq⟩ | ⟨exc, heq⟩
  · rw [heq]
    exact ⟨0, hrec, .inl rfl⟩
  · rw [heq]
    exact ⟨rfl, by rw [hresults]; rfl, by rw [hresults]; exact Sent.nil, fun _ ↦ hsent,
      List.length_pos_of_ne_nil hsteps⟩
  · rw [heq]
    exact ⟨0, hrec, .inl rfl⟩

theorem beginStep (h : Stands p t k) {idx : ℕ} (hpc : t.pc = .stepping idx) {step : Step}
    (hstep : p.steps[idx]? = some step) (now : ℚ) : Stands p (t.beginStep idx step now) k := by
  simp only [Stands, hpc] at h
  obtain ⟨rfl, hlen, hresults, -, -⟩ := h
  have hplaying : Playing p (t.beginStep k step now) false :=
    ⟨by rw [← hlen] at hresults; exact hresults, hlen.symm, rfl,
      by rw [← hlen] at hstep; exact hstep⟩
  by_cases hgap : 0 < step.gap_before_s
  · have hpc : (t.beginStep k step now).pc = .sleeping := if_pos hgap
    simp only [Stands, hpc]
    exact ⟨hlen.symm, hplaying⟩
  · have hpc : (t.beginStep k step now).pc = .rendering := if_neg hgap
    simp only [Stands, hpc]
    exact ⟨hlen.symm, hplaying⟩

theorem flushed (h : Stands p t k) (hpc : t.pc = .flushing) (o : Except String Unit) (now : ℚ) :
    Stands p (t.flushed o now) k := by
  simp only [Stands, hpc] at h
  obtain ⟨rfl, hplaying⟩ := h
  cases o with
  | error exc => exact hplaying.fail_write exc
  | ok u => exact ⟨rfl, hplaying.results, hplaying.index, rfl, hplaying.step⟩

theorem take (h : Playing p t true) (drain : Bool) (deadline now : ℚ) (item : Inbound) :
    Stands p (t.take pb drain deadline now item) (t.results.length + 1) := by
  rcases Task.take_cases pb t drain deadline now item with ⟨exc, heq⟩ | ⟨e, -, -, hcase⟩
  · rw [heq]
    exact h.raise exc
  · rcases hcase with ⟨w, -, -, -, heq⟩ | ⟨-, heq⟩
    · rw [heq]
      exact ⟨rfl, h.results, h.index, h.sent, h.step⟩
    · rw [heq]
      exact ⟨rfl, h.results, h.index, h.sent, h.step⟩

theorem leaveLoop (h : Playing p t true) (drain : Bool) :
    Stands p (t.leaveLoop drain) (t.results.length + 1) := by
  cases drain with
  | false => exact ⟨rfl, h.results, h.index, h.sent, h.step⟩
  | true => exact ⟨rfl, h.results, h.index, h.sent, h.step⟩

theorem next (h : Stands p t k) (hpc : t.pc = .received) (now : ℚ) : Stands p (t.next now) k := by
  simp only [Stands, hpc] at h
  obtain ⟨rfl, h⟩ := h
  rw [Task.next]
  split
  · exact ⟨rfl, h.results, h.index, h.sent, h.step⟩
  · exact ⟨rfl, h.results, h.index, h.sent, h.step⟩

theorem endStep (h : Stands p t k) (hpc : t.pc = .ending) (now : ℚ) :
    Stands p (t.endStep p now) k := by
  simp only [Stands, hpc] at h
  obtain ⟨rfl, h⟩ := h
  obtain ⟨ms, hcase⟩ := Task.endStep_cases p t now
  have hms : Playing p { t with record := { t.record with elapsed_ms := some ms } } true :=
    ⟨h.results, h.index, h.sent, h.step⟩
  rcases hcase with ⟨text, heq⟩ | heq
  · rw [heq]
    exact hms.fail text text
  · rw [heq]
    have hsnoc : Sent (t.results ++ [{ t.record with elapsed_ms := some ms }])
        (t.results.length + 1) := h.results.snoc_sent h.sent
    have hlen : (t.results ++ [{ t.record with elapsed_ms := some ms }]).length =
        t.results.length + 1 := List.length_append
    have hne : t.record.index ≠ t.results.length + 1 := by
      rw [h.index]
      exact Nat.ne_of_lt (Nat.lt_succ_self _)
    by_cases hlast : t.record.index + 1 < p.steps.length
    · rw [if_pos hlast, h.index]
      exact ⟨rfl, hlen, hsnoc, fun heq ↦ absurd heq hne, by rw [← h.index]; exact hlast⟩
    · rw [if_neg hlast]
      refine ⟨t.results.length + 1, ?_, .inl rfl⟩
      rw [Task.recorded, if_neg (by rw [hlen]; exact hne)]
      exact hsnoc

theorem close (h : Stands p t k) {exc : Option String} (hpc : t.pc = .closing exc)
    (reader : Reader) (end_utc : String) (saved : Bool) :
    Stands p (t.close p reader exc end_utc saved) k := by
  simp only [Stands, hpc] at h
  rcases Task.close_cases p reader t exc end_utc saved with ⟨exc', heq⟩ | ⟨-, heq⟩
  · rw [heq]
    exact h
  · rw [heq]
    exact h

end Stands

/-- A rendered message that is handed over is in flight, or its write has failed; a step
that hands over nothing is left. -/
theorem Stands.rendered {t : Task D} (h : Playing p t false) (c : ℕ)
    (pending : List (Option String)) (m : Message) (now : ℚ) (write : Except String Unit) :
    (∃ b, Wire.encode (pb.serialize m) = .ok b ∧
      (t.rendered pb p c pending (.message m) now write).2 = some b ∧
      (p.validate_before_send = true → Sapient.validate m = []) ∧
      Stands p (t.rendered pb p c pending (.message m) now write).1 (t.results.length + 1)) ∨
    ((t.rendered pb p c pending (.message m) now write).2 = none ∧
      (t.rendered pb p c pending (.message m) now write).1.pc.over ∧
      Stands p (t.rendered pb p c pending (.message m) now write).1 t.results.length) := by
  have hnote (errs : List String) : Playing p (t.note errs) false :=
    ⟨h.results, h.index, h.sent, h.step⟩
  rcases Task.rendered_cases pb p c pending t (.message m) now write with
    ⟨errs, error, overall, heq, herrs⟩ | ⟨errs, m', heq, hm, hvalid⟩
  · right
    rw [heq]
    exact ⟨rfl, trivial, (hnote errs).fail error overall⟩
  · cases hm
    rw [heq]
    rcases Task.send_cases pb c pending (t.note errs) m now write with
      ⟨exc, -, hsend⟩ | ⟨decoded, -, hhanded, hcase⟩
    · rw [hsend]
      exact .inr ⟨rfl, trivial, (hnote errs).raise exc⟩
    · have hstamped : Playing p ((t.note errs).stamped (stamp now .sent (Sapient.content m)
          (pb.serialize m) decoded t.record.index)) false :=
        ⟨h.results, h.index, h.sent, h.step⟩
      rw [hhanded]
      cases henc : Wire.encode (pb.serialize m) with
      | error exc =>
          rcases hcase with ⟨⟨⟨b, hb⟩, -⟩, -⟩ | ⟨-, text, hsend⟩
          · cases henc.symm.trans hb
          · rw [hsend]
            exact .inr ⟨rfl, trivial, hstamped.fail _ _⟩
      | ok b =>
          refine .inl ⟨b, rfl, rfl, hvalid, ?_⟩
          rcases hcase with ⟨-, hsend⟩ | ⟨-, text, hsend⟩
          · rw [hsend]
            exact ⟨rfl, h.results, h.index, h.sent, h.step⟩
          · rw [hsend]
            exact hstamped.fail_write text

/-- A label that renders no message makes no attempt. -/
theorem attempt_of_not_message {l : Label} (s : State D)
    (hl : ∀ m now write, l ≠ .rendered (.message m) now write) : attempt pb p s l = [] := by
  unfold attempt
  split
  · exact absurd rfl (hl _ _ _)
  · rfl

/-- A step that renders no message keeps the count, and does not come back into the loop. -/
theorem stands_step {s s' : State D} {l : Label} {k : ℕ} (h : Stands p s.task k)
    (hs : State.step pb p s l = some s')
    (hl : ∀ m now write, l ≠ .rendered (.message m) now write) :
    Stands p s'.task k ∧ (s.task.pc.over → s'.task.pc.over) := by
  cases l with
  | arrive payload => rw [State.step_arrive hs]; exact ⟨h, id⟩
  | feed_eof => rw [State.step_feed_eof hs]; exact ⟨h, id⟩
  | signal e => rw [State.step_signal hs]; exact ⟨h, id⟩
  | read => rw [State.step_read hs]; exact ⟨h, id⟩
  | connect o end_utc saved =>
      obtain ⟨hpc, rfl⟩ := State.step_connect hs
      exact ⟨h.connect hpc o end_utc saved, by rw [hpc]; exact False.elim⟩
  | begin_step now =>
      obtain ⟨idx, step, hpc, hstep, rfl⟩ := State.step_begin hs
      exact ⟨h.beginStep hpc hstep now, by rw [hpc]; exact False.elim⟩
  | woke =>
      obtain ⟨hpc, rfl⟩ := State.step_woke hs
      simp only [Stands, hpc] at h
      exact ⟨⟨h.1, h.2.results, h.2.index, h.2.sent, h.2.step⟩, by rw [hpc]; exact False.elim⟩
  | rendered r now write =>
      obtain ⟨hpc, rfl⟩ := State.step_rendered hs
      refine ⟨?_, by rw [hpc]; exact False.elim⟩
      simp only [Stands, hpc] at h
      obtain ⟨rfl, hplaying⟩ := h
      cases r with
      | message m => exact absurd rfl (hl m now write)
      | not_found exc => exact hplaying.fail _ _
      | failed exc => exact hplaying.fail _ _
  | flushed o now =>
      obtain ⟨hpc, rfl⟩ := State.step_flushed hs
      exact ⟨h.flushed hpc o now, by rw [hpc]; exact False.elim⟩
  | poll now stamped =>
      obtain ⟨drain, deadline, hpc, hcase⟩ := State.step_poll hs
      refine ⟨?_, by rw [hpc]; exact False.elim⟩
      simp only [Stands, hpc] at h
      obtain ⟨rfl, h⟩ := h
      rcases hcase with rfl | rfl | ⟨item, inbox, -, rfl⟩
      · exact Stands.leaveLoop h drain
      · exact ⟨rfl, h.results, h.index, h.sent, h.step⟩
      · exact Stands.take h drain deadline stamped item
  | got stamped =>
      obtain ⟨drain, deadline, item, inbox, hpc, -, rfl⟩ := State.step_got hs
      refine ⟨?_, by rw [hpc]; exact False.elim⟩
      simp only [Stands, hpc] at h
      obtain ⟨rfl, h⟩ := h
      exact Stands.take h drain deadline stamped item
  | timeout =>
      obtain ⟨drain, deadline, hpc, rfl⟩ := State.step_timeout hs
      refine ⟨?_, by rw [hpc]; exact False.elim⟩
      simp only [Stands, hpc] at h
      obtain ⟨rfl, h⟩ := h
      exact Stands.leaveLoop h drain
  | next now =>
      obtain ⟨hpc, rfl⟩ := State.step_next hs
      exact ⟨h.next hpc now, by rw [hpc]; exact False.elim⟩
  | end_step now =>
      obtain ⟨hpc, rfl⟩ := State.step_end hs
      exact ⟨h.endStep hpc now, by rw [hpc]; exact False.elim⟩
  | close end_utc saved =>
      obtain ⟨exc, hpc, rfl⟩ := State.step_close hs
      refine ⟨h.close hpc s.conn.reader end_utc saved, fun _ ↦ ?_⟩
      rcases Task.close_cases p s.conn.reader s.task exc end_utc saved with
        ⟨exc', heq⟩ | ⟨-, heq⟩
      · rw [heq]
        trivial
      · rw [heq]
        trivial

/-- Every step keeps the attempts in order. -/
theorem wired_step (s : State D) (l : Label) (s' : State D) (as : List Attempt)
    (h : Wired pb p s.task as) (hs : State.step pb p s l = some s') :
    Wired pb p s'.task (as ++ attempt pb p s l) := by
  obtain ⟨hs', us, rfl, hstands, hus, hframes, hnone⟩ := h.split
  by_cases hl : ∀ m now write, l ≠ .rendered (.message m) now write
  · rw [attempt_of_not_message s hl, List.append_nil]
    obtain ⟨hstands', hover⟩ := stands_step hstands hs hl
    exact ⟨h.numbered, hs', us, rfl, hstands', hus.imp id hover, hframes, hnone⟩
  · push Not at hl
    obtain ⟨m, now, write, rfl⟩ := hl
    obtain ⟨hpc, rfl⟩ := State.step_rendered hs
    simp only [Stands, hpc] at hstands
    obtain ⟨hk, hplaying⟩ := hstands
    -- nothing is rendered once the loop is left, so all attempts so far have handed over
    have hnil : us = [] := by
      rcases hus with hus | hover
      · exact hus
      · rw [hpc] at hover
        exact hover.elim
    subst hnil
    rw [List.append_nil] at h ⊢
    have hnumbered (i : ℕ) (a : Attempt) (ha : (hs' ++ attempt pb p s (.rendered (.message m) now
        write))[i]? = some a) : a.index = i ∧ p.steps[i]? = some a.step := by
      have hi := (List.getElem?_eq_some_iff.mp ha).1
      rw [attempt, List.length_append] at hi
      rcases Nat.lt_or_eq_of_le (Nat.le_of_lt_succ hi) with hlt | rfl
      · rw [List.getElem?_append_left hlt] at ha
        exact h.numbered i a ha
      · rw [attempt, List.getElem?_concat_length] at ha
        cases ha
        exact ⟨hplaying.index.trans hk.symm, by rw [hk]; exact hplaying.step⟩
    rcases @Stands.rendered _ pb _ _ hplaying s.conn.arrivals
      ((State.unseen pb s.conn).map Prod.snd) m now write with
      ⟨b, henc, hhanded, hvalid, hstands'⟩ | ⟨hhanded, hover, hstands'⟩
    · refine ⟨hnumbered, hs' ++ attempt pb p s (.rendered (.message m) now write), [],
        (List.append_nil _).symm, ?_, .inl rfl, ?_, fun a ha ↦ nomatch ha⟩
      · rw [attempt, List.length_append, hk]
        exact hstands'
      · intro a ha
        rcases List.mem_append.mp ha with ha | ha
        · exact hframes a ha
        · rw [attempt, List.mem_singleton] at ha
          subst ha
          exact ⟨b, henc, hhanded, hvalid⟩
    · refine ⟨hnumbered, hs', _, rfl, by rw [hk]; exact hstands', .inr hover, hframes, ?_⟩
      intro a ha
      rw [attempt, List.mem_singleton] at ha
      subst ha
      exact hhanded

theorem wired_start : Wired pb p (Task.start : Task D) [] where
  numbered := fun _ _ ha ↦ nomatch ha
  split := ⟨[], [], rfl, ⟨rfl, rfl, rfl⟩, .inl rfl, by simp, by simp⟩

/-- The attempts are in order at the end of every run. -/
theorem wired_run {ls : List Label} {s : State D}
    (hrun : (State.step pb p).run State.start ls = some s) : Wired pb p s.task (attempts pb p ls) :=
  Machine.outputs_invariant (I := fun s as ↦ Wired pb p s.task as) wired_step wired_start hrun

/-! ## The wire -/

/-- Attempts that hand over the frames of their messages hand over the encoding of all of
them. -/
theorem encodeAll_handed {as : List Attempt} (h : ∀ a ∈ as, ∃ b,
    Wire.encode (pb.serialize a.message) = .ok b ∧ a.handed = some b) :
    Wire.encodeAll (as.map fun a ↦ pb.serialize a.message) =
      .ok (as.filterMap Attempt.handed).flatten := by
  induction as with
  | nil => rfl
  | cons a as ih =>
      obtain ⟨⟨b, henc, hhanded⟩, has⟩ := List.forall_mem_cons.mp h
      rw [List.map_cons, Wire.encodeAll, henc, ih has, List.filterMap_cons_some hhanded,
        List.flatten_cons]
      rfl

/-- Attempts that hand over nothing add nothing. -/
theorem filterMap_handed_nil {as : List Attempt} (h : ∀ a ∈ as, a.handed = none) :
    as.filterMap Attempt.handed = [] :=
  List.filterMap_eq_nil_iff.mpr h

/-- What can be read back from the encoding of messages that survive the round trip. -/
theorem parse_serialize {as : List Attempt}
    (h : ∀ a ∈ as, pb.parse (pb.serialize a.message) = some a.message) :
    (as.map fun a ↦ pb.serialize a.message).filterMap pb.parse = as.map Attempt.message := by
  rw [List.filterMap_map]
  exact List.filterMap_eq_map_iff_forall_eq_some.mpr h

/-- As many frames are handed over as steps are booked as sent, or one more. -/
theorem Stands.sent {t : Task D} {k : ℕ} (h : Stands p t k) :
    ∃ n, Sent t.recorded n ∧ (k = n ∨
      k = n + 1 ∧ ((∃ r, t.pc = .flushing ∧ t.recorded[n]? = some r) ∨
        WriteFailed t.recorded n)) := by
  have hplaying {sent : Bool} (hp : Playing p t sent) :
      Sent t.recorded (t.results.length + if sent then 1 else 0) := by
    rw [hp.recorded_eq]
    exact hp.sent_snoc hp.sent
  unfold Stands at h
  split at h
  case h_1 =>
    obtain ⟨hk, hresults, hsent⟩ := h
    refine ⟨0, ?_, .inl hk⟩
    rw [Task.recorded, hresults]
    split
    · exact Sent.nil.snoc_unsent hsent
    · exact Sent.nil
  case h_2 =>
    obtain ⟨hk, hlen, hresults, hsent, -⟩ := h
    refine ⟨_, ?_, .inl hk⟩
    rw [Task.recorded]
    split
    · rename_i hidx
      rw [← hlen] at hresults ⊢
      exact hresults.snoc_unsent (hsent (hidx.trans hlen))
    · exact hresults
  case h_5 hpc =>
    refine ⟨_, hplaying h.2, .inr ⟨h.1, .inl ⟨t.record, hpc, ?_⟩⟩⟩
    rw [h.2.recorded_eq]
    exact List.getElem?_concat_length
  case h_10 | h_11 | h_12 =>
    obtain ⟨n, hsent, hk⟩ := h
    exact ⟨n, hsent, hk.imp id fun hk ↦ ⟨hk.1, .inr hk.2⟩⟩
  all_goals exact ⟨_, hplaying h.2, .inl h.1⟩

/-- **The wire of a flow.**  At every moment of every run, the bytes handed to the
`StreamWriter` encode the messages of an initial part of the attempts: attempt number `i` is
the one message rendered for step number `i`, each of them is valid if the flow validates,
and there are as many as steps booked as sent, or one more, which is in flight or whose
write has failed.  However these bytes are cut up and however few of them arrive,
`read_frames` yields an initial part of the payloads, and all of them once all the bytes
are in; payloads that parse back are the messages again. -/
theorem run_flow_wire {ls : List Label} {s : State D}
    (hrun : (State.step pb p).run State.start ls = some s) :
    ∃ as, as <+: attempts pb p ls ∧
      (∀ (i : ℕ) (a : Attempt), (attempts pb p ls)[i]? = some a →
        a.index = i ∧ p.steps[i]? = some a.step) ∧
      Wire.encodeAll (as.map fun a ↦ pb.serialize a.message) = .ok (written pb p ls) ∧
      (p.validate_before_send = true → ∀ a ∈ as, Sapient.validate a.message = []) ∧
      (∃ n, Sent s.task.recorded n ∧ (as.length = n ∨
        as.length = n + 1 ∧ ((∃ r, s.task.pc = .flushing ∧ s.task.recorded[n]? = some r) ∨
          WriteFailed s.task.recorded n))) ∧
      ∀ (evs : List Wire.Event) (r : Wire.Session),
        Wire.Session.step.run Wire.Session.start evs = some r → r.fed <+: written pb p ls →
          r.yielded <+: (as.map fun a ↦ pb.serialize a.message) ∧
          (r.fed = written pb p ls → (Wire.Session.turns (2 * as.length) r).yielded =
            as.map fun a ↦ pb.serialize a.message) ∧
          ((∀ a ∈ as, pb.parse (pb.serialize a.message) = some a.message) →
            r.yielded.filterMap pb.parse <+: as.map Attempt.message ∧
            (r.fed = written pb p ls →
              (Wire.Session.turns (2 * as.length) r).yielded.filterMap pb.parse =
                as.map Attempt.message)) := by
  have hwired := wired_run hrun
  obtain ⟨as, us, hsplit, hstands, -, hframes, hnone⟩ := hwired.split
  have hwritten : written pb p ls = (as.filterMap Attempt.handed).flatten := by
    rw [written, hsplit, List.filterMap_append, filterMap_handed_nil hnone, List.append_nil]
  have hencode : Wire.encodeAll (as.map fun a ↦ pb.serialize a.message) =
      .ok (written pb p ls) := by
    rw [hwritten]
    exact encodeAll_handed fun a ha ↦
      let ⟨b, henc, hhanded, _⟩ := hframes a ha
      ⟨b, henc, hhanded⟩
  refine ⟨as, by rw [hsplit]; exact List.prefix_append _ _, hwired.numbered, hencode,
    fun hv a ha ↦ ?_, ?_, fun evs r hr hfed ↦ ?_⟩
  · obtain ⟨b, -, -, hvalid⟩ := hframes a ha
    exact hvalid hv
  · exact hstands.sent
  · obtain ⟨hfits, hbytes⟩ := Wire.encodeAll_eq_ok_iff.mp hencode
    have hc := Wire.Session.conserved_run hr
    have hpre := hc.yielded_isPrefix hfits (by rwa [← hbytes])
    have hall (hfed : r.fed = written pb p ls) := hc.yielded_eq hfits (hfed.trans hbytes)
    rw [List.length_map] at hall
    refine ⟨hpre, hall, fun hround ↦ ⟨?_, fun hfed ↦ ?_⟩⟩
    · rw [← parse_serialize hround]
      exact hpre.filterMap pb.parse
    · rw [hall hfed, parse_serialize hround]

/-- Two steps that send a registration each: however the two frames are cut up, the receiver
reads two registrations. -/
theorem run_flow_wire_acknowledged :
    written fewMessages twoSteps acknowledged = [2, 0, 0, 0, 0x22, 0, 2, 0, 0, 0, 0x22, 0] ∧
    ∃ r, Wire.Session.step.run Wire.Session.start [.feed_data [2, 0, 0, 0, 0x22],
        .feed_data [0, 2, 0, 0, 0, 0x22, 0]] = some r ∧
      (Wire.Session.turns 4 r).yielded.filterMap fewMessages.parse =
        [registration, registration] := by
  obtain ⟨s, hs⟩ := Option.isSome_iff_exists.mp (show Option.isSome
    ((State.step fewMessages twoSteps).run State.start acknowledged) = true by decide +kernel)
  have hwritten : written fewMessages twoSteps acknowledged =
      [2, 0, 0, 0, 0x22, 0, 2, 0, 0, 0, 0x22, 0] := by decide +kernel
  obtain ⟨as, -, -, hencode, -, -, hread⟩ := run_flow_wire hs
  rw [hwritten] at hencode hread
  have hpayloads : (as.map fun a ↦ fewMessages.serialize a.message) = [[0x22, 0], [0x22, 0]] := by
    obtain ⟨hfits, hbytes⟩ := Wire.encodeAll_eq_ok_iff.mp hencode
    have hframes : Wire.header.frames (as.map fun a ↦ fewMessages.serialize a.message) ++ [] =
        Wire.header.frames [[0x22, 0], [0x22, 0]] ++ [] := by
      rw [← hbytes]
      rfl
    exact Wire.frames_append_short_inj hfits (by decide) (.inl (by decide)) (.inl (by decide))
      hframes
  have hlength : as.length = 2 := by simpa using congrArg List.length hpayloads
  obtain ⟨-, hall, -⟩ := hread [.feed_data [2, 0, 0, 0, 0x22],
    .feed_data [0, 2, 0, 0, 0, 0x22, 0]] _ rfl (List.prefix_refl _)
  rw [hlength, hpayloads] at hall
  exact ⟨hwritten, _, rfl, by rw [hall rfl]; rfl⟩

end SensorFusion.Flow
