import SensorFusion.Apex.Streams
import SensorFusion.Lib.Except
import SensorFusion.Wire.Delivery

/-!
# Writing to a connection

`BufferedWriter.write_nowait` only puts a message into a buffer; it is called while messages
of other connections are handled.  A task of the connection itself, `perform_writes`, takes
all that is in the buffer and hands it to `send_all`, which gives it to the socket bit by bit,
and in the meantime more may be written.

The events of `writing` are the calls of `write_nowait`, the turns of the task and what the
socket does, in any order.  Whatever the order, the socket gets what was written, in that
order, and nothing is cut off or left out unless the buffer has been too full once.
-/

namespace SensorFusion

namespace Apex

open Wire (Bytes)

/-- `encode_binary`, of a serialised message. -/
def encode_binary (as_bytes : Bytes) : Except Wire.StructError Bytes :=
  (Wire.HEADER_pack as_bytes.length).map (· ++ as_bytes)

theorem encode_binary_of_fits {p : Bytes} (h : Wire.header.Fits p) :
    encode_binary p = .ok (Wire.header.frame p) := Wire.encode_of_fits h

/-! ## `BufferedWriter` -/

/-- Where `perform_writes` is: about to look at the buffer, asleep in the parking lot, or
within `send_all` with what it has not sent yet.  It ends with the exception of the writer,
or with that of `send_all`. -/
inductive Performing
  | ready
  | parked
  | sending (message_data : Bytes)
  | raised (text : String)
  | broken (text : String)
  deriving DecidableEq

structure BufferedWriter where
  /-- `buffered_bytes`, or else `exception`: when the one is set the other is dropped. -/
  buffered_bytes : Except String Bytes
  max_data : ℕ
  perform_writes : Performing
  /-- What the socket has taken. -/
  sent : Bytes

namespace BufferedWriter

def start (max_data : ℕ) : BufferedWriter := ⟨.ok [], max_data, .ready, []⟩

/-- `parking_lot.unpark()`. -/
def unpark (w : BufferedWriter) : BufferedWriter :=
  { w with perform_writes := if w.perform_writes = .parked then .ready else w.perform_writes }

/-- The text of the exception. -/
def sendBufferFull (length max_data : ℕ) : String :=
  "Send buffer full (" ++ toString length ++ " > " ++ toString max_data ++ " bytes)"

def write_nowait (w : BufferedWriter) (message : Bytes) : BufferedWriter :=
  match w.buffered_bytes with
  | .error _ => w
  | .ok buffered_bytes =>
      let length := (buffered_bytes ++ message).length
      if length > w.max_data then
        { w with buffered_bytes := .error (sendBufferFull length w.max_data) }.unpark
      else { w with buffered_bytes := .ok (buffered_bytes ++ message) }.unpark

/-- `perform_writes`, from one look at the buffer to the next `await`. -/
def turn (w : BufferedWriter) : BufferedWriter :=
  match w.buffered_bytes with
  | .error text => { w with perform_writes := .raised text }
  | .ok message_data =>
      if message_data = [] then { w with perform_writes := .parked }
      else { w with buffered_bytes := .ok [], perform_writes := .sending message_data }

/-- `perform_writes` goes on, if it can. -/
def resume (w : BufferedWriter) : Option BufferedWriter :=
  match w.perform_writes with
  | .ready => some w.turn
  | .sending message_data => if message_data = [] then some w.turn else none
  | _ => none

/-- What `send_all` still has to send. -/
def sending? (w : BufferedWriter) : Option Bytes :=
  match w.perform_writes with
  | .sending message_data => some message_data
  | _ => none

end BufferedWriter

inductive Writing
  | write_nowait (message : Bytes)
  | resume
  /-- The socket takes so many bytes of what `send_all` has. -/
  | take (n : ℕ)
  /-- `send_all` raises. -/
  | break_ (text : String)
  deriving DecidableEq

/-- A `BufferedWriter` and its socket, one event at a time. -/
def writing : Machine BufferedWriter Writing
  | w, .write_nowait message => some (w.write_nowait message)
  | w, .resume => w.resume
  | w, .take n => w.sending?.map fun message_data ↦
      { w with
        sent := w.sent ++ message_data.take n
        perform_writes := .sending (message_data.drop n) }
  | w, .break_ text => w.sending?.map fun _ ↦ { w with perform_writes := .broken text }

/-- What is written in an event. -/
def written : Writing → List Bytes
  | .write_nowait message => [message]
  | _ => []

/-! ## Nothing is lost -/

/-- Of the messages written so far, `flushed` were handed to `send_all` and `queued` wait in
the buffer, or were dropped with it. -/
structure Conserves (w : BufferedWriter) (messages flushed queued : List Bytes) : Prop where
  accepted : flushed ++ queued <+: messages
  buffered : ∀ buffered_bytes, w.buffered_bytes = .ok buffered_bytes →
    flushed ++ queued = messages ∧ buffered_bytes = queued.flatten ∧
      buffered_bytes.length ≤ w.max_data
  dropped : ∀ text, w.buffered_bytes = .error text → w.max_data < queued.flatten.length
  sending : ∀ message_data, w.perform_writes = .sending message_data →
    w.sent ++ message_data = flushed.flatten
  idle : w.perform_writes = .ready ∨ w.perform_writes = .parked ∨
    (∃ text, w.perform_writes = .raised text) → w.sent = flushed.flatten
  broken : w.sent <+: flushed.flatten
  raised : ∀ text, w.perform_writes = .raised text → w.buffered_bytes = .error text
  /-- The task does not sleep while there is something to do. -/
  parked : w.perform_writes = .parked → w.buffered_bytes = .ok []

section Conserves

variable {w w' : BufferedWriter} {messages flushed queued : List Bytes}

theorem conserves_start (max_data : ℕ) : Conserves (.start max_data) [] [] [] where
  accepted := List.prefix_rfl
  buffered _ h := by cases h; exact ⟨rfl, rfl, Nat.zero_le _⟩
  dropped _ h := nomatch h
  sending _ h := nomatch h
  idle _ := rfl
  broken := List.prefix_rfl
  raised _ h := nomatch h
  parked h := nomatch h

/-- A writer that has overflowed takes no more messages. -/
theorem Conserves.ignore {text : String} (h : Conserves w messages flushed queued)
    (hw : w.buffered_bytes = .error text) (message : Bytes) :
    Conserves w (messages ++ [message]) flushed queued where
  accepted := h.accepted.trans (List.prefix_append _ _)
  buffered _ hok := by rw [hw] at hok; cases hok
  dropped := h.dropped
  sending := h.sending
  idle := h.idle
  broken := h.broken
  raised := h.raised
  parked := h.parked

/-- What `write_nowait` changes besides the buffer. -/
theorem unpark_cases (w : BufferedWriter) :
    w.perform_writes = .parked ∧ w.unpark = { w with perform_writes := .ready } ∨
      w.perform_writes ≠ .parked ∧ w.unpark = w := by
  unfold BufferedWriter.unpark
  by_cases h : w.perform_writes = .parked
  · rw [if_pos h]
    exact Or.inl ⟨h, rfl⟩
  · rw [if_neg h]
    exact Or.inr ⟨h, rfl⟩

/-- One more message goes into the buffer, or makes it too full. -/
theorem Conserves.accept {buffered_bytes : Bytes} {buffer : Except String Bytes}
    (h : Conserves w messages flushed queued) (hw : w.buffered_bytes = .ok buffered_bytes)
    (message : Bytes)
    (hok : ∀ b, buffer = .ok b → b = buffered_bytes ++ message ∧ b.length ≤ w.max_data)
    (herror : ∀ text, buffer = .error text →
      w.max_data < (buffered_bytes ++ message).length) :
    Conserves { w with buffered_bytes := buffer }.unpark (messages ++ [message]) flushed
      (queued ++ [message]) := by
  obtain ⟨hmessages, hqueued, -⟩ := h.buffered _ hw
  have hflatten : (queued ++ [message]).flatten = buffered_bytes ++ message := by
    rw [List.flatten_append, ← hqueued, List.flatten_singleton]
  have hsame : flushed ++ (queued ++ [message]) = messages ++ [message] := by
    rw [← List.append_assoc, hmessages]
  have hnot : ∀ text, w.perform_writes ≠ .raised text := by
    intro text hraised
    rw [h.raised text hraised] at hw
    cases hw
  have hlast : (∀ b, buffer = .ok b → flushed ++ (queued ++ [message]) = messages ++ [message] ∧
      b = (queued ++ [message]).flatten ∧ b.length ≤ w.max_data) ∧
      ∀ text, buffer = .error text → w.max_data < (queued ++ [message]).flatten.length := by
    rw [hflatten]
    exact ⟨fun b hb ↦ ⟨hsame, hok b hb⟩, herror⟩
  rcases unpark_cases { w with buffered_bytes := buffer } with ⟨hparked, hunpark⟩ |
    ⟨hparked, hunpark⟩
  · rw [hunpark]
    exact ⟨hsame ▸ List.prefix_rfl, hlast.1, hlast.2, fun _ hs ↦ (nomatch hs),
      fun _ ↦ h.idle (Or.inr (Or.inl hparked)), h.broken, fun _ hr ↦ (nomatch hr),
      fun hp ↦ (nomatch hp)⟩
  · rw [hunpark]
    exact ⟨hsame ▸ List.prefix_rfl, hlast.1, hlast.2, h.sending, h.idle, h.broken,
      fun text hr ↦ absurd hr (hnot text), fun hp ↦ absurd hp hparked⟩

theorem Conserves.write_nowait (h : Conserves w messages flushed queued) (message : Bytes) :
    ∃ queued', Conserves (w.write_nowait message) (messages ++ [message]) flushed queued' := by
  unfold BufferedWriter.write_nowait
  cases hw : w.buffered_bytes with
  | error text => exact ⟨queued, h.ignore hw message⟩
  | ok buffered_bytes =>
      dsimp only
      refine ⟨queued ++ [message], ?_⟩
      split
      · rename_i hfull
        exact h.accept hw message (fun _ hb ↦ nomatch hb) fun _ _ ↦ hfull
      · rename_i hfull
        refine h.accept hw message (fun b hb ↦ ?_) fun _ hb ↦ nomatch hb
        cases hb
        exact ⟨rfl, not_lt.mp hfull⟩

theorem Conserves.turn (h : Conserves w messages flushed queued)
    (hsent : w.sent = flushed.flatten) :
    ∃ flushed' queued', Conserves w.turn messages flushed' queued' := by
  cases hw : w.buffered_bytes with
  | error text =>
      have hturn : w.turn = { w with perform_writes := .raised text } := by
        rw [BufferedWriter.turn, hw]
      rw [hturn]
      refine ⟨flushed, queued, h.accepted, h.buffered, h.dropped, fun _ hs ↦ (nomatch hs),
        fun _ ↦ hsent, h.broken, fun _ hr ↦ ?_, fun hp ↦ (nomatch hp)⟩
      cases hr
      exact hw
  | ok message_data =>
      by_cases hempty : message_data = []
      · have hturn : w.turn = { w with perform_writes := .parked } := by
          rw [BufferedWriter.turn, hw]
          exact if_pos hempty
        rw [hturn]
        exact ⟨flushed, queued, h.accepted, h.buffered, h.dropped, fun _ hs ↦ (nomatch hs),
          fun _ ↦ hsent, h.broken, fun _ hr ↦ (nomatch hr), fun _ ↦ hempty ▸ hw⟩
      · have hturn : w.turn =
            { w with buffered_bytes := .ok [], perform_writes := .sending message_data } := by
          rw [BufferedWriter.turn, hw]
          exact if_neg hempty
        rw [hturn]
        -- all that was queued is flushed
        obtain ⟨hmessages, hqueued, -⟩ := h.buffered _ hw
        have hflushed : (flushed ++ queued).flatten = w.sent ++ message_data := by
          rw [List.flatten_append, hsent, hqueued]
        refine ⟨flushed ++ queued, [], ?_, ?_, fun _ hb ↦ (nomatch hb), ?_, ?_, ?_,
          fun _ hr ↦ (nomatch hr), fun hp ↦ (nomatch hp)⟩
        · rw [List.append_nil]
          exact h.accepted
        · intro b hb
          cases hb
          exact ⟨by rw [List.append_nil, hmessages], rfl, Nat.zero_le _⟩
        · intro data hdata
          cases hdata
          exact hflushed.symm
        · rintro (hs | hs | ⟨text, hs⟩) <;> cases hs
        · rw [hflushed]
          exact List.prefix_append _ _

theorem Conserves.take (h : Conserves w messages flushed queued) {message_data : Bytes}
    (hw : w.perform_writes = .sending message_data) (n : ℕ) :
    Conserves { w with
      sent := w.sent ++ message_data.take n
      perform_writes := .sending (message_data.drop n) } messages flushed queued where
  accepted := h.accepted
  buffered := h.buffered
  dropped := h.dropped
  sending data hdata := by
    cases hdata
    rw [List.append_assoc, List.take_append_drop]
    exact h.sending _ hw
  idle := by rintro (hs | hs | ⟨text, hs⟩) <;> cases hs
  broken := by
    rw [← h.sending _ hw]
    exact (List.prefix_append_right_inj _).mpr (List.take_prefix _ _)
  raised _ hr := nomatch hr
  parked hp := nomatch hp

theorem Conserves.break_ (h : Conserves w messages flushed queued) (text : String) :
    Conserves { w with perform_writes := .broken text } messages flushed queued where
  accepted := h.accepted
  buffered := h.buffered
  dropped := h.dropped
  sending _ hs := nomatch hs
  idle := by rintro (hs | hs | ⟨text, hs⟩) <;> cases hs
  broken := h.broken
  raised _ hr := nomatch hr
  parked hp := nomatch hp

theorem sending?_eq_some {message_data : Bytes} (h : w.sending? = some message_data) :
    w.perform_writes = .sending message_data := by
  unfold BufferedWriter.sending? at h
  split at h
  · rename_i hw
    cases h
    exact hw
  · cases h

theorem Conserves.resume (h : Conserves w messages flushed queued) (hstep : w.resume = some w') :
    ∃ flushed' queued', Conserves w' messages flushed' queued' := by
  unfold BufferedWriter.resume at hstep
  split at hstep
  · rename_i hw
    cases hstep
    exact h.turn (h.idle (Or.inl hw))
  · rename_i message_data hw
    obtain ⟨rfl, hstep⟩ := Option.ite_none_right_eq_some.mp hstep
    cases hstep
    have hsent := h.sending [] hw
    rw [List.append_nil] at hsent
    exact h.turn hsent
  · cases hstep

/-- Whatever happens next, the messages are conserved. -/
theorem Conserves.step (h : Conserves w messages flushed queued) {e : Writing}
    (hstep : writing w e = some w') :
    ∃ flushed' queued', Conserves w' (messages ++ written e) flushed' queued' := by
  cases e with
  | write_nowait message =>
      cases hstep
      exact ⟨flushed, h.write_nowait message⟩
  | resume =>
      simp only [written, List.append_nil]
      exact h.resume hstep
  | take n =>
      obtain ⟨message_data, hw, rfl⟩ := Option.map_eq_some_iff.mp hstep
      simp only [written, List.append_nil]
      exact ⟨flushed, queued, h.take (sending?_eq_some hw) n⟩
  | break_ text =>
      obtain ⟨message_data, -, rfl⟩ := Option.map_eq_some_iff.mp hstep
      simp only [written, List.append_nil]
      exact ⟨flushed, queued, h.break_ text⟩

theorem conserves_run {max_data : ℕ} {events : List Writing}
    (hrun : writing.run (.start max_data) events = some w) :
    ∃ flushed queued, Conserves w (events.flatMap written) flushed queued := by
  have hinv : ∃ flushed queued, Conserves w ([] ++ writing.outputs (fun _ ↦ written)
      (.start max_data) events) flushed queued :=
    Machine.outputs_invariant (I := fun w messages ↦ ∃ flushed queued,
      Conserves w messages flushed queued) (fun _ _ _ _ ⟨_, _, h⟩ hstep ↦ h.step hstep)
      ⟨_, _, conserves_start max_data⟩ hrun
  rwa [Machine.outputs_of_label hrun, List.nil_append] at hinv

theorem max_data_run {max_data : ℕ} {events : List Writing}
    (hrun : writing.run (.start max_data) events = some w) : w.max_data = max_data := by
  refine Machine.invariant (m := writing) (I := fun w ↦ w.max_data = max_data) ?_ rfl hrun
  intro w e w' hmax hstep
  rw [← hmax]
  cases e with
  | write_nowait message =>
      cases hstep
      unfold BufferedWriter.write_nowait
      split
      · rfl
      · dsimp only
        split <;> rfl
  | resume =>
      change w.resume = some w' at hstep
      have hturn : w.turn.max_data = w.max_data := by
        unfold BufferedWriter.turn
        split
        · rfl
        · split <;> rfl
      unfold BufferedWriter.resume at hstep
      split at hstep
      · cases hstep
        exact hturn
      · obtain ⟨-, hstep⟩ := Option.ite_none_right_eq_some.mp hstep
        cases hstep
        exact hturn
      · cases hstep
  | take n =>
      obtain ⟨_, -, rfl⟩ := Option.map_eq_some_iff.mp hstep
      rfl
  | break_ text =>
      obtain ⟨_, -, rfl⟩ := Option.map_eq_some_iff.mp hstep
      rfl

end Conserves

/-- In whatever order messages are written, the task goes on and the socket takes bytes: what
the socket has got is the first part of all that was written, in order.  While `send_all` is
not at work it ends with a whole message.  As long as there was no overflow, it and what is
underway and in the buffer are all that was written; an overflow takes more than `max_data`
bytes that wait; and the task sleeps only when there is nothing to send. -/
theorem written_sent {max_data : ℕ} {events : List Writing} {w : BufferedWriter}
    (hrun : writing.run (.start max_data) events = some w) :
    ∃ flushed queued rest, events.flatMap written = flushed ++ queued ++ rest ∧
      w.sent <+: flushed.flatten ∧
      (∀ message_data, w.perform_writes = .sending message_data →
        w.sent ++ message_data = flushed.flatten) ∧
      ((∀ message_data, w.perform_writes ≠ .sending message_data) →
        (∀ text, w.perform_writes ≠ .broken text) → w.sent = flushed.flatten) ∧
      (∀ buffered_bytes, w.buffered_bytes = .ok buffered_bytes →
        rest = [] ∧ buffered_bytes = queued.flatten ∧ buffered_bytes.length ≤ max_data) ∧
      (∀ text, w.buffered_bytes = .error text → max_data < queued.flatten.length) ∧
      (w.perform_writes = .parked → w.buffered_bytes = .ok []) := by
  obtain ⟨flushed, queued, h⟩ := conserves_run hrun
  obtain ⟨rest, hrest⟩ := h.accepted
  have hmax := max_data_run hrun
  refine ⟨flushed, queued, rest, hrest.symm, h.broken, h.sending, ?_, ?_, ?_, h.parked⟩
  · intro hsending hbroken
    refine h.idle ?_
    cases htask : w.perform_writes with
    | ready => exact Or.inl rfl
    | parked => exact Or.inr (Or.inl rfl)
    | raised text => exact Or.inr (Or.inr ⟨text, rfl⟩)
    | sending message_data => exact absurd htask (hsending message_data)
    | broken text => exact absurd htask (hbroken text)
  · intro buffered_bytes hb
    obtain ⟨hall, hqueued, hlength⟩ := h.buffered _ hb
    rw [← hall] at hrest
    exact ⟨List.append_right_eq_self.mp hrest, hqueued, hmax ▸ hlength⟩
  · intro text htext
    exact hmax ▸ h.dropped text htext

/-- Two messages, the second while the first is underway, and an overflow. -/
theorem written_sent_overflow :
    ∃ w, writing.run (.start 2) [.write_nowait [1, 2], .resume, .take 1, .write_nowait [3, 4, 5],
        .take 1, .resume] = some w ∧
      ∃ flushed queued rest, [[1, 2], [3, 4, 5]] = flushed ++ queued ++ rest ∧
        w.sent <+: flushed.flatten := by
  refine ⟨_, rfl, ?_⟩
  obtain ⟨flushed, queued, rest, hall, hsent, -⟩ := @written_sent 2
    [.write_nowait [1, 2], .resume, .take 1, .write_nowait [3, 4, 5], .take 1, .resume] _ rfl
  exact ⟨flushed, queued, rest, hall, hsent⟩

/-! ## From one end to the other -/

section Delivered

open Wire (header)

theorem encode_binary_all {ps messages : List Bytes} (h : ps.mapM encode_binary = .ok messages) :
    (∀ p ∈ ps, header.Fits p) ∧ messages = ps.map header.frame := by
  induction ps generalizing messages with
  | nil =>
      cases h
      exact ⟨fun _ hp ↦ (nomatch hp), rfl⟩
  | cons p ps ih =>
      rw [List.mapM_cons] at h
      obtain ⟨m, hm, h⟩ := bind_eq_ok.mp h
      obtain ⟨ms, hms, h⟩ := bind_eq_ok.mp h
      cases h
      obtain ⟨hfits, rfl⟩ := ih hms
      have hp : header.Fits p := by
        by_contra hnot
        have hraises : encode_binary p = .error _ := Wire.encode_of_not_fits (not_lt.mp hnot)
        rw [hraises] at hm
        cases hm
      rw [encode_binary_of_fits hp] at hm
      cases hm
      exact ⟨List.forall_mem_cons.mpr ⟨hp, hfits⟩, rfl⟩

/-- What the writer of one end writes is what the other end reads: the reader of another
Apex, or `read_frames`, whatever part of the bytes has arrived, in whatever pieces.  Nothing
is read that was not written, and when the writer sleeps and all has arrived, all is read. -/
theorem written_received {ps messages : List Bytes}
    (hmessages : ps.mapM encode_binary = .ok messages) {max_data : ℕ} {events : List Writing}
    {w : BufferedWriter}
    (hrun : writing.run (.start max_data) events = some w)
    (hwritten : events.flatMap written = messages) :
    (∀ (max_size : ℕ) (r : Reading) (n : ℕ), r.whole <+: w.sent → r.whole.length < n →
      ∃ received e r',
        read_to_channel (receive_fn .PROTO max_size) n r = (received, some (e, r')) ∧
        received <+: ps.takeWhile (·.length ≤ max_size) ∧
        (w.perform_writes = .parked → r.whole = w.sent →
          received = ps.takeWhile (·.length ≤ max_size))) ∧
    (∀ (evs : List Wire.Event) (s : Wire.Session),
      Wire.Session.step.run Wire.Session.start evs = some s → s.fed <+: w.sent →
      s.yielded <+: ps ∧
      (w.perform_writes = .parked → s.fed = w.sent →
        (Wire.Session.turns (2 * ps.length) s).yielded = ps)) := by
  obtain ⟨hfits, hframes⟩ := encode_binary_all hmessages
  obtain ⟨flushed, queued, rest, hall, hsent, -, hidle, hbuffer, -, hparked⟩ := written_sent hrun
  have hflatten : (events.flatMap written).flatten = header.frames ps := by
    rw [hwritten, hframes, LengthPrefix.frames, List.flatMap_def]
  have hpre : w.sent <+: header.frames ps := by
    rw [← hflatten, hall, List.append_assoc, List.flatten_append]
    exact hsent.trans (List.prefix_append _ _)
  have hdone : w.perform_writes = .parked → w.sent = header.frames ps := by
    intro htask
    obtain ⟨rfl, hqueued, -⟩ := hbuffer _ (hparked htask)
    rw [← hflatten, hall, List.append_nil, List.flatten_append, ← hqueued, List.append_nil]
    exact hidle (fun _ hs ↦ by rw [htask] at hs; cases hs) fun _ hb ↦ by rw [htask] at hb; cases hb
  have hencoded : Wire.encodeAll ps = .ok (header.frames ps) :=
    Wire.encodeAll_eq_ok_iff.mpr ⟨hfits, rfl⟩
  constructor
  · intro max_size r n hr hn
    obtain ⟨received, e, r', hread, hreceived, -, hwhole⟩ :=
      encoded_received hencoded max_size (hr.trans hpre) hn
    refine ⟨received, e, r', hread, hreceived, fun htask hall' ↦ ?_⟩
    exact (hwhole (hall'.trans (hdone htask))).1
  · intro evs s hs hfed
    have hc := Wire.Session.conserved_run hs
    refine ⟨hc.yielded_isPrefix hfits (hfed.trans hpre), fun htask hall' ↦ ?_⟩
    exact hc.yielded_eq hfits (hall'.trans (hdone htask))

/-- One message is written and sent in two parts, and read. -/
theorem written_received_one :
    ∃ w, writing.run (.start 8) [.write_nowait [1, 0, 0, 0, 65], .resume, .take 2, .take 3,
        .resume] = some w ∧
      ∃ received e r', read_to_channel (receive_fn .PROTO 4) 6
        ⟨[⟨[1, 0, 0, 0, 65], by decide⟩], .closed, []⟩ = (received, some (e, r')) ∧
        received = [[65]] := by
  refine ⟨_, rfl, ?_⟩
  obtain ⟨hapex, -⟩ := @written_received [[65]] [[1, 0, 0, 0, 65]] rfl 8
    [.write_nowait [1, 0, 0, 0, 65], .resume, .take 2, .take 3, .resume] _ rfl rfl
  obtain ⟨received, e, r', hread, -, hreceived⟩ := hapex 4
    ⟨[⟨[1, 0, 0, 0, 65], by decide⟩], .closed, []⟩ 6 List.prefix_rfl (by decide)
  exact ⟨received, e, r', hread, (hreceived rfl rfl).trans (by decide)⟩

end Delivered

end Apex

end SensorFusion
