import SensorFusion.Lib.Machine
import SensorFusion.Python.Json
import SensorFusion.Sapient.Validators
import SensorFusion.Wire.Codec

/-!
# The flow runner

`run_flow` plays a list of steps over one connection while a background task reads
frames into a queue.  The runner is a machine: a label is a frame completing on the
connection, the transport telling the streams how it stands, the reader task getting a
turn, or the main task going on from one await to the next with what the await brought
it.  Frames are delivered whole here; how bytes become frames is the subject of `Wire`.

Two awaits have no timeout, `drain` and `wait_closed`, and what they wait for is up to the
transport: that it takes more to write, and that the connection is gone.

Frames are numbered as they complete.  The state remembers whether the connection was
refused, at each write, how many frames had completed and which of them were still to
be looked at, and at each match, which frame it was; no transition depends on any of
this.
-/

namespace SensorFusion.Flow

open Proto (Message)
open Wire (Bytes)

/-- What the runner uses of the protobuf library: `ParseFromString`,
`SerializeToString` and `MessageToDict`, the first and the last of which may raise. -/
structure Protobuf (D : Type) where
  parse : Bytes → Option Message
  serialize : Message → Bytes
  toDict : Message → Except String D

/-- One step of a flow. -/
structure Step where
  template_name : String
  wait_for : Option String
  recv_timeout_s : ℚ
  drain_after_s : ℚ
  gap_before_s : ℚ
deriving DecidableEq

/-- The content that a step waits for; an empty string is as good as none. -/
def Step.awaited (s : Step) : Option String := s.wait_for.filter (· ≠ "")

/-- The arguments of `run_flow`, and what it makes up when it starts. -/
structure Params where
  run_id : String
  host : String
  port : ℕ
  node_id : String
  steps : List Step
  validate_before_send : Bool
  start_utc : String

/-! ## What is recorded -/

/-- `step_record`. -/
structure Record where
  index : ℕ
  template : String
  wait_for : Option String
  validation_errors : List String
  sent : Bool
  recv_count : ℕ
  matched_wait_for : Option String
  error : Option String
  elapsed_ms : Option ℚ
deriving DecidableEq

/-- The record that a step starts with. -/
def Record.fresh (idx : ℕ) (step : Step) : Record where
  index := idx
  template := step.template_name
  wait_for := step.wait_for
  validation_errors := []
  sent := false
  recv_count := 0
  matched_wait_for := none
  error := none
  elapsed_ms := none

inductive Direction where
  | sent
  | recv
deriving DecidableEq, Repr

variable {D : Type}

/-- An entry of the transcript. -/
structure Entry (D : Type) where
  t_ms : ℚ
  step : ℕ
  direction : Direction
  bytes : ℕ
  content : Option String
  message : D

/-- `stamp`; the clock is read from `t0` on. -/
def stamp (now : ℚ) (direction : Direction) (content : Option String) (payload : Bytes)
    (decoded : D) (step_idx : ℕ) : Entry D :=
  ⟨roundTo 3 (now * 1000), step_idx, direction, payload.length, content, decoded⟩

/-! ## `_finalise` -/

/-- A step as the result shows it. -/
structure StepResult where
  index : ℕ
  template : String
  wait_for : Option String
  recv_timeout_s : ℚ
  drain_after_s : ℚ
  gap_before_s : ℚ
  sent : Bool
  recv_count : ℕ
  matched_wait_for : Option String
  validation_errors : List String
  elapsed_ms : ℚ
  error : Option String
  skipped : Bool
deriving DecidableEq

/-- What `run_flow` returns and writes to `result.json`. -/
structure Result (D : Type) where
  run_id : String
  kind : String
  host : String
  port : ℕ
  node_id : String
  template : String
  started_utc : String
  ended_utc : String
  error : Option String
  steps : List StepResult
  transcript : List (Entry D)

/-- `_shape`: a step that was not reached has a record of its own. -/
def shape (idx : ℕ) (step : Step) (record : Option Record) : StepResult :=
  match record with
  | none => ⟨idx, step.template_name, step.wait_for, step.recv_timeout_s, step.drain_after_s,
      step.gap_before_s, false, 0, none, [], 0, none, true⟩
  | some r => ⟨r.index, r.template, r.wait_for, step.recv_timeout_s, step.drain_after_s,
      step.gap_before_s, r.sent, r.recv_count, r.matched_wait_for, r.validation_errors,
      r.elapsed_ms.getD 0, r.error, false⟩

/-- `full_steps`, from step `i` on. -/
def shapes (results : List Record) : ℕ → List Step → List StepResult
  | _, [] => []
  | i, step :: steps => shape i step results[i]? :: shapes results (i + 1) steps

/-- `_finalise`. -/
def finalise (p : Params) (transcript : List (Entry D)) (results : List Record)
    (error : Option String) (end_utc : String) : Result D where
  run_id := p.run_id
  kind := "flow"
  host := p.host
  port := p.port
  node_id := p.node_id
  template := "flow:" ++ "→".intercalate (p.steps.map Step.template_name)
  started_utc := p.start_utc
  ended_utc := end_utc
  error := error
  steps := shapes results 0 p.steps
  transcript := transcript

/-! ## The state -/

/-- A frame that has completed on the connection, with its number. -/
structure Frame where
  seq : ℕ
  payload : Bytes

/-- A parsed frame in the inbox. -/
structure Inbound where
  seq : ℕ
  payload : Bytes
  message : Message

/-- The reader task. -/
inductive Reader where
  /-- Created, and not yet run. -/
  | created
  | running
  | finished
deriving DecidableEq, Repr

/-- Where the main task stands. -/
inductive Pc (D : Type) where
  | connecting
  /-- At the top of the loop over the steps. -/
  | stepping (idx : ℕ)
  | sleeping
  | rendering
  | flushing
  /-- At the top of a receive loop, of the first one or of the one that drains. -/
  | receiving (drain : Bool) (deadline : ℚ)
  | waiting (drain : Bool) (deadline : ℚ)
  /-- Past the first receive loop. -/
  | received
  /-- Past both. -/
  | ending
  /-- In the `finally` block, with the exception that is on its way out. -/
  | closing (exc : Option String)
  | returned (result : Result D)
  | raised (exc : String)

/-- What is remembered about a match: the step and the content that it awaited, the
frames that had completed and those still to be looked at when the message was
written, and the frame that matched. -/
structure Match where
  index : ℕ
  awaited : String
  mark : ℕ
  pending : List (Option String)
  seq : ℕ

/-- The main task's variables; the last four fields are what is remembered. -/
structure Task (D : Type) where
  pc : Pc D
  step : Step
  step_start : ℚ
  record : Record
  matched : Bool
  transcript : List (Entry D)
  results : List Record
  overall_error : Option String
  refused : Bool
  mark : ℕ
  pending : List (Option String)
  log : List Match

/-- The connection: the reader task, the frames that have completed and are not read
yet, the inbox, how many frames have completed, whether the transport has paused the
writing, and whether the connection is gone. -/
structure Conn where
  reader : Reader
  eof : Bool
  stream : List Frame
  inbox : List Inbound
  arrivals : ℕ
  paused : Bool
  lost : Bool

structure State (D : Type) where
  task : Task D
  conn : Conn

/-- Before the connection is made; the step fields are set when a step begins. -/
def Task.start : Task D where
  pc := .connecting
  step := ⟨"", none, 0, 0, 0⟩
  step_start := 0
  record := Record.fresh 0 ⟨"", none, 0, 0, 0⟩
  matched := false
  transcript := []
  results := []
  overall_error := none
  refused := false
  mark := 0
  pending := []
  log := []

def State.start : State D := ⟨Task.start, ⟨.created, false, [], [], 0, false, false⟩⟩

/-! ## Labels -/

/-- How `templates.render` turns out. -/
inductive Rendered where
  | not_found (exc : String)
  | failed (exc : String)
  | message (m : Message)

/-- How `run_dir.mkdir` and `open_connection` turn out; `failed` is one of the exceptions
that the latter is caught for. -/
inductive Connect where
  | unmade (exc : String)
  | connected
  | failed (exc : String)
  | raised (exc : String)

/-- What the transport tells the streams: it has more to write than it wants to hold, it
has written enough of that, or the connection is gone, be it that the peer has ended it or
that the runner has closed it and all has been written. -/
inductive Signal where
  | pause_writing
  | resume_writing
  | connection_lost
deriving DecidableEq, Repr

/-- What can happen.  A time is the clock's reading at that point. -/
inductive Label where
  | connect (o : Connect) (end_utc : String) (saved : Bool)
  | arrive (payload : Bytes)
  | feed_eof
  | signal (e : Signal)
  | read
  | begin_step (now : ℚ)
  | woke
  | rendered (r : Rendered) (now : ℚ) (write : Except String Unit)
  | flushed (o : Except String Unit) (now : ℚ)
  | poll (now : ℚ) (stamped : ℚ)
  | got (stamped : ℚ)
  | timeout
  | next (now : ℚ)
  | end_step (now : ℚ)
  | close (end_utc : String) (saved : Bool)

/-! ## The main task -/

namespace Task

/-- Leave the loop with an error in the current step. -/
def fail (t : Task D) (error overall : String) : Task D := { t with
  record := { t.record with error := some error }
  results := t.results ++ [{ t.record with error := some error }]
  overall_error := some ("step " ++ toString t.record.index ++ ": " ++ overall)
  pc := .closing none }

/-- Begin step number `idx`. -/
def beginStep (t : Task D) (idx : ℕ) (step : Step) (now : ℚ) : Task D := { t with
  step := step
  step_start := now
  record := Record.fresh idx step
  matched := false
  pc := if 0 < step.gap_before_s then .sleeping else .rendering }

/-- Stamp and write a message; `c` counts the frames that have completed and `pending` lists
those still to be looked at.  With the task comes what `writer.write` is called with, if it
is called. -/
def send (pb : Protobuf D) (c : ℕ) (pending : List (Option String)) (t : Task D) (m : Message)
    (now : ℚ) (write : Except String Unit) : Task D × Option Bytes :=
  let payload := pb.serialize m
  match pb.toDict m with
  | .error exc => ({ t with pc := .closing (some exc) }, none)
  | .ok decoded =>
      let t := { t with transcript := t.transcript ++
        [stamp now .sent (Sapient.content m) payload decoded t.record.index] }
      match Wire.encode payload with
      | .error exc => (t.fail ("write failed: " ++ exc.text) ("write failed: " ++ exc.text), none)
      | .ok data =>
          match write with
          | .error exc => (t.fail ("write failed: " ++ exc) ("write failed: " ++ exc), some data)
          | .ok () => ({ t with pc := .flushing, mark := c, pending := pending }, some data)

/-- Validate a rendered message if that is asked for, and send it. -/
def rendered (pb : Protobuf D) (p : Params) (c : ℕ) (pending : List (Option String)) (t : Task D)
    (r : Rendered) (now : ℚ) (write : Except String Unit) : Task D × Option Bytes :=
  match r with
  | .not_found exc =>
      (t.fail ("template not found: " ++ exc) ("template not found: " ++ exc), none)
  | .failed exc => (t.fail ("render failed: " ++ exc) ("render failed: " ++ exc), none)
  | .message m =>
      if p.validate_before_send then
        let t := { t with record := { t.record with validation_errors := Sapient.validate m } }
        if Sapient.validate m ≠ [] then
          (t.fail "validation failed (client-side); not sent" "validation failed", none)
        else t.send pb c pending m now write
      else t.send pb c pending m now write

/-- The write is done, or has failed. -/
def flushed (t : Task D) (o : Except String Unit) (now : ℚ) : Task D :=
  match o with
  | .error exc => t.fail ("write failed: " ++ exc) ("write failed: " ++ exc)
  | .ok () => { t with
      record := { t.record with sent := true }
      pc := .receiving false (now + t.step.recv_timeout_s) }

/-- Stamp a frame that was taken from the inbox, and leave the first receive loop if
it is what the step waits for. -/
def take (pb : Protobuf D) (t : Task D) (drain : Bool) (deadline stamped : ℚ) (item : Inbound) :
    Task D :=
  let content := Sapient.content item.message
  match pb.toDict item.message with
  | .error exc => { t with pc := .closing (some exc) }
  | .ok decoded =>
      let t := { t with
        transcript := t.transcript ++
          [stamp stamped .recv content item.payload decoded t.record.index]
        record := { t.record with recv_count := t.record.recv_count + 1 } }
      match t.step.awaited with
      | some w =>
          if drain = false ∧ content = some w then { t with
            record := { t.record with matched_wait_for := content }
            matched := true
            log := t.log ++ [⟨t.record.index, w, t.mark, t.pending, item.seq⟩]
            pc := .received }
          else { t with pc := .receiving drain deadline }
      | none => { t with pc := .receiving drain deadline }

/-- Leave a receive loop. -/
def leaveLoop (t : Task D) (drain : Bool) : Task D :=
  { t with pc := if drain then .ending else .received }

/-- Past the first receive loop: drain for a while if nothing is waited for. -/
def next (t : Task D) (now : ℚ) : Task D :=
  if t.step.awaited = none ∧ 0 < t.step.drain_after_s then
    { t with pc := .receiving true (now + t.step.drain_after_s) }
  else { t with pc := .ending }

/-- Record the step, and go on to the next one or leave the loop. -/
def endStep (p : Params) (t : Task D) (now : ℚ) : Task D :=
  let t := { t with record := { t.record with
    elapsed_ms := some (roundTo 3 ((now - t.step_start) * 1000)) } }
  match t.step.awaited, t.matched with
  | some w, false => t.fail ("timeout waiting for " ++ w) ("timeout waiting for " ++ w)
  | _, _ => { t with
      results := t.results ++ [t.record]
      pc := if t.record.index + 1 < p.steps.length then .stepping (t.record.index + 1)
        else .closing none }

/-- The start of a run, up to the end of the connection attempt. -/
def connect (p : Params) (t : Task D) (o : Connect) (end_utc : String) (saved : Bool) : Task D :=
  if p.host = "" then { t with pc := .raised "host is required" }
  else if p.steps = [] then { t with pc := .raised "flow must contain at least one step" }
  else
    match o with
    | .unmade exc => { t with pc := .raised exc }
    | .connected => { t with pc := .stepping 0 }
    | .raised exc => { t with pc := .raised exc }
    | .failed exc =>
        if saved then { t with
          refused := true
          pc := .returned (finalise p t.transcript t.results (some ("connect: " ++ exc)) end_utc) }
        else { t with pc := .raised "result.json" }

/-- The end of the `finally` block and what follows it.  A reader task that is
cancelled before its first turn raises when it is awaited. -/
def close (p : Params) (reader : Reader) (t : Task D) (exc : Option String) (end_utc : String)
    (saved : Bool) : Task D :=
  match exc with
  | some exc => { t with pc := .raised exc }
  | none =>
      if reader = .created then { t with pc := .raised "CancelledError" }
      else if saved then { t with
        pc := .returned (finalise p t.transcript t.results t.overall_error end_utc) }
      else { t with pc := .raised "result.json" }

/-! What each of them can do, said once. -/

/-- Note the errors of the client-side validation. -/
def note (t : Task D) (errs : List String) : Task D :=
  { t with record := { t.record with validation_errors := errs } }

/-- Stamp an entry for the current step. -/
def stamped (t : Task D) (e : Entry D) : Task D := { t with transcript := t.transcript ++ [e] }

/-- Count a received frame. -/
def counted (t : Task D) : Task D :=
  { t with record := { t.record with recv_count := t.record.recv_count + 1 } }

/-- Either the step fails before anything is sent, or a message that passes the
validation is sent. -/
theorem rendered_cases (pb : Protobuf D) (p : Params) (c : ℕ) (pending : List (Option String))
    (t : Task D) (r : Rendered) (now : ℚ) (write : Except String Unit) :
    (∃ errs error overall,
      t.rendered pb p c pending r now write = ((t.note errs).fail error overall, none) ∧
      ∀ m, r = .message m → p.validate_before_send = true ∧ Sapient.validate m ≠ []) ∨
    ∃ errs m, t.rendered pb p c pending r now write = (t.note errs).send pb c pending m now write ∧
      r = .message m ∧ (p.validate_before_send = true → Sapient.validate m = []) := by
  cases r with
  | not_found exc => exact .inl ⟨t.record.validation_errors, _, _, rfl, fun m hm ↦ nomatch hm⟩
  | failed exc => exact .inl ⟨t.record.validation_errors, _, _, rfl, fun m hm ↦ nomatch hm⟩
  | message m =>
      rw [rendered]
      split
      · rename_i hv
        dsimp only
        split
        · rename_i herrs
          exact .inl ⟨_, _, _, rfl, by rintro _ ⟨rfl⟩; exact ⟨hv, herrs⟩⟩
        · rename_i herrs
          exact .inr ⟨_, m, rfl, rfl, fun _ ↦ not_not.mp herrs⟩
      · rename_i hv
        exact .inr ⟨t.record.validation_errors, m, rfl, rfl, fun h ↦ absurd h hv⟩

/-- A message that can be shown is stamped and written if it can be encoded, and then either
the flush of it begins or the step fails. -/
theorem send_cases (pb : Protobuf D) (c : ℕ) (pending : List (Option String)) (t : Task D)
    (m : Message) (now : ℚ) (write : Except String Unit) :
    (∃ exc, pb.toDict m = .error exc ∧
      t.send pb c pending m now write = ({ t with pc := .closing (some exc) }, none)) ∨
    ∃ decoded, pb.toDict m = .ok decoded ∧
      let t' := t.stamped (stamp now .sent (Sapient.content m) (pb.serialize m) decoded
        t.record.index)
      (t.send pb c pending m now write).2 = (Wire.encode (pb.serialize m)).toOption ∧
      ((((∃ b, Wire.encode (pb.serialize m) = .ok b) ∧ write = .ok ()) ∧
        (t.send pb c pending m now write).1 =
          { t' with pc := .flushing, mark := c, pending := pending }) ∨
      (¬ ((∃ b, Wire.encode (pb.serialize m) = .ok b) ∧ write = .ok ()) ∧
        ∃ exc, (t.send pb c pending m now write).1 =
          t'.fail ("write failed: " ++ exc) ("write failed: " ++ exc))) := by
  rw [send]
  cases hd : pb.toDict m with
  | error exc => exact .inl ⟨exc, rfl, rfl⟩
  | ok decoded =>
      refine .inr ⟨decoded, rfl, ?_⟩
      cases henc : Wire.encode (pb.serialize m) with
      | error exc => exact ⟨rfl, .inr ⟨fun h ↦ (nomatch h.1), _, rfl⟩⟩
      | ok b =>
          cases write with
          | error exc => exact ⟨rfl, .inr ⟨fun h ↦ (nomatch h.2), _, rfl⟩⟩
          | ok u => exact ⟨rfl, .inl ⟨⟨⟨b, rfl⟩, rfl⟩, rfl⟩⟩

/-- A frame that can be shown is stamped and counted, and it matches exactly when the
loop is the first one and the content is the awaited one. -/
theorem take_cases (pb : Protobuf D) (t : Task D) (drain : Bool) (deadline now : ℚ)
    (item : Inbound) :
    (∃ exc, t.take pb drain deadline now item = { t with pc := .closing (some exc) }) ∨
    ∃ e : Entry D, e.direction = .recv ∧ e.step = t.record.index ∧
      ((∃ w, drain = false ∧ t.step.awaited = some w ∧ Sapient.content item.message = some w ∧
        t.take pb drain deadline now item =
          let t' := (t.stamped e).counted
          { t' with
            record := { t'.record with matched_wait_for := some w }
            matched := true
            log := t.log ++ [⟨t.record.index, w, t.mark, t.pending, item.seq⟩]
            pc := .received }) ∨
      ((drain = false → ∀ w, t.step.awaited = some w → Sapient.content item.message ≠ some w) ∧
        t.take pb drain deadline now item =
          { (t.stamped e).counted with pc := .receiving drain deadline })) := by
  rw [take]
  cases hd : pb.toDict item.message with
  | error exc => exact .inl ⟨exc, rfl⟩
  | ok decoded =>
      refine .inr ⟨stamp now .recv (Sapient.content item.message) item.payload decoded
        t.record.index, rfl, rfl, ?_⟩
      cases hw : t.step.awaited with
      | none => exact .inr ⟨fun _ w hw' ↦ (nomatch hw'), by simp only [hw]; rfl⟩
      | some w =>
          by_cases hm : drain = false ∧ Sapient.content item.message = some w
          · refine .inl ⟨w, hm.1, rfl, hm.2, ?_⟩
            simp only [hw, if_pos hm]
            rw [hm.2]
            rfl
          · refine .inr ⟨?_, by simp only [hw, if_neg hm]; rfl⟩
            rintro hdrain _ ⟨rfl⟩ hc
            exact hm ⟨hdrain, hc⟩

/-- At its end a step is recorded, with an error if what it awaited did not come. -/
theorem endStep_cases (p : Params) (t : Task D) (now : ℚ) :
    ∃ ms, let t' := { t with record := { t.record with elapsed_ms := some ms } }
      (∃ text, t.endStep p now = t'.fail text text) ∨
        t.endStep p now = { t' with
          results := t'.results ++ [t'.record]
          pc := if t.record.index + 1 < p.steps.length then .stepping (t.record.index + 1)
            else .closing none } := by
  refine ⟨roundTo 3 ((now - t.step_start) * 1000), ?_⟩
  rw [endStep]
  cases hw : t.step.awaited with
  | none => exact .inr rfl
  | some w =>
      cases hm : t.matched with
      | true => exact .inr rfl
      | false => exact .inl ⟨_, rfl⟩

/-- The connection attempt raises, or goes on to the first step, or returns a refusal. -/
theorem connect_cases (p : Params) (t : Task D) (o : Connect) (end_utc : String) (saved : Bool) :
    (∃ exc, t.connect p o end_utc saved = { t with pc := .raised exc }) ∨
      (p.steps ≠ [] ∧ t.connect p o end_utc saved = { t with pc := .stepping 0 }) ∨
      ∃ exc, t.connect p o end_utc saved = { t with
        refused := true
        pc := .returned
          (finalise p t.transcript t.results (some ("connect: " ++ exc)) end_utc) } := by
  unfold connect
  split
  · exact .inl ⟨_, rfl⟩
  · split
    · exact .inl ⟨_, rfl⟩
    · rename_i hsteps
      cases o with
      | unmade exc => exact .inl ⟨exc, rfl⟩
      | connected => exact .inr (.inl ⟨hsteps, rfl⟩)
      | raised exc => exact .inl ⟨exc, rfl⟩
      | failed exc =>
          cases saved with
          | false => exact .inl ⟨_, rfl⟩
          | true => exact .inr (.inr ⟨exc, rfl⟩)

/-- The end of a flow raises, or returns the result if nothing was raised before. -/
theorem close_cases (p : Params) (reader : Reader) (t : Task D) (exc : Option String)
    (end_utc : String) (saved : Bool) :
    (∃ exc', t.close p reader exc end_utc saved = { t with pc := .raised exc' }) ∨
      (exc = none ∧ t.close p reader exc end_utc saved = { t with
        pc := .returned (finalise p t.transcript t.results t.overall_error end_utc) }) := by
  unfold close
  cases exc with
  | some exc => exact .inl ⟨exc, rfl⟩
  | none =>
      dsimp only
      split
      · exact .inl ⟨_, rfl⟩
      · cases saved with
        | false => exact .inl ⟨_, rfl⟩
        | true => exact .inr ⟨rfl, rfl⟩

end Task

/-! ## The machine -/

namespace State

/-- The frames that have completed and are still to be looked at, with their content. -/
def unseen (pb : Protobuf D) (c : Conn) : List (ℕ × Option String) :=
  (c.inbox.map fun i ↦ (i.seq, Sapient.content i.message)) ++
    c.stream.filterMap fun f ↦ (pb.parse f.payload).map fun m ↦ (f.seq, Sapient.content m)

/-- A turn of the reader task: one frame, if one has completed. -/
def read (pb : Protobuf D) (c : Conn) : Conn :=
  match c.stream with
  | [] => { c with reader := if c.eof then .finished else .running }
  | f :: stream =>
      match pb.parse f.payload with
      | none => { c with reader := .running, stream := stream }
      | some m => { c with
          reader := .running
          stream := stream
          inbox := c.inbox ++ [⟨f.seq, f.payload, m⟩] }

/-- The reader task is there, and has not been cancelled. -/
def reading (s : State D) : Bool :=
  match s.task.pc with
  | .connecting | .closing _ | .returned _ | .raised _ => false
  | _ => s.conn.reader ≠ .finished

/-- A connection that is gone has no more to read, either. -/
def signal (c : Conn) : Signal → Conn
  | .pause_writing => { c with paused := true }
  | .resume_writing => { c with paused := false }
  | .connection_lost => { c with lost := true, eof := true }

/-- The main task goes on; the connection stays as it is. -/
def go (s : State D) (t : Task D) : Option (State D) := some { s with task := t }

/-- The machine: which label the main task can take is a matter of where it stands. -/
def step (pb : Protobuf D) (p : Params) : Machine (State D) Label
  | s, .arrive payload =>
      if s.conn.eof then none
      else some { s with conn := { s.conn with
        stream := s.conn.stream ++ [⟨s.conn.arrivals, payload⟩]
        arrivals := s.conn.arrivals + 1 } }
  | s, .feed_eof => some { s with conn := { s.conn with eof := true } }
  | s, .signal e => some { s with conn := signal s.conn e }
  | s, .read => if s.reading then some { s with conn := read pb s.conn } else none
  | s, .connect o end_utc saved =>
      match s.task.pc with
      | .connecting => s.go (s.task.connect p o end_utc saved)
      | _ => none
  | s, .begin_step now =>
      match s.task.pc with
      | .stepping idx => (p.steps[idx]?).bind fun step ↦ s.go (s.task.beginStep idx step now)
      | _ => none
  | s, .woke =>
      match s.task.pc with
      | .sleeping => s.go { s.task with pc := .rendering }
      | _ => none
  | s, .rendered r now write =>
      match s.task.pc with
      | .rendering => s.go (s.task.rendered pb p s.conn.arrivals
          ((unseen pb s.conn).map Prod.snd) r now write).1
      | _ => none
  | s, .flushed o now =>
      -- `drain` comes back when the writing goes on, or with the connection
      match s.task.pc with
      | .flushing =>
          if s.conn.paused = true ∧ s.conn.lost = false then none
          else s.go (s.task.flushed o now)
      | _ => none
  | s, .poll now stamped =>
      match s.task.pc with
      | .receiving drain deadline =>
          if deadline - now ≤ 0 then s.go (s.task.leaveLoop drain)
          else
            match s.conn.inbox with
            | [] => s.go { s.task with pc := .waiting drain deadline }
            | item :: inbox => some
                ⟨s.task.take pb drain deadline stamped item, { s.conn with inbox := inbox }⟩
      | _ => none
  | s, .got stamped =>
      match s.task.pc, s.conn.inbox with
      | .waiting drain deadline, item :: inbox => some
          ⟨s.task.take pb drain deadline stamped item, { s.conn with inbox := inbox }⟩
      | _, _ => none
  | s, .timeout =>
      match s.task.pc with
      | .waiting drain _ => s.go (s.task.leaveLoop drain)
      | _ => none
  | s, .next now =>
      match s.task.pc with
      | .received => s.go (s.task.next now)
      | _ => none
  | s, .end_step now =>
      match s.task.pc with
      | .ending => s.go (s.task.endStep p now)
      | _ => none
  | s, .close end_utc saved =>
      -- `wait_closed` comes back when the connection is gone
      match s.task.pc with
      | .closing exc =>
          if s.conn.lost = false then none
          else s.go (s.task.close p s.conn.reader exc end_utc saved)
      | _ => none

/-! ## What a step does

One lemma for each label: where the main task stood, and what was done. -/

variable {pb : Protobuf D} {p : Params} {s s' : State D}

theorem step_arrive {payload : Bytes} (h : step pb p s (.arrive payload) = some s') :
    s' = ⟨s.task, { s.conn with
      stream := s.conn.stream ++ [⟨s.conn.arrivals, payload⟩]
      arrivals := s.conn.arrivals + 1 }⟩ := by
  simp only [step] at h
  split at h
  · cases h
  · cases h; rfl

theorem step_feed_eof (h : step pb p s .feed_eof = some s') :
    s' = ⟨s.task, { s.conn with eof := true }⟩ := by
  cases h
  rfl

theorem step_signal {e : Signal} (h : step pb p s (.signal e) = some s') :
    s' = ⟨s.task, signal s.conn e⟩ := by
  cases h
  rfl

theorem step_read (h : step pb p s .read = some s') : s' = ⟨s.task, read pb s.conn⟩ := by
  simp only [step] at h
  split at h
  · cases h; rfl
  · cases h

theorem step_connect {o : Connect} {end_utc : String} {saved : Bool}
    (h : step pb p s (.connect o end_utc saved) = some s') :
    s.task.pc = .connecting ∧ s' = ⟨s.task.connect p o end_utc saved, s.conn⟩ := by
  simp only [step] at h
  split at h
  · cases h; exact ⟨‹_›, rfl⟩
  · cases h

theorem step_begin {now : ℚ} (h : step pb p s (.begin_step now) = some s') :
    ∃ idx step, s.task.pc = .stepping idx ∧ p.steps[idx]? = some step ∧
      s' = ⟨s.task.beginStep idx step now, s.conn⟩ := by
  simp only [State.step] at h
  split at h
  · obtain ⟨step, hstep, hs⟩ := Option.bind_eq_some_iff.mp h
    cases hs
    exact ⟨_, step, ‹_›, hstep, rfl⟩
  · cases h

theorem step_woke (h : step pb p s .woke = some s') :
    s.task.pc = .sleeping ∧ s' = ⟨{ s.task with pc := .rendering }, s.conn⟩ := by
  simp only [step] at h
  split at h
  · cases h; exact ⟨‹_›, rfl⟩
  · cases h

theorem step_rendered {r : Rendered} {now : ℚ} {write : Except String Unit}
    (h : step pb p s (.rendered r now write) = some s') :
    s.task.pc = .rendering ∧ s' = ⟨s.task.rendered pb p s.conn.arrivals
      ((unseen pb s.conn).map Prod.snd) r now write |>.1, s.conn⟩ := by
  simp only [step] at h
  split at h
  · cases h; exact ⟨‹_›, rfl⟩
  · cases h

theorem step_flushed {o : Except String Unit} {now : ℚ}
    (h : step pb p s (.flushed o now) = some s') :
    s.task.pc = .flushing ∧ s' = ⟨s.task.flushed o now, s.conn⟩ := by
  simp only [step] at h
  split at h
  · split at h
    · cases h
    · cases h; exact ⟨‹_›, rfl⟩
  · cases h

/-- At the top of a receive loop: the time is up, or nothing is there yet, or a frame
is taken from the inbox. -/
theorem step_poll {now stamped : ℚ} (h : step pb p s (.poll now stamped) = some s') :
    ∃ drain deadline, s.task.pc = .receiving drain deadline ∧
      (s' = ⟨s.task.leaveLoop drain, s.conn⟩ ∨
        s' = ⟨{ s.task with pc := .waiting drain deadline }, s.conn⟩ ∨
        ∃ item inbox, s.conn.inbox = item :: inbox ∧
          s' = ⟨s.task.take pb drain deadline stamped item, { s.conn with inbox := inbox }⟩) := by
  simp only [step] at h
  split at h
  · split at h
    · cases h; exact ⟨_, _, ‹_›, .inl rfl⟩
    · split at h
      · cases h; exact ⟨_, _, ‹_›, .inr (.inl rfl)⟩
      · cases h; exact ⟨_, _, ‹_›, .inr (.inr ⟨_, _, ‹_›, rfl⟩)⟩
  · cases h

theorem step_got {stamped : ℚ} (h : step pb p s (.got stamped) = some s') :
    ∃ drain deadline item inbox, s.task.pc = .waiting drain deadline ∧
      s.conn.inbox = item :: inbox ∧
      s' = ⟨s.task.take pb drain deadline stamped item, { s.conn with inbox := inbox }⟩ := by
  simp only [step] at h
  split at h
  · cases h; exact ⟨_, _, _, _, ‹_›, ‹_›, rfl⟩
  · cases h

theorem step_timeout (h : step pb p s .timeout = some s') :
    ∃ drain deadline, s.task.pc = .waiting drain deadline ∧
      s' = ⟨s.task.leaveLoop drain, s.conn⟩ := by
  simp only [step] at h
  split at h
  · cases h; exact ⟨_, _, ‹_›, rfl⟩
  · cases h

theorem step_next {now : ℚ} (h : step pb p s (.next now) = some s') :
    s.task.pc = .received ∧ s' = ⟨s.task.next now, s.conn⟩ := by
  simp only [step] at h
  split at h
  · cases h; exact ⟨‹_›, rfl⟩
  · cases h

theorem step_end {now : ℚ} (h : step pb p s (.end_step now) = some s') :
    s.task.pc = .ending ∧ s' = ⟨s.task.endStep p now, s.conn⟩ := by
  simp only [step] at h
  split at h
  · cases h; exact ⟨‹_›, rfl⟩
  · cases h

theorem step_close {end_utc : String} {saved : Bool}
    (h : step pb p s (.close end_utc saved) = some s') :
    ∃ exc, s.task.pc = .closing exc ∧
      s' = ⟨s.task.close p s.conn.reader exc end_utc saved, s.conn⟩ := by
  simp only [step] at h
  split at h
  · split at h
    · cases h
    · cases h; exact ⟨_, ‹_›, rfl⟩
  · cases h

end State

/-! ## Two registrations -/

/-- A registration, as far as it is looked at. -/
def registration : Message := [("registration", .msg [])]

/-- An accepted registration. -/
def accepted : Message := [("registration_ack", .msg [("acceptance", .bool true)])]

/-- A protobuf library that is only ever shown a registration, an accepted one and the empty
message. -/
def fewMessages : Protobuf Json where
  parse := fun payload ↦
    if payload = [0x22, 0] then some registration
    else if payload = [0x2A, 2, 8, 1] then some accepted
    else if payload = [] then some [] else none
  serialize := fun m ↦
    if m.has "registration" then [0x22, 0]
    else if m.has "registration_ack" then [0x2A, 2, 8, 1] else []
  toDict := fun m ↦ .ok (
    if m.has "registration" then .obj [("registration", .obj [])]
    else if m.has "registration_ack" then
      .obj [("registration_ack", .obj [("acceptance", .bool true)])]
    else .obj [])

/-- A flow of two steps that both wait for an acknowledgement. -/
def twoSteps : Params where
  run_id := "20260101T000000_000000"
  host := "10.0.0.1"
  port := 5020
  node_id := ""
  steps := [⟨"registration.json", some "registration_ack", 5, 1 / 2, 0⟩,
    ⟨"registration.json", some "registration_ack", 5, 1 / 2, 0⟩]
  validate_before_send := false
  start_utc := ""

/-- Both registrations are acknowledged, and the connection is closed. -/
def acknowledged : List Label :=
  [.connect .connected "" true,
   .begin_step 0, .rendered (.message registration) 0 (.ok ()), .flushed (.ok ()) 0, .poll 0 0,
   .arrive [0x2A, 2, 8, 1], .read, .got 1, .next 1, .end_step 1,
   .begin_step 1, .rendered (.message registration) 1 (.ok ()), .flushed (.ok ()) 1, .poll 1 1,
   .arrive [0x2A, 2, 8, 1], .read, .got 2, .next 2, .end_step 2,
   .signal .connection_lost, .close "" true]

end SensorFusion.Flow
