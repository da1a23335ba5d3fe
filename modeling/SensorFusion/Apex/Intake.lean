import SensorFusion.Apex.Parsing
import SensorFusion.Apex.Serving

/-!
# What goes through the middleware

What a connection writes to others is a message that came in, or one that is replayed to whoever
connects later.  Messages with an error are not written and not kept: if all others have some
property, everything that is written has it, in every run.  With the parsers and the validators
in front of the connections, this says that what goes through on protobuf connections is valid, as
it was read.  What a writer makes of it then, in the version of its own connection, is left open.
-/

namespace SensorFusion

universe u

namespace Apex

/-! ## Vouching -/

/-- The numbers of the messages that the registry keeps of a Child. -/
def SensorInfo.numbers (info : SensorInfo) : List ℕ :=
  (info.registration :: info.recent_status_new.toList ++ info.recent_status_unchanged.toList).map
    (·.received.message_id)

/-- The number of the message that is written. -/
def Content.number : Content → Option ℕ
  | .message message_id _ _ => some message_id
  | _ => none

/-- All messages that the registry keeps have numbers in `P`. -/
def SharedData.Vouched (P : ℕ → Prop) (shared : SharedData) : Prop :=
  ∀ node_id info, shared.registered_sensors.get? node_id = some info → ∀ n ∈ info.numbers, P n

/-- All messages that are written have numbers in `P`. -/
def AllVouched (P : ℕ → Prop) (writes : List Write) : Prop :=
  ∀ w ∈ writes, ∀ n ∈ w.content.number, P n

/-- What is written so far, what the registry keeps, and the message itself have numbers
in `P`. -/
structure Handling.Vouched {κ : Type} (P : ℕ → Prop) (h : Handling κ) : Prop where
  shared : h.shared.Vouched P
  msg : P h.msg.received.message_id
  writes : AllVouched P h.writes

variable {P : ℕ → Prop}

theorem allVouched_append {ws ws' : List Write} (h : AllVouched P ws) (h' : AllVouched P ws') :
    AllVouched P (ws ++ ws') := fun w hw ↦ (List.mem_append.mp hw).elim (h w) (h' w)

theorem SharedData.Vouched.set {shared : SharedData} (hv : shared.Vouched P) (node_id : String)
    {info : SensorInfo} (hinfo : ∀ n ∈ info.numbers, P n) :
    ({ shared with registered_sensors := shared.registered_sensors.set node_id info } :
      SharedData).Vouched P := by
  intro id info' hinfo' n hn
  dsimp only at hinfo'
  rw [Dict.get?_set] at hinfo'
  split at hinfo'
  · cases hinfo'
    exact hinfo n hn
  · exact hv id info' hinfo' n hn

theorem MessageRecord.vouched_to {msg : MessageRecord} (hmsg : P msg.received.message_id)
    (writer : Writer) : ∀ n ∈ (msg.to writer).content.number, P n := by
  intro n hn
  cases hn
  exact hmsg

namespace Handling

variable {κ : Type} {h : Handling κ}

theorem Vouched.fail (hv : h.Vouched P) (severity : ErrorSeverity) (description : String) :
    (h.fail severity description).Vouched P := ⟨hv.shared, hv.msg, hv.writes⟩

theorem Vouched.raise (hv : h.Vouched P) (text : String) : (h.raise text).Vouched P :=
  ⟨hv.shared, hv.msg, hv.writes⟩

theorem Vouched.setForwarded (hv : h.Vouched P) (count : ℕ) : (h.setForwarded count).Vouched P :=
  ⟨hv.shared, hv.msg, hv.writes⟩

theorem Vouched.withSelf (hv : h.Vouched P) (self : κ) :
    ({ h with self := self } : Handling κ).Vouched P := ⟨hv.shared, hv.msg, hv.writes⟩

theorem Vouched.write (hv : h.Vouched P) {w : Write} (hw : ∀ n ∈ w.content.number, P n) :
    (h.write w).Vouched P :=
  ⟨hv.shared, hv.msg, allVouched_append hv.writes fun _ hw' ↦ List.mem_singleton.mp hw' ▸ hw⟩

theorem Vouched.writeTo (hv : h.Vouched P) (writer : Writer) :
    (h.write (h.msg.to writer)).Vouched P :=
  hv.write (MessageRecord.vouched_to hv.msg writer)

theorem Vouched.andThen (hv : h.Vouched P) {next : Handling κ → Handling κ}
    (hnext : (next h).Vouched P) : (h.andThen next).Vouched P := by
  unfold Handling.andThen
  split
  · exact hv
  · exact hnext

theorem Vouched.call (hv : h.Vouched P) {raises : Option String} {next : Handling κ → Handling κ}
    (hnext : (next h).Vouched P) : (h.call raises next).Vouched P := by
  unfold Handling.call
  split
  · exact hv.raise _
  · exact hnext

theorem Vouched.foldl {α : Type} {f : Handling κ → α → Handling κ} (hv : h.Vouched P)
    (hf : ∀ h' a, Vouched P h' → (f h' a).Vouched P) (l : List α) : (l.foldl f h).Vouched P := by
  induction l generalizing h with
  | nil => exact hv
  | cons a l ih => exact ih (hf h a hv)

theorem Vouched.writeEach (hv : h.Vouched P) (writers : List Writer) :
    (h.writeEach writers).Vouched P := hv.foldl (fun _ writer hv ↦ hv.writeTo writer) writers

theorem Vouched.send_to_parent (hv : h.Vouched P) (high_level : Bool)
    (except_writer : Option ParentWriter) :
    (h.send_to_parent high_level except_writer).Vouched P := by
  unfold Handling.send_to_parent
  split
  · exact hv
  · refine hv.foldl (fun h' writer hv' ↦ ?_) _
    split
    · exact (hv'.writeTo writer.writer).setForwarded _
    · exact hv'

theorem Vouched.apply_timestamp_offset (hv : h.Vouched P) (cfg : Config) (offset : ℤ) :
    (h.apply_timestamp_offset cfg offset).Vouched P := by
  unfold Handling.apply_timestamp_offset
  split
  · exact ⟨hv.shared, hv.msg, hv.writes⟩
  · exact hv

theorem Vouched.reply (hv : h.Vouched P) (writer : Writer) (destination_id : Option String) :
    (h.send_error_reply_if_necessary writer destination_id).Vouched P := by
  unfold Handling.send_error_reply_if_necessary
  split
  · exact hv.write nofun
  · exact hv

theorem Vouched.catchAll (hv : h.Vouched P) : h.catchAll.Vouched P := by
  unfold Handling.catchAll
  split
  · exact ⟨hv.shared, hv.msg, hv.writes⟩
  · exact hv

end Handling

/-! ## Children -/

namespace ChildConnection

variable {h : Handling ChildConnection}

theorem numbers_of_msg {msg : MessageRecord} {info : SensorInfo}
    (hreg : info.registration = msg) (hnew : info.recent_status_new = none)
    (hunchanged : info.recent_status_unchanged = none) :
    info.numbers = [msg.received.message_id] := by
  rw [SensorInfo.numbers, hreg, hnew, hunchanged]
  rfl

theorem vouched_updateInfo (hv : h.Vouched P) {f : SensorInfo → SensorInfo}
    (hf : ∀ info, (∀ n ∈ info.numbers, P n) → ∀ n ∈ (f info).numbers, P n) :
    (updateInfo f h).Vouched P := by
  unfold updateInfo
  split
  · exact hv
  · split
    · exact hv
    · rename_i info hinfo
      exact ⟨hv.shared.set _ (hf info (hv.shared _ info hinfo)), hv.msg, hv.writes⟩

theorem vouched_acknowledge (hv : h.Vouched P) (cfg : Config) (raises : Raises) :
    (acknowledge cfg raises h).Vouched P := by
  unfold acknowledge
  split
  · exact hv.call (hv.write nofun)
  · exact hv

theorem vouched_forward (hv : h.Vouched P) : (forward h).Vouched P :=
  (hv.writeEach _).setForwarded _

theorem vouched_register (hv : h.Vouched P) (node_id : String) (offset : ℤ) :
    (register node_id offset h).Vouched P := by
  refine ⟨hv.shared.set _ fun n hn ↦ ?_, hv.msg, hv.writes⟩
  rw [numbers_of_msg rfl rfl rfl, List.mem_singleton] at hn
  exact hn ▸ hv.msg

theorem vouched_handle_registration (hv : h.Vouched P) (cfg : Config) (raises : Raises) :
    (handle_registration cfg raises h).Vouched P := by
  unfold handle_registration
  split
  · exact hv
  · split
    · exact hv.fail _ _
    · split
      · exact hv.raise _
      · split
        · exact hv.fail _ _
        · refine (hv.withSelf _).call ?_
          refine ((hv.withSelf _).apply_timestamp_offset cfg _).call ?_
          exact vouched_acknowledge (vouched_forward (vouched_register
            ((hv.withSelf _).apply_timestamp_offset cfg _) _ _)) cfg raises

theorem vouched_check_owner (hv : h.Vouched P) (cfg : Config) (raises : Raises) :
    (check_owner cfg raises h).Vouched P := by
  unfold check_owner
  split
  · exact hv.raise _
  · split
    · exact hv.fail _ _
    · dsimp only
      split
      · exact hv.fail _ _
      · exact hv.call (hv.apply_timestamp_offset cfg _)

theorem vouched_reregister (hv : h.Vouched P) (cfg : Config) (raises : Raises) :
    (reregister cfg raises h).Vouched P := by
  unfold reregister
  split
  · exact hv
  · refine vouched_acknowledge (vouched_updateInfo (hv.withSelf _) fun info _ n hn ↦ ?_) cfg raises
    rw [numbers_of_msg rfl rfl rfl, List.mem_singleton] at hn
    exact hn ▸ hv.msg

theorem vouched_handle_status_report (hv : h.Vouched P) : (handle_status_report h).Vouched P := by
  unfold handle_status_report
  split
  · exact hv
  · split
    · split
      · exact hv.fail _ _
      · split
        · exact hv.fail _ _
        · refine vouched_updateInfo hv fun info hinfo n hn ↦ ?_
          simp only [SensorInfo.numbers, Option.toList_some, List.map_append, List.map_cons,
            List.map_nil, List.mem_append, List.mem_cons, List.not_mem_nil, or_false] at hn hinfo
          rcases hn with hn | rfl
          · exact hinfo n (Or.inl hn)
          · exact hv.msg
    · refine vouched_updateInfo (hv.withSelf _) fun info hinfo n hn ↦ ?_
      simp only [SensorInfo.numbers, Option.toList_some, Option.toList_none, List.append_nil,
        List.map_append, List.map_cons, List.map_nil, List.mem_append, List.mem_cons,
        List.not_mem_nil, or_false] at hn hinfo
      rcases hn with rfl | rfl
      · exact hinfo _ (Or.inl (Or.inl rfl))
      · exact hv.msg

theorem vouched_filter_detection (hv : h.Vouched P) (cfg : Config) :
    (filter_detection cfg h).Vouched P := by
  unfold filter_detection
  split
  · split
    · exact hv
    · exact hv.fail _ _
  · exact hv

theorem vouched_finish (hv : h.Vouched P) : (finish h).Vouched P := by
  unfold finish
  refine (Handling.Vouched.catchAll ?_).reply _ _
  split
  · exact hv.send_to_parent false none
  · exact hv

theorem vouched_handle_message (hv : h.Vouched P) (cfg : Config) (raises : Raises) :
    (handle_message cfg raises h).Vouched P := by
  have hhandled : (if h.self.registration = none then handle_registration cfg raises h
      else handle_other cfg raises h).Vouched P := by
    split
    · exact vouched_handle_registration hv cfg raises
    · have hchecked := hv.andThen (vouched_check_owner hv cfg raises)
      have hregistered := hchecked.andThen (vouched_reregister hchecked cfg raises)
      have hreported := hregistered.andThen (vouched_handle_status_report hregistered)
      have hfiltered := hreported.andThen (vouched_filter_detection hreported cfg)
      exact hfiltered.andThen (vouched_forward hfiltered)
  exact vouched_finish hhandled

/-- A message with an error is at most replied to. -/
theorem handle_message_of_error (herror : h.msg.error.isSome) (hraised : h.raised = none)
    (cfg : Config) (raises : Raises) : handle_message cfg raises h =
      h.send_error_reply_if_necessary h.self.writer h.self.node_id := by
  have hsame : (if h.self.registration = none then handle_registration cfg raises h
      else handle_other cfg raises h) = h := by
    have hstopped : h.msg.error.isSome ∨ h.raised.isSome := Or.inl herror
    split
    · exact if_pos herror
    · rw [handle_other, Handling.andThen_of_stopped hstopped, Handling.andThen_of_stopped hstopped,
        Handling.andThen_of_stopped hstopped, Handling.andThen_of_stopped hstopped,
        Handling.andThen_of_stopped hstopped]
  have hparent : h.send_to_parent false none = h := if_pos herror
  have hcaught : h.catchAll = h := by rw [Handling.catchAll, hraised]
  unfold handle_message
  dsimp only
  rw [hsame, if_pos hraised, hparent, hcaught]

end ChildConnection

/-! ## The other connections -/

namespace PeerConnection

variable {h : Handling PeerConnection}

theorem vouched_handle_registration (hv : h.Vouched P) (cfg : Config) (raises : Raises) :
    (handle_registration cfg raises h).Vouched P := by
  unfold handle_registration
  split
  · exact hv
  · split
    · exact hv.fail _ _
    · split
      · exact hv.raise _
      · split
        · exact hv.fail _ _
        · split
          · exact hv.fail _ _
          · exact (hv.withSelf _).call ((hv.withSelf _).write nofun)

theorem vouched_check_source (hv : h.Vouched P) : (check_source h).Vouched P := by
  unfold check_source
  split
  · exact hv
  · exact hv.raise _
  · split
    · exact hv.fail _ _
    · exact hv

theorem vouched_forward (hv : h.Vouched P) (cfg : Config) (raises : Raises) :
    (forward cfg raises h).Vouched P := by
  unfold forward
  split
  · exact hv.raise _
  · split
    · exact hv.send_to_parent true none
    · split
      · exact hv.fail _ _
      · refine hv.call ?_
        exact (((hv.apply_timestamp_offset cfg _).writeTo _).setForwarded 1).send_to_parent false
          none

theorem vouched_handle_message (hv : h.Vouched P) (cfg : Config) (raises : Raises) :
    (handle_message cfg raises h).Vouched P := by
  have hregistered := hv.andThen (vouched_handle_registration hv cfg raises)
  have hchecked := hregistered.andThen (vouched_check_source hregistered)
  exact (hchecked.andThen (vouched_forward hchecked cfg raises)).catchAll.reply _ _

theorem handle_message_of_error (herror : h.msg.error.isSome) (hraised : h.raised = none)
    (cfg : Config) (raises : Raises) : handle_message cfg raises h =
      h.send_error_reply_if_necessary h.self.writer h.self.dmm_id := by
  have hstopped : h.msg.error.isSome ∨ h.raised.isSome := Or.inl herror
  have hcaught : h.catchAll = h := by rw [Handling.catchAll, hraised]
  rw [handle_message, handle_message_inner, Handling.andThen_of_stopped hstopped,
    Handling.andThen_of_stopped hstopped, Handling.andThen_of_stopped hstopped, hcaught]

end PeerConnection

theorem ParentConnection.vouched_handle_message {h : Handling ParentConnection}
    (hv : h.Vouched P) : (handle_message h).Vouched P := by
  unfold handle_message
  split
  · dsimp only
    split
    · exact (hv.setForwarded 0).raise _
    · refine Handling.Vouched.send_to_parent ?_ false _
      refine (Handling.Vouched.writeEach ?_ _).setForwarded _
      unfold route
      split
      · exact hv.setForwarded 0
      · exact ((hv.setForwarded 0).writeTo _).setForwarded _
  · exact hv.reply _ _

/-! ## Every event -/

theorem Handling.vouched_reply {κ : Type} {h : Handling κ} (hshared : h.shared.Vouched P)
    (hwrites : AllVouched P h.writes) (writer : Writer) (destination_id : Option String) :
    (h.send_error_reply_if_necessary writer destination_id).shared.Vouched P ∧
      AllVouched P (h.send_error_reply_if_necessary writer destination_id).writes := by
  unfold send_error_reply_if_necessary
  split
  · exact ⟨hshared, allVouched_append hwrites fun _ hw ↦ List.mem_singleton.mp hw ▸ nofun⟩
  · exact ⟨hshared, hwrites⟩

/-- What handling a message writes, and what the registry keeps then. -/
theorem handle_vouched {cfg : Config} {s : State} {c : ℕ} {msg : MessageRecord} {raises : Raises}
    {r : Handled} (hr : handle cfg s c msg raises = some r) (hs : s.shared.Vouched P)
    (hmsg : msg.error = none → P msg.received.message_id) :
    r.state.shared.Vouched P ∧ AllVouched P r.writes := by
  obtain ⟨k, -, rfl⟩ := Option.map_eq_some_iff.mp hr
  have hnothing : AllVouched P [] := fun _ hw ↦ absurd hw List.not_mem_nil
  cases herror : msg.error with
  | none =>
      have hstart {κ : Type} (self : κ) : (s.start self msg).Vouched P :=
        ⟨hs, hmsg herror, hnothing⟩
      cases k with
      | child self =>
          have hv := ChildConnection.vouched_handle_message (hstart self) cfg raises
          exact ⟨hv.shared, hv.writes⟩
      | peer self =>
          have hv := PeerConnection.vouched_handle_message (hstart self) cfg raises
          exact ⟨hv.shared, hv.writes⟩
      | parent self =>
          have hv := ParentConnection.vouched_handle_message (hstart self)
          exact ⟨hv.shared, hv.writes⟩
      | recorder self =>
          have hv := (hstart self).send_to_parent false none
          exact ⟨hv.shared, hv.writes⟩
  | some error =>
      have hsome : msg.error.isSome := by rw [herror]; rfl
      have hreply {κ : Type} (self : κ) :=
        @Handling.vouched_reply P κ (s.start self msg) hs hnothing
      cases k with
      | child self =>
          dsimp only
          rw [ChildConnection.handle_message_of_error hsome rfl]
          exact hreply self _ _
      | peer self =>
          dsimp only
          rw [PeerConnection.handle_message_of_error hsome rfl]
          exact hreply self _ _
      | parent self =>
          have hreplied : ParentConnection.handle_message (s.start self msg) =
              (s.start self msg).send_error_reply_if_necessary self.writer none :=
            if_neg (Option.isSome_iff_ne_none.mp hsome)
          dsimp only
          rw [hreplied]
          exact hreply self _ _
      | recorder self =>
          have hsame : RecorderConnection.handle_message (s.start self msg) = s.start self msg :=
            if_pos hsome
          dsimp only
          rw [hsame]
          exact ⟨hs, hnothing⟩

theorem vouched_replay {shared : SharedData} (hs : shared.Vouched P) (writer : Writer) :
    AllVouched P (shared.replay writer) := by
  intro w hw n hn
  obtain ⟨info, hinfo, hw⟩ := List.mem_flatMap.mp hw
  obtain ⟨⟨node_id, info⟩, hmem, rfl⟩ := List.mem_map.mp hinfo
  refine hs node_id info (Dict.get?_eq_some_iff.mpr hmem) n ?_
  obtain ⟨msg, hmsg, rfl⟩ : ∃ msg, (msg ∈ info.registration :: info.recent_status_new.toList ++
      info.recent_status_unchanged.toList) ∧ msg.to writer = w := by
    simp only [SensorInfo.replay, List.mem_append, List.mem_singleton, Option.mem_toList,
      Option.map_eq_some_iff] at hw
    rcases hw with (rfl | ⟨msg, hmsg, rfl⟩) | ⟨msg, hmsg, rfl⟩
    · exact ⟨info.registration, List.mem_append_left _ List.mem_cons_self, rfl⟩
    · exact ⟨msg, List.mem_append_left _ (List.mem_cons_of_mem _ (Option.mem_toList.mpr hmsg)),
        rfl⟩
    · exact ⟨msg, List.mem_append_right _ (Option.mem_toList.mpr hmsg), rfl⟩
  cases hn
  exact List.mem_map_of_mem hmsg

theorem vouched_close {s s' : State} {c : ℕ} (hs : s.shared.Vouched P)
    (hclose : close s c = some s') : s'.shared.Vouched P := by
  obtain ⟨k, -, rfl⟩ := Option.map_eq_some_iff.mp hclose
  cases k with
  | child self =>
      show (self.handle_closed s.shared).Vouched P
      unfold ChildConnection.handle_closed
      split
      · exact hs
      · split
        · exact fun id info hinfo ↦ hs id info (Dict.get?_erase_eq_some_iff.mp hinfo).2
        · exact hs
  | peer self => exact hs
  | parent self =>
      show (self.handle_closed s.shared).Vouched P
      unfold ParentConnection.handle_closed
      split <;> exact hs
  | recorder self => exact hs

theorem vouched_create {s : State} (hs : s.shared.Vouched P) (config : ConnectionConfig) :
    (create s config).shared.Vouched P := by
  show ((Connection.make config _).join s.shared).Vouched P
  unfold Connection.join
  split
  · exact hs
  · split <;> exact hs
  · exact hs

theorem vouched_greeting {shared : SharedData} (hs : shared.Vouched P) (k : Connection) :
    AllVouched P (k.greeting shared) := by
  have hnothing : AllVouched P [] := fun _ hw ↦ absurd hw List.not_mem_nil
  unfold Connection.greeting
  split
  · exact vouched_replay hs _
  · split
    · exact vouched_replay hs _
    · exact hnothing
  · exact hnothing

/-- A message without an error has its number in `P`. -/
def Event.Vouched (P : ℕ → Prop) : Event → Prop
  | .received _ msg _ => msg.error = none → P msg.received.message_id
  | _ => True

theorem vouched_server {cfg : Config} {s s' : State} {e : Event} (hs : s.shared.Vouched P)
    (he : e.Vouched P) (hstep : server cfg s e = some s') :
    s'.shared.Vouched P ∧ AllVouched P (writes cfg s e) := by
  cases e with
  | opened config =>
      cases hstep
      exact ⟨vouched_create hs config, vouched_greeting hs _⟩
  | received c msg raises =>
      obtain ⟨r, hr, rfl⟩ := Option.map_eq_some_iff.mp hstep
      rw [writes, hr, Option.map_some, Option.getD_some]
      exact handle_vouched hr hs he
  | closed c => exact ⟨vouched_close hs hstep, fun _ hw ↦ absurd hw List.not_mem_nil⟩

theorem vouched_server_run {cfg : Config} {s s' : State} {events : List Event}
    (hs : s.shared.Vouched P) (hevents : ∀ e ∈ events, e.Vouched P)
    (hrun : (server cfg).run s events = some s') :
    s'.shared.Vouched P ∧ AllVouched P ((server cfg).outputs (writes cfg) s events) := by
  have hinv : s'.shared.Vouched P ∧
      AllVouched P ([] ++ (server cfg).outputs (writes cfg) s events) := by
    refine Machine.outputs_invariant_of_forall
      (I := fun s ws ↦ s.shared.Vouched P ∧ AllVouched P ws) (P := Event.Vouched P)
      (fun s e s' ws hI he hstep ↦ ?_) hevents ⟨hs, fun _ hw ↦ absurd hw List.not_mem_nil⟩ hrun
    obtain ⟨hshared, hwrites⟩ := vouched_server hI.1 he hstep
    exact ⟨hshared, allVouched_append hI.2 hwrites⟩
  exact hinv

/-! ## Parsing and validating -/

variable {T : Type u}

/-- The server, with the bytes of the messages that it has read, by their numbers, and with the
parser and the validator of each connection. -/
structure Intake (T : Type u) where
  serving : Serving
  data : Dict ℕ (List UInt8)
  readers : Dict ℕ (Reader T × Validator)

def Intake.start : Intake T := ⟨.start, ∅, ∅⟩

inductive Traffic (T : Type u)
  /-- `serve` makes a validator, and gets a parser for the configuration of the connection. -/
  | opened (config : ConnectionConfig) (parsers : Parsers T) (peer : String) (time : ℤ)
  | read (connection_id : ℕ) (timestamp : ℤ) (data_bytes : List UInt8)
  /-- `read_from_channel` takes a message from the channel, parses it and handles it. -/
  | taken (connection_id : ℕ) (decoded_timestamp : ℤ) (generated_ulid : String) (raises : Raises)
  | closed (connection_id : ℕ) (time : ℤ) (reason : String)

/-- The message that is next in the channel of a connection, with the parser and the validator
that it is handed to. -/
def Intake.next (s : Intake T) (connection_id : ℕ) (decoded_timestamp : ℤ)
    (generated_ulid : String) : Option (Incoming × Reader T × Validator) :=
  match s.serving.served.get? connection_id with
  | some ⟨raw_message :: _, false⟩ =>
      (s.data.get? raw_message.message_id).bind fun data_bytes ↦
        (s.readers.get? connection_id).map fun reader ↦
          (⟨connection_id, raw_message, data_bytes, decoded_timestamp, generated_ulid⟩, reader)
  | _ => none

/-- The parser has raised: `read_from_channel` ends, and the connection is about to be closed. -/
def Serving.fail (s : Serving) (connection_id : ℕ) : Serving :=
  match s.served.get? connection_id with
  | some served => { s with served := s.served.set connection_id ⟨served.received.tail, true⟩ }
  | none => s

section Machine

variable [DecidableEq T] (cfg : Config) (enable_message_conversion : Bool)
  (options : ValidationOptions)

/-- `serve`, with the parsers in front of the connections.  Without a parser for its format, a
connection brings the server to its end. -/
def intake : Machine (Intake T) (Traffic T)
  | s, .opened config parsers peer time =>
      match getParser parsers enable_message_conversion config.format with
      | .ok reader =>
          (serving cfg s.serving (.opened config peer time)).map fun next ↦
            { s with
              serving := next
              readers := s.readers.set (s.serving.server.previous_connection_id + 1)
                (reader, ⟨options, none⟩) }
      | .error _ => none
  | s, .read connection_id timestamp data_bytes =>
      (serving cfg s.serving (.read connection_id timestamp)).map fun next ↦
        { s with
          serving := next
          data := s.data.set (s.serving.previous_message_id + 1) data_bytes }
  | s, .taken connection_id decoded_timestamp generated_ulid raises =>
      (s.next connection_id decoded_timestamp generated_ulid).bind fun
          (msg_data, reader, validator) ↦
        match reader.parse msg_data validator with
        | .ok (msg, validator') =>
            (serving cfg s.serving (.handled connection_id msg raises)).map fun next ↦
              { s with
                serving := next
                readers := s.readers.set connection_id (reader, validator') }
        | .error _ => some { s with serving := s.serving.fail connection_id }
  | s, .closed connection_id time reason =>
      (serving cfg s.serving (.closed connection_id time reason)).map fun next ↦
        { s with serving := next }

end Machine

/-- What happens to the connections with it. -/
def Intake.events [DecidableEq T] (s : Intake T) : Traffic T → List Event
  | .opened config _ _ _ => [.opened config]
  | .read _ _ _ => []
  | .taken connection_id decoded_timestamp generated_ulid raises =>
      match s.next connection_id decoded_timestamp generated_ulid with
      | some (msg_data, reader, validator) =>
          match reader.parse msg_data validator with
          | .ok (msg, _) => [.received connection_id msg.toMessageRecord raises]
          | .error _ => []
      | none => []
  | .closed connection_id _ _ => [.closed connection_id]

/-- What is written to the connections. -/
def Intake.written [DecidableEq T] (cfg : Config) (s : Intake T) (l : Traffic T) : List Write :=
  (server cfg).outputs (writes cfg) s.serving.server (s.events l)

/-- A message that was read, with its number and the parser of the connection. -/
structure Arrival (T : Type u) where
  number : ℕ
  reader : Reader T
  data_bytes : List UInt8

/-- The message that is read. -/
def Intake.arrived (s : Intake T) : Traffic T → List (Arrival T)
  | .read connection_id _ data_bytes =>
      (s.readers.get? connection_id).toList.map fun reader ↦
        ⟨s.serving.previous_message_id + 1, reader.1, data_bytes⟩
  | _ => []

/-- A message on a protobuf connection could be parsed and is valid, with everything that is
nested in it. -/
def Arrival.Valid (options : ValidationOptions) (a : Arrival T) : Prop :=
  ∀ parser, a.reader = .proto parser → ∃ m, parser.ParseFromString a.data_bytes = .ok m ∧
    Apex.Valid parser.toLibrary options parser.sapient_message m

/-! ## What a step does -/

section Steps

variable {s s' : Intake T}

theorem next_eq_some {c : ℕ} {decoded_timestamp : ℤ} {generated_ulid : String}
    {msg_data : Incoming} {reader : Reader T} {validator : Validator}
    (h : s.next c decoded_timestamp generated_ulid = some (msg_data, reader, validator)) :
    ∃ received, s.serving.served.get? c = some ⟨msg_data.received :: received, false⟩ ∧
      s.data.get? msg_data.received.message_id = some msg_data.data_bytes ∧
      s.readers.get? c = some (reader, validator) := by
  unfold Intake.next at h
  split at h
  · rename_i raw_message received hserved
    obtain ⟨data_bytes, hdata, h⟩ := Option.bind_eq_some_iff.mp h
    obtain ⟨reader', hreader, h⟩ := Option.map_eq_some_iff.mp h
    cases h
    exact ⟨received, hserved, hdata, hreader⟩
  · cases h

variable [DecidableEq T] {cfg : Config} {enable_message_conversion : Bool}
  {options : ValidationOptions}

theorem intake_opened {config : ConnectionConfig} {parsers : Parsers T} {peer : String} {time : ℤ}
    (h : intake cfg enable_message_conversion options s (.opened config parsers peer time) =
      some s') :
    ∃ reader next, getParser parsers enable_message_conversion config.format = .ok reader ∧
      serving cfg s.serving (.opened config peer time) = some next ∧
      s' = ⟨next, s.data, s.readers.set (s.serving.server.previous_connection_id + 1)
        (reader, ⟨options, none⟩)⟩ := by
  simp only [intake] at h
  split at h
  · rename_i reader hreader
    obtain ⟨next, hnext, rfl⟩ := Option.map_eq_some_iff.mp h
    exact ⟨reader, next, hreader, hnext, rfl⟩
  · cases h

/-- The message that is next is parsed and handled, or parsing it raises. -/
theorem intake_taken {c : ℕ} {decoded_timestamp : ℤ} {generated_ulid : String} {raises : Raises}
    (h : intake cfg enable_message_conversion options s
      (.taken c decoded_timestamp generated_ulid raises) = some s') :
    ∃ msg_data reader validator,
      s.next c decoded_timestamp generated_ulid = some (msg_data, reader, validator) ∧
      ((∃ record validator' next, reader.parse msg_data validator = .ok (record, validator') ∧
          serving cfg s.serving (.handled c record raises) = some next ∧
          s' = ⟨next, s.data, s.readers.set c (reader, validator')⟩) ∨
        ∃ exc, reader.parse msg_data validator = .error exc ∧
          s' = ⟨s.serving.fail c, s.data, s.readers⟩) := by
  obtain ⟨⟨msg_data, reader, validator⟩, hmsg, h⟩ := Option.bind_eq_some_iff.mp h
  refine ⟨msg_data, reader, validator, hmsg, ?_⟩
  dsimp only at h
  split at h
  · rename_i record validator' hparsed
    obtain ⟨next, hnext, rfl⟩ := Option.map_eq_some_iff.mp h
    exact .inl ⟨record, validator', next, hparsed, hnext, rfl⟩
  · rename_i exc hparsed
    cases h
    exact .inr ⟨exc, hparsed, rfl⟩

end Steps

/-! ## Where a message comes from -/

section Arrivals

variable {s s' : Intake T} {arrivals : List (Arrival T)}

/-- What is in the channels was read, for the parser of the connection. -/
structure Traced (s : Intake T) (arrivals : List (Arrival T)) : Prop where
  numbers : ∀ a ∈ arrivals, a.number ≤ s.serving.previous_message_id
  nodup : (arrivals.map Arrival.number).Nodup
  later : ∀ c, s.serving.server.previous_connection_id < c → s.serving.served.get? c = none
  channels : ∀ c now, s.serving.served.get? c = some now → ∃ reader validator,
    s.readers.get? c = some (reader, validator) ∧ ∀ raw ∈ now.received, ∃ a ∈ arrivals,
      a.number = raw.message_id ∧ s.data.get? raw.message_id = some a.data_bytes ∧
        a.reader = reader

theorem traced_start : Traced (.start : Intake T) [] where
  numbers _ ha := absurd ha List.not_mem_nil
  nodup := List.nodup_nil
  later _ _ := rfl
  channels _ _ hnow := nomatch hnow

/-- Nothing is read, and no connection is opened. -/
theorem Traced.of_subset (h : Traced s arrivals)
    (hnumber : s'.serving.previous_message_id = s.serving.previous_message_id)
    (hconnection : s'.serving.server.previous_connection_id =
      s.serving.server.previous_connection_id)
    (hdata : s'.data = s.data)
    (hserved : ∀ c now', s'.serving.served.get? c = some now' → ∃ now,
      s.serving.served.get? c = some now ∧ now'.received ⊆ now.received)
    (hreaders : ∀ c reader validator, s.readers.get? c = some (reader, validator) →
      ∃ validator', s'.readers.get? c = some (reader, validator')) : Traced s' arrivals where
  numbers a ha := hnumber ▸ h.numbers a ha
  nodup := h.nodup
  later c hc := by
    cases hnow : s'.serving.served.get? c with
    | none => rfl
    | some now' =>
        obtain ⟨now, hold, -⟩ := hserved c now' hnow
        exact absurd (hold.symm.trans (h.later c (hconnection ▸ hc))) (Option.some_ne_none _)
  channels c now' hnow := by
    obtain ⟨now, hold, hsub⟩ := hserved c now' hnow
    obtain ⟨reader, validator, hreader, hraw⟩ := h.channels c now hold
    obtain ⟨validator', hreader'⟩ := hreaders c reader validator hreader
    exact ⟨reader, validator', hreader', fun raw hmem ↦ hdata ▸ hraw raw (hsub hmem)⟩

theorem Traced.opened (h : Traced s arrivals) {cfg : Config} {config : ConnectionConfig}
    {peer : String} {time : ℤ} {next : Serving}
    (hnext : serving cfg s.serving (.opened config peer time) = some next)
    (reader : Reader T × Validator) :
    Traced ⟨next, s.data,
      s.readers.set (s.serving.server.previous_connection_id + 1) reader⟩ arrivals := by
  cases hnext
  refine ⟨h.numbers, h.nodup, fun c hc ↦ ?_, fun c now hnow ↦ ?_⟩
  · have hne : c ≠ s.serving.server.previous_connection_id + 1 := (Nat.ne_of_lt hc).symm
    dsimp only
    rw [Dict.get?_set_ne _ _ hne]
    exact h.later c ((Nat.lt_succ_self _).trans hc)
  · dsimp only at hnow ⊢
    by_cases hc : c = s.serving.server.previous_connection_id + 1
    · subst hc
      rw [Dict.get?_set_self] at hnow ⊢
      cases hnow
      exact ⟨_, _, rfl, fun _ hraw ↦ absurd hraw List.not_mem_nil⟩
    · rw [Dict.get?_set_ne _ _ hc] at hnow ⊢
      exact h.channels c now hnow

theorem Traced.read (h : Traced s arrivals) {cfg : Config} {c : ℕ} {timestamp : ℤ}
    {data_bytes : List UInt8} {next : Serving}
    (hnext : serving cfg s.serving (.read c timestamp) = some next) :
    Traced ⟨next, s.data.set (s.serving.previous_message_id + 1) data_bytes, s.readers⟩
      (arrivals ++ s.arrived (.read c timestamp data_bytes)) := by
  obtain ⟨served, hserved, rfl⟩ := Option.map_eq_some_iff.mp hnext
  obtain ⟨reader, validator, hreader, hraw⟩ := h.channels c served hserved
  rw [Intake.arrived, hreader, Option.toList_some, List.map_singleton]
  have hfresh : ∀ a ∈ arrivals, a.number ≠ s.serving.previous_message_id + 1 :=
    fun a ha ↦ Nat.ne_of_lt (Nat.lt_succ_of_le (h.numbers a ha))
  -- what was read before is found under its number as before
  have hkeep : ∀ a ∈ arrivals, ∀ n, a.number = n → ∀ bytes, s.data.get? n = some bytes →
      (s.data.set (s.serving.previous_message_id + 1) data_bytes).get? n = some bytes := by
    rintro a ha n rfl bytes hbytes
    rwa [Dict.get?_set_ne _ _ (hfresh a ha)]
  have hold : ∀ reader' : Reader T, ∀ raw : ReceivedDataRecord,
      (∃ a ∈ arrivals, a.number = raw.message_id ∧
        s.data.get? raw.message_id = some a.data_bytes ∧ a.reader = reader') →
      ∃ a ∈ arrivals ++ [⟨s.serving.previous_message_id + 1, reader, data_bytes⟩],
        a.number = raw.message_id ∧
          (s.data.set (s.serving.previous_message_id + 1) data_bytes).get? raw.message_id =
            some a.data_bytes ∧ a.reader = reader' := by
    rintro reader' raw ⟨a, ha, hnumber, hbytes, hsame⟩
    exact ⟨a, List.mem_append_left _ ha, hnumber, hkeep a ha _ hnumber _ hbytes, hsame⟩
  refine ⟨fun a ha ↦ ?_, ?_, fun c' hc' ↦ ?_, fun c' now hnow ↦ ?_⟩
  · rcases List.mem_append.mp ha with ha | ha
    · exact Nat.le_succ_of_le (h.numbers a ha)
    · rw [List.mem_singleton.mp ha]
  · rw [List.map_append, List.map_singleton, List.nodup_append_comm, List.singleton_append]
    refine List.nodup_cons.mpr ⟨fun hmem ↦ ?_, h.nodup⟩
    obtain ⟨a, ha, hnumber⟩ := List.mem_map.mp hmem
    exact hfresh a ha hnumber
  · have hne : c' ≠ c := by
      rintro rfl
      exact absurd (hserved.symm.trans (h.later c' hc')) (Option.some_ne_none _)
    dsimp only
    rw [Dict.get?_set_ne _ _ hne]
    exact h.later c' hc'
  · dsimp only at hnow ⊢
    by_cases hc : c' = c
    · subst hc
      rw [Dict.get?_set_self] at hnow
      cases hnow
      refine ⟨reader, validator, hreader, fun raw hmem ↦ ?_⟩
      rcases List.mem_append.mp hmem with hmem | hmem
      · exact hold reader raw (hraw raw hmem)
      · rw [List.mem_singleton.mp hmem]
        exact ⟨_, List.mem_append_right _ (List.mem_singleton_self _), rfl,
          Dict.get?_set_self _ _ _, rfl⟩
    · rw [Dict.get?_set_ne _ _ hc] at hnow
      obtain ⟨reader', validator', hreader', hraw'⟩ := h.channels c' now hnow
      exact ⟨reader', validator', hreader', fun raw hmem ↦ hold reader' raw (hraw' raw hmem)⟩

/-- A connection goes on with a part of what is in its channel. -/
theorem served_set_subset {served : Dict ℕ Served} {c : ℕ} {now now' : Served}
    (hnow : served.get? c = some now) (hsub : now'.received ⊆ now.received) {c' : ℕ}
    {now₁ : Served} (h : (served.set c now').get? c' = some now₁) :
    ∃ now₀, served.get? c' = some now₀ ∧ now₁.received ⊆ now₀.received := by
  rw [Dict.get?_set] at h
  split at h
  · rename_i hc
    cases h
    exact ⟨now, hc ▸ hnow, hsub⟩
  · exact ⟨now₁, h, List.Subset.refl _⟩

variable [DecidableEq T] {cfg : Config} {enable_message_conversion : Bool}
  {options : ValidationOptions}

theorem traced_step {l : Traffic T} (h : Traced s arrivals)
    (hstep : intake cfg enable_message_conversion options s l = some s') :
    Traced s' (arrivals ++ s.arrived l) := by
  cases l with
  | opened config parsers peer time =>
      obtain ⟨reader, next, -, hnext, rfl⟩ := intake_opened hstep
      exact (List.append_nil arrivals).symm ▸ h.opened hnext _
  | read c timestamp data_bytes =>
      obtain ⟨next, hnext, rfl⟩ := Option.map_eq_some_iff.mp hstep
      exact h.read hnext
  | taken c decoded_timestamp generated_ulid raises =>
      show Traced s' (arrivals ++ [])
      rw [List.append_nil]
      obtain ⟨msg_data, reader, validator, hmsg, hcase⟩ := intake_taken hstep
      obtain ⟨received, hserved, -, hreader⟩ := next_eq_some hmsg
      rcases hcase with ⟨record, validator', next, -, hnext, rfl⟩ | ⟨exc, -, rfl⟩
      · obtain ⟨received', failed, r, hserved', -, hfresh, hr, rfl⟩ := serving_handled hnext
        refine h.of_subset rfl (handle_same hr hfresh).2.1 rfl
          (fun _ _ ↦ served_set_subset hserved' (List.subset_cons_self _ _))
          fun c' reader' V hreader' ↦ ?_
        dsimp only
        rw [Dict.get?_set]
        split
        · rename_i hc
          rw [hc, hreader] at hreader'
          cases hreader'
          exact ⟨_, rfl⟩
        · exact ⟨V, hreader'⟩
      · have hfail : s.serving.fail c =
            { s.serving with served := s.serving.served.set c ⟨received, true⟩ } := by
          simp only [Serving.fail, hserved, List.tail_cons]
        rw [hfail]
        exact h.of_subset rfl rfl rfl
          (fun _ _ ↦ served_set_subset hserved (List.subset_cons_self _ _))
          fun _ _ V hreader' ↦ ⟨V, hreader'⟩
  | closed c time reason =>
      show Traced s' (arrivals ++ [])
      rw [List.append_nil]
      obtain ⟨next, hnext, rfl⟩ := Option.map_eq_some_iff.mp hstep
      obtain ⟨-, hnext⟩ := Option.ite_none_right_eq_some.mp hnext
      obtain ⟨server, hclose, rfl⟩ := Option.map_eq_some_iff.mp hnext
      obtain ⟨k, -, rfl⟩ := Option.map_eq_some_iff.mp hclose
      exact h.of_subset rfl rfl rfl
        (fun _ now hnow ↦ ⟨now, (Dict.get?_erase_eq_some_iff.mp hnow).2, List.Subset.refl _⟩)
        fun _ _ V hreader' ↦ ⟨V, hreader'⟩

end Arrivals

/-! ## What happens to the connections -/

/-- The validators of protobuf connections have the options. -/
def Intake.Configured (options : ValidationOptions) (s : Intake T) : Prop :=
  ∀ c parser validator, s.readers.get? c = some (.proto parser, validator) →
    validator.options = options

theorem Intake.Configured.set {options : ValidationOptions} {s : Intake T}
    (h : s.Configured options) {next : Serving}
    {data : Dict ℕ (List UInt8)} {c : ℕ} {reader : Reader T} {validator : Validator}
    (hoptions : ∀ parser, reader = .proto parser → validator.options = options) :
    Intake.Configured options ⟨next, data, s.readers.set c (reader, validator)⟩ := by
  intro c' parser' validator' hreader'
  dsimp only at hreader'
  rw [Dict.get?_set] at hreader'
  split at hreader'
  · cases hreader'
    exact hoptions parser' rfl
  · exact h c' parser' validator' hreader'

theorem Serving.fail_server (s : Serving) (c : ℕ) : (s.fail c).server = s.server := by
  unfold fail
  split <;> rfl

section Events

variable [DecidableEq T] {cfg : Config} {enable_message_conversion : Bool}
  {options : ValidationOptions} {s s' : Intake T}

/-- Behind the parsers there is the server. -/
theorem events_step {l : Traffic T}
    (hstep : intake cfg enable_message_conversion options s l = some s') :
    (server cfg).run s.serving.server (s.events l) = some s'.serving.server := by
  cases l with
  | opened config parsers peer time =>
      obtain ⟨reader, next, -, hnext, rfl⟩ := intake_opened hstep
      cases hnext
      rfl
  | read c timestamp data_bytes =>
      obtain ⟨next, hnext, rfl⟩ := Option.map_eq_some_iff.mp hstep
      obtain ⟨served, -, rfl⟩ := Option.map_eq_some_iff.mp hnext
      rfl
  | taken c decoded_timestamp generated_ulid raises =>
      obtain ⟨msg_data, reader, validator, hmsg, hcase⟩ := intake_taken hstep
      simp only [Intake.events, hmsg]
      rcases hcase with ⟨record, validator', next, hparsed, hnext, rfl⟩ | ⟨exc, hparsed, rfl⟩
      · rw [hparsed]
        obtain ⟨received, failed, r, -, -, -, hr, rfl⟩ := serving_handled hnext
        refine Machine.run_cons_eq_some.mpr ⟨r.state, ?_, rfl⟩
        rw [server, hr, Option.map_some]
      · rw [hparsed]
        exact congrArg some (s.serving.fail_server c).symm
  | closed c time reason =>
      obtain ⟨next, hnext, rfl⟩ := Option.map_eq_some_iff.mp hstep
      obtain ⟨-, hnext⟩ := Option.ite_none_right_eq_some.mp hnext
      obtain ⟨server', hclose, rfl⟩ := Option.map_eq_some_iff.mp hnext
      exact Machine.run_cons_eq_some.mpr ⟨server', hclose, rfl⟩

theorem events_run {traffic : List (Traffic T)}
    (hrun : (intake cfg enable_message_conversion options).run s traffic = some s') :
    (server cfg).run s.serving.server
      ((intake cfg enable_message_conversion options).outputs Intake.events s traffic) =
        some s'.serving.server := by
  induction traffic generalizing s with
  | nil =>
      cases hrun
      rfl
  | cons l traffic ih =>
      obtain ⟨t, ht, hrun⟩ := Machine.run_cons_eq_some.mp hrun
      rw [Machine.outputs_cons ht, Machine.run_append, events_step ht, Option.bind_some]
      exact ih hrun

theorem configured_step {l : Traffic T} (h : s.Configured options)
    (hstep : intake cfg enable_message_conversion options s l = some s') :
    s'.Configured options := by
  cases l with
  | opened config parsers peer time =>
      obtain ⟨reader, next, -, -, rfl⟩ := intake_opened hstep
      exact h.set fun _ _ ↦ rfl
  | read c timestamp data_bytes =>
      obtain ⟨next, -, rfl⟩ := Option.map_eq_some_iff.mp hstep
      exact h
  | taken c decoded_timestamp generated_ulid raises =>
      obtain ⟨msg_data, reader, validator, hmsg, hcase⟩ := intake_taken hstep
      obtain ⟨-, -, -, hreader⟩ := next_eq_some hmsg
      rcases hcase with ⟨record, validator', next, hparsed, -, rfl⟩ | ⟨exc, -, rfl⟩
      · refine h.set fun parser hproto ↦ ?_
        subst hproto
        exact (parse_proto_ok hparsed).2.1.trans (h c parser validator hreader)
      · exact h
  | closed c time reason =>
      obtain ⟨next, -, rfl⟩ := Option.map_eq_some_iff.mp hstep
      exact h

/-- A message without an error is vouched for if the valid ones are. -/
theorem vouched_events {arrivals : List (Arrival T)} {l : Traffic T} (hon : options.types ≠ [])
    (hconfigured : s.Configured options) (htraced : Traced s arrivals)
    (hvalid : ∀ a ∈ arrivals, a.Valid options → P a.number)
    (hstep : intake cfg enable_message_conversion options s l = some s') :
    ∀ e ∈ s.events l, e.Vouched P := by
  cases l with
  | opened config parsers peer time => exact fun e he ↦ List.mem_singleton.mp he ▸ trivial
  | read c timestamp data_bytes => exact fun e he ↦ absurd he List.not_mem_nil
  | taken c decoded_timestamp generated_ulid raises =>
      obtain ⟨msg_data, reader, validator, hmsg, hcase⟩ := intake_taken hstep
      obtain ⟨received, hserved, hdata, hreader⟩ := next_eq_some hmsg
      simp only [Intake.events, hmsg]
      rcases hcase with ⟨record, validator', next, hparsed, hnext, -⟩ | ⟨exc, hparsed, -⟩
      · rw [hparsed]
        intro e he
        rw [List.mem_singleton.mp he]
        intro herror
        obtain ⟨received', -, -, hserved', -⟩ := serving_handled hnext
        -- it is the message that is next in the channel
        have hreceived : record.received = msg_data.received := by
          rw [hserved, Option.some_inj, Served.mk.injEq, List.cons.injEq] at hserved'
          exact hserved'.1.1.symm
        obtain ⟨reader', V, hreader', hchannel⟩ := htraced.channels c _ hserved
        rw [hreader] at hreader'
        cases hreader'
        obtain ⟨a, ha, hnumber, hbytes, hsame⟩ := hchannel _ List.mem_cons_self
        rw [hdata, Option.some_inj] at hbytes
        rw [hreceived, ← hnumber]
        refine hvalid a ha fun parser hproto ↦ ?_
        obtain rfl : reader = .proto parser := hsame.symm.trans hproto
        obtain ⟨-, -, hfine⟩ := parse_proto_ok hparsed
        obtain ⟨m, hm, hm'⟩ := hfine herror
        have hoptions := hconfigured c parser validator hreader
        exact ⟨m, hbytes ▸ hm, hoptions ▸ hm' (hoptions ▸ hon)⟩
      · rw [hparsed]
        exact fun e he ↦ absurd he List.not_mem_nil
  | closed c time reason => exact fun e he ↦ List.mem_singleton.mp he ▸ trivial

theorem vouched_run {arrivals : List (Arrival T)} {traffic : List (Traffic T)}
    (hon : options.types ≠ []) (hs : s.serving.server.shared.Vouched P)
    (hconfigured : s.Configured options) (htraced : Traced s arrivals)
    (hvalid : ∀ a ∈ arrivals ++ (intake cfg enable_message_conversion options).outputs
      Intake.arrived s traffic, a.Valid options → P a.number)
    (hrun : (intake cfg enable_message_conversion options).run s traffic = some s') :
    AllVouched P ((intake cfg enable_message_conversion options).outputs (Intake.written cfg) s
      traffic) := by
  induction traffic generalizing s arrivals with
  | nil => exact fun _ hw ↦ absurd hw List.not_mem_nil
  | cons l traffic ih =>
      obtain ⟨t, ht, hrun⟩ := Machine.run_cons_eq_some.mp hrun
      rw [Machine.outputs_cons ht] at hvalid ⊢
      have hevents := vouched_events hon hconfigured htraced
        (fun a ha ↦ hvalid a (List.mem_append_left _ ha)) ht
      obtain ⟨hs', hwrites⟩ := vouched_server_run hs hevents (events_step ht)
      refine allVouched_append hwrites (ih hs' (configured_step hconfigured ht)
        (traced_step htraced ht) ?_ hrun)
      rwa [List.append_assoc]

/-- What goes through on protobuf connections is valid.  If some type of validation is performed,
then in every run, whatever the sockets bring and in whatever order the connections do their
work, each message that is written to a connection, whether it is forwarded or replayed, is one
that was read, under a number of its own.  If it was read on a protobuf connection, what was read
could be parsed, and there is no fault in it or in anything that is nested in it. -/
theorem written_valid {traffic : List (Traffic T)} (hon : options.types ≠ [])
    (hrun : (intake cfg enable_message_conversion options).run .start traffic = some s) :
    (((intake cfg enable_message_conversion options).outputs Intake.arrived .start traffic).map
        Arrival.number).Nodup ∧
      ∀ w ∈ (intake cfg enable_message_conversion options).outputs (Intake.written cfg) .start
          traffic, ∀ number ∈ w.content.number,
        ∃ a ∈ (intake cfg enable_message_conversion options).outputs Intake.arrived .start traffic,
          a.number = number ∧ a.Valid options := by
  have htraced := Machine.outputs_invariant (I := Traced)
    (fun _ _ _ _ h hstep ↦ traced_step h hstep) traced_start hrun
  refine ⟨htraced.nodup, vouched_run hon (fun _ _ hinfo ↦ nomatch hinfo)
    (fun _ _ _ hreader ↦ nomatch hreader) traced_start ?_ hrun⟩
  exact fun a ha hvalid ↦ ⟨a, ha, rfl, hvalid⟩

end Events

/-- A protobuf parser that knows two messages: a registration, and an alert with an unknown
field. -/
def twoMessages : Parser Sapient.MessageType where
  toLibrary := Validator.flexLibrary
  sapient_message := .SapientMessage
  sapient_version := .BSI_FLEX_335_V2_0
  ParseFromString data_bytes :=
    if data_bytes = [1] then
      .ok [("node_id", .str "edge"), ("registration", .msg [("short_name", .str "Edge")])]
    else .ok [("node_id", .str "edge"), ("alert", .msg [("99", .int 3)])]
  MessageToJson _ := ""
  SystemName _ := .error "ValueError"
  translate := none

/-- Whatever comes in XML is a registration. -/
def registering : Parsers Sapient.MessageType where
  protobuf := twoMessages
  bsi_flex_v1_to_xml _ := .ok "<SensorRegistration />"
  parse_xml msg_data validator :=
    .ok ({ twoMessages.blank msg_data with
      sapient_version := .VERSION6
      parsed := some ⟨some "legacy", none, 0, none⟩
      registration := some ⟨"Legacy"⟩ }, validator)

/-- A Child sends both messages, and another one sends XML, while a Peer listens. -/
def guarded : List (Traffic Sapient.MessageType) :=
  [.opened ⟨.Child, .PROTO, false⟩ registering "10.0.0.1:5000" 0,
    .opened ⟨.Peer, .PROTO, false⟩ registering "10.0.0.2:5000" 0,
    .opened ⟨.Child, .XML, false⟩ registering "10.0.0.3:5000" 0,
    .read 1 0 [1], .read 1 0 [2], .read 3 0 [60, 0], .taken 1 0 "" .nothing,
    .taken 1 0 "" .nothing, .taken 3 0 "" .nothing]

/-- Unknown fields are not let through. -/
def noUnknown : ValidationOptions := (Validator.strict.only [.NO_UNKNOWN_FIELDS]).options

theorem written_valid_guarded :
    ∃ s, (intake plain true noUnknown).run .start guarded = some s ∧
      ((intake plain true noUnknown).outputs (Intake.written plain) .start guarded).filterMap
        (·.content.number) = [1, 3] ∧
      ∀ w ∈ (intake plain true noUnknown).outputs (Intake.written plain) .start guarded,
        ∀ number ∈ w.content.number,
          ∃ a ∈ (intake plain true noUnknown).outputs Intake.arrived .start guarded,
            a.number = number ∧ a.Valid noUnknown := by
  obtain ⟨s, hs⟩ : ∃ s, (intake plain true noUnknown).run .start guarded = some s :=
    Option.isSome_iff_exists.mp (by decide +kernel)
  exact ⟨s, hs, by decide +kernel, (written_valid (by decide) hs).2⟩

/-! ## What the parsers make of the messages -/

/-- The records of the parser are of messages of one kind. -/
def Reader.Plain : Reader T → Prop
  | .proto parser => parser.OneContent
  | .xml parse_xml => ∀ msg_data validator record next,
      parse_xml msg_data validator = .ok (record, next) → OneKind record.toMessageRecord

/-- So are the records of the parser of every connection. -/
def Traffic.Plain : Traffic T → Prop
  | .opened _ parsers _ _ => Reader.Plain (.proto parsers.protobuf) ∧
      Reader.Plain (.xml parsers.parse_xml : Reader T)
  | _ => True

theorem plain_getParser {P : Parsers T} (hproto : Reader.Plain (.proto P.protobuf))
    (hxml : Reader.Plain (.xml P.parse_xml : Reader T)) {enable_message_conversion : Bool}
    {message_format : MessageFormat} {reader : Reader T}
    (h : getParser P enable_message_conversion message_format = .ok reader) : reader.Plain := by
  unfold getParser at h
  split at h
  · cases h
    exact hproto
  · split at h
    · cases h
      exact hproto
    · cases h
      exact hxml
    · cases h

section Plain

variable [DecidableEq T] {cfg : Config} {enable_message_conversion : Bool}
  {options : ValidationOptions} {s s' : Intake T}

theorem Reader.oneKind_parse {reader : Reader T} (h : reader.Plain) {msg_data : Incoming}
    {validator next : Validator} {record : Sqlite.StoredRecord}
    (hparsed : reader.parse msg_data validator = .ok (record, next)) :
    OneKind record.toMessageRecord := by
  cases reader with
  | proto parser => exact oneKind_parse_proto h hparsed
  | xml parse_xml => exact h _ _ _ _ hparsed

theorem plain_readers_step {l : Traffic T} (hl : l.Plain)
    (h : ∀ c reader, s.readers.get? c = some reader → reader.1.Plain)
    (hstep : intake cfg enable_message_conversion options s l = some s') :
    ∀ c reader, s'.readers.get? c = some reader → reader.1.Plain := by
  have hset : ∀ c (reader : Reader T × Validator), reader.1.Plain →
      ∀ c' reader', (s.readers.set c reader).get? c' = some reader' → reader'.1.Plain := by
    intro c reader hreader c' reader' hreader'
    rw [Dict.get?_set] at hreader'
    split at hreader'
    · cases hreader'
      exact hreader
    · exact h c' reader' hreader'
  cases l with
  | opened config parsers peer time =>
      obtain ⟨reader, next, hreader, -, rfl⟩ := intake_opened hstep
      exact hset _ _ (plain_getParser hl.1 hl.2 hreader)
  | read c timestamp data_bytes =>
      obtain ⟨next, -, rfl⟩ := Option.map_eq_some_iff.mp hstep
      exact h
  | taken c decoded_timestamp generated_ulid raises =>
      obtain ⟨msg_data, reader, validator, hmsg, hcase⟩ := intake_taken hstep
      obtain ⟨-, -, -, hreader⟩ := next_eq_some hmsg
      rcases hcase with ⟨record, validator', next, -, -, rfl⟩ | ⟨exc, -, rfl⟩
      · exact hset c (reader, _) (h c (reader, validator) hreader)
      · exact h
  | closed c time reason =>
      obtain ⟨next, -, rfl⟩ := Option.map_eq_some_iff.mp hstep
      exact h

theorem plain_events_step {l : Traffic T}
    (h : ∀ c reader, s.readers.get? c = some reader → reader.1.Plain) :
    ∀ e ∈ s.events l, e.Plain := by
  cases l with
  | opened config parsers peer time => exact fun e he ↦ List.mem_singleton.mp he ▸ trivial
  | read c timestamp data_bytes => exact fun e he ↦ absurd he List.not_mem_nil
  | taken c decoded_timestamp generated_ulid raises =>
      simp only [Intake.events]
      split
      · rename_i msg_data reader validator hmsg
        obtain ⟨-, -, -, hreader⟩ := next_eq_some hmsg
        split
        · rename_i record next hparsed
          exact fun e he ↦ List.mem_singleton.mp he ▸
            Reader.oneKind_parse (h c (reader, validator) hreader) hparsed
        · exact fun e he ↦ absurd he List.not_mem_nil
      · exact fun e he ↦ absurd he List.not_mem_nil
  | closed c time reason => exact fun e he ↦ List.mem_singleton.mp he ▸ trivial

theorem plain_events {traffic : List (Traffic T)} (hplain : ∀ l ∈ traffic, l.Plain)
    (hrun : (intake cfg enable_message_conversion options).run .start traffic = some s) :
    ∀ e ∈ (intake cfg enable_message_conversion options).outputs Intake.events .start traffic,
      e.Plain := by
  have hinv : (∀ c reader, s.readers.get? c = some reader → reader.1.Plain) ∧
      ∀ e ∈ [] ++ (intake cfg enable_message_conversion options).outputs Intake.events .start
        traffic, e.Plain := by
    refine Machine.outputs_invariant_of_forall
      (I := fun s events ↦ (∀ c reader, s.readers.get? c = some reader → reader.1.Plain) ∧
        ∀ e ∈ events, Event.Plain e) (P := Traffic.Plain)
      (fun s l s' events hI hl hstep ↦ ?_) hplain ⟨?_, fun _ he ↦ absurd he List.not_mem_nil⟩ hrun
    · refine ⟨plain_readers_step hl hI.1 hstep, fun e he ↦ ?_⟩
      exact (List.mem_append.mp he).elim (hI.2 e) (plain_events_step hI.1 e)
    · exact fun _ _ hreader ↦ absurd hreader (Option.some_ne_none _).symm
  exact hinv.2

/-- What a late connection is told, behind the parsers: if those of XML make messages of one kind,
and those of protobuf read one content at most, nothing else is asked of the run. -/
theorem greeting_latest_parsed {traffic : List (Traffic T)} (hplain : ∀ l ∈ traffic, l.Plain)
    (hrun : (intake cfg enable_message_conversion options).run .start traffic = some s)
    {config : ConnectionConfig}
    (hconfig : config.type = .Peer ∨ config.type = .Parent ∧ config.forwardAll = true) :
    let events :=
      (intake cfg enable_message_conversion options).outputs Intake.events .start traffic
    ∃ nodes : List (String × ℕ), (nodes.map Prod.fst).Nodup ∧
      (∀ node_id c, (node_id, c) ∈ nodes ↔
        Owns (OpenChild s.serving.server) ((server cfg).outputs taken .init events) node_id c) ∧
      writes cfg s.serving.server (.opened config) = nodes.flatMap fun node ↦
        (Latest.among (enteredFrom node.2
          ((server cfg).outputs (entered cfg) .init events))).writes
            (s.serving.server.previous_connection_id + 1) :=
  greeting_latest (events_run hrun) (plain_events hplain hrun) hconfig

end Plain

end Apex

end SensorFusion
