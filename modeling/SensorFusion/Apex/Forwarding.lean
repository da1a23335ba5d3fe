import SensorFusion.Apex.Routing

/-!
# Which messages are forwarded

A message of a Child or of a Peer passes a number of checks, and then it is written to other
connections.  Up to there nothing is forwarded: a check that it does not pass leaves no trace
at the others.  So a message is forwarded to all that it is for, or to none.
-/

namespace SensorFusion

namespace Apex

/-- A message is forwarded; the rest is written by the middleware itself. -/
def Write.isMessage (w : Write) : Bool :=
  match w.content with
  | .message _ _ _ => true
  | _ => false

/-- What is forwarded of the writes. -/
def forwards (writes : List Write) : List Write := writes.filter Write.isMessage

theorem forwards_append (a b : List Write) : forwards (a ++ b) = forwards a ++ forwards b :=
  List.filter_append ..

theorem forwards_map_to (msg : MessageRecord) (writers : List Writer) :
    forwards (writers.map msg.to) = writers.map msg.to := by
  refine List.filter_eq_self.mpr fun w hw ↦ ?_
  obtain ⟨writer, -, rfl⟩ := List.mem_map.mp hw
  rfl

/-- The writers that a message may be written to in a loop. -/
def SharedData.lists (shared : SharedData) : List Writer × List ParentWriter × List ParentWriter :=
  (shared.dmm_writers, shared.parent_all_writers, shared.parent_high_level_writers)

/-- The node that a message names as its source. -/
def MessageRecord.node_id (msg : MessageRecord) : Option String :=
  msg.parsed.bind ParsedRecord.node_id

theorem Handling.node_id_apply_timestamp_offset {κ : Type} (cfg : Config) (offset : ℤ)
    (h : Handling κ) : (h.apply_timestamp_offset cfg offset).msg.node_id = h.msg.node_id := by
  unfold apply_timestamp_offset
  split
  · unfold MessageRecord.node_id
    dsimp only
    cases h.msg.parsed <;> rfl
  · rfl

/-! ## Parts of a handler that forward nothing -/

/-- Nothing is forwarded; what is written goes to the connection itself. -/
structure Silent {κ : Type} (own : κ → Writer) (h h' : Handling κ) : Prop where
  forwards : forwards h'.writes = forwards h.writes
  count : h'.msg.forwarded_count = h.msg.forwarded_count
  writer : own h'.self = own h.self
  lists : h'.shared.lists = h.shared.lists
  node_id : h'.msg.node_id = h.msg.node_id
  received : h'.msg.received = h.msg.received
  replies : ∀ w ∈ h'.writes, w.isMessage = false → w ∈ h.writes ∨ w.writer = own h.self

namespace Silent

variable {κ : Type} {own : κ → Writer} {h h₁ h₂ : Handling κ}

/-- Nothing is written. -/
theorem quiet (hwrites : h₁.writes = h.writes)
    (hcount : h₁.msg.forwarded_count = h.msg.forwarded_count) (hwriter : own h₁.self = own h.self)
    (hlists : h₁.shared.lists = h.shared.lists) (hnode : h₁.msg.node_id = h.msg.node_id)
    (hreceived : h₁.msg.received = h.msg.received) : Silent own h h₁ where
  forwards := by rw [hwrites]
  count := hcount
  writer := hwriter
  lists := hlists
  node_id := hnode
  received := hreceived
  replies _ hw _ := Or.inl (hwrites ▸ hw)

theorem refl (h : Handling κ) : Silent own h h := quiet rfl rfl rfl rfl rfl rfl

theorem trans (h₀₁ : Silent own h h₁) (h₁₂ : Silent own h₁ h₂) : Silent own h h₂ where
  forwards := h₁₂.forwards.trans h₀₁.forwards
  count := h₁₂.count.trans h₀₁.count
  writer := h₁₂.writer.trans h₀₁.writer
  lists := h₁₂.lists.trans h₀₁.lists
  node_id := h₁₂.node_id.trans h₀₁.node_id
  received := h₁₂.received.trans h₀₁.received
  replies w hw hmessage := by
    rcases h₁₂.replies w hw hmessage with hw | hw
    · exact h₀₁.replies w hw hmessage
    · exact Or.inr (hw.trans h₀₁.writer)

theorem fail (severity : ErrorSeverity) (description : String) :
    Silent own h (h.fail severity description) := quiet rfl rfl rfl rfl rfl rfl

theorem raise (text : String) : Silent own h (h.raise text) := quiet rfl rfl rfl rfl rfl rfl

/-- The middleware answers. -/
theorem reply {w : Write} (hmessage : w.isMessage = false) (hw : w.writer = own h.self) :
    Silent own h (h.write w) where
  forwards := by
    rw [Handling.write, forwards_append, Apex.forwards, Apex.forwards, List.filter_cons_of_neg
      (by rw [hmessage]; exact Bool.false_ne_true), List.filter_nil, List.append_nil]
  count := rfl
  writer := rfl
  lists := rfl
  node_id := rfl
  received := rfl
  replies w' hw' _ := by
    rcases List.mem_append.mp hw' with hw' | hw'
    · exact Or.inl hw'
    · rw [List.mem_singleton.mp hw']
      exact Or.inr hw

theorem andThen {next : Handling κ → Handling κ} (hnext : Silent own h (next h)) :
    Silent own h (h.andThen next) := by
  unfold Handling.andThen
  split
  · exact refl h
  · exact hnext

theorem call {raises : Option String} {next : Handling κ → Handling κ}
    (hnext : Silent own h (next h)) : Silent own h (h.call raises next) := by
  cases raises with
  | some text => exact raise text
  | none => exact hnext

theorem apply_timestamp_offset (cfg : Config) (offset : ℤ) :
    Silent own h (h.apply_timestamp_offset cfg offset) := by
  refine quiet ?_ ?_ ?_ ?_ (h.node_id_apply_timestamp_offset cfg offset) ?_ <;>
  · unfold Handling.apply_timestamp_offset
    split <;> rfl

theorem send_error_reply {writer : Writer} (hwriter : writer = own h.self)
    (destination_id : Option String) :
    Silent own h (h.send_error_reply_if_necessary writer destination_id) := by
  unfold Handling.send_error_reply_if_necessary
  split
  · exact reply rfl hwriter
  · exact refl h

theorem catchAll : Silent own h h.catchAll := by
  unfold Handling.catchAll
  split
  · exact quiet rfl rfl rfl rfl rfl rfl
  · exact refl h

end Silent

namespace ChildConnection

variable {h : Handling ChildConnection}

theorem silent_filter_detection (cfg : Config) : Silent writer h (filter_detection cfg h) := by
  unfold filter_detection
  split
  · split
    · exact .refl h
    · exact .fail _ _
  · exact .refl h

theorem silent_acknowledge (cfg : Config) (raises : Raises) :
    Silent writer h (acknowledge cfg raises h) := by
  unfold acknowledge
  split
  · exact .call (.reply rfl rfl)
  · exact .refl h

theorem silent_updateInfo (f : SensorInfo → SensorInfo) : Silent writer h (updateInfo f h) := by
  unfold updateInfo
  split
  · exact .refl h
  · split
    · exact .refl h
    · exact .quiet rfl rfl rfl rfl rfl rfl

theorem silent_check_owner (cfg : Config) (raises : Raises) :
    Silent writer h (check_owner cfg raises h) := by
  unfold check_owner
  split
  · exact .raise _
  · split
    · exact .fail _ _
    · dsimp only
      split
      · exact .fail _ _
      · exact .call (.apply_timestamp_offset cfg _)

theorem silent_reregister (cfg : Config) (raises : Raises) :
    Silent writer h (reregister cfg raises h) := by
  unfold reregister
  split
  · exact .refl h
  · refine Silent.trans ?_ (silent_acknowledge cfg raises)
    refine Silent.trans ?_ (silent_updateInfo _)
    exact .quiet rfl rfl rfl rfl rfl rfl

theorem silent_handle_status_report : Silent writer h (handle_status_report h) := by
  unfold handle_status_report
  split
  · exact .refl h
  · split
    · split
      · exact .fail _ _
      · split
        · exact .fail _ _
        · exact silent_updateInfo _
    · refine Silent.trans ?_ (silent_updateInfo _)
      exact .quiet rfl rfl rfl rfl rfl rfl

theorem forward_eq (h : Handling ChildConnection) :
    forward h = { h with
      msg := { h.msg with forwarded_count := h.shared.dmm_writers.length }
      writes := h.writes ++ h.shared.dmm_writers.map h.msg.to } := by
  rw [forward, Handling.writeEach_eq]
  rfl

theorem acknowledge_msg (cfg : Config) (raises : Raises) :
    (acknowledge cfg raises h).msg = h.msg := by
  unfold acknowledge
  split
  · cases raises.registration_ack <;> rfl
  · rfl

/-- The node that the message names is registered with the connection that it came in on. -/
def Claims (h : Handling ChildConnection) : Prop :=
  ∃ node_id, h.msg.node_id = some node_id ∧ h.shared.registrant node_id = some h.self.writer

theorem Claims.of_silent {h₁ : Handling ChildConnection} (hclaims : Claims h)
    (hsilent : Silent writer h h₁)
    (hroutes : ∀ node_id, h₁.shared.registrant node_id = h.shared.registrant node_id) :
    Claims h₁ := by
  obtain ⟨node_id, hnode, hreg⟩ := hclaims
  exact ⟨node_id, hsilent.node_id.trans hnode, by rw [hroutes, hreg, hsilent.writer]⟩

/-- Only the owner of the node id gets past `check_owner`. -/
theorem claims_check_owner (cfg : Config) (raises : Raises)
    (herror : (check_owner cfg raises h).msg.error = none)
    (hraised : (check_owner cfg raises h).raised = none) : Claims (check_owner cfg raises h) := by
  have hroutes : ∀ node_id, (check_owner cfg raises h).shared.registrant node_id =
      h.shared.registrant node_id := (keeps_check_owner cfg raises).routes.registrant
  refine Claims.of_silent ?_ (silent_check_owner cfg raises) hroutes
  unfold check_owner at herror hraised
  split at herror
  · rename_i hparsed
    rw [hparsed] at hraised
    cases hraised
  · rename_i parsed hparsed
    split at herror
    · cases herror
    · rename_i hnode
      dsimp only at herror
      split at herror
      · cases herror
      · rename_i howner
        obtain ⟨info, hinfo, hwriter⟩ := Option.map_eq_some_iff.mp (not_not.mp howner)
        obtain ⟨node_id, hself, hget⟩ := Option.bind_eq_some_iff.mp hinfo
        refine ⟨node_id, ?_, ?_⟩
        · rw [MessageRecord.node_id, hparsed]
          exact (not_not.mp hnode).trans hself
        · rw [SharedData.registrant, hget]
          exact congrArg some hwriter

/-- What a Child's message does before it goes to the Parents: it is stopped, or it has been
written to the Peers. -/
inductive Passed (h h' : Handling ChildConnection) : Prop
  | stopped (hsilent : Silent writer h h') (hstopped : h'.msg.error.isSome ∨ h'.raised.isSome)
  | forwarded {h₁ : Handling ChildConnection} (hsilent : Silent writer h h₁)
      (hthen : Silent writer (forward h₁) h') (hmsg : h'.msg = (forward h₁).msg)
      (herror : h'.msg.error = none) (hclaims : Claims h')

theorem Passed.acknowledge {h₁ : Handling ChildConnection} (cfg : Config) (raises : Raises)
    (hsilent : Silent writer h h₁) (herror : h₁.msg.error = none) (hclaims : Claims h₁) :
    Passed h (acknowledge cfg raises (forward h₁)) := by
  have hforwarded : Claims (forward h₁) := by
    rw [forward_eq]
    exact hclaims
  refine .forwarded hsilent (silent_acknowledge cfg raises) (acknowledge_msg cfg raises) ?_
    (hforwarded.of_silent (silent_acknowledge cfg raises)
      (keeps_acknowledge cfg raises).routes.registrant)
  rw [acknowledge_msg, forward_eq]
  exact herror

theorem passed_handle_registration (cfg : Config) (raises : Raises) :
    Passed h (handle_registration cfg raises h) := by
  unfold handle_registration
  split
  · rename_i herror
    exact .stopped (.refl h) (Or.inl herror)
  · rename_i herror
    split
    · exact .stopped (.fail _ _) (Or.inl rfl)
    · split
      · exact .stopped (.raise _) (Or.inr rfl)
      · rename_i parsed hparsed
        split
        · exact .stopped (.fail _ _) (Or.inl rfl)
        · rename_i node_id hnode
          dsimp only
          have hself : ∀ offset : Option ℤ, Silent writer h
              { h with self := { h.self with time_offset := offset } } :=
            fun _ ↦ .quiet rfl rfl rfl rfl rfl rfl
          cases raises.timestamp with
          | some text => exact .stopped ((hself _).trans (.raise text)) (Or.inr rfl)
          | none =>
              have hadjusted : ∀ offset : ℤ, Silent writer h
                  (Handling.apply_timestamp_offset cfg offset
                    { h with self := { h.self with time_offset := some offset } }) :=
                fun offset ↦ (hself _).trans (.apply_timestamp_offset cfg offset)
              cases raises.sensor_id with
              | some text => exact .stopped ((hadjusted _).trans (.raise text)) (Or.inr rfl)
              | none =>
                  show Passed h (ChildConnection.acknowledge cfg raises (forward
                    (register node_id _ (Handling.apply_timestamp_offset cfg _ _))))
                  refine .acknowledge cfg raises
                    ((hadjusted _).trans (.quiet rfl rfl rfl rfl rfl rfl)) ?_ ⟨node_id, ?_, ?_⟩
                  · rw [Option.not_isSome_iff_eq_none] at herror
                    unfold register Handling.apply_timestamp_offset
                    split <;> exact herror
                  · refine (Handling.node_id_apply_timestamp_offset cfg _ _).trans ?_
                    rw [MessageRecord.node_id, hparsed]
                    exact hnode
                  · rw [(registers_register node_id _).registrant, if_pos rfl]
                    rfl

/-- What has stopped stays stopped. -/
theorem andThen_fine {next : Handling ChildConnection → Handling ChildConnection}
    (herror : (h.andThen next).msg.error = none) (hraised : (h.andThen next).raised = none) :
    h.msg.error = none ∧ h.raised = none ∧ h.andThen next = next h := by
  unfold Handling.andThen at herror hraised ⊢
  split at herror
  · rename_i hstopped
    rw [if_pos hstopped] at hraised
    rw [herror, hraised] at hstopped
    exact absurd hstopped (by simp)
  · rename_i hnot
    rw [not_or, Option.not_isSome_iff_eq_none, Option.not_isSome_iff_eq_none] at hnot
    exact ⟨hnot.1, hnot.2, if_neg (by rw [hnot.1, hnot.2]; simp)⟩

/-- What is done before a message is forwarded. -/
def checked (cfg : Config) (raises : Raises) (h : Handling ChildConnection) :
    Handling ChildConnection :=
  h.andThen (check_owner cfg raises)
    |>.andThen (reregister cfg raises)
    |>.andThen handle_status_report
    |>.andThen (filter_detection cfg)

theorem silent_checked (cfg : Config) (raises : Raises) :
    Silent writer h (checked cfg raises h) := by
  refine Silent.trans ?_ (.andThen (silent_filter_detection cfg))
  refine Silent.trans ?_ (.andThen silent_handle_status_report)
  refine Silent.trans ?_ (.andThen (silent_reregister cfg raises))
  exact .andThen (silent_check_owner cfg raises)

theorem claims_checked (cfg : Config) (raises : Raises) (hreg : h.self.registration ≠ none)
    (herror : (checked cfg raises h).msg.error = none)
    (hraised : (checked cfg raises h).raised = none) : Claims (checked cfg raises h) := by
  unfold checked at herror hraised ⊢
  obtain ⟨herror₃, hraised₃, hfilter⟩ := andThen_fine herror hraised
  obtain ⟨herror₂, hraised₂, hstatus⟩ := andThen_fine herror₃ hraised₃
  obtain ⟨herror₁, hraised₁, hagain⟩ := andThen_fine herror₂ hraised₂
  obtain ⟨-, -, hcheck⟩ := andThen_fine herror₁ hraised₁
  rw [hfilter, hstatus, hagain, hcheck]
  rw [hcheck] at herror₁ hraised₁
  have hreg' : (check_owner cfg raises h).self.registration ≠ none := by
    have hstanding := (@keeps_check_owner h cfg raises).standing
    rw [standing, standing, Standing.child.injEq] at hstanding
    rw [← Option.isSome_iff_ne_none] at hreg ⊢
    exact hstanding.2.2.trans hreg
  have howner := claims_check_owner cfg raises herror₁ hraised₁
  have hregister := howner.of_silent (silent_reregister cfg raises)
    (keeps_reregister cfg raises hreg').routes.registrant
  have hreport := hregister.of_silent silent_handle_status_report
    keeps_handle_status_report.routes.registrant
  exact hreport.of_silent (silent_filter_detection cfg)
    (keeps_filter_detection cfg).routes.registrant

theorem passed_handle_other (cfg : Config) (raises : Raises) (hreg : h.self.registration ≠ none) :
    Passed h (handle_other cfg raises h) := by
  show Passed h ((checked cfg raises h).andThen forward)
  by_cases hfine : (checked cfg raises h).msg.error = none ∧ (checked cfg raises h).raised = none
  · obtain ⟨herror, hraised⟩ := hfine
    have hnot : ¬ ((checked cfg raises h).msg.error.isSome ∨
        (checked cfg raises h).raised.isSome) := by
      rw [herror, hraised]
      simp
    rw [Handling.andThen, if_neg hnot]
    refine .forwarded (silent_checked cfg raises) (.refl _) rfl ?_ ?_
    · rw [forward_eq]
      exact herror
    · rw [forward_eq]
      exact claims_checked cfg raises hreg herror hraised
  · have hstopped : (checked cfg raises h).msg.error.isSome ∨
        (checked cfg raises h).raised.isSome := by
      rw [not_and_or] at hfine
      exact hfine.imp Option.isSome_iff_ne_none.mpr Option.isSome_iff_ne_none.mpr
    rw [Handling.andThen, if_pos hstopped]
    exact .stopped (silent_checked cfg raises) hstopped

end ChildConnection

/-! ## All or nothing -/

/-- What becomes of a message that is for the connections `targets`. -/
inductive Fate {κ : Type} (targets : List Writer) (h' : Handling κ) : Prop
  | delivered (herror : h'.msg.error = none)
      (hforwards : forwards h'.writes = targets.map h'.msg.to)
  | dropped (herror : h'.msg.error.isSome) (hforwards : forwards h'.writes = [])
  /-- An exception comes after a part of it has been done. -/
  | broken {reached : List Writer} (hreached : reached <+: targets)
      (herror : h'.msg.error.map ErrorRecord.severity = some .FATAL)
      (hforwards : forwards h'.writes = reached.map h'.msg.to)

theorem Fate.congr {κ : Type} {targets : List Writer} {h₁ h₂ : Handling κ}
    (hfate : Fate targets h₁) (hforwards : forwards h₂.writes = forwards h₁.writes)
    (hmsg : h₂.msg = h₁.msg) : Fate targets h₂ := by
  cases hfate with
  | delivered herror h => exact .delivered (hmsg ▸ herror) (by rw [hforwards, hmsg, h])
  | dropped herror h => exact .dropped (hmsg ▸ herror) (hforwards.trans h)
  | broken hreached herror h =>
      exact .broken hreached (hmsg ▸ herror) (by rw [hforwards, hmsg, h])

theorem Handling.send_error_reply_msg {κ : Type} (h : Handling κ) (writer : Writer)
    (destination_id : Option String) :
    (h.send_error_reply_if_necessary writer destination_id).msg = h.msg := by
  unfold send_error_reply_if_necessary
  split <;> rfl

/-- How the handling of a message ends: what is forwarded is counted, and what else is
written is for the connection itself. -/
structure Settled {κ : Type} (own : κ → Writer) (targets : List Writer) (h h' : Handling κ) :
    Prop where
  fate : Fate targets h'
  count : h'.msg.forwarded_count = (forwards h'.writes).length
  writer : own h'.self = own h.self
  received : h'.msg.received = h.msg.received
  replies : ∀ w ∈ h'.writes, w.isMessage = false → w.writer = own h.self

/-- The reply is the last thing. -/
theorem Settled.reply {κ : Type} {own : κ → Writer} {targets : List Writer} {h h₁ : Handling κ}
    (hsettled : Settled own targets h h₁) {writer : Writer} (hwriter : writer = own h₁.self)
    (destination_id : Option String) :
    Settled own targets h (h₁.send_error_reply_if_necessary writer destination_id) := by
  have hsilent : Silent own h₁ (h₁.send_error_reply_if_necessary writer destination_id) :=
    .send_error_reply hwriter destination_id
  refine ⟨hsettled.fate.congr hsilent.forwards (h₁.send_error_reply_msg _ _), ?_,
    hsilent.writer.trans hsettled.writer, hsilent.received.trans hsettled.received,
    fun w hw hmessage ↦ ?_⟩
  · rw [hsilent.count, hsilent.forwards, hsettled.count]
  · rcases hsilent.replies w hw hmessage with hw | hw
    · exact hsettled.replies w hw hmessage
    · exact hw.trans hsettled.writer

/-- Nothing was forwarded, and there is an error or an exception. -/
theorem Settled.of_stopped {κ : Type} {own : κ → Writer} {targets : List Writer}
    {h h₁ : Handling κ} (hwrites : h.writes = []) (hcount : h.msg.forwarded_count = 0)
    (hsilent : Silent own h h₁) (hstopped : h₁.msg.error.isSome ∨ h₁.raised.isSome) :
    Settled own targets h h₁.catchAll := by
  have hcaught : Silent own h h₁.catchAll := hsilent.trans .catchAll
  have hnothing : forwards h₁.catchAll.writes = [] := by
    rw [hcaught.forwards, hwrites]
    rfl
  refine ⟨.dropped ?_ hnothing, ?_, hcaught.writer, hcaught.received, fun w hw hmessage ↦ ?_⟩
  · unfold Handling.catchAll
    split
    · rfl
    · rename_i hraised
      rw [hraised] at hstopped
      exact hstopped.resolve_right Bool.false_ne_true
  · rw [hcaught.count, hcount, hnothing]
    rfl
  · refine (hcaught.replies w hw hmessage).resolve_left ?_
    rw [hwrites]
    exact List.not_mem_nil

/-- The Parents that a message is for. -/
def SharedData.parents (shared : SharedData) (high_level : Bool) : List Writer :=
  (shared.parent_all_writers ++
    if high_level then shared.parent_high_level_writers else []).map ParentWriter.writer

theorem SharedData.parents_congr {a b : SharedData} (h : b.lists = a.lists) (high_level : Bool) :
    b.parents high_level = a.parents high_level := by
  obtain ⟨-, hall, hhigh⟩ : _ ∧ _ ∧ _ := by
    simpa only [SharedData.lists, Prod.mk.injEq] using h
  rw [parents, hall, hhigh]
  rfl

/-- The message is written to all Parents that it is for, if it has no error. -/
theorem Handling.send_to_parent_all {κ : Type} {h : Handling κ} (herror : h.msg.error = none)
    (high_level : Bool) :
    h.send_to_parent high_level none = h.deliver (h.shared.parents high_level) := by
  unfold send_to_parent
  rw [if_neg (by rw [herror]; exact Bool.false_ne_true), foldl_send_eq,
    List.filter_eq_self.mpr fun _ _ ↦ decide_eq_true (Option.some_ne_none _)]
  rfl

namespace ChildConnection

variable {h : Handling ChildConnection}

/-- What there is when the message has been written to the Peers. -/
theorem Passed.peers {h₁ h₂ : Handling ChildConnection} (hwrites : h.writes = [])
    (hsilent : Silent writer h h₁) (hthen : Silent writer (forward h₁) h₂)
    (hmsg : h₂.msg = (forward h₁).msg) :
    forwards h₂.writes = h.shared.dmm_writers.map h₂.msg.to ∧
      h₂.msg.forwarded_count = h.shared.dmm_writers.length ∧ h₂.self.writer = h.self.writer ∧
      h₂.shared.lists = h.shared.lists ∧
      ∀ w ∈ h₂.writes, w.isMessage = false → w.writer = h.self.writer := by
  have hpeers : h₁.shared.dmm_writers = h.shared.dmm_writers := congrArg Prod.fst hsilent.lists
  have hnothing : forwards h₁.writes = [] := by
    rw [hsilent.forwards, hwrites]
    rfl
  have hto : h₂.msg.to = h₁.msg.to := by
    rw [hmsg, forward_eq]
    rfl
  rw [forward_eq] at hthen hmsg
  refine ⟨?_, ?_, hthen.writer.trans hsilent.writer, hthen.lists.trans hsilent.lists, ?_⟩
  · rw [hthen.forwards, forwards_append, hnothing, forwards_map_to, hto, hpeers, List.nil_append]
  · rw [hmsg, ← hpeers]
  · intro w hw hmessage
    rcases hthen.replies w hw hmessage with hw | hw
    · rcases List.mem_append.mp hw with hw | hw
      · refine (hsilent.replies w hw hmessage).resolve_left ?_
        rw [hwrites]
        exact List.not_mem_nil
      · obtain ⟨c, -, rfl⟩ := List.mem_map.mp hw
        exact absurd hmessage.symm Bool.false_ne_true
    · exact hw.trans hsilent.writer

/-- What `handle_message` does at last. -/
def finish (h : Handling ChildConnection) : Handling ChildConnection :=
  let h := if h.raised = none then h.send_to_parent false none else h
  h.catchAll.send_error_reply_if_necessary h.catchAll.self.writer h.catchAll.self.node_id

theorem handle_message_cases (cfg : Config) (raises : Raises) :
    ∃ h₁, handle_message cfg raises h = finish h₁ ∧ Passed h h₁ := by
  refine ⟨if h.self.registration = none then handle_registration cfg raises h
    else handle_other cfg raises h, rfl, ?_⟩
  split
  · exact passed_handle_registration cfg raises
  · rename_i hreg
    exact passed_handle_other cfg raises hreg

variable {h₁ : Handling ChildConnection}

theorem finish_of_stopped (hstopped : h₁.msg.error.isSome ∨ h₁.raised.isSome) :
    finish h₁ = h₁.catchAll.send_error_reply_if_necessary h₁.catchAll.self.writer
      h₁.catchAll.self.node_id := by
  have hsame : (if h₁.raised = none then h₁.send_to_parent false none else h₁) = h₁ := by
    split
    · rename_i hraised
      rw [hraised] at hstopped
      unfold Handling.send_to_parent
      exact if_pos (hstopped.resolve_right Bool.false_ne_true)
    · rfl
  rw [finish, hsame]

/-- An acknowledgement has raised. -/
theorem finish_of_raised {text : String} (hraised : h₁.raised = some text) :
    finish h₁ = ({ h₁.fail .FATAL text with raised := none } : Handling _) := by
  rw [finish_of_stopped (Or.inr (by rw [hraised]; rfl)), Handling.catchAll, hraised]
  rfl

theorem finish_of_fine (herror : h₁.msg.error = none) (hraised : h₁.raised = none) :
    finish h₁ = h₁.deliver (h₁.shared.parents false) := by
  have hcaught : (h₁.deliver (h₁.shared.parents false)).catchAll =
      h₁.deliver (h₁.shared.parents false) := by
    have hsame : (h₁.deliver (h₁.shared.parents false)).raised = none := hraised
    rw [Handling.catchAll, hsame]
  have hreply : (h₁.deliver (h₁.shared.parents false)).msg.error = none := herror
  rw [finish, if_pos hraised, Handling.send_to_parent_all herror, hcaught,
    Handling.send_error_reply_if_necessary, hreply]

theorem settled_handle_message (cfg : Config) (raises : Raises) (hwrites : h.writes = [])
    (hcount : h.msg.forwarded_count = 0) :
    Settled writer (h.shared.dmm_writers ++ h.shared.parents false) h
      (handle_message cfg raises h) := by
  obtain ⟨h₁, hfinish, hpassed⟩ := @handle_message_cases h cfg raises
  rw [hfinish]
  cases hpassed with
  | stopped hsilent hstopped =>
      rw [finish_of_stopped hstopped]
      exact (Settled.of_stopped hwrites hcount hsilent hstopped).reply rfl _
  | forwarded hsilent hthen hmsg herror hclaims =>
      obtain ⟨hforwards, hcount', hwriter, hlists, hreplies⟩ :=
        Passed.peers hwrites hsilent hthen hmsg
      have hreceived : h₁.msg.received = h.msg.received := by
        rw [hmsg, forward_eq]
        exact hsilent.received
      cases hraised : h₁.raised with
      | some text =>
          rw [finish_of_raised hraised]
          refine ⟨.broken (List.prefix_append _ _) rfl hforwards, ?_, hwriter, hreceived, hreplies⟩
          have hlength := congrArg List.length hforwards
          rw [List.length_map, ← hcount'] at hlength
          exact hlength.symm
      | none =>
          rw [finish_of_fine herror hraised, SharedData.parents_congr hlists]
          have hall : forwards (h₁.deliver (h.shared.parents false)).writes =
              (h.shared.dmm_writers ++ h.shared.parents false).map h₁.msg.to := by
            rw [Handling.deliver, forwards_append, forwards_map_to, hforwards, List.map_append]
          refine ⟨.delivered herror hall, ?_, hwriter, hreceived, fun w hw hmessage ↦ ?_⟩
          · rw [hall, List.length_map, List.length_append, ← hcount']
            rfl
          · rcases List.mem_append.mp hw with hw | hw
            · exact hreplies w hw hmessage
            · obtain ⟨c, -, rfl⟩ := List.mem_map.mp hw
              exact absurd hmessage.symm Bool.false_ne_true

/-- A Child's message is forwarded only if the node that it names is registered with the
Child. -/
theorem claims_handle_message (cfg : Config) (raises : Raises) (hwrites : h.writes = [])
    (hforwards : forwards (handle_message cfg raises h).writes ≠ []) :
    Claims (handle_message cfg raises h) := by
  obtain ⟨h₁, hfinish, hpassed⟩ := @handle_message_cases h cfg raises
  rw [hfinish] at hforwards ⊢
  cases hpassed with
  | stopped hsilent hstopped =>
      refine absurd ?_ hforwards
      rw [finish_of_stopped hstopped]
      have hreply : Silent writer h₁.catchAll (h₁.catchAll.send_error_reply_if_necessary
          h₁.catchAll.self.writer h₁.catchAll.self.node_id) := .send_error_reply rfl _
      rw [hreply.forwards, (hsilent.trans .catchAll).forwards, hwrites]
      rfl
  | forwarded hsilent hthen hmsg herror hclaims =>
      cases hraised : h₁.raised with
      | some text =>
          rw [finish_of_raised hraised]
          exact hclaims
      | none =>
          rw [finish_of_fine herror hraised]
          exact hclaims

end ChildConnection

namespace PeerConnection

variable {h : Handling PeerConnection}

/-- The connections that a message of a Peer is for. -/
def targets (shared : SharedData) : Option String → List Writer
  | none => shared.parents true
  | some destination =>
      match shared.registered_sensors.get? destination with
      | none => []
      | some node_connection => node_connection.writer :: shared.parents false

/-- Nothing is forwarded, and neither the shared data nor what was parsed changes. -/
structure Before (h h' : Handling PeerConnection) : Prop where
  silent : Silent writer h h'
  shared : h'.shared = h.shared
  parsed : h'.msg.parsed = h.msg.parsed

theorem Before.refl (h : Handling PeerConnection) : Before h h := ⟨.refl h, rfl, rfl⟩

theorem Before.andThen {h₁ : Handling PeerConnection}
    {next : Handling PeerConnection → Handling PeerConnection} (h₀₁ : Before h h₁)
    (hnext : Before h₁ (next h₁)) : Before h (h₁.andThen next) := by
  unfold Handling.andThen
  split
  · exact h₀₁
  · exact ⟨h₀₁.silent.trans hnext.silent, hnext.shared.trans h₀₁.shared,
      hnext.parsed.trans h₀₁.parsed⟩

theorem before_handle_registration (cfg : Config) (raises : Raises) :
    Before h (handle_registration cfg raises h) := by
  unfold handle_registration
  split
  · exact .refl h
  · split
    · exact ⟨.fail _ _, rfl, rfl⟩
    · split
      · exact ⟨.raise _, rfl, rfl⟩
      · split
        · exact ⟨.fail _ _, rfl, rfl⟩
        · split
          · exact ⟨.fail _ _, rfl, rfl⟩
          · cases raises.registration_ack with
            | some text => exact ⟨.quiet rfl rfl rfl rfl rfl rfl, rfl, rfl⟩
            | none =>
                refine ⟨Silent.trans ?_ (.reply rfl rfl), rfl, rfl⟩
                exact .quiet rfl rfl rfl rfl rfl rfl

theorem before_check_source : Before h (check_source h) := by
  unfold check_source
  split
  · exact .refl h
  · exact ⟨.raise _, rfl, rfl⟩
  · split
    · exact ⟨.fail _ _, rfl, rfl⟩
    · exact .refl h

/-- The message is written to the destination, and to Parents. -/
theorem settled_deliver {h₁ : Handling PeerConnection} {writers : List Writer}
    (hwrites : h.writes = []) (hcount : h.msg.forwarded_count = 0) (hsilent : Silent writer h h₁)
    (herror : h₁.msg.error = none) (hraised : h₁.raised = none) :
    Settled writer writers h (h₁.deliver writers).catchAll := by
  have hcaught : (h₁.deliver writers).catchAll = h₁.deliver writers := by
    have hsame : (h₁.deliver writers).raised = none := hraised
    rw [Handling.catchAll, hsame]
  have hnothing : forwards h₁.writes = [] := by
    rw [hsilent.forwards, hwrites]
    rfl
  have hall : forwards (h₁.deliver writers).writes = writers.map h₁.msg.to := by
    rw [Handling.deliver, forwards_append, forwards_map_to, hnothing, List.nil_append]
  rw [hcaught]
  refine ⟨.delivered herror hall, ?_, hsilent.writer, hsilent.received, fun w hw hmessage ↦ ?_⟩
  · have hzero : h₁.msg.forwarded_count = 0 := hsilent.count.trans hcount
    rw [hall, List.length_map, Handling.deliver]
    dsimp only
    rw [hzero, Nat.zero_add]
  · rcases List.mem_append.mp hw with hw | hw
    · refine (hsilent.replies w hw hmessage).resolve_left ?_
      rw [hwrites]
      exact List.not_mem_nil
    · obtain ⟨c, -, rfl⟩ := List.mem_map.mp hw
      exact absurd hmessage.symm Bool.false_ne_true

theorem adjusted_fine {h₁ : Handling PeerConnection} (herror : h₁.msg.error = none)
    (hraised : h₁.raised = none) (cfg : Config) (offset : ℤ) :
    (h₁.apply_timestamp_offset cfg offset).msg.error = none ∧
      (h₁.apply_timestamp_offset cfg offset).raised = none := by
  unfold Handling.apply_timestamp_offset
  split
  · exact ⟨herror, hraised⟩
  · exact ⟨herror, hraised⟩

theorem settled_forward (cfg : Config) (raises : Raises) {h₁ : Handling PeerConnection}
    (hwrites : h.writes = []) (hcount : h.msg.forwarded_count = 0) (hbefore : Before h h₁)
    (herror : h₁.msg.error = none) (hraised : h₁.raised = none) :
    Settled writer (targets h.shared h.msg.destination_node_id) h
      (forward cfg raises h₁).catchAll := by
  have hsilent := hbefore.silent
  unfold forward
  rw [hbefore.parsed, MessageRecord.destination_node_id]
  cases h.msg.parsed with
  | none => exact .of_stopped hwrites hcount (hsilent.trans (.raise _)) (Or.inr rfl)
  | some parsed =>
      dsimp only [Option.bind_some]
      cases parsed.destination_node_id with
      | none =>
          dsimp only
          rw [Handling.send_to_parent_all herror, hbefore.shared]
          exact settled_deliver hwrites hcount hsilent herror hraised
      | some destination =>
          dsimp only [targets]
          rw [hbefore.shared]
          cases h.shared.registered_sensors.get? destination with
          | none => exact .of_stopped hwrites hcount (hsilent.trans (.fail _ _)) (Or.inl rfl)
          | some info =>
              dsimp only
              cases raises.timestamp with
              | some text =>
                  exact .of_stopped hwrites hcount (hsilent.trans (.raise text)) (Or.inr rfl)
              | none =>
                  dsimp only [Handling.call]
                  have hadjusted : Silent writer h
                      (h₁.apply_timestamp_offset cfg info.dmm_msg_offset) :=
                    hsilent.trans (.apply_timestamp_offset cfg _)
                  obtain ⟨herror', hraised'⟩ := adjusted_fine herror hraised cfg info.dmm_msg_offset
                  have hzero := hadjusted.count.trans hcount
                  generalize h₁.apply_timestamp_offset cfg info.dmm_msg_offset = h₂
                    at hadjusted herror' hraised' hzero
                  have hone : (h₂.write (h₂.msg.to info.writer)).setForwarded 1 =
                      h₂.deliver [info.writer] := by
                    rw [Handling.deliver, hzero]
                    rfl
                  have hlists : (h₂.deliver [info.writer]).shared.lists = h.shared.lists :=
                    hadjusted.lists
                  have herror₁ : (h₂.deliver [info.writer]).msg.error = none := herror'
                  rw [hone, Handling.send_to_parent_all herror₁, SharedData.parents_congr hlists,
                    Handling.deliver_deliver]
                  exact settled_deliver hwrites hcount hadjusted herror' hraised'

theorem settled_handle_message (cfg : Config) (raises : Raises) (hwrites : h.writes = [])
    (hcount : h.msg.forwarded_count = 0) :
    Settled writer (targets h.shared h.msg.destination_node_id) h
      (handle_message cfg raises h) := by
  have hbefore : Before h (h.andThen (handle_registration cfg raises)
      |>.andThen check_source) :=
    ((Before.refl h).andThen (before_handle_registration cfg raises)).andThen before_check_source
  unfold handle_message handle_message_inner
  dsimp only
  generalize (h.andThen (handle_registration cfg raises) |>.andThen check_source) = h₁ at hbefore
  refine Settled.reply ?_ rfl _
  unfold Handling.andThen
  split
  · rename_i hstopped
    exact .of_stopped hwrites hcount hbefore.silent hstopped
  · rename_i hnot
    refine settled_forward cfg raises hwrites hcount hbefore ?_ ?_
    · rw [← Option.not_isSome_iff_eq_none]
      exact fun hsome ↦ hnot (Or.inl hsome)
    · rw [← Option.not_isSome_iff_eq_none]
      exact fun hsome ↦ hnot (Or.inr hsome)

/-- A message to a node that is not registered is refused. -/
theorem error_of_unknown (cfg : Config) (raises : Raises) {destination : String}
    (hdestination : h.msg.destination_node_id = some destination)
    (hunknown : h.shared.registered_sensors.get? destination = none) :
    (handle_message cfg raises h).msg.error.isSome := by
  have hbefore : Before h (h.andThen (handle_registration cfg raises)
      |>.andThen check_source) :=
    ((Before.refl h).andThen (before_handle_registration cfg raises)).andThen before_check_source
  obtain ⟨parsed, hparsed, hnode⟩ := Option.bind_eq_some_iff.mp hdestination
  unfold handle_message handle_message_inner
  dsimp only
  generalize (h.andThen (handle_registration cfg raises) |>.andThen check_source) = h₁ at hbefore
  rw [Handling.send_error_reply_msg]
  have hcaught : ∀ h₂ : Handling PeerConnection, h₂.msg.error.isSome ∨ h₂.raised.isSome →
      h₂.catchAll.msg.error.isSome := by
    intro h₂ hstopped
    unfold Handling.catchAll
    split
    · rfl
    · rename_i hraised
      rw [hraised] at hstopped
      exact hstopped.resolve_right Bool.false_ne_true
  refine hcaught _ ?_
  unfold Handling.andThen
  split
  · rename_i hstopped
    exact hstopped
  · unfold forward
    rw [hbefore.parsed, hparsed]
    dsimp only
    rw [hnode]
    dsimp only
    rw [hbefore.shared, hunknown]
    exact Or.inl rfl

end PeerConnection

/-! ## In every run -/

section Runs

variable {s : State} {takes : List (String × ℕ)}

theorem mem_parents (h : Consistent s) (high_level : Bool) (c : ℕ) :
    c ∈ s.shared.parents high_level ↔ ∃ self, s.connections.get? c = some (.parent self) ∧
      (self.forward_all = true ∨ high_level = true) := by
  have hlist : ∀ all, c ∈ (s.shared.parent_writers all).map ParentWriter.writer ↔
      ∃ self, s.connections.get? c = some (.parent self) ∧ self.forward_all = all := by
    intro all
    rw [(h.parent_writers all).mem_keys]
    constructor
    · rintro ⟨k, hk, hsome⟩
      cases k with
      | parent self =>
          refine ⟨self, hk, ?_⟩
          by_contra hne
          rw [Connection.parent_writer, Connection.standing] at hsome
          dsimp only at hsome
          rw [if_neg hne] at hsome
          cases hsome
      | child self => cases hsome
      | peer self => cases hsome
      | recorder self => cases hsome
    · rintro ⟨self, hself, hall⟩
      refine ⟨_, hself, ?_⟩
      rw [Connection.parent_writer, Connection.standing]
      dsimp only
      rw [if_pos hall]
      rfl
  rw [SharedData.parents, List.map_append, List.mem_append]
  cases high_level with
  | false =>
      rw [if_neg Bool.false_ne_true, List.map_nil, or_iff_left List.not_mem_nil]
      refine (hlist true).trans (exists_congr fun self ↦ and_congr_right fun _ ↦ ?_)
      exact (or_iff_left Bool.false_ne_true).symm
  | true =>
      rw [if_pos rfl]
      refine (or_congr (hlist true) (hlist false)).trans ?_
      constructor
      · rintro (⟨self, hself, -⟩ | ⟨self, hself, -⟩)
        · exact ⟨self, hself, Or.inr rfl⟩
        · exact ⟨self, hself, Or.inr rfl⟩
      · rintro ⟨self, hself, -⟩
        cases hall : self.forward_all with
        | true => exact Or.inl ⟨self, hself, hall⟩
        | false => exact Or.inr ⟨self, hself, hall⟩

theorem nodup_parents (h : Consistent s) (high_level : Bool) :
    (s.shared.parents high_level).Nodup := by
  have hall := (h.parent_writers true).nodup_keys
  have hhigh := (h.parent_writers false).nodup_keys
  rw [SharedData.parents, List.map_append]
  cases high_level with
  | false =>
      rw [if_neg Bool.false_ne_true, List.map_nil, List.append_nil]
      exact hall
  | true =>
      rw [if_pos rfl]
      refine List.nodup_append'.mpr ⟨hall, hhigh, fun c hc hc' ↦ ?_⟩
      obtain ⟨k, hk, hsome⟩ := (h.parent_writers true).mem_keys.mp hc
      obtain ⟨k', hk', hsome'⟩ := (h.parent_writers false).mem_keys.mp hc'
      rw [hk] at hk'
      cases hk'
      cases k with
      | parent self =>
          rw [Connection.parent_writer, Connection.standing] at hsome hsome'
          dsimp only at hsome hsome'
          split at hsome
          · rename_i htrue
            rw [if_neg (by rw [htrue]; decide)] at hsome'
            cases hsome'
          · cases hsome
      | child self => cases hsome
      | peer self => cases hsome
      | recorder self => cases hsome

/-- Who a message from a Child is for. -/
inductive ChildReceives (s : State) (c : ℕ) : Prop
  | peer {self : PeerConnection} (hc : s.connections.get? c = some (.peer self))
  | parent {self : ParentConnection} (hc : s.connections.get? c = some (.parent self))
      (hall : self.forward_all = true)

theorem mem_child_targets (h : Consistent s) (c : ℕ) :
    c ∈ s.shared.dmm_writers ++ s.shared.parents false ↔ ChildReceives s c := by
  rw [List.mem_append, mem_dmm_writers h, mem_parents h]
  constructor
  · rintro (⟨self, hc⟩ | ⟨self, hc, hall⟩)
    · exact .peer hc
    · exact .parent hc (hall.resolve_right Bool.false_ne_true)
  · intro hreceives
    cases hreceives with
    | peer hc => exact Or.inl ⟨_, hc⟩
    | parent hc hall => exact Or.inr ⟨_, hc, Or.inl hall⟩

theorem nodup_child_targets (h : Consistent s) :
    (s.shared.dmm_writers ++ s.shared.parents false).Nodup := by
  refine List.nodup_append'.mpr ⟨h.dmm_writers.nodup, nodup_parents h false, fun c hc hc' ↦ ?_⟩
  obtain ⟨peer, hpeer⟩ := (mem_dmm_writers h c).mp hc
  obtain ⟨parent, hparent, -⟩ := (mem_parents h false c).mp hc'
  rw [hpeer] at hparent
  cases hparent

/-- A message that is delivered is written once to each connection that it is for. -/
theorem Fate.once {κ : Type} {targets : List Writer} {h' : Handling κ} {Receives : ℕ → Prop}
    (hfate : Fate targets h') (herror : h'.msg.error = none) (hnodup : targets.Nodup)
    (hmem : ∀ c, c ∈ targets ↔ Receives c) :
    (∀ c, Receives c → ((forwards h'.writes).map Write.writer).count c = 1) ∧
      ∀ c ∈ (forwards h'.writes).map Write.writer, Receives c := by
  cases hfate with
  | delivered _ hforwards =>
      have hto : (forwards h'.writes).map Write.writer = targets := by
        rw [hforwards, List.map_map]
        exact List.map_id targets
      rw [hto]
      exact ⟨fun c hc ↦ List.count_eq_one_of_mem hnodup ((hmem c).mpr hc),
        fun c hc ↦ (hmem c).mp hc⟩
  | dropped hsome _ =>
      rw [herror] at hsome
      cases hsome
  | broken _ hfatal _ =>
      rw [herror] at hfatal
      cases hfatal

/-- What is forwarded is the message. -/
theorem Fate.same {κ : Type} {targets : List Writer} {h' : Handling κ} (hfate : Fate targets h') :
    ∀ w ∈ forwards h'.writes, w = h'.msg.to w.writer := by
  have hmap : ∀ writers : List Writer, ∀ w ∈ writers.map h'.msg.to, w = h'.msg.to w.writer := by
    intro writers w hw
    obtain ⟨c, -, rfl⟩ := List.mem_map.mp hw
    rfl
  intro w hw
  cases hfate with
  | delivered _ hforwards => exact hmap _ w (hforwards ▸ hw)
  | dropped _ hforwards =>
      rw [hforwards] at hw
      cases hw
  | broken _ _ hforwards => exact hmap _ w (hforwards ▸ hw)

/-- Nothing is forwarded of a message that has an error, unless an exception has come up. -/
theorem Fate.none_of_error {κ : Type} {targets : List Writer} {h' : Handling κ}
    (hfate : Fate targets h') {e : ErrorRecord} (herror : h'.msg.error = some e)
    (hfatal : e.severity ≠ .FATAL) : forwards h'.writes = [] := by
  cases hfate with
  | delivered hnone _ =>
      rw [hnone] at herror
      cases herror
  | dropped _ hforwards => exact hforwards
  | broken _ hsome _ =>
      rw [herror] at hsome
      exact absurd (Option.some.inj hsome) hfatal

/-- Whatever the connections have done before, a message from a Child is forwarded once to
every Peer and to every Parent that wants all messages and to no one else if it is accepted,
and to nobody if it is refused.  What is written besides goes back to the Child, and how
often the message was forwarded is counted. -/
theorem child_message_forwarded {cfg : Config} {events : List Event} {s : State}
    (hrun : (server cfg).run .init events = some s) {c : ℕ} {self : ChildConnection}
    (hc : s.connections.get? c = some (.child self)) {msg : MessageRecord}
    (hfresh : msg.forwarded_count = 0) (raises : Raises) :
    ∃ r, handle cfg s c msg raises = some r ∧
      (r.msg.error = none →
        (∀ c', ChildReceives s c' → ((forwards r.writes).map Write.writer).count c' = 1) ∧
        ∀ c' ∈ (forwards r.writes).map Write.writer, ChildReceives s c') ∧
      (∀ e, r.msg.error = some e → e.severity ≠ .FATAL → forwards r.writes = []) ∧
      (∀ w ∈ forwards r.writes, w = r.msg.to w.writer) ∧
      (∀ w ∈ r.writes, w.isMessage = false → w.writer = c) ∧
      r.msg.forwarded_count = (forwards r.writes).length := by
  have hconsistent := (recorded_run hrun).consistent
  have hwriter : self.writer = c := (hconsistent.connections c _ hc).2.1
  have hsettled := ChildConnection.settled_handle_message (h := s.start self msg) cfg raises rfl
    hfresh
  refine ⟨_, by rw [handle, hc]; rfl, ?_, ?_, hsettled.fate.same, ?_, hsettled.count⟩
  · intro herror
    exact hsettled.fate.once herror (nodup_child_targets hconsistent)
      (mem_child_targets hconsistent)
  · intro e herror hfatal
    exact hsettled.fate.none_of_error herror hfatal
  · intro w hw hmessage
    exact (hsettled.replies w hw hmessage).trans hwriter

/-- A registered Child sends a message, and there are a Peer and two Parents, one of which
wants high-level messages alone. -/
def listening : List Event :=
  [.opened ⟨.Child, .PROTO, false⟩, .opened ⟨.Peer, .PROTO, false⟩,
    .opened ⟨.Parent, .PROTO, true⟩, .opened ⟨.Parent, .PROTO, false⟩,
    .received 1 (messageFrom "edge" none (some ⟨"edge"⟩)) .nothing]

theorem child_message_forwarded_listening :
    ∃ s r, (server plain).run .init listening = some s ∧
      handle plain s 1 (messageFrom "edge" none none) .nothing = some r ∧
      r.msg.forwarded_count = (forwards r.writes).length ∧ r.msg.forwarded_count = 2 := by
  obtain ⟨s, hs⟩ : ∃ s, (server plain).run .init listening = some s :=
    Option.isSome_iff_exists.mp (by decide +kernel)
  have hcount : ((server plain).run .init listening).bind (fun s ↦
      (handle plain s 1 (messageFrom "edge" none none) .nothing).map (·.msg.forwarded_count)) =
        some 2 := by decide +kernel
  have hstanding : (((server plain).run .init listening).bind (·.connections.get? 1)).map
      Connection.standing = some (.child 1 (some "edge") true) := by decide +kernel
  rw [hs, Option.bind_some] at hcount hstanding
  obtain ⟨k, hk, hchild⟩ := Option.map_eq_some_iff.mp hstanding
  obtain ⟨self, rfl⟩ := (isChild_iff k).mpr ⟨_, _, _, hchild⟩
  have hfresh : (messageFrom "edge" none none).forwarded_count = 0 := rfl
  obtain ⟨r, hr, -, -, -, -, hforwarded⟩ := child_message_forwarded hs hk hfresh .nothing
  rw [hr] at hcount
  exact ⟨s, r, hs, hr, hforwarded, Option.some.inj hcount⟩

/-! ## No Child speaks for another -/

/-- After a step with which a Child's message is forwarded, the Child owns the node id that
the message names. -/
theorem registrant_of_forwards {cfg : Config} (h : Consistent s) {c : ℕ} {self : ChildConnection}
    (hc : s.connections.get? c = some (.child self)) {msg : MessageRecord} {raises : Raises}
    {r : Handled} (hr : handle cfg s c msg raises = some r) (hforwards : forwards r.writes ≠ []) :
    ∃ node_id, r.msg.node_id = some node_id ∧ r.state.shared.registrant node_id = some c := by
  have hwriter : self.writer = c := (h.connections c _ hc).2.1
  rw [handle, hc] at hr
  cases hr
  obtain ⟨node_id, hnode, hreg⟩ := ChildConnection.claims_handle_message
    (h := s.start self msg) cfg raises rfl hforwards
  refine ⟨node_id, hnode, hreg.trans (congrArg some ?_)⟩
  have hout := ChildConnection.handle_message_outcome cfg raises (h := s.start self msg)
  -- the writer of a Child does not change
  have hsame : ∀ take, ChildConnection.Outcome take (s.start self msg)
      (ChildConnection.handle_message cfg raises (s.start self msg)) →
      (ChildConnection.handle_message cfg raises (s.start self msg)).self.writer = self.writer := by
    intro take hout
    cases take with
    | none => exact Option.some.inj (congrArg Standing.writer (Keeps.standing hout))
    | some id => exact Option.some.inj (congrArg Standing.writer hout.self)
  exact (hsame _ hout).trans hwriter

/-- In every run, a message of a Child that is forwarded to anyone names as its source a node
that the Child owns: it was the last one to register under that id, and it is open. -/
theorem forwarded_by_owner {cfg : Config} {events : List Event} {s : State}
    (hrun : (server cfg).run .init events = some s) {c : ℕ} {self : ChildConnection}
    (hc : s.connections.get? c = some (.child self)) (msg : MessageRecord) (raises : Raises) :
    ∃ r, handle cfg s c msg raises = some r ∧
      (forwards r.writes ≠ [] → ∃ node_id, r.msg.node_id = some node_id ∧
        Owns (OpenChild r.state)
          ((server cfg).outputs taken .init (events ++ [.received c msg raises])) node_id c) := by
  obtain ⟨r, hr⟩ : ∃ r, handle cfg s c msg raises = some r := ⟨_, by rw [handle, hc]; rfl⟩
  refine ⟨r, hr, fun hforwards ↦ ?_⟩
  obtain ⟨node_id, hnode, hreg⟩ :=
    registrant_of_forwards (recorded_run hrun).consistent hc hr hforwards
  have hnext : (server cfg).run .init (events ++ [.received c msg raises]) = some r.state := by
    rw [Machine.run_append, hrun, Option.bind_some, Machine.run_cons]
    show ((handle cfg s c msg raises).map Handled.state).bind _ = _
    rw [hr]
    rfl
  exact ⟨node_id, hnode, ((recorded_run hnext).registrant node_id c).mp hreg⟩

/-- The second Child has taken the node id over and speaks for it. -/
theorem forwarded_by_owner_takenOver :
    ∃ s r, (server plain).run .init (takenOver.take 8) = some s ∧
      handle plain s 2 (messageFrom "edge" none none) .nothing = some r ∧
      ∃ node_id, r.msg.node_id = some node_id ∧ Owns (OpenChild r.state)
        ((server plain).outputs taken .init
          (takenOver.take 8 ++
            [.received 2 (messageFrom "edge" none none) .nothing])) node_id 2 := by
  obtain ⟨s, hs⟩ : ∃ s, (server plain).run .init (takenOver.take 8) = some s :=
    Option.isSome_iff_exists.mp (by decide +kernel)
  have hforwards : ((server plain).run .init (takenOver.take 8)).bind (fun s ↦
      (handle plain s 2 (messageFrom "edge" none none) .nothing).map
        fun r ↦ (forwards r.writes).length) = some 3 := by decide +kernel
  have hstanding : (((server plain).run .init (takenOver.take 8)).bind (·.connections.get? 2)).map
      Connection.standing = some (.child 2 (some "edge") true) := by decide +kernel
  rw [hs, Option.bind_some] at hforwards hstanding
  obtain ⟨k, hk, hchild⟩ := Option.map_eq_some_iff.mp hstanding
  obtain ⟨self, rfl⟩ := (isChild_iff k).mpr ⟨_, _, _, hchild⟩
  obtain ⟨r, hr, howner⟩ := forwarded_by_owner hs hk (messageFrom "edge" none none) .nothing
  rw [hr] at hforwards
  refine ⟨s, r, hs, hr, howner fun hnone ↦ ?_⟩
  rw [Option.map_some, hnone] at hforwards
  cases hforwards

/-! ## A Child that has lost its node id -/

/-- What is forwarded of the messages of one connection. -/
def forwardedFrom (cfg : Config) (c : ℕ) (s : State) : Event → List Write
  | .received connection_id msg raises =>
      if connection_id = c then forwards (writes cfg s (.received connection_id msg raises)) else []
  | _ => []

/-- The Child `c` has registered under `node_id` and is not found there any more, or it has
closed. -/
structure Displaced (c : ℕ) (node_id : String) (s : State) : Prop where
  consistent : Consistent s
  number : c ≤ s.previous_connection_id
  child : ∀ k, s.connections.get? c = some k → k.standing = .child c (some node_id) true
  registrant : s.shared.registrant node_id ≠ some c

theorem Displaced.quiet {s' : State} {c c' : ℕ} {node_id : String} (h : Displaced c node_id s)
    (hq : Quiet s s' c') : Displaced c node_id s' where
  consistent := h.consistent.quiet hq
  number := hq.previous_connection_id ▸ h.number
  child k₁ hk₁ := by
    obtain ⟨k, k', hk, hset, hstanding⟩ := hq.connections
    rw [hset, Dict.get?_set] at hk₁
    split at hk₁
    · rename_i hc
      cases hk₁
      rw [hstanding]
      exact h.child k (hc ▸ hk)
    · exact h.child k₁ hk₁
  registrant := by
    rw [hq.routes.registrant]
    exact h.registrant

/-- Who registers now is not the Child that has registered before. -/
theorem Displaced.taking {s' : State} {c c' : ℕ} {node_id id : String}
    (h : Displaced c node_id s) (ht : Taking s s' id c') : Displaced c node_id s' := by
  obtain ⟨self, k', hk, hset, hstanding, hregistrant, hreg⟩ := ht.connections
  have hne : c ≠ c' := by
    rintro rfl
    have hregistered := h.child _ hk
    have hsame := congrArg (fun st ↦ match st with
      | .child _ _ registered => registered
      | _ => false) hregistered
    rw [Connection.standing, ChildConnection.standing, hreg] at hsame
    exact Bool.false_ne_true hsame
  have hwriter : self.writer = c' := (h.consistent.connections c' _ hk).2.1
  refine ⟨h.consistent.taking ht, ht.previous_connection_id ▸ h.number, fun k₁ hk₁ ↦ ?_, ?_⟩
  · rw [hset, Dict.get?_set_ne _ _ hne] at hk₁
    exact h.child k₁ hk₁
  · rw [hregistrant, hwriter]
    split
    · exact fun hsome ↦ hne (Option.some.inj hsome).symm
    · exact h.registrant

theorem Displaced.create {c : ℕ} {node_id : String} (h : Displaced c node_id s)
    (config : ConnectionConfig) : Displaced c node_id (create s config) where
  consistent := h.consistent.create config
  number := Nat.le_succ_of_le h.number
  child k hk := by
    have hne : c ≠ s.previous_connection_id + 1 := Nat.ne_of_lt (Nat.lt_succ_of_le h.number)
    rw [Apex.create, Dict.get?_set_ne _ _ hne] at hk
    exact h.child k hk
  registrant := by
    rw [Apex.create, Connection.join_registrant]
    exact h.registrant

theorem Displaced.close {s' : State} {c c' : ℕ} {node_id : String} (h : Displaced c node_id s)
    (hclose : close s c' = some s') : Displaced c node_id s' := by
  obtain ⟨k, hk, rfl⟩ := Option.map_eq_some_iff.mp hclose
  refine ⟨h.consistent.close hclose, h.number, fun k₁ hk₁ ↦ ?_, fun hreg ↦ ?_⟩
  · exact h.child k₁ (Dict.get?_erase_eq_some_iff.mp hk₁).2
  · exact h.registrant ((h.consistent.closed_registrant hk node_id c).mp hreg).1

theorem Displaced.step {cfg : Config} {s' : State} {c : ℕ} {node_id : String} {e : Event}
    (h : Displaced c node_id s) (hstep : server cfg s e = some s') : Displaced c node_id s' := by
  cases e with
  | opened config =>
      cases hstep
      exact h.create config
  | received c' msg raises =>
      obtain ⟨r, hr, rfl⟩ := Option.map_eq_some_iff.mp hstep
      rcases handle_cases hr with ⟨-, hq⟩ | ⟨id, -, ht⟩
      · exact h.quiet hq
      · exact h.taking ht
  | closed c' => exact h.close hstep

/-- Nothing of what it sends is forwarded. -/
theorem Displaced.forwardedFrom_eq_nil {cfg : Config} {s' : State} {c : ℕ} {node_id : String}
    {e : Event} (h : Displaced c node_id s) (hstep : server cfg s e = some s') :
    forwardedFrom cfg c s e = [] := by
  cases e with
  | opened config => rfl
  | closed c' => rfl
  | received c' msg raises =>
      by_cases hc : c' = c
      · subst hc
        refine (if_pos rfl).trans ?_
        obtain ⟨r, hr, rfl⟩ := Option.map_eq_some_iff.mp hstep
        have hwrites : writes cfg s (.received c' msg raises) = r.writes := by
          rw [writes, hr]
          rfl
        rw [hwrites]
        by_contra hforwards
        obtain ⟨k, hk, -⟩ := Option.map_eq_some_iff.mp hr
        obtain ⟨self, rfl⟩ := (isChild_iff k).mpr ⟨_, _, _, h.child k hk⟩
        obtain ⟨id, -, hreg⟩ := registrant_of_forwards h.consistent hk hr hforwards
        -- it is not found under any other node id either
        have hnext := (h.step hstep).consistent.registered id c' hreg
        obtain ⟨k', hk', hstanding⟩ := Option.map_eq_some_iff.mp hnext
        have hid := (h.step hstep).child k' hk'
        rw [hstanding] at hid
        cases hid
        exact (h.step hstep).registrant hreg
      · exact if_neg hc

/-- A Child whose node id another connection has taken is cut off for good: whatever it and
the others do, and though the other connection closes, nothing that it sends is forwarded to
anyone any more. -/
theorem displaced_silent {cfg : Config} {before after : List Event} {s s' : State}
    (hbefore : (server cfg).run .init before = some s)
    (hafter : (server cfg).run s after = some s') {c : ℕ} {self : ChildConnection}
    (hc : s.connections.get? c = some (.child self)) {node_id : String}
    (hnode : self.node_id = some node_id) (hregistered : self.registration ≠ none)
    (hlost : ¬ Owns (OpenChild s) ((server cfg).outputs taken .init before) node_id c) :
    (server cfg).outputs (forwardedFrom cfg c) s after = [] := by
  have hrecorded := recorded_run hbefore
  obtain ⟨hnumber, hvalid⟩ := hrecorded.consistent.connections c _ hc
  have hdisplaced : Displaced c node_id s := by
    refine ⟨hrecorded.consistent, hnumber, fun k hk ↦ ?_, fun hreg ↦ ?_⟩
    · rw [hc] at hk
      cases hk
      have hwriter : self.writer = c := hvalid.1
      rw [Connection.standing, ChildConnection.standing, hwriter, hnode,
        Option.isSome_iff_ne_none.mpr hregistered]
    · exact hlost ((hrecorded.registrant node_id c).mp hreg)
  have hinv : Displaced c node_id s' ∧
      [] ++ (server cfg).outputs (forwardedFrom cfg c) s after = [] := by
    refine Machine.outputs_invariant (I := fun s os ↦ Displaced c node_id s ∧ os = [])
      (fun s e s' os hI hstep ↦ ?_) ⟨hdisplaced, rfl⟩ hafter
    obtain ⟨hI, rfl⟩ := hI
    exact ⟨hI.step hstep, hI.forwardedFrom_eq_nil hstep⟩
  exact hinv.2

/-- The first Child goes on sending, also when the second one has closed. -/
def persisting : List Event :=
  [.received 1 (messageFrom "edge" none none) .nothing, .closed 2,
    .received 1 (messageFrom "edge" none (some ⟨"edge"⟩)) .nothing]

theorem displaced_silent_persisting :
    ∃ s s', (server plain).run .init (takenOver.take 8) = some s ∧
      (server plain).run s persisting = some s' ∧
      (server plain).outputs (forwardedFrom plain 1) s persisting = [] := by
  obtain ⟨s, hs⟩ : ∃ s, (server plain).run .init (takenOver.take 8) = some s :=
    Option.isSome_iff_exists.mp (by decide +kernel)
  have hafter : (((server plain).run .init (takenOver.take 8)).bind fun s ↦
      (server plain).run s persisting).isSome := by decide +kernel
  have hstanding : (((server plain).run .init (takenOver.take 8)).bind (·.connections.get? 1)).map
      Connection.standing = some (.child 1 (some "edge") true) := by decide +kernel
  rw [hs, Option.bind_some] at hafter hstanding
  obtain ⟨s', hs'⟩ := Option.isSome_iff_exists.mp hafter
  obtain ⟨k, hk, hchild⟩ := Option.map_eq_some_iff.mp hstanding
  obtain ⟨self, rfl⟩ := (isChild_iff k).mpr ⟨_, _, _, hchild⟩
  rw [Connection.standing, ChildConnection.standing, Standing.child.injEq] at hchild
  refine ⟨s, s', hs, hs', displaced_silent hs hs' hk hchild.2.1
    (Option.isSome_iff_ne_none.mp hchild.2.2) fun howns ↦ ?_⟩
  have hlast : lastTaker ((server plain).outputs taken .init (takenOver.take 8)) "edge" =
      some 2 := by decide +kernel
  rw [Owns, hlast] at howns
  cases howns.1

/-! ## Peers -/

/-- Who a message from a Peer is for, given the node ids taken so far. -/
inductive PeerReceives (s : State) (takes : List (String × ℕ)) (destination : Option String)
    (c : ℕ) : Prop
  | owner {node_id : String} (hdestination : destination = some node_id)
      (hc : Owns (OpenChild s) takes node_id c)
  | parent {self : ParentConnection} (hc : s.connections.get? c = some (.parent self))
      (hall : self.forward_all = true ∨ destination = none)

/-- The targets of a message whose destination, if it has one, is registered. -/
theorem mem_peer_targets (h : Recorded s takes) {destination : Option String}
    (hknown : ∀ node_id, destination = some node_id →
      s.shared.registered_sensors.get? node_id ≠ none) (c : ℕ) :
    c ∈ PeerConnection.targets s.shared destination ↔ PeerReceives s takes destination c := by
  cases destination with
  | none =>
      rw [PeerConnection.targets, mem_parents h.consistent]
      constructor
      · rintro ⟨self, hc, -⟩
        exact .parent hc (Or.inr rfl)
      · intro hreceives
        cases hreceives with
        | owner hdestination _ => cases hdestination
        | parent hc _ => exact ⟨_, hc, Or.inr rfl⟩
  | some node_id =>
      obtain ⟨info, hinfo⟩ := Option.ne_none_iff_exists'.mp (hknown node_id rfl)
      have hregistrant : s.shared.registrant node_id = some info.writer :=
        congrArg (Option.map SensorInfo.writer) hinfo
      have howner := (h.registrant node_id c)
      rw [hregistrant, Option.some_inj] at howner
      rw [PeerConnection.targets, hinfo]
      dsimp only
      rw [List.mem_cons, mem_parents h.consistent, eq_comm, howner]
      constructor
      · rintro (hc | ⟨self, hc, hall⟩)
        · exact .owner rfl hc
        · exact .parent hc (Or.inl (hall.resolve_right Bool.false_ne_true))
      · intro hreceives
        cases hreceives with
        | owner hdestination hc =>
            cases hdestination
            exact Or.inl hc
        | parent hc hall => exact Or.inr ⟨_, hc, Or.inl (hall.resolve_right nofun)⟩

theorem nodup_peer_targets (h : Recorded s takes) (destination : Option String) :
    (PeerConnection.targets s.shared destination).Nodup := by
  cases destination with
  | none => exact nodup_parents h.consistent true
  | some node_id =>
      rw [PeerConnection.targets]
      cases hinfo : s.shared.registered_sensors.get? node_id with
      | none => exact List.nodup_nil
      | some info =>
          refine List.nodup_cons.mpr ⟨fun hmem ↦ ?_, nodup_parents h.consistent false⟩
          obtain ⟨parent, hparent, -⟩ := (mem_parents h.consistent false _).mp hmem
          have hreg : s.shared.registrant node_id = some info.writer :=
            congrArg (Option.map SensorInfo.writer) hinfo
          obtain ⟨child, hchild⟩ := ((h.registrant node_id _).mp hreg).2
          rw [hparent] at hchild
          cases hchild

/-- Whatever the connections have done before, a message from a Peer that is accepted is
forwarded once to the Child that owns its destination and to every Parent that wants all
messages, or, without a destination, to every Parent, and to no one else.  It is refused if
nobody owns the destination, and then, as with any other error that is not fatal, it is
forwarded to nobody. -/
theorem peer_message_forwarded {cfg : Config} {events : List Event} {s : State}
    (hrun : (server cfg).run .init events = some s) {c : ℕ} {self : PeerConnection}
    (hc : s.connections.get? c = some (.peer self)) {msg : MessageRecord}
    (hfresh : msg.forwarded_count = 0) (raises : Raises) :
    ∃ r, handle cfg s c msg raises = some r ∧
      (r.msg.error = none →
        (∀ c', PeerReceives s ((server cfg).outputs taken .init events) msg.destination_node_id c' →
          ((forwards r.writes).map Write.writer).count c' = 1) ∧
        ∀ c' ∈ (forwards r.writes).map Write.writer,
          PeerReceives s ((server cfg).outputs taken .init events) msg.destination_node_id c') ∧
      (∀ node_id, msg.destination_node_id = some node_id →
        (¬ ∃ c', Owns (OpenChild s) ((server cfg).outputs taken .init events) node_id c') →
        r.msg.error.isSome) ∧
      (∀ e, r.msg.error = some e → e.severity ≠ .FATAL → forwards r.writes = []) ∧
      (∀ w ∈ forwards r.writes, w = r.msg.to w.writer) ∧
      (∀ w ∈ r.writes, w.isMessage = false → w.writer = c) ∧
      r.msg.forwarded_count = (forwards r.writes).length := by
  have hrecorded := recorded_run hrun
  have hwriter : self.writer = c := (hrecorded.consistent.connections c _ hc).2
  have hsettled := PeerConnection.settled_handle_message (h := s.start self msg) cfg raises rfl
    hfresh
  have hrefused : ∀ node_id, msg.destination_node_id = some node_id →
      s.shared.registered_sensors.get? node_id = none →
      (PeerConnection.handle_message cfg raises (s.start self msg)).msg.error.isSome :=
    fun node_id hnode hnone ↦
      PeerConnection.error_of_unknown (h := s.start self msg) cfg raises hnode hnone
  refine ⟨_, by rw [handle, hc]; rfl, ?_, ?_, ?_, hsettled.fate.same, ?_, hsettled.count⟩
  · intro herror
    refine hsettled.fate.once herror (nodup_peer_targets hrecorded _)
      (mem_peer_targets hrecorded fun node_id hnode hnone ↦ ?_)
    have hsome := hrefused node_id hnode hnone
    rw [show (PeerConnection.handle_message cfg raises (s.start self msg)).msg.error = none from
      herror] at hsome
    cases hsome
  · intro node_id hnode hnobody
    refine hrefused node_id hnode ?_
    cases hinfo : s.shared.registered_sensors.get? node_id with
    | none => rfl
    | some info =>
        refine absurd ⟨info.writer, (hrecorded.registrant node_id _).mp ?_⟩ hnobody
        exact congrArg (Option.map SensorInfo.writer) hinfo
  · intro e herror hfatal
    exact hsettled.fate.none_of_error herror hfatal
  · intro w hw hmessage
    exact (hsettled.replies w hw hmessage).trans hwriter

/-- A Peer sends to the Child. -/
theorem peer_message_forwarded_listening :
    ∃ s r, (server plain).run .init listening = some s ∧
      handle plain s 2 (messageFrom "fusion" (some "edge") none) .nothing = some r ∧
      r.msg.forwarded_count = (forwards r.writes).length := by
  obtain ⟨s, hs⟩ : ∃ s, (server plain).run .init listening = some s :=
    Option.isSome_iff_exists.mp (by decide +kernel)
  have hpeer : ((server plain).run .init listening).bind (·.connections.get? 2) =
      some (.peer ⟨2, .PROTO, none⟩) := by decide +kernel
  rw [hs, Option.bind_some] at hpeer
  have hfresh : (messageFrom "fusion" (some "edge") none).forwarded_count = 0 := rfl
  obtain ⟨r, hr, -, -, -, -, -, hforwarded⟩ := peer_message_forwarded hs hpeer hfresh .nothing
  exact ⟨s, r, hs, hr, hforwarded⟩

end Runs

end Apex

end SensorFusion
