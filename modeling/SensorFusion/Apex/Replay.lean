import SensorFusion.Apex.Forwarding

/-!
# What a late connection is told

A Peer, or a Parent that wants all messages, is told when it connects what the registry holds
of every Child: its registration and its recent status reports.  The registry is changed in
place, message by message.  Here it is compared with the history of the run: what is held of
a Child are the last of the messages that were entered, a registration clearing what came
before.
-/

namespace SensorFusion

namespace Apex

/-! ## The latest reports -/

inductive Report
  | registration
  | status_new
  | status_unchanged
  deriving DecidableEq

def MessageRecord.report (msg : MessageRecord) : Option Report :=
  if msg.registration ≠ none then some .registration
  else msg.status_report.map fun status_report ↦
    if status_report.is_unchanged then .status_unchanged else .status_new

/-- What was reported last: the registration, the status report "New" since then, and the
status report "Unchanged" since then. -/
structure Latest where
  registration : Option MessageRecord
  recent_status_new : Option MessageRecord
  recent_status_unchanged : Option MessageRecord

namespace Latest

def nothing : Latest := ⟨none, none, none⟩

def note (latest : Latest) (msg : MessageRecord) : Latest :=
  match msg.report with
  | some .registration => ⟨some msg, none, none⟩
  | some .status_new =>
      { latest with recent_status_new := some msg, recent_status_unchanged := none }
  | some .status_unchanged => { latest with recent_status_unchanged := some msg }
  | none => latest

/-- The latest reports among some messages. -/
def among (msgs : List MessageRecord) : Latest := msgs.foldl note nothing

theorem among_append (msgs : List MessageRecord) (msg : MessageRecord) :
    among (msgs ++ [msg]) = (among msgs).note msg := by
  rw [among, List.foldl_append]
  rfl

/-- A registration clears what came before. -/
theorem note_registration {msg : MessageRecord} (h : msg.report = some .registration)
    (latest latest' : Latest) : latest.note msg = latest'.note msg := by
  rw [note, note, h]

/-- The reports, written to a connection. -/
def writes (latest : Latest) (writer : Writer) : List Write :=
  (latest.registration.toList ++ latest.recent_status_new.toList ++
    latest.recent_status_unchanged.toList).map (MessageRecord.to · writer)

end Latest

/-- The message as it was before it was forwarded. -/
def MessageRecord.unforwarded (msg : MessageRecord) : MessageRecord :=
  { msg with forwarded_count := 0 }

def SensorInfo.latest (node_info : SensorInfo) : Latest where
  registration := some node_info.registration.unforwarded
  recent_status_new := node_info.recent_status_new.map MessageRecord.unforwarded
  recent_status_unchanged := node_info.recent_status_unchanged.map MessageRecord.unforwarded

theorem SensorInfo.replay_eq (writer : Writer) (node_info : SensorInfo) :
    node_info.replay writer = node_info.latest.writes writer := by
  rw [SensorInfo.replay, Latest.writes, List.map_append, List.map_append]
  unfold SensorInfo.latest
  cases node_info.recent_status_new <;> cases node_info.recent_status_unchanged <;> rfl

/-! ## What a message changes in the registry -/

/-- A message is of one kind, as the parsers make it. -/
structure OneKind (msg : MessageRecord) : Prop where
  registration : msg.registration ≠ none → msg.status_report = none
  detection : msg.parsed.bind ParsedRecord.detection_confidence ≠ none →
    msg.registration = none ∧ msg.status_report = none

/-- What the registry holds of a Child after a message of it. -/
def SensorInfo.remember (msg : MessageRecord) (node_info : SensorInfo) : SensorInfo :=
  match msg.report with
  | some .registration =>
      { node_info with
        registration := msg
        recent_status_new := none
        recent_status_unchanged := none }
  | some .status_new =>
      { node_info with
        recent_status_new := some msg
        recent_status_unchanged := none }
  | some .status_unchanged => { node_info with recent_status_unchanged := some msg }
  | none => node_info

theorem SensorInfo.writer_remember (msg : MessageRecord) (node_info : SensorInfo) :
    (node_info.remember msg).writer = node_info.writer := by
  unfold remember
  split <;> rfl

theorem SensorInfo.latest_remember (msg : MessageRecord) (node_info : SensorInfo) :
    (node_info.remember msg).latest = node_info.latest.note msg.unforwarded := by
  have hreport : msg.unforwarded.report = msg.report := rfl
  unfold remember Latest.note
  rw [hreport]
  cases msg.report with
  | none => rfl
  | some report => cases report <;> rfl

theorem OneKind.apply_timestamp_offset {κ : Type} {h : Handling κ} (hkind : OneKind h.msg)
    (cfg : Config) (offset : ℤ) : OneKind (h.apply_timestamp_offset cfg offset).msg := by
  unfold Handling.apply_timestamp_offset
  split
  · refine ⟨hkind.registration, fun hdetection ↦ hkind.detection fun hnone ↦ hdetection ?_⟩
    dsimp only
    cases hparsed : h.msg.parsed with
    | none => rfl
    | some parsed =>
        rw [hparsed] at hnone
        exact hnone
  · exact hkind

namespace Handling

variable {κ : Type} {h : Handling κ}

/-- The message is neither refused nor has an exception come up. -/
structure Fine (h : Handling κ) : Prop where
  error : h.msg.error = none
  raised : h.raised = none

theorem stopped_or_fine (h : Handling κ) : (h.msg.error.isSome ∨ h.raised.isSome) ∨ h.Fine := by
  cases herror : h.msg.error with
  | some error => exact Or.inl (Or.inl rfl)
  | none =>
      cases hraised : h.raised with
      | some text => exact Or.inl (Or.inr rfl)
      | none => exact Or.inr ⟨herror, hraised⟩

theorem Fine.andThen (hfine : h.Fine) (next : Handling κ → Handling κ) :
    h.andThen next = next h := by
  rw [Handling.andThen, hfine.error, hfine.raised]
  exact if_neg fun hstopped ↦ hstopped.elim Bool.false_ne_true Bool.false_ne_true

theorem andThen_of_stopped (hstopped : h.msg.error.isSome ∨ h.raised.isSome)
    (next : Handling κ → Handling κ) : h.andThen next = h := if_pos hstopped

theorem send_to_parent_shared (h : Handling κ) (high_level : Bool)
    (except_writer : Option ParentWriter) :
    (h.send_to_parent high_level except_writer).shared = h.shared := by
  unfold send_to_parent
  split
  · rfl
  · rw [foldl_send_eq]
    rfl

theorem apply_timestamp_offset_shared (h : Handling κ) (cfg : Config) (offset : ℤ) :
    (h.apply_timestamp_offset cfg offset).shared = h.shared := by
  unfold apply_timestamp_offset
  split <;> rfl

theorem catchAll_shared (h : Handling κ) : h.catchAll.shared = h.shared := by
  unfold catchAll
  split <;> rfl

theorem send_error_reply_shared (h : Handling κ) (writer : Writer)
    (destination_id : Option String) :
    (h.send_error_reply_if_necessary writer destination_id).shared = h.shared := by
  unfold send_error_reply_if_necessary
  split <;> rfl

theorem andThen_shared {next : Handling κ → Handling κ} (hnext : (next h).shared = h.shared) :
    (h.andThen next).shared = h.shared := by
  unfold andThen
  split
  · rfl
  · exact hnext

end Handling

/-- The same, but acknowledging a registration does not raise. -/
def Raises.acknowledging (raises : Raises) : Raises := { raises with registration_ack := none }

namespace ChildConnection

variable {h h₁ h₂ : Handling ChildConnection}

/-- The Child is in the registry. -/
structure Found (node_id : String) (info : SensorInfo) (h : Handling ChildConnection) : Prop where
  named : h.self.node_id = some node_id
  writer : info.writer = h.self.writer
  entry : h.shared.registered_sensors.get? node_id = some info

theorem updateInfo_of_found {node_id : String} {info : SensorInfo} (hfound : Found node_id info h)
    (f : SensorInfo → SensorInfo) :
    updateInfo f h = { h with shared := { h.shared with
      registered_sensors := h.shared.registered_sensors.set node_id (f info) } } := by
  rw [updateInfo, hfound.named]
  dsimp only
  rw [hfound.entry]

/-- What the registry makes of a message of the Child: it is refused and leaves the registry
as it is, or it is the latest of what is held of the Child. -/
inductive Kept (h h' : Handling ChildConnection) : Prop
  | refused (hstopped : h'.msg.error.isSome ∨ h'.raised.isSome)
      (hregistry : h'.shared.registered_sensors = h.shared.registered_sensors)
  | accepted {node_id : String} {info : SensorInfo} {latest : Latest} (hfine : h'.Fine)
      (hinfo : h'.shared.registered_sensors.get? node_id = some info)
      (hwriter : info.writer = h.self.writer)
      (hothers : ∀ id ≠ node_id, h'.shared.registered_sensors.get? id =
        h.shared.registered_sensors.get? id)
      (hbefore : h'.msg.report = some .registration ∨
        ∃ info₀, h.shared.registered_sensors.get? node_id = some info₀ ∧
          info₀.writer = h.self.writer ∧ info₀.latest = latest)
      (hlatest : info.latest = latest.note h'.msg.unforwarded)

/-- What comes after it changes only how often the message has been forwarded. -/
theorem Kept.congr (hkept : Kept h h₁) (hfine : h₁.Fine → h₂.Fine)
    (hstopped : h₁.msg.error.isSome ∨ h₁.raised.isSome → h₂.msg.error.isSome ∨ h₂.raised.isSome)
    (hregistry : h₂.shared.registered_sensors = h₁.shared.registered_sensors)
    (hmsg : h₁.Fine → h₂.msg.unforwarded = h₁.msg.unforwarded) : Kept h h₂ := by
  cases hkept with
  | refused hstop hsame => exact .refused (hstopped hstop) (hregistry.trans hsame)
  | accepted hfine₁ hinfo hwriter hothers hbefore hlatest =>
      have hsame := hmsg hfine₁
      have hreport : h₂.msg.report = h₁.msg.report :=
        (congrArg MessageRecord.report hsame : h₂.msg.unforwarded.report = _)
      refine .accepted (hfine hfine₁) (hregistry ▸ hinfo) hwriter (hregistry ▸ hothers) ?_
        (hsame ▸ hlatest)
      rw [hreport]
      exact hbefore

/-- What comes before it does not change the registry. -/
theorem Kept.of_same (hkept : Kept h₁ h₂) (hshared : h₁.shared = h.shared)
    (hself : h₁.self.writer = h.self.writer) : Kept h h₂ := by
  cases hkept with
  | refused hstopped hregistry => exact .refused hstopped (hshared ▸ hregistry)
  | accepted hfine hinfo hwriter hothers hbefore hlatest =>
      rw [hshared, hself] at hbefore
      exact .accepted hfine hinfo (hwriter.trans hself) (hshared ▸ hothers) hbefore hlatest

theorem Kept.forward (hkept : Kept h h₁) : Kept h (forward h₁) := by
  rw [forward_eq]
  exact hkept.congr (fun hfine ↦ ⟨hfine.error, hfine.raised⟩) id rfl fun _ ↦ rfl

/-- The acknowledgement raises nothing. -/
theorem acknowledge_kept (cfg : Config) {raises : Raises} (hack : raises.registration_ack = none) :
    (acknowledge cfg raises h).shared = h.shared ∧ (acknowledge cfg raises h).msg = h.msg ∧
      (acknowledge cfg raises h).self = h.self ∧ (acknowledge cfg raises h).raised = h.raised := by
  unfold acknowledge
  rw [hack]
  split
  · exact ⟨rfl, rfl, rfl, rfl⟩
  · exact ⟨rfl, rfl, rfl, rfl⟩

theorem Kept.acknowledge (hkept : Kept h h₁) (cfg : Config) {raises : Raises}
    (hack : raises.registration_ack = none) : Kept h (acknowledge cfg raises h₁) := by
  obtain ⟨hshared, hmsg, -, hraised⟩ := acknowledge_kept (h := h₁) cfg hack
  refine hkept.congr (fun hfine ↦ ⟨hmsg ▸ hfine.error, hraised ▸ hfine.raised⟩) ?_ ?_ fun _ ↦ ?_
  · rw [hmsg, hraised]
    exact id
  · rw [hshared]
  · rw [hmsg]

/-! ## The first registration -/

theorem kept_register (node_id : String) (offset : ℤ) (hfine : h.Fine)
    (hregistration : h.msg.registration ≠ none) : Kept h (register node_id offset h) := by
  have hreport : h.msg.report = some .registration := if_pos hregistration
  refine @Kept.accepted h _ node_id _ .nothing ⟨hfine.error, hfine.raised⟩
    (Dict.get?_set_self _ _ _) rfl (fun id hid ↦ Dict.get?_set_ne _ _ hid) (Or.inl hreport) ?_
  have hnote : h.msg.unforwarded.report = some .registration := hreport
  show _ = Latest.note .nothing h.msg.unforwarded
  rw [Latest.note, hnote]
  rfl

theorem kept_handle_registration (cfg : Config) {raises : Raises}
    (hack : raises.registration_ack = none) (hraised : h.raised = none) :
    Kept h (handle_registration cfg raises h) := by
  unfold handle_registration
  split
  · rename_i herror
    exact .refused (Or.inl herror) rfl
  · rename_i herror
    rw [Option.not_isSome_iff_eq_none] at herror
    split
    · exact .refused (Or.inl rfl) rfl
    · rename_i hregistration
      split
      · exact .refused (Or.inr rfl) rfl
      · split
        · exact .refused (Or.inl rfl) rfl
        · rename_i node_id _
          dsimp only
          cases raises.timestamp with
          | some text => exact .refused (Or.inr rfl) rfl
          | none =>
              have hadjusted : ∀ offset time_offset : ℤ,
                  let h' := Handling.apply_timestamp_offset cfg offset
                    { h with self := { h.self with time_offset := some time_offset } }
                  h'.shared = h.shared ∧ h'.self.writer = h.self.writer ∧
                    h'.msg.registration ≠ none ∧ h'.Fine := by
                intro offset time_offset
                unfold Handling.apply_timestamp_offset
                dsimp only
                split
                · exact ⟨rfl, rfl, hregistration, herror, hraised⟩
                · exact ⟨rfl, rfl, hregistration, herror, hraised⟩
              dsimp only [Handling.call]
              cases raises.sensor_id with
              | some text =>
                  exact .refused (Or.inr rfl) (congrArg SharedData.registered_sensors
                    (hadjusted _ _).1)
              | none =>
                  refine Kept.acknowledge (Kept.forward ?_) cfg hack
                  obtain ⟨hshared, hwriter, hreg, hfine⟩ := hadjusted _ _
                  exact (kept_register node_id _ hfine hreg).of_same hshared hwriter

/-! ## The other messages -/

/-- A Child that is not stopped by `check_owner` is in the registry. -/
theorem found_check_owner (cfg : Config) (raises : Raises) (hkind : OneKind h.msg) :
    (check_owner cfg raises h).shared = h.shared ∧
      (check_owner cfg raises h).self.writer = h.self.writer ∧
      ((check_owner cfg raises h).Fine → OneKind (check_owner cfg raises h).msg ∧
        ∃ node_id info, Found node_id info (check_owner cfg raises h)) := by
  unfold check_owner
  split
  · exact ⟨rfl, rfl, fun hfine ↦ absurd hfine.raised (Option.some_ne_none _)⟩
  · split
    · exact ⟨rfl, rfl, fun hfine ↦ absurd hfine.error (Option.some_ne_none _)⟩
    · dsimp only
      split
      · exact ⟨rfl, rfl, fun hfine ↦ absurd hfine.error (Option.some_ne_none _)⟩
      · rename_i howner
        obtain ⟨info, hinfo, hwriter⟩ := Option.map_eq_some_iff.mp (not_not.mp howner)
        obtain ⟨node_id, hself, hget⟩ := Option.bind_eq_some_iff.mp hinfo
        cases raises.timestamp with
        | some text => exact ⟨rfl, rfl, fun hfine ↦ absurd hfine.raised (Option.some_ne_none _)⟩
        | none =>
            have hsame : ∀ offset, (h.apply_timestamp_offset cfg offset).shared = h.shared ∧
                (h.apply_timestamp_offset cfg offset).self = h.self := by
              intro offset
              unfold Handling.apply_timestamp_offset
              split
              · exact ⟨rfl, rfl⟩
              · exact ⟨rfl, rfl⟩
            dsimp only [Handling.call]
            obtain ⟨hshared, hconn⟩ := hsame (h.self.time_offset.getD 0)
            refine ⟨hshared, congrArg writer hconn, fun _ ↦ ⟨hkind.apply_timestamp_offset cfg _,
              node_id, info, ?_, ?_, ?_⟩⟩
            · rw [hconn, hself]
            · rw [hconn, hwriter]
            · rw [hshared, hget]

/-- The entry of the Child is changed in place. -/
theorem Found.kept {node_id : String} {info : SensorInfo} (hfound : Found node_id info h)
    (hfine : h₂.Fine) (hmsg : h₂.msg.unforwarded = h.msg.unforwarded)
    (hregistry : h₂.shared.registered_sensors =
      h.shared.registered_sensors.set node_id (info.remember h.msg)) : Kept h h₂ := by
  refine @Kept.accepted h h₂ node_id (info.remember h.msg) info.latest hfine ?_ ?_ ?_ ?_ ?_
  · rw [hregistry, Dict.get?_set_self]
  · rw [SensorInfo.writer_remember, hfound.writer]
  · intro id hid
    rw [hregistry, Dict.get?_set_ne _ _ hid]
  · exact Or.inr ⟨info, hfound.entry, hfound.writer, rfl⟩
  · rw [SensorInfo.latest_remember, hmsg]

theorem filter_detection_of_none (cfg : Config)
    (hnone : h.msg.parsed.bind ParsedRecord.detection_confidence = none) :
    filter_detection cfg h = h := by
  unfold filter_detection
  rw [hnone]
  cases cfg.detectionConfidenceFiltering <;> rfl

theorem filter_detection_cases (cfg : Config) (h : Handling ChildConnection) :
    filter_detection cfg h = h ∨ (filter_detection cfg h).msg.error.isSome ∧
      (filter_detection cfg h).shared = h.shared := by
  unfold filter_detection
  split
  · split
    · exact Or.inl rfl
    · exact Or.inr ⟨rfl, rfl⟩
  · exact Or.inl rfl

/-- A further registration. -/
theorem kept_reregister (cfg : Config) {raises : Raises} (hack : raises.registration_ack = none)
    (hfine : h.Fine) {node_id : String} {info : SensorInfo} (hfound : Found node_id info h)
    (hregistration : h.msg.registration ≠ none) :
    Kept h (reregister cfg raises h) ∧ (reregister cfg raises h).Fine ∧
      (reregister cfg raises h).msg = h.msg := by
  have hreport : h.msg.report = some .registration := if_pos hregistration
  unfold reregister
  rw [if_neg hregistration]
  dsimp only
  generalize hself : ({ h.self with
    registration := some h.msg, last_status_report_system := none } : ChildConnection) = self
  have hfound' : Found node_id info { h with self := self } := by
    subst hself
    exact ⟨hfound.named, hfound.writer, hfound.entry⟩
  rw [updateInfo_of_found hfound']
  generalize hset : ({ h with
      self := self
      shared := { h.shared with
        registered_sensors := h.shared.registered_sensors.set node_id
          { info with
            registration := h.msg
            recent_status_new := none
            recent_status_unchanged := none } } } : Handling ChildConnection) = h'
  have hfine' : h'.Fine := by
    subst hset
    exact ⟨hfine.error, hfine.raised⟩
  have hmsg' : h'.msg = h.msg := by
    subst hset
    rfl
  have hkept : Kept h h' := by
    refine hfound.kept hfine' (by rw [hmsg']) ?_
    rw [SensorInfo.remember, hreport, ← hset]
  obtain ⟨-, hmsg, -, hraised⟩ := acknowledge_kept (h := h') cfg hack
  exact ⟨hkept.acknowledge cfg hack, ⟨hmsg ▸ hfine'.error, hraised ▸ hfine'.raised⟩,
    hmsg.trans hmsg'⟩

theorem kept_handle_status_report (hfine : h.Fine) {node_id : String} {info : SensorInfo}
    (hfound : Found node_id info h) (hregistration : h.msg.registration = none)
    {status_report : StatusReportRecord} (hstatus : h.msg.status_report = some status_report) :
    Kept h (handle_status_report h) ∧
      (handle_status_report h).msg.parsed = h.msg.parsed := by
  have hreport : h.msg.report = some
      (if status_report.is_unchanged then .status_unchanged else .status_new) := by
    rw [MessageRecord.report, if_neg (not_not.mpr hregistration), hstatus]
    rfl
  unfold handle_status_report
  rw [hstatus]
  dsimp only
  split
  · rename_i hunchanged
    rw [if_pos hunchanged] at hreport
    split
    · exact ⟨.refused (Or.inl rfl) rfl, rfl⟩
    · split
      · exact ⟨.refused (Or.inl rfl) rfl, rfl⟩
      · rw [updateInfo_of_found hfound]
        refine ⟨hfound.kept ⟨hfine.error, hfine.raised⟩ rfl ?_, rfl⟩
        rw [SensorInfo.remember, hreport]
  · rename_i hnew
    rw [if_neg hnew] at hreport
    have hfound' : Found node_id info { h with self := { h.self with
        last_status_report_system := some status_report.system } } :=
      ⟨hfound.named, hfound.writer, hfound.entry⟩
    rw [updateInfo_of_found hfound']
    refine ⟨hfound.kept ⟨hfine.error, hfine.raised⟩ rfl ?_, rfl⟩
    rw [SensorInfo.remember, hreport]

/-- What the registry makes of a message that `check_owner` lets pass. -/
theorem kept_handle_report (cfg : Config) {raises : Raises}
    (hack : raises.registration_ack = none) (hfine : h.Fine) (hkind : OneKind h.msg)
    {node_id : String} {info : SensorInfo} (hfound : Found node_id info h) :
    Kept h ((((h.andThen (reregister cfg raises)).andThen handle_status_report).andThen
      (filter_detection cfg)).andThen forward) := by
  rw [hfine.andThen]
  by_cases hregistration : h.msg.registration = none
  · rw [reregister, if_pos hregistration, hfine.andThen]
    cases hstatus : h.msg.status_report with
    | none =>
        have hsame : handle_status_report h = h := by rw [handle_status_report, hstatus]
        have hreport : h.msg.report = none := by
          rw [MessageRecord.report, if_neg (not_not.mpr hregistration), hstatus]
          rfl
        rw [hsame, hfine.andThen]
        rcases filter_detection_cases cfg h with hfilter | ⟨herror, hshared⟩
        · rw [hfilter, hfine.andThen]
          refine Kept.forward (@Kept.accepted h h node_id info info.latest hfine hfound.entry
            hfound.writer (fun _ _ ↦ rfl) (Or.inr ⟨info, hfound.entry, hfound.writer, rfl⟩) ?_)
          have hnote : h.msg.unforwarded.report = none := hreport
          rw [Latest.note, hnote]
        · rw [Handling.andThen_of_stopped (Or.inl herror)]
          exact .refused (Or.inl herror) (by rw [hshared])
    | some status_report =>
        have hdetection : h.msg.parsed.bind ParsedRecord.detection_confidence = none := by
          by_contra hne
          rw [(hkind.detection hne).2] at hstatus
          cases hstatus
        obtain ⟨hkept, hparsed⟩ := kept_handle_status_report hfine hfound hregistration hstatus
        rcases (handle_status_report h).stopped_or_fine with hstopped | hfine'
        · rw [Handling.andThen_of_stopped hstopped, Handling.andThen_of_stopped hstopped]
          exact hkept
        · rw [hfine'.andThen, filter_detection_of_none cfg (hparsed ▸ hdetection), hfine'.andThen]
          exact hkept.forward
  · have hdetection : h.msg.parsed.bind ParsedRecord.detection_confidence = none := by
      by_contra hne
      exact hregistration (hkind.detection hne).1
    obtain ⟨hkept, hfine', hmsg⟩ := kept_reregister cfg hack hfine hfound hregistration
    have hsame : handle_status_report (reregister cfg raises h) = reregister cfg raises h := by
      rw [handle_status_report, hmsg, hkind.registration hregistration]
    rw [hfine'.andThen, hsame, hfine'.andThen, filter_detection_of_none cfg (hmsg ▸ hdetection),
      hfine'.andThen]
    exact hkept.forward

theorem kept_handle_other (cfg : Config) {raises : Raises} (hack : raises.registration_ack = none)
    (hkind : OneKind h.msg) : Kept h (handle_other cfg raises h) := by
  unfold handle_other
  rcases h.stopped_or_fine with hstopped | hfine
  · simp only [Handling.andThen_of_stopped hstopped]
    exact .refused hstopped rfl
  · rw [hfine.andThen]
    obtain ⟨hshared, hwriter, hfound⟩ := found_check_owner cfg raises hkind
    rcases (check_owner cfg raises h).stopped_or_fine with hstopped | hfine'
    · simp only [Handling.andThen_of_stopped hstopped]
      exact .refused hstopped (by rw [hshared])
    · obtain ⟨hkind', node_id, info, hfound⟩ := hfound hfine'
      exact (kept_handle_report cfg hack hfine' hkind' hfound).of_same hshared hwriter

theorem kept_handle_message (cfg : Config) {raises : Raises}
    (hack : raises.registration_ack = none) (hraised : h.raised = none) (hkind : OneKind h.msg) :
    Kept h (handle_message cfg raises h) ∧ (handle_message cfg raises h).raised = none := by
  have hkept : Kept h (if h.self.registration = none then handle_registration cfg raises h
      else handle_other cfg raises h) := by
    split
    · exact kept_handle_registration cfg hack hraised
    · exact kept_handle_other cfg hack hkind
  show Kept h (finish _) ∧ (finish _).raised = none
  generalize (if h.self.registration = none then handle_registration cfg raises h
    else handle_other cfg raises h) = h₁ at hkept
  rcases h₁.stopped_or_fine with hstopped | hfine
  · rw [finish_of_stopped hstopped]
    have hsame : ∀ h : Handling ChildConnection, ∀ writer destination_id,
        (h.send_error_reply_if_necessary writer destination_id).shared = h.shared ∧
          (h.send_error_reply_if_necessary writer destination_id).raised = h.raised := by
      intro h writer destination_id
      unfold Handling.send_error_reply_if_necessary
      split <;> exact ⟨rfl, rfl⟩
    obtain ⟨hshared, hraised'⟩ := hsame h₁.catchAll h₁.catchAll.self.writer h₁.catchAll.self.node_id
    have hcaught : h₁.catchAll.shared = h₁.shared ∧ h₁.catchAll.raised = none ∧
        h₁.catchAll.msg.error.isSome := by
      unfold Handling.catchAll
      split
      · exact ⟨rfl, rfl, rfl⟩
      · rename_i hnone
        rw [hnone] at hstopped
        exact ⟨rfl, hnone, hstopped.resolve_right Bool.false_ne_true⟩
    refine ⟨.refused (Or.inl ?_) ?_, hraised'.trans hcaught.2.1⟩
    · rw [Handling.send_error_reply_msg]
      exact hcaught.2.2
    · rw [hshared, hcaught.1]
      cases hkept with
      | refused _ hregistry => exact hregistry
      | accepted hfine =>
          rw [hfine.error, hfine.raised] at hstopped
          exact (hstopped.elim Bool.false_ne_true Bool.false_ne_true).elim
  · rw [finish_of_fine hfine.error hfine.raised]
    exact ⟨hkept.congr (fun hfine ↦ ⟨hfine.error, hfine.raised⟩) id rfl fun _ ↦ rfl, hfine.raised⟩

/-! ## Acknowledgements that raise -/

theorem acknowledge_shared (cfg : Config) (raises : Raises) (h : Handling ChildConnection) :
    (acknowledge cfg raises h).shared = h.shared := by
  unfold acknowledge
  split
  · cases raises.registration_ack <;> rfl
  · rfl

theorem finish_shared (h : Handling ChildConnection) : (finish h).shared = h.shared := by
  unfold finish
  dsimp only
  rw [Handling.send_error_reply_shared, Handling.catchAll_shared]
  split
  · exact h.send_to_parent_shared false none
  · rfl

theorem handle_registration_acknowledging (cfg : Config) (raises : Raises)
    (h : Handling ChildConnection) : (handle_registration cfg raises h).shared =
      (handle_registration cfg raises.acknowledging h).shared := by
  unfold handle_registration
  split
  · rfl
  · split
    · rfl
    · split
      · rfl
      · split
        · rfl
        · dsimp only [Raises.acknowledging]
          cases raises.timestamp with
          | some text => rfl
          | none =>
              dsimp only [Handling.call]
              cases raises.sensor_id with
              | some text => rfl
              | none =>
                  dsimp only
                  rw [acknowledge_shared, acknowledge_shared]

theorem reregister_msg (cfg : Config) (raises : Raises) (h : Handling ChildConnection) :
    (reregister cfg raises h).msg = h.msg := by
  unfold reregister
  split
  · rfl
  · dsimp only
    rw [acknowledge_msg]
    unfold updateInfo
    split
    · rfl
    · split <;> rfl

theorem reregister_acknowledging (cfg : Config) (raises : Raises) (h : Handling ChildConnection) :
    (reregister cfg raises h).shared = (reregister cfg raises.acknowledging h).shared := by
  unfold reregister
  split
  · rfl
  · dsimp only
    rw [acknowledge_shared, acknowledge_shared]

/-- A registration is at its end after it has been entered in the registry. -/
theorem handle_report_shared (cfg : Config) (hkind : OneKind h.msg)
    (hregistration : h.msg.registration ≠ none) :
    (((h.andThen handle_status_report).andThen (filter_detection cfg)).andThen forward).shared =
      h.shared := by
  have hdetection : h.msg.parsed.bind ParsedRecord.detection_confidence = none := by
    by_contra hne
    exact hregistration (hkind.detection hne).1
  have hreport : h.andThen handle_status_report = h := by
    unfold Handling.andThen handle_status_report
    rw [hkind.registration hregistration]
    exact ite_self h
  have hfilter : h.andThen (filter_detection cfg) = h := by
    unfold Handling.andThen
    rw [filter_detection_of_none cfg hdetection]
    exact ite_self h
  rw [hreport, hfilter]
  exact Handling.andThen_shared (by rw [forward_eq])

/-- The registry does not depend on whether acknowledging a registration raises: that is the
last thing that is done with one. -/
theorem handle_message_acknowledging (cfg : Config) (raises : Raises) (hkind : OneKind h.msg) :
    (handle_message cfg raises h).shared = (handle_message cfg raises.acknowledging h).shared := by
  show (finish _).shared = (finish _).shared
  rw [finish_shared, finish_shared]
  split
  · exact handle_registration_acknowledging cfg raises h
  · unfold handle_other
    rw [show check_owner cfg raises = check_owner cfg raises.acknowledging from rfl]
    obtain ⟨-, -, hfound⟩ := found_check_owner (h := h) cfg raises.acknowledging hkind
    generalize hchecked : h.andThen (check_owner cfg raises.acknowledging) = h₁
    rcases h₁.stopped_or_fine with hstopped | hfine
    · simp only [Handling.andThen_of_stopped hstopped]
    · rw [hfine.andThen, hfine.andThen]
      have hkind₁ : OneKind h₁.msg := by
        subst hchecked
        unfold Handling.andThen at hfine ⊢
        split at hfine
        · rw [if_pos ‹_›]
          exact hkind
        · rw [if_neg ‹_›]
          exact (hfound hfine).1
      by_cases hregistration : h₁.msg.registration = none
      · simp only [reregister, if_pos hregistration]
      · have hmsg := reregister_msg cfg raises h₁
        have hmsg' := reregister_msg cfg raises.acknowledging h₁
        rw [handle_report_shared cfg (hmsg ▸ hkind₁) (hmsg ▸ hregistration),
          handle_report_shared cfg (hmsg' ▸ hkind₁) (hmsg' ▸ hregistration)]
        exact reregister_acknowledging cfg raises h₁

end ChildConnection

/-! ## The other connections -/

theorem PeerConnection.forward_shared (cfg : Config) (raises : Raises)
    (h : Handling PeerConnection) : (forward cfg raises h).shared = h.shared := by
  unfold forward
  split
  · rfl
  · split
    · exact h.send_to_parent_shared _ _
    · split
      · rfl
      · rename_i info _
        cases raises.timestamp with
        | some text => rfl
        | none =>
            dsimp only [Handling.call]
            rw [Handling.send_to_parent_shared]
            exact h.apply_timestamp_offset_shared cfg _

theorem PeerConnection.handle_message_shared (cfg : Config) (raises : Raises)
    (h : Handling PeerConnection) : (handle_message cfg raises h).shared = h.shared := by
  have hbefore : Before h (h.andThen (handle_registration cfg raises)
      |>.andThen check_source) :=
    ((Before.refl h).andThen (before_handle_registration cfg raises)).andThen before_check_source
  unfold handle_message handle_message_inner
  dsimp only
  rw [Handling.send_error_reply_shared, Handling.catchAll_shared,
    Handling.andThen_shared (forward_shared cfg raises _), hbefore.shared]

theorem ParentConnection.handle_message_shared (h : Handling ParentConnection) :
    (handle_message h).shared = h.shared := by
  cases herror : h.msg.error with
  | some error =>
      unfold handle_message
      rw [herror]
      exact h.send_error_reply_shared _ _
  | none =>
      cases hparsed : h.msg.parsed with
      | none =>
          rw [handle_message_unparsed herror hparsed]
          rfl
      | some parsed =>
          rw [handle_message_eq herror hparsed]
          rfl

/-! ## In every run -/

/-- The message that is entered in the registry with an event: one that is accepted from a Child,
or that is refused for no other reason than that acknowledging it raises. -/
def entered (cfg : Config) (s : State) : Event → List (ℕ × MessageRecord)
  | .received connection_id msg raises =>
      match s.connections.get? connection_id with
      | some (.child self) =>
          let h := ChildConnection.handle_message cfg raises.acknowledging (s.start self msg)
          if h.msg.error = none then [(connection_id, h.msg.unforwarded)] else []
      | _ => []
  | _ => []

/-- The messages that came in on one connection. -/
def enteredFrom (c : ℕ) (messages : List (ℕ × MessageRecord)) : List MessageRecord :=
  messages.filterMap fun message ↦ if message.1 = c then some message.2 else none

theorem enteredFrom_append (c : ℕ) (messages messages' : List (ℕ × MessageRecord)) :
    enteredFrom c (messages ++ messages') =
      enteredFrom c messages ++ enteredFrom c messages' := List.filterMap_append

theorem enteredFrom_self (c : ℕ) (msg : MessageRecord) : enteredFrom c [(c, msg)] = [msg] := by
  simp [enteredFrom]

theorem enteredFrom_ne {c c' : ℕ} (h : c ≠ c') (msg : MessageRecord) :
    enteredFrom c' [(c, msg)] = [] := by
  simp [enteredFrom, h]

/-- A message is as the parsers make it. -/
def Event.Plain : Event → Prop
  | .received _ msg _ => OneKind msg
  | _ => True

/-- What is held of a Child are the last of the messages that were entered. -/
def Told (s : State) (messages : List (ℕ × MessageRecord)) : Prop :=
  ∀ node_id info, s.shared.registered_sensors.get? node_id = some info →
    info.latest = Latest.among (enteredFrom info.writer messages)

theorem Told.of_registry {s s' : State} {messages : List (ℕ × MessageRecord)}
    (h : Told s messages)
    (hregistry : s'.shared.registered_sensors = s.shared.registered_sensors) :
    Told s' messages := by
  intro node_id info hinfo
  exact h node_id info (hregistry ▸ hinfo)

theorem Told.close {s s' : State} {messages : List (ℕ × MessageRecord)} {c : ℕ}
    (h : Told s messages) (hclose : close s c = some s') : Told s' messages := by
  obtain ⟨k, hk, rfl⟩ := Option.map_eq_some_iff.mp hclose
  have hsub : ∀ node_id info, (k.handle_closed s.shared).registered_sensors.get? node_id =
      some info → s.shared.registered_sensors.get? node_id = some info := by
    intro node_id info hinfo
    cases k with
    | child self =>
        simp only [Connection.handle_closed] at hinfo
        unfold ChildConnection.handle_closed at hinfo
        split at hinfo
        · exact hinfo
        · split at hinfo
          · exact (Dict.get?_erase_eq_some_iff.mp hinfo).2
          · exact hinfo
    | peer self => exact hinfo
    | parent self =>
        simp only [Connection.handle_closed] at hinfo
        unfold ParentConnection.handle_closed at hinfo
        split at hinfo <;> exact hinfo
    | recorder self => exact hinfo
  exact fun node_id info hinfo ↦ h node_id info (hsub node_id info hinfo)

/-- A message on a connection other than a Child leaves the registry alone. -/
theorem handle_registry {cfg : Config} {s : State} {c : ℕ} {msg : MessageRecord}
    {raises : Raises} {r : Handled} (hr : handle cfg s c msg raises = some r)
    (hnot : ∀ self, s.connections.get? c ≠ some (.child self)) :
    r.state.shared.registered_sensors = s.shared.registered_sensors ∧
      entered cfg s (.received c msg raises) = [] := by
  obtain ⟨k, hk, rfl⟩ := Option.map_eq_some_iff.mp hr
  rw [entered, hk]
  cases k with
  | child self => exact absurd hk (hnot self)
  | peer self =>
      exact ⟨congrArg _ (PeerConnection.handle_message_shared cfg raises (s.start self msg)), rfl⟩
  | parent self =>
      exact ⟨congrArg _ (ParentConnection.handle_message_shared (s.start self msg)), rfl⟩
  | recorder self =>
      exact ⟨congrArg _ ((s.start self msg).send_to_parent_shared false none), rfl⟩

/-- Two nodes are registered by different connections. -/
theorem Consistent.writer_ne {s : State} (h : Consistent s) {node_id id : String}
    {info info' : SensorInfo} (hinfo : s.shared.registered_sensors.get? node_id = some info)
    (hinfo' : s.shared.registered_sensors.get? id = some info') (hid : id ≠ node_id) :
    info.writer ≠ info'.writer := by
  intro howner
  have hfirst := h.registered node_id info.writer (congrArg (Option.map SensorInfo.writer) hinfo)
  have hsecond := h.registered id info'.writer (congrArg (Option.map SensorInfo.writer) hinfo')
  rw [← howner, hfirst] at hsecond
  cases hsecond
  exact hid rfl

/-- A message of a Child changes what is held of it, and of nobody else. -/
theorem Told.child {cfg : Config} {s : State} {messages : List (ℕ × MessageRecord)} {c : ℕ}
    {self : ChildConnection} {msg : MessageRecord} {raises : Raises} (h : Told s messages)
    (hconsistent : Consistent s) (hk : s.connections.get? c = some (.child self))
    {r : Handled} (hr : handle cfg s c msg raises = some r) (hnext : Consistent r.state)
    (hkind : OneKind msg) :
    Told r.state (messages ++ entered cfg s (.received c msg raises)) := by
  have hself : self.writer = c := (hconsistent.connections c _ hk).2.1
  have hack : raises.acknowledging.registration_ack = none := rfl
  obtain ⟨hkept, hraised⟩ :=
    ChildConnection.kept_handle_message (h := s.start self msg) cfg hack rfl hkind
  have hsame : r.state.shared =
      (ChildConnection.handle_message cfg raises.acknowledging (s.start self msg)).shared := by
    rw [handle, hk] at hr
    cases hr
    exact ChildConnection.handle_message_acknowledging cfg raises hkind
  rw [entered, hk]
  dsimp only
  cases hkept with
  | refused hstopped hregistry =>
      rw [hraised] at hstopped
      have herror := hstopped.resolve_right Bool.false_ne_true
      rw [if_neg (Option.isSome_iff_ne_none.mp herror), List.append_nil]
      exact h.of_registry ((congrArg _ hsame).trans hregistry)
  | @accepted node_id info latest hfine hinfo hwriter hothers hbefore hlatest =>
      rw [← hsame] at hinfo hothers
      rw [if_pos hfine.error]
      have howner : info.writer = c := hwriter.trans hself
      intro id info' hinfo'
      rw [enteredFrom_append]
      by_cases hid : id = node_id
      · rw [hid] at hinfo'
        obtain rfl : info = info' := Option.some.inj (hinfo.symm.trans hinfo')
        rw [howner, enteredFrom_self, Latest.among_append, hlatest]
        rcases hbefore with hregistration | ⟨info₀, hinfo₀, hwriter₀, hlatest₀⟩
        · refine Latest.note_registration ?_ _ _
          exact hregistration
        · rw [← hlatest₀, h node_id info₀ hinfo₀, hwriter₀.trans hself]
      · have hne : c ≠ info'.writer := howner ▸ hnext.writer_ne hinfo hinfo' hid
        rw [enteredFrom_ne hne, List.append_nil]
        exact h id info' ((hothers id hid).symm.trans hinfo')

theorem Told.step {cfg : Config} {s s' : State} {messages : List (ℕ × MessageRecord)} {e : Event}
    (h : Told s messages) (hconsistent : Consistent s) (hnext : Consistent s')
    (hplain : e.Plain) (hstep : server cfg s e = some s') :
    Told s' (messages ++ entered cfg s e) := by
  cases e with
  | opened config =>
      cases hstep
      refine (List.append_nil messages).symm ▸ h.of_registry ?_
      show ((Connection.make config _).join s.shared).registered_sensors = _
      unfold Connection.join
      split
      · rfl
      · split <;> rfl
      · rfl
  | received c msg raises =>
      obtain ⟨r, hr, rfl⟩ := Option.map_eq_some_iff.mp hstep
      by_cases hchild : ∃ self, s.connections.get? c = some (.child self)
      · obtain ⟨self, hk⟩ := hchild
        exact h.child hconsistent hk hr hnext hplain
      · obtain ⟨hregistry, hnothing⟩ := handle_registry hr fun self hk ↦ hchild ⟨self, hk⟩
        rw [hnothing, List.append_nil]
        exact h.of_registry hregistry
  | closed c =>
      refine (List.append_nil messages).symm ▸ h.close hstep

theorem told_run {cfg : Config} {events : List Event} {s : State}
    (hrun : (server cfg).run .init events = some s) (hplain : ∀ e ∈ events, e.Plain) :
    Told s ((server cfg).outputs (entered cfg) .init events) := by
  have hinv : (∃ takes, Recorded s takes) ∧
      Told s ([] ++ (server cfg).outputs (entered cfg) .init events) := by
    refine Machine.outputs_invariant_of_forall
      (I := fun s messages ↦ (∃ takes, Recorded s takes) ∧ Told s messages) (P := Event.Plain)
      (fun s e s' messages hI hP hstep ↦ ?_) hplain ⟨⟨[], recorded_init⟩, ?_⟩ hrun
    · obtain ⟨⟨takes, hrecorded⟩, htold⟩ := hI
      have hnext := recorded_step hrecorded hstep
      exact ⟨⟨_, hnext⟩, htold.step hrecorded.consistent hnext.consistent hP hstep⟩
    · exact fun _ _ hinfo ↦ nomatch hinfo
  exact hinv.2

/-- Whoever connects as a Peer, or as a Parent that wants all messages, is told of every node
that is owned, and of it the latest messages of its owner that were entered: whatever the
connections have done before, the registry holds neither more nor less than that. -/
theorem greeting_latest {cfg : Config} {events : List Event} {s : State}
    (hrun : (server cfg).run .init events = some s) (hplain : ∀ e ∈ events, e.Plain)
    {config : ConnectionConfig}
    (hconfig : config.type = .Peer ∨ config.type = .Parent ∧ config.forwardAll = true) :
    ∃ nodes : List (String × ℕ), (nodes.map Prod.fst).Nodup ∧
      (∀ node_id c, (node_id, c) ∈ nodes ↔
        Owns (OpenChild s) ((server cfg).outputs taken .init events) node_id c) ∧
      writes cfg s (.opened config) = nodes.flatMap fun node ↦
        (Latest.among (enteredFrom node.2
          ((server cfg).outputs (entered cfg) .init events))).writes
            (s.previous_connection_id + 1) := by
  have htold := told_run hrun hplain
  have hrecorded := recorded_run hrun
  refine ⟨s.shared.registered_sensors.items.map fun entry ↦ (entry.1, entry.2.writer), ?_, ?_, ?_⟩
  · rw [List.map_map]
    exact s.shared.registered_sensors.nodup_keys
  · intro node_id c
    rw [← hrecorded.registrant, SharedData.registrant, Option.map_eq_some_iff, List.mem_map]
    constructor
    · rintro ⟨⟨id, info⟩, hmem, hpair⟩
      cases hpair
      exact ⟨info, Dict.get?_eq_some_iff.mpr hmem, rfl⟩
    · rintro ⟨info, hinfo, rfl⟩
      exact ⟨(node_id, info), Dict.get?_eq_some_iff.mp hinfo, rfl⟩
  · have hgreeting : writes cfg s (.opened config) =
        s.shared.replay (s.previous_connection_id + 1) := by
      rw [writes, Connection.make]
      rcases hconfig with htype | ⟨htype, hall⟩
      · rw [htype]
        rfl
      · rw [htype]
        exact if_pos hall
    rw [hgreeting, SharedData.replay, List.flatMap_map, List.flatMap_map]
    refine List.flatMap_congr fun entry hmem ↦ ?_
    rw [SensorInfo.replay_eq, htold entry.1 entry.2 (Dict.get?_eq_some_iff.mpr hmem)]

/-- A status report of a node. -/
def reportFrom (node_id system : String) (is_unchanged : Bool) : MessageRecord :=
  { messageFrom node_id none none with status_report := some ⟨system, is_unchanged⟩ }

theorem oneKind_messageFrom (node_id : String) (destination : Option String)
    (registration : Option RegistrationRecord) :
    OneKind (messageFrom node_id destination registration) :=
  ⟨fun _ ↦ rfl, fun hdetection ↦ absurd rfl hdetection⟩

theorem oneKind_reportFrom (node_id system : String) (is_unchanged : Bool) :
    OneKind (reportFrom node_id system is_unchanged) :=
  ⟨fun hregistration ↦ absurd rfl hregistration, fun hdetection ↦ absurd rfl hdetection⟩

/-- Registrations are acknowledged. -/
def acknowledging : Config := { plain with sendRegistrationAck := true }

/-- Two Children, one of which registers again after its status report; acknowledging that
raises, and so it is refused, but it has been entered. -/
def reporting : List Event :=
  [.opened ⟨.Child, .XML, false⟩, .opened ⟨.Child, .PROTO, false⟩,
    .received 1 (messageFrom "edge" none (some ⟨"edge"⟩)) .nothing,
    .received 2 (messageFrom "depth" none (some ⟨"depth"⟩)) .nothing,
    .received 1 (reportFrom "edge" "ready" false) .nothing,
    .received 2 (reportFrom "depth" "ready" false) .nothing,
    .received 2 (reportFrom "depth" "ready" true) .nothing,
    .received 1 (messageFrom "edge" none (some ⟨"edge again"⟩))
      ⟨none, none, some "KeyError: 'edge'"⟩]

theorem greeting_latest_reporting :
    ∃ s, (server acknowledging).run .init reporting = some s ∧
      (writes acknowledging s (.opened ⟨.Peer, .PROTO, false⟩)).length = 4 ∧
      ∃ nodes : List (String × ℕ), (nodes.map Prod.fst).Nodup ∧
        writes acknowledging s (.opened ⟨.Peer, .PROTO, false⟩) = nodes.flatMap fun node ↦
          (Latest.among (enteredFrom node.2
            ((server acknowledging).outputs (entered acknowledging) .init reporting))).writes
              (s.previous_connection_id + 1) := by
  obtain ⟨s, hs⟩ : ∃ s, (server acknowledging).run .init reporting = some s :=
    Option.isSome_iff_exists.mp (by decide +kernel)
  have hlength : ((server acknowledging).run .init reporting).map (fun s ↦
      (writes acknowledging s (.opened ⟨.Peer, .PROTO, false⟩)).length) = some 4 := by
    decide +kernel
  rw [hs, Option.map_some, Option.some_inj] at hlength
  have hplain : ∀ e ∈ reporting, e.Plain := by
    simp only [reporting, List.forall_mem_cons, Event.Plain, oneKind_messageFrom,
      oneKind_reportFrom, true_and]
    exact fun _ hnil ↦ nomatch hnil
  obtain ⟨nodes, hnodup, -, hwrites⟩ :=
    @greeting_latest acknowledging reporting s hs hplain ⟨.Peer, .PROTO, false⟩ (Or.inl rfl)
  exact ⟨s, hs, hlength, nodes, hnodup, hwrites⟩

end Apex

end SensorFusion
