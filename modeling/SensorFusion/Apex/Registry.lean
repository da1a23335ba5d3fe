import SensorFusion.Apex.Server
import SensorFusion.Lib.Ownership
import SensorFusion.Lib.Subscribers

/-!
# Who is written to

What a message is written to is decided by the registry and the three lists of writers.
Handling a message changes none of them, but for one entry of the registry: the first
registration of a Child puts the Child there, whoever was there before.  So the registry is
always the one that its history gives: a node id belongs to the Child that took it last, for
as long as that is open.
-/

namespace SensorFusion

namespace Apex

/-- The writer that a node id is registered with. -/
def SharedData.registrant (shared : SharedData) (node_id : String) : Option Writer :=
  (shared.registered_sensors.get? node_id).map SensorInfo.writer

/-- The Parents that want all messages, or those that do not. -/
def SharedData.parent_writers (shared : SharedData) : Bool → List ParentWriter
  | true => shared.parent_all_writers
  | false => shared.parent_high_level_writers

/-- The same connections are written to. -/
structure SameRoutes (a b : SharedData) : Prop where
  registrant : ∀ node_id, b.registrant node_id = a.registrant node_id
  dmm_writers : b.dmm_writers = a.dmm_writers
  parent_writers : ∀ all, b.parent_writers all = a.parent_writers all

theorem SameRoutes.refl (a : SharedData) : SameRoutes a a := ⟨fun _ ↦ rfl, rfl, fun _ ↦ rfl⟩

theorem SameRoutes.trans {a b c : SharedData} (h : SameRoutes a b) (h' : SameRoutes b c) :
    SameRoutes a c where
  registrant node_id := (h'.registrant node_id).trans (h.registrant node_id)
  dmm_writers := h'.dmm_writers.trans h.dmm_writers
  parent_writers all := (h'.parent_writers all).trans (h.parent_writers all)

/-- What the shared data depends on in a connection. -/
inductive Standing
  | child (writer : Writer) (node_id : Option String) (registered : Bool)
  | peer (writer : Writer)
  | parent (self : ParentConnection)
  | recorder
  deriving DecidableEq

/-- The writer of the connection itself. -/
def Standing.writer : Standing → Option Writer
  | .child writer _ _ => some writer
  | .peer writer => some writer
  | .parent self => some self.writer
  | .recorder => none

def ChildConnection.standing (self : ChildConnection) : Standing :=
  .child self.writer self.node_id self.registration.isSome

def PeerConnection.standing (self : PeerConnection) : Standing := .peer self.writer

def RecorderConnection.standing (_ : RecorderConnection) : Standing := .recorder

def Connection.standing : Connection → Standing
  | .child self => self.standing
  | .peer self => self.standing
  | .parent self => .parent self
  | .recorder self => self.standing

/-- The shared data, or the connection with the writer `own` itself, names `c`. -/
inductive Named (shared : SharedData) (own : Option Writer) (c : Writer) : Prop
  | own (h : own = some c)
  | registrant (node_id : String) (h : shared.registrant node_id = some c)
  | dmm (h : c ∈ shared.dmm_writers)
  | parent (all : Bool) (h : c ∈ (shared.parent_writers all).map ParentWriter.writer)

theorem Named.of_sameRoutes {a b : SharedData} {own : Option Writer} {c : Writer}
    (hroutes : SameRoutes a b) (h : Named b own c) : Named a own c := by
  cases h with
  | own h => exact .own h
  | registrant node_id h => exact .registrant node_id (hroutes.registrant node_id ▸ h)
  | dmm h => exact .dmm (hroutes.dmm_writers ▸ h)
  | parent all h => exact .parent all (hroutes.parent_writers all ▸ h)

/-! ## What a part of a handler leaves alone -/

/-- Neither the routes nor the standing `st` of the connection change, and what is written
goes to connections that are named. -/
structure Keeps {κ : Type} (st : κ → Standing) (h h' : Handling κ) : Prop where
  routes : SameRoutes h.shared h'.shared
  standing : st h'.self = st h.self
  writes : ∀ w ∈ h'.writes, w ∈ h.writes ∨ Named h.shared (st h.self).writer w.writer

namespace Keeps

variable {κ : Type} {st : κ → Standing} {h h₁ h₂ : Handling κ}

/-- Nothing is written. -/
theorem quiet (hroutes : SameRoutes h.shared h₁.shared) (hstanding : st h₁.self = st h.self)
    (hwrites : h₁.writes = h.writes) : Keeps st h h₁ where
  routes := hroutes
  standing := hstanding
  writes _ hw := Or.inl (hwrites ▸ hw)

theorem refl (h : Handling κ) : Keeps st h h := quiet (.refl _) rfl rfl

theorem trans (h₀₁ : Keeps st h h₁) (h₁₂ : Keeps st h₁ h₂) : Keeps st h h₂ where
  routes := h₀₁.routes.trans h₁₂.routes
  standing := h₁₂.standing.trans h₀₁.standing
  writes w hw := by
    rcases h₁₂.writes w hw with hw | hw
    · exact h₀₁.writes w hw
    · rw [h₀₁.standing] at hw
      exact Or.inr (hw.of_sameRoutes h₀₁.routes)

theorem fail (severity : ErrorSeverity) (description : String) :
    Keeps st h (h.fail severity description) := quiet (.refl _) rfl rfl

theorem raise (text : String) : Keeps st h (h.raise text) := quiet (.refl _) rfl rfl

theorem raiseNone (name : String) : Keeps st h (h.raiseNone name) := raise _

theorem setForwarded (count : ℕ) : Keeps st h (h.setForwarded count) := quiet (.refl _) rfl rfl

theorem write {w : Write} (hw : Named h.shared (st h.self).writer w.writer) :
    Keeps st h (h.write w) where
  routes := .refl _
  standing := rfl
  writes w' hw' := by
    rcases List.mem_append.mp hw' with hw' | hw'
    · exact Or.inl hw'
    · rw [List.mem_singleton.mp hw']
      exact Or.inr hw

theorem andThen {next : Handling κ → Handling κ} (hnext : Keeps st h (next h)) :
    Keeps st h (h.andThen next) := by
  unfold Handling.andThen
  split
  · exact refl h
  · exact hnext

theorem call {raises : Option String} {next : Handling κ → Handling κ}
    (hnext : Keeps st h (next h)) : Keeps st h (h.call raises next) := by
  cases raises with
  | some text => exact raise text
  | none => exact hnext

/-- A loop, each step of which may use what has been kept before. -/
theorem foldl {α : Type} {f : Handling κ → α → Handling κ} {l : List α}
    (hf : ∀ h₁, Keeps st h h₁ → ∀ a ∈ l, Keeps st h₁ (f h₁ a)) (h₁ : Handling κ)
    (h₀₁ : Keeps st h h₁) : Keeps st h (l.foldl f h₁) := by
  induction l generalizing h₁ with
  | nil => exact h₀₁
  | cons a l ih =>
      refine ih (fun h₂ h₀₂ b hb ↦ hf h₂ h₀₂ b (List.mem_cons_of_mem a hb)) _ ?_
      exact h₀₁.trans (hf h₁ h₀₁ a List.mem_cons_self)

/-- A connection that was named before is named still. -/
theorem named (h₀₁ : Keeps st h h₁) {c : Writer} (hc : Named h.shared (st h.self).writer c) :
    Named h₁.shared (st h₁.self).writer c := by
  have hback : SameRoutes h₁.shared h.shared :=
    ⟨fun id ↦ (h₀₁.routes.registrant id).symm, h₀₁.routes.dmm_writers.symm,
      fun all ↦ (h₀₁.routes.parent_writers all).symm⟩
  rw [h₀₁.standing]
  exact hc.of_sameRoutes hback

theorem writeEach {writers : List Writer}
    (hwriters : ∀ c ∈ writers, Named h.shared (st h.self).writer c) :
    Keeps st h (h.writeEach writers) :=
  foldl (fun _ h₀₁ c hc ↦ write (h₀₁.named (hwriters c hc))) h (refl h)

theorem send_to_parent (high_level : Bool) (except_writer : Option ParentWriter) :
    Keeps st h (h.send_to_parent high_level except_writer) := by
  unfold Handling.send_to_parent
  split
  · exact refl h
  · refine foldl (fun h₁ h₀₁ writer hwriter ↦ ?_) h (refl h)
    have hnamed : Named h.shared (st h.self).writer writer.writer := by
      rcases List.mem_append.mp hwriter with hwriter | hwriter
      · exact .parent true (List.mem_map_of_mem hwriter)
      · split at hwriter
        · exact .parent false (List.mem_map_of_mem hwriter)
        · exact nomatch hwriter
    split
    · exact (write (h₀₁.named hnamed)).trans (setForwarded _)
    · exact refl h₁

theorem apply_timestamp_offset (cfg : Config) (offset : ℤ) :
    Keeps st h (h.apply_timestamp_offset cfg offset) := by
  unfold Handling.apply_timestamp_offset
  split
  · exact quiet (.refl _) rfl rfl
  · exact refl h

theorem send_error_reply {writer : Writer} (hown : (st h.self).writer = some writer)
    (destination_id : Option String) :
    Keeps st h (h.send_error_reply_if_necessary writer destination_id) := by
  unfold Handling.send_error_reply_if_necessary
  split
  · exact write (.own hown)
  · exact refl h

theorem catchAll : Keeps st h h.catchAll := by
  unfold Handling.catchAll
  split
  · exact quiet (.refl _) rfl rfl
  · exact refl h

end Keeps

/-! ## Children -/

namespace ChildConnection

variable {h : Handling ChildConnection}

theorem keeps_filter_detection (cfg : Config) : Keeps standing h (filter_detection cfg h) := by
  unfold filter_detection
  split
  · split
    · exact .refl h
    · exact .fail _ _
  · exact .refl h

theorem keeps_forward : Keeps standing h (forward h) :=
  (Keeps.writeEach fun _ hc ↦ .dmm hc).trans (.setForwarded _)

theorem keeps_acknowledge (cfg : Config) (raises : Raises) :
    Keeps standing h (acknowledge cfg raises h) := by
  unfold acknowledge
  split
  · exact .call (.write (.own rfl))
  · exact .refl h

/-- An entry of the registry that is changed in place stays with its writer. -/
theorem keeps_updateInfo {f : SensorInfo → SensorInfo}
    (hf : ∀ info, (f info).writer = info.writer) :
    Keeps standing h (updateInfo f h) := by
  unfold updateInfo
  split
  · exact .refl h
  · rename_i node_id _
    split
    · exact .refl h
    · rename_i info hinfo
      refine .quiet ⟨fun id ↦ ?_, rfl, fun all ↦ by cases all <;> rfl⟩ rfl rfl
      rw [SharedData.registrant, SharedData.registrant, Dict.get?_set]
      split
      · rename_i hid
        rw [hid, hinfo]
        exact congrArg some (hf info)
      · rfl

theorem keeps_check_owner (cfg : Config) (raises : Raises) :
    Keeps standing h (check_owner cfg raises h) := by
  unfold check_owner
  split
  · exact .raiseNone _
  · split
    · exact .fail _ _
    · dsimp only
      split
      · exact .fail _ _
      · exact .call (.apply_timestamp_offset cfg _)

/-- A Child that registers again is registered already. -/
theorem keeps_reregister (cfg : Config) (raises : Raises) (hreg : h.self.registration ≠ none) :
    Keeps standing h (reregister cfg raises h) := by
  unfold reregister
  split
  · exact .refl h
  · dsimp only
    refine Keeps.trans ?_ (keeps_acknowledge cfg raises)
    refine Keeps.trans ?_ (keeps_updateInfo ?_)
    · refine .quiet (.refl _) ?_ rfl
      rw [standing, standing, Option.isSome_iff_ne_none.mpr hreg]
      rfl
    · exact fun _ ↦ rfl

theorem keeps_handle_status_report : Keeps standing h (handle_status_report h) := by
  unfold handle_status_report
  split
  · exact .refl h
  · split
    · split
      · exact .fail _ _
      · split
        · exact .fail _ _
        · exact keeps_updateInfo fun _ ↦ rfl
    · dsimp only
      refine Keeps.trans ?_ (keeps_updateInfo ?_)
      · exact .quiet (.refl _) rfl rfl
      · exact fun _ ↦ rfl

theorem keeps_handle_other (cfg : Config) (raises : Raises) (hreg : h.self.registration ≠ none) :
    Keeps standing h (handle_other cfg raises h) := by
  have hcheck : Keeps standing h (h.andThen (check_owner cfg raises)) :=
    .andThen (keeps_check_owner cfg raises)
  have hreg' : (h.andThen (check_owner cfg raises)).self.registration ≠ none := by
    have hstanding := hcheck.standing
    rw [standing, standing, Standing.child.injEq] at hstanding
    rw [← Option.isSome_iff_ne_none] at hreg ⊢
    exact hstanding.2.2.trans hreg
  have hagain := hcheck.trans (Keeps.andThen (keeps_reregister cfg raises hreg'))
  refine hagain.trans ?_
  refine Keeps.trans ?_ (.andThen keeps_forward)
  refine Keeps.trans ?_ (.andThen (keeps_filter_detection cfg))
  exact .andThen keeps_handle_status_report

/-- A Child gets into the registry under a node id. -/
structure Registers (node_id : String) (h h' : Handling ChildConnection) : Prop where
  registrant : ∀ id, h'.shared.registrant id =
    if id = node_id then some h.self.writer else h.shared.registrant id
  dmm_writers : h'.shared.dmm_writers = h.shared.dmm_writers
  parent_writers : ∀ all, h'.shared.parent_writers all = h.shared.parent_writers all
  self : h'.self.standing = .child h.self.writer (some node_id) true
  writes : ∀ w ∈ h'.writes, w ∈ h.writes ∨ Named h.shared (some h.self.writer) w.writer

theorem registers_register (node_id : String) (offset : ℤ) :
    Registers node_id h (register node_id offset h) where
  registrant id := by
    rw [SharedData.registrant, SharedData.registrant]
    refine (congrArg (Option.map SensorInfo.writer) (Dict.get?_set _ node_id id _)).trans ?_
    split <;> rfl
  dmm_writers := rfl
  parent_writers all := by cases all <;> rfl
  self := rfl
  writes _ hw := Or.inl hw

/-- The routes with the new registration name no one who was not named before. -/
theorem Registers.named {node_id : String} {h₁ : Handling ChildConnection}
    (hr : Registers node_id h h₁) {c : Writer} (hc : Named h₁.shared (some h.self.writer) c) :
    Named h.shared (some h.self.writer) c := by
  cases hc with
  | own hc => exact .own hc
  | registrant id hc =>
      rw [hr.registrant] at hc
      split at hc
      · exact .own hc
      · exact .registrant id hc
  | dmm hc => exact .dmm (hr.dmm_writers ▸ hc)
  | parent all hc => exact .parent all (hr.parent_writers all ▸ hc)

/-- What comes after a registration leaves it as it is. -/
theorem Registers.trans {node_id : String} {h₁ h₂ : Handling ChildConnection}
    (h₀₁ : Registers node_id h h₁) (h₁₂ : Keeps standing h₁ h₂) : Registers node_id h h₂ where
  registrant id := (h₁₂.routes.registrant id).trans (h₀₁.registrant id)
  dmm_writers := h₁₂.routes.dmm_writers.trans h₀₁.dmm_writers
  parent_writers all := (h₁₂.routes.parent_writers all).trans (h₀₁.parent_writers all)
  self := h₁₂.standing.trans h₀₁.self
  writes w hw := by
    rcases h₁₂.writes w hw with hw | hw
    · exact h₀₁.writes w hw
    · rw [h₀₁.self] at hw
      exact Or.inr (h₀₁.named hw)

/-- What comes before a registration leaves it as it is. -/
theorem Registers.of_keeps {node_id : String} {h₁ h₂ : Handling ChildConnection}
    (h₀₁ : Keeps standing h h₁) (h₁₂ : Registers node_id h₁ h₂) : Registers node_id h h₂ := by
  have hwriter : h₁.self.writer = h.self.writer :=
    Option.some.inj (congrArg Standing.writer h₀₁.standing)
  refine ⟨fun id ↦ ?_, h₁₂.dmm_writers.trans h₀₁.routes.dmm_writers,
    fun all ↦ (h₁₂.parent_writers all).trans (h₀₁.routes.parent_writers all), ?_, ?_⟩
  · rw [h₁₂.registrant, h₀₁.routes.registrant, hwriter]
  · rw [h₁₂.self, hwriter]
  · intro w hw
    rcases h₁₂.writes w hw with hw | hw
    · exact h₀₁.writes w hw
    · rw [hwriter] at hw
      exact Or.inr (hw.of_sameRoutes h₀₁.routes)

/-- What handling a message does to the registry, given the node id that it takes. -/
def Outcome : Option String → Handling ChildConnection → Handling ChildConnection → Prop
  | none => Keeps standing
  | some node_id => Registers node_id

theorem Outcome.trans {take : Option String} {h h₁ h₂ : Handling ChildConnection}
    (h₀₁ : Outcome take h h₁) (h₁₂ : Keeps standing h₁ h₂) : Outcome take h h₂ := by
  cases take with
  | none => exact Keeps.trans h₀₁ h₁₂
  | some node_id => exact Registers.trans h₀₁ h₁₂

theorem handle_registration_outcome (cfg : Config) (raises : Raises)
    (hreg : h.self.registration = none) :
    Outcome (h.self.takes h.msg raises) h (handle_registration cfg raises h) := by
  unfold handle_registration
  by_cases herror : h.msg.error = none
  swap
  · rw [if_pos (Option.isSome_iff_ne_none.mpr herror), takes, if_neg fun hand ↦ herror hand.2.1]
    exact .refl h
  rw [if_neg (by rw [herror]; exact Bool.false_ne_true)]
  by_cases hmsg : h.msg.registration = none
  · rw [if_pos hmsg, takes, if_neg fun hand ↦ hand.2.2.1 hmsg]
    exact .fail _ _
  rw [if_neg hmsg, takes]
  cases hparsed : h.msg.parsed with
  | none =>
      rw [Option.bind_none, ite_self]
      exact .raiseNone _
  | some parsed =>
      rw [Option.bind_some]
      dsimp only
      cases hid : parsed.node_id with
      | none =>
          rw [ite_self]
          exact .fail _ _
      | some node_id =>
          dsimp only
          cases htimestamp : raises.timestamp with
          | some text =>
              rw [if_neg fun hand ↦ nomatch hand.2.2.2.1]
              refine Keeps.trans ?_ (.raise text)
              exact .quiet (.refl _) rfl rfl
          | none =>
              cases hsensor : raises.sensor_id with
              | some text =>
                  rw [if_neg fun hand ↦ nomatch hand.2.2.2.2]
                  refine Keeps.trans ?_ (.raise text)
                  refine Keeps.trans ?_ (.apply_timestamp_offset cfg _)
                  exact .quiet (.refl _) rfl rfl
              | none =>
                  rw [if_pos ⟨hreg, herror, hmsg, rfl, rfl⟩]
                  refine Registers.of_keeps ?_ ((registers_register node_id _).trans
                    (keeps_forward.trans (keeps_acknowledge cfg raises)))
                  refine Keeps.trans ?_ (.apply_timestamp_offset cfg _)
                  exact .quiet (.refl _) rfl rfl

theorem handle_message_outcome (cfg : Config) (raises : Raises) :
    Outcome (h.self.takes h.msg raises) h (handle_message cfg raises h) := by
  unfold handle_message
  dsimp only
  refine Outcome.trans ?_ (.send_error_reply rfl _)
  refine Outcome.trans ?_ .catchAll
  have hsend : ∀ h : Handling ChildConnection,
      Keeps standing h (if h.raised = none then h.send_to_parent false none else h) := by
    intro h
    split
    · exact .send_to_parent _ _
    · exact .refl h
  refine Outcome.trans ?_ (hsend _)
  by_cases hreg : h.self.registration = none
  · rw [if_pos hreg]
    exact handle_registration_outcome cfg raises hreg
  · rw [if_neg hreg, takes, if_neg fun hand ↦ hreg hand.1]
    exact keeps_handle_other cfg raises hreg

end ChildConnection

/-! ## The other connections -/

namespace PeerConnection

variable {h : Handling PeerConnection}

theorem keeps_handle_registration (cfg : Config) (raises : Raises) :
    Keeps standing h (handle_registration cfg raises h) := by
  unfold handle_registration
  split
  · exact .refl h
  · split
    · exact .fail _ _
    · split
      · exact .raiseNone _
      · split
        · exact .fail _ _
        · split
          · exact .fail _ _
          · refine Keeps.trans ?_ (.call (.write (.own rfl)))
            exact .quiet (.refl _) rfl rfl

theorem keeps_check_source : Keeps standing h (check_source h) := by
  unfold check_source
  split
  · exact .refl h
  · exact .raiseNone _
  · split
    · exact .fail _ _
    · exact .refl h

theorem keeps_forward (cfg : Config) (raises : Raises) :
    Keeps standing h (forward cfg raises h) := by
  unfold forward
  split
  · exact .raiseNone _
  · split
    · exact .send_to_parent _ _
    · rename_i destination _
      split
      · exact .fail _ _
      · rename_i info hinfo
        have hadjusted : Keeps standing h (h.apply_timestamp_offset cfg info.dmm_msg_offset) :=
          .apply_timestamp_offset cfg _
        refine .call (Keeps.trans ?_ (.send_to_parent _ _))
        refine hadjusted.trans (Keeps.trans (.write ?_) (.setForwarded _))
        exact hadjusted.named (.registrant destination (congrArg (Option.map _) hinfo))

theorem keeps_handle_message (cfg : Config) (raises : Raises) :
    Keeps standing h (handle_message cfg raises h) := by
  unfold handle_message handle_message_inner
  refine Keeps.trans ?_ (.send_error_reply rfl _)
  refine Keeps.trans ?_ .catchAll
  refine Keeps.trans ?_ (.andThen (keeps_forward cfg raises))
  refine Keeps.trans ?_ (.andThen keeps_check_source)
  exact .andThen (keeps_handle_registration cfg raises)

end PeerConnection

namespace ParentConnection

variable {h : Handling ParentConnection}

theorem keeps_route (destination : Option String) : Keeps .parent h (route h destination) := by
  unfold route
  split
  · exact .refl h
  · rename_i info hinfo
    obtain ⟨node_id, -, hinfo⟩ := Option.bind_eq_some_iff.mp hinfo
    refine Keeps.trans (.write ?_) (.setForwarded _)
    exact .registrant node_id (congrArg (Option.map _) hinfo)

theorem keeps_forward : Keeps .parent h (forward h) :=
  (Keeps.writeEach fun _ hc ↦ .dmm hc).trans (.setForwarded _)

theorem keeps_handle_message : Keeps .parent h (handle_message h) := by
  unfold handle_message
  split
  · dsimp only
    split
    · exact (Keeps.setForwarded 0).trans (.raiseNone _)
    · refine Keeps.trans ?_ (.send_to_parent _ _)
      refine Keeps.trans ?_ keeps_forward
      exact (Keeps.setForwarded 0).trans (keeps_route _)
  · exact .send_error_reply rfl _

end ParentConnection

/-! ## One event -/

/-- A message changes nothing in who is written to. -/
structure Quiet (s s' : State) (connection_id : ℕ) : Prop where
  connections : ∃ k k', s.connections.get? connection_id = some k ∧
    s'.connections = s.connections.set connection_id k' ∧ k'.standing = k.standing
  routes : SameRoutes s.shared s'.shared
  previous_connection_id : s'.previous_connection_id = s.previous_connection_id

/-- A message registers the Child that sends it. -/
structure Taking (s s' : State) (node_id : String) (connection_id : ℕ) : Prop where
  connections : ∃ self k', s.connections.get? connection_id = some (.child self) ∧
    s'.connections = s.connections.set connection_id k' ∧
    k'.standing = .child self.writer (some node_id) true ∧
    (∀ id, s'.shared.registrant id =
      if id = node_id then some self.writer else s.shared.registrant id) ∧
    self.registration = none
  dmm_writers : s'.shared.dmm_writers = s.shared.dmm_writers
  parent_writers : ∀ all, s'.shared.parent_writers all = s.shared.parent_writers all
  previous_connection_id : s'.previous_connection_id = s.previous_connection_id

/-- A part that keeps everything, for the connection as a whole. -/
theorem Keeps.quiet_state {κ : Type} {st : κ → Standing} {s : State} {c : ℕ} {msg : MessageRecord}
    {make : κ → Connection} {self : κ} {h : Handling κ}
    (hmake : ∀ self, (make self).standing = st self)
    (hk : s.connections.get? c = some (make self)) (hkeeps : Keeps st (s.start self msg) h) :
    Quiet s (s.finish c make h).state c where
  connections := ⟨make self, make h.self, hk, rfl, by rw [hmake, hmake]; exact hkeeps.standing⟩
  routes := hkeeps.routes
  previous_connection_id := rfl

/-- A message on a connection registers a Child, or changes nothing in who is written to. -/
theorem handle_cases {cfg : Config} {s : State} {connection_id : ℕ} {msg : MessageRecord}
    {raises : Raises} {r : Handled} (h : handle cfg s connection_id msg raises = some r) :
    (taken s (.received connection_id msg raises) = [] ∧ Quiet s r.state connection_id) ∨
      ∃ node_id, taken s (.received connection_id msg raises) = [(node_id, connection_id)] ∧
        Taking s r.state node_id connection_id := by
  obtain ⟨k, hk, rfl⟩ := Option.map_eq_some_iff.mp h
  simp only [taken, hk]
  cases k with
  | child self =>
      have hout := ChildConnection.handle_message_outcome cfg raises (h := s.start self msg)
      change ChildConnection.Outcome (self.takes msg raises) _ _ at hout
      dsimp only
      cases htakes : self.takes msg raises with
      | none =>
          rw [htakes] at hout
          exact Or.inl ⟨rfl, Keeps.quiet_state (fun _ ↦ rfl) hk hout⟩
      | some node_id =>
          rw [htakes] at hout
          have hreg : self.registration = none := by
            rw [ChildConnection.takes, Option.ite_none_right_eq_some] at htakes
            exact htakes.1.1
          exact Or.inr ⟨node_id, rfl, ⟨self, _, hk, rfl, hout.self, hout.registrant, hreg⟩,
            hout.dmm_writers, hout.parent_writers, rfl⟩
  | peer self =>
      have hkeeps := PeerConnection.keeps_handle_message cfg raises (h := s.start self msg)
      exact Or.inl ⟨rfl, Keeps.quiet_state (fun _ ↦ rfl) hk hkeeps⟩
  | parent self =>
      have hkeeps := ParentConnection.keeps_handle_message (h := s.start self msg)
      exact Or.inl ⟨rfl, Keeps.quiet_state (fun _ ↦ rfl) hk hkeeps⟩
  | recorder self =>
      have hkeeps : Keeps RecorderConnection.standing (s.start self msg)
          (RecorderConnection.handle_message _) := .send_to_parent _ _
      exact Or.inl ⟨rfl, Keeps.quiet_state (fun _ ↦ rfl) hk hkeeps⟩

/-- A message is written to connections that the shared data names, or answered. -/
theorem handle_named {cfg : Config} {s : State} {c : ℕ} {msg : MessageRecord} {raises : Raises}
    {r : Handled} (h : handle cfg s c msg raises = some r) {k : Connection}
    (hk : s.connections.get? c = some k) :
    ∀ w ∈ r.writes, Named s.shared k.standing.writer w.writer := by
  rw [handle, hk] at h
  cases h
  intro w hw
  cases k with
  | child self =>
      have hout := ChildConnection.handle_message_outcome cfg raises (h := s.start self msg)
      cases htakes : self.takes msg raises with
      | none =>
          change ChildConnection.Outcome (self.takes msg raises) _ _ at hout
          rw [htakes] at hout
          exact (Keeps.writes hout w hw).resolve_left List.not_mem_nil
      | some node_id =>
          change ChildConnection.Outcome (self.takes msg raises) _ _ at hout
          rw [htakes] at hout
          exact (ChildConnection.Registers.writes hout w hw).resolve_left List.not_mem_nil
  | peer self =>
      have hkeeps := PeerConnection.keeps_handle_message cfg raises (h := s.start self msg)
      exact (hkeeps.writes w hw).resolve_left List.not_mem_nil
  | parent self =>
      have hkeeps := ParentConnection.keeps_handle_message (h := s.start self msg)
      exact (hkeeps.writes w hw).resolve_left List.not_mem_nil
  | recorder self =>
      have hkeeps : Keeps RecorderConnection.standing (s.start self msg)
          (RecorderConnection.handle_message _) := .send_to_parent _ _
      exact (hkeeps.writes w hw).resolve_left List.not_mem_nil

/-! ## The invariant -/

/-- What a Peer has in `dmm_writers`. -/
def Connection.dmm_writer (connection : Connection) : Option Writer :=
  match connection.standing with
  | .peer writer => some writer
  | _ => none

/-- What a Parent has in `parent_all_writers`, or in the other list. -/
def Connection.parent_writer (forward_all : Bool) (connection : Connection) : Option ParentWriter :=
  match connection.standing with
  | .parent self => if self.forward_all = forward_all then some self.parent_writer else none
  | _ => none

/-- A connection has its own writer, and a Child that has not registered has no node id. -/
def Standing.Valid (connection_id : ℕ) : Standing → Prop
  | .child writer node_id registered =>
      writer = connection_id ∧ (registered = false → node_id = none)
  | .peer writer => writer = connection_id
  | .parent self => self.writer = connection_id
  | .recorder => True

/-- The shared data is what the open connections make it. -/
structure Consistent (s : State) : Prop where
  connections : ∀ c k, s.connections.get? c = some k →
    c ≤ s.previous_connection_id ∧ k.standing.Valid c
  registered : ∀ node_id c, s.shared.registrant node_id = some c →
    (s.connections.get? c).map Connection.standing = some (.child c (some node_id) true)
  dmm_writers : Subscribed id Connection.dmm_writer s.connections s.shared.dmm_writers
  parent_writers : ∀ all, Subscribed ParentWriter.writer (Connection.parent_writer all)
    s.connections (s.shared.parent_writers all)

theorem consistent_init : Consistent .init where
  connections _ _ h := nomatch h
  registered _ _ h := nomatch h
  dmm_writers := .empty
  parent_writers all := by cases all <;> exact .empty

theorem dmm_writer_eq {k k' : Connection} (h : k'.standing = k.standing) :
    k'.dmm_writer = k.dmm_writer := by
  rw [Connection.dmm_writer, h, Connection.dmm_writer]

theorem parent_writer_eq {k k' : Connection} (forward_all : Bool)
    (h : k'.standing = k.standing) :
    k'.parent_writer forward_all = k.parent_writer forward_all := by
  rw [Connection.parent_writer, h, Connection.parent_writer]

/-- The connections after one of them has changed. -/
theorem connections_set {s s' : State} (h : Consistent s) {c : ℕ} {k k' : Connection}
    (hk : s.connections.get? c = some k) (hset : s'.connections = s.connections.set c k')
    (hvalid : k'.standing.Valid c)
    (hprevious : s'.previous_connection_id = s.previous_connection_id) :
    ∀ c' k₁, s'.connections.get? c' = some k₁ →
      c' ≤ s'.previous_connection_id ∧ k₁.standing.Valid c' := by
  intro c' k₁ hk₁
  rw [hset, Dict.get?_set] at hk₁
  rw [hprevious]
  split at hk₁
  · rename_i hc
    cases hk₁
    rw [hc]
    exact ⟨(h.connections c k hk).1, hvalid⟩
  · exact h.connections c' k₁ hk₁

theorem Consistent.quiet {s s' : State} {c : ℕ} (h : Consistent s) (hq : Quiet s s' c) :
    Consistent s' := by
  obtain ⟨k, k', hk, hset, hstanding⟩ := hq.connections
  refine ⟨connections_set h hk hset (hstanding ▸ (h.connections c k hk).2)
    hq.previous_connection_id, ?_, ?_, fun all ↦ ?_⟩
  · intro node_id c' hreg
    rw [hq.routes.registrant] at hreg
    have hold := h.registered node_id c' hreg
    rw [hset, Dict.get?_set]
    split
    · rename_i hc
      rw [hc, hk] at hold
      rw [hc, ← hold]
      exact congrArg some hstanding
    · exact hold
  · rw [hset, hq.routes.dmm_writers]
    exact h.dmm_writers.change hk (dmm_writer_eq hstanding)
  · rw [hset, hq.routes.parent_writers]
    exact (h.parent_writers all).change hk (parent_writer_eq all hstanding)

theorem Consistent.taking {s s' : State} {node_id : String} {c : ℕ} (h : Consistent s)
    (ht : Taking s s' node_id c) : Consistent s' := by
  obtain ⟨self, k', hk, hset, hstanding, hregistrant, hreg⟩ := ht.connections
  obtain ⟨hwriter, hnone⟩ := (h.connections c _ hk).2
  have hchild : (Connection.child self).standing = .child c none false := by
    rw [Connection.standing, ChildConnection.standing, hreg, hwriter, hnone (by rw [hreg]; rfl)]
    rfl
  rw [hwriter] at hstanding hregistrant
  have hdmm : k'.dmm_writer = (Connection.child self).dmm_writer := by
    rw [Connection.dmm_writer, hstanding]
    rfl
  have hparent : ∀ all, k'.parent_writer all = (Connection.child self).parent_writer all := by
    intro all
    rw [Connection.parent_writer, hstanding]
    rfl
  refine ⟨connections_set h hk hset (hstanding ▸ ⟨rfl, nofun⟩)
    ht.previous_connection_id, ?_, ?_, fun all ↦ ?_⟩
  · intro id c' hid
    rw [hregistrant] at hid
    rw [hset, Dict.get?_set]
    split at hid
    · rename_i heq
      cases hid
      rw [if_pos rfl, heq]
      exact congrArg some hstanding
    · -- the Child was not registered under another id before
      have hold := h.registered id c' hid
      split
      · rename_i hc
        rw [hc, hk] at hold
        have hchild' := Option.some.inj hold
        rw [hchild] at hchild'
        cases hchild'
      · exact hold
  · rw [hset, ht.dmm_writers]
    exact h.dmm_writers.change hk hdmm
  · rw [hset, ht.parent_writers]
    exact (h.parent_writers all).change hk (hparent all)

/-- The number of the next connection is not in use. -/
theorem Consistent.get?_next {s : State} (h : Consistent s) :
    s.connections.get? (s.previous_connection_id + 1) = none := by
  cases hk : s.connections.get? (s.previous_connection_id + 1) with
  | none => rfl
  | some k => exact absurd (h.connections _ k hk).1 (Nat.not_succ_le_self _)

theorem valid_make (config : ConnectionConfig) (c : ℕ) :
    (Connection.make config c).standing.Valid c := by
  unfold Connection.make
  split
  · exact rfl
  · exact ⟨rfl, fun _ ↦ rfl⟩
  · exact rfl
  · exact trivial

theorem Connection.join_registrant (k : Connection) (shared : SharedData) (node_id : String) :
    (k.join shared).registrant node_id = shared.registrant node_id := by
  unfold Connection.join
  split
  · rfl
  · split <;> rfl
  · rfl

theorem Connection.join_dmm_writers (k : Connection) (shared : SharedData) :
    (k.join shared).dmm_writers = shared.dmm_writers ++ k.dmm_writer.toList := by
  cases k with
  | child self => exact (List.append_nil _).symm
  | peer self => rfl
  | parent self =>
      rw [Connection.join]
      split <;> exact (List.append_nil _).symm
  | recorder self => exact (List.append_nil _).symm

theorem Connection.join_parent_writers (k : Connection) (shared : SharedData) (all : Bool) :
    (k.join shared).parent_writers all =
      shared.parent_writers all ++ (k.parent_writer all).toList := by
  cases k with
  | parent self =>
      cases hall : self.forward_all <;> cases all <;>
        simp [Connection.join, Connection.parent_writer, Connection.standing,
          SharedData.parent_writers, hall]
  | child self => exact (List.append_nil _).symm
  | peer self => cases all <;> exact (List.append_nil _).symm
  | recorder self => exact (List.append_nil _).symm

theorem dmm_writer_of_valid {k : Connection} {c : ℕ} (h : k.standing.Valid c) {w : Writer}
    (hw : k.dmm_writer = some w) : w = c := by
  cases k with
  | child self => exact nomatch hw
  | peer self =>
      cases hw
      exact h
  | parent self => exact nomatch hw
  | recorder self => exact nomatch hw

theorem parent_writer_of_valid {k : Connection} {c : ℕ} (h : k.standing.Valid c) {all : Bool}
    {w : ParentWriter} (hw : k.parent_writer all = some w) : w.writer = c := by
  cases k with
  | child self => exact nomatch hw
  | peer self => exact nomatch hw
  | parent self =>
      obtain ⟨-, hw⟩ := Option.ite_none_right_eq_some.mp hw
      cases hw
      exact h
  | recorder self => exact nomatch hw

theorem Consistent.create {s : State} (h : Consistent s) (config : ConnectionConfig) :
    Consistent (create s config) := by
  have hnext := h.get?_next
  have hvalid := valid_make config (s.previous_connection_id + 1)
  refine ⟨?_, ?_, ?_, fun all ↦ ?_⟩
  · intro c k hk
    rw [Apex.create, Dict.get?_set] at hk
    split at hk
    · rename_i hc
      cases hk
      rw [hc]
      exact ⟨le_rfl, hvalid⟩
    · exact ⟨Nat.le_succ_of_le (h.connections c k hk).1, (h.connections c k hk).2⟩
  · intro node_id c hreg
    rw [Apex.create, Connection.join_registrant] at hreg
    have hold := h.registered node_id c hreg
    rw [Apex.create, Dict.get?_set]
    split
    · rename_i hc
      rw [hc, hnext] at hold
      cases hold
    · exact hold
  · rw [Apex.create, Connection.join_dmm_writers]
    exact h.dmm_writers.join hnext fun w hw ↦ dmm_writer_of_valid hvalid hw
  · rw [Apex.create, Connection.join_parent_writers]
    exact (h.parent_writers all).join hnext fun w hw ↦ parent_writer_of_valid hvalid hw

theorem Connection.closed_dmm_writers (k : Connection) (shared : SharedData) :
    (k.handle_closed shared).dmm_writers =
      unsubscribe shared.dmm_writers k.dmm_writer := by
  cases k with
  | child self =>
      show (self.handle_closed shared).dmm_writers = shared.dmm_writers
      unfold ChildConnection.handle_closed
      split
      · rfl
      · split <;> rfl
  | peer self => rfl
  | parent self =>
      show (self.handle_closed shared).dmm_writers = shared.dmm_writers
      unfold ParentConnection.handle_closed
      split <;> rfl
  | recorder self => rfl

theorem Connection.closed_parent_writers (k : Connection) (shared : SharedData) (all : Bool) :
    (k.handle_closed shared).parent_writers all =
      unsubscribe (shared.parent_writers all) (k.parent_writer all) := by
  cases k with
  | child self =>
      show (self.handle_closed shared).parent_writers all = shared.parent_writers all
      unfold ChildConnection.handle_closed
      split
      · rfl
      · split
        · cases all <;> rfl
        · rfl
  | peer self => cases all <;> rfl
  | parent self =>
      cases hall : self.forward_all <;> cases all <;>
        simp [Connection.handle_closed, ParentConnection.handle_closed, Connection.parent_writer,
          Connection.standing, SharedData.parent_writers, unsubscribe, hall]
  | recorder self => rfl

/-- Nothing is taken from who is not there. -/
theorem eq_some_iff_of_ne {o : Option Writer} {c c' : Writer} (h : o ≠ some c) :
    o = some c' ↔ o = some c' ∧ c' ≠ c := by
  refine (and_iff_left_of_imp fun hc' hc ↦ ?_).symm
  rw [hc] at hc'
  exact h hc'

/-- A Child that closes leaves the registry, if it is in it under its own node id alone. -/
theorem ChildConnection.closed_registrant {self : ChildConnection} {shared : SharedData}
    (hown : ∀ id, shared.registrant id = some self.writer → self.node_id = some id)
    (node_id : String) (c' : Writer) :
    (self.handle_closed shared).registrant node_id = some c' ↔
      shared.registrant node_id = some c' ∧ c' ≠ self.writer := by
  unfold ChildConnection.handle_closed
  cases hid : self.node_id with
  | none =>
      refine eq_some_iff_of_ne fun hreg ↦ ?_
      have hsome := hown node_id hreg
      rw [hid] at hsome
      cases hsome
  | some own =>
      have hother (hne : node_id ≠ own) : shared.registrant node_id ≠ some self.writer := by
        intro hreg
        have hsome := hown node_id hreg
        rw [hid] at hsome
        exact hne (Option.some.inj hsome).symm
      show (if shared.registrant own = some self.writer then _ else _ : SharedData).registrant
        node_id = some c' ↔ _
      by_cases hreg : shared.registrant own = some self.writer
      · rw [if_pos hreg, SharedData.registrant, Dict.get?_erase]
        by_cases hsame : node_id = own
        · rw [if_pos hsame, hsame, hreg]
          refine iff_of_false nofun ?_
          rintro ⟨hc', hne⟩
          exact hne (Option.some.inj hc').symm
        · rw [if_neg hsame]
          exact eq_some_iff_of_ne (hother hsame)
      · rw [if_neg hreg]
        refine eq_some_iff_of_ne fun hreg' ↦ ?_
        by_cases hsame : node_id = own
        · exact hreg (hsame ▸ hreg')
        · exact hother hsame hreg'

/-- A connection that closes leaves the registry, and nobody else does. -/
theorem Consistent.closed_registrant {s : State} (h : Consistent s) {c : ℕ} {k : Connection}
    (hk : s.connections.get? c = some k) (node_id : String) (c' : Writer) :
    (k.handle_closed s.shared).registrant node_id = some c' ↔
      s.shared.registrant node_id = some c' ∧ c' ≠ c := by
  -- the node id that the connection is registered with is its own
  have hown : ∀ id, s.shared.registrant id = some c → k.standing = .child c (some id) true := by
    intro id hid
    have hstanding := h.registered id c hid
    rw [hk] at hstanding
    exact Option.some.inj hstanding
  cases k with
  | child self =>
      have hwriter : self.writer = c := (h.connections c _ hk).2.1
      rw [← hwriter]
      refine ChildConnection.closed_registrant (fun id hid ↦ ?_) node_id c'
      have hstanding := hown id (hwriter ▸ hid)
      rw [Connection.standing, ChildConnection.standing] at hstanding
      injection hstanding
  | peer self => exact eq_some_iff_of_ne fun hreg ↦ nomatch hown node_id hreg
  | parent self =>
      refine Iff.trans ?_ (eq_some_iff_of_ne fun hreg ↦ nomatch hown node_id hreg)
      show (self.handle_closed s.shared).registrant node_id = some c' ↔ _
      unfold ParentConnection.handle_closed
      split <;> rfl
  | recorder self => exact eq_some_iff_of_ne fun hreg ↦ nomatch hown node_id hreg

theorem Consistent.close {s s' : State} {c : ℕ} (h : Consistent s)
    (hclose : close s c = some s') : Consistent s' := by
  obtain ⟨k, hk, rfl⟩ := Option.map_eq_some_iff.mp hclose
  refine ⟨?_, ?_, ?_, fun all ↦ ?_⟩
  · intro c' k' hk'
    exact h.connections c' k' (Dict.get?_erase_eq_some_iff.mp hk').2
  · intro node_id c' hreg
    obtain ⟨hold, hne⟩ := (h.closed_registrant hk node_id c').mp hreg
    dsimp only
    rw [Dict.get?_erase_ne _ hne]
    exact h.registered node_id c' hold
  · dsimp only
    rw [Connection.closed_dmm_writers]
    exact h.dmm_writers.leave hk
  · dsimp only
    rw [Connection.closed_parent_writers]
    exact (h.parent_writers all).leave hk

end Apex

end SensorFusion
