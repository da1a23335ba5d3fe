import SensorFusion.Apex.Registry

/-!
# Where the messages of a Parent go

In every state that the server can reach, a message from a Parent goes to the Child that owns
its destination, to every Peer and to every other Parent that wants all messages, once to
each of them and to no one else.  Who owns a node id is said by the history of the run and
not by the registry: `Recorded` is the invariant that the registry agrees with it.
-/

namespace SensorFusion

namespace Apex

/-! ## The registry and its history -/

def OpenChild (s : State) (c : ℕ) : Prop := ∃ self, s.connections.get? c = some (.child self)

/-- The registry is the one that `takes`, the node ids taken so far, give. -/
structure Recorded (s : State) (takes : List (String × ℕ)) : Prop where
  consistent : Consistent s
  numbers : ∀ t ∈ takes, t.2 ≤ s.previous_connection_id
  registrant : ∀ node_id c,
    s.shared.registrant node_id = some c ↔ Owns (OpenChild s) takes node_id c

theorem recorded_init : Recorded .init [] where
  consistent := consistent_init
  numbers _ h := nomatch h
  registrant _ _ := iff_of_false nofun fun h ↦ nomatch (h.1 : none = some _)

/-- A connection that keeps its type. -/
theorem openChild_set {s s' : State} {c : ℕ} {k k' : Connection}
    (hk : s.connections.get? c = some k) (hset : s'.connections = s.connections.set c k')
    (hsame : (∃ self, k' = .child self) ↔ ∃ self, k = .child self) (c' : ℕ) :
    OpenChild s' c' ↔ OpenChild s c' := by
  rw [OpenChild, OpenChild, hset, Dict.get?_set]
  split
  · rename_i hc
    rw [hc, hk]
    simpa only [Option.some.injEq] using hsame
  · rfl

/-- The type of a connection is seen in its standing. -/
theorem isChild_iff (k : Connection) :
    (∃ self, k = .child self) ↔ ∃ writer node_id registered,
      k.standing = .child writer node_id registered := by
  cases k with
  | child self => exact iff_of_true ⟨self, rfl⟩ ⟨_, _, _, rfl⟩
  | peer self => exact iff_of_false (fun ⟨_, h⟩ ↦ nomatch h) fun ⟨_, _, _, h⟩ ↦ nomatch h
  | parent self => exact iff_of_false (fun ⟨_, h⟩ ↦ nomatch h) fun ⟨_, _, _, h⟩ ↦ nomatch h
  | recorder self => exact iff_of_false (fun ⟨_, h⟩ ↦ nomatch h) fun ⟨_, _, _, h⟩ ↦ nomatch h

theorem Recorded.quiet {s s' : State} {takes : List (String × ℕ)} {c : ℕ} (h : Recorded s takes)
    (hq : Quiet s s' c) : Recorded s' takes where
  consistent := h.consistent.quiet hq
  numbers t ht := hq.previous_connection_id ▸ h.numbers t ht
  registrant node_id c' := by
    obtain ⟨k, k', hk, hset, hstanding⟩ := hq.connections
    have hsame : (∃ self, k' = .child self) ↔ ∃ self, k = .child self := by
      rw [isChild_iff, isChild_iff, hstanding]
    have hopen := openChild_set hk hset hsame
    rw [hq.routes.registrant, h.registrant]
    exact (Owns.congr_alive fun t _ ↦ hopen t.2).symm

theorem Recorded.taking {s s' : State} {takes : List (String × ℕ)} {node_id : String} {c : ℕ}
    (h : Recorded s takes) (ht : Taking s s' node_id c) :
    Recorded s' (takes ++ [(node_id, c)]) where
  consistent := h.consistent.taking ht
  numbers t htake := by
    obtain ⟨self, k', hk, -⟩ := ht.connections
    rw [ht.previous_connection_id]
    rcases List.mem_append.mp htake with htake | htake
    · exact h.numbers t htake
    · rw [List.mem_singleton.mp htake]
      exact (h.consistent.connections c _ hk).1
  registrant id c' := by
    obtain ⟨self, k', hk, hset, hstanding, hregistrant, -⟩ := ht.connections
    have hwriter : self.writer = c := (h.consistent.connections c _ hk).2.1
    have hchild : ∃ self, k' = .child self := (isChild_iff k').mpr ⟨_, _, _, hstanding⟩
    have hopen := openChild_set hk hset (iff_of_true hchild ⟨self, rfl⟩)
    rw [hregistrant, hwriter]
    by_cases hid : id = node_id
    · rw [if_pos hid, hid, Owns.take_self, Option.some_inj, eq_comm]
      exact (and_iff_left ((hopen c).mpr ⟨self, hk⟩)).symm
    · rw [if_neg hid, Owns.take_ne (Ne.symm hid), h.registrant]
      exact (Owns.congr_alive fun t _ ↦ hopen t.2).symm

theorem Recorded.create {s : State} {takes : List (String × ℕ)} (h : Recorded s takes)
    (config : ConnectionConfig) : Recorded (create s config) takes where
  consistent := h.consistent.create config
  numbers t ht := Nat.le_succ_of_le (h.numbers t ht)
  registrant node_id c := by
    have hregistrant : (Apex.create s config).shared.registrant node_id =
        s.shared.registrant node_id := Connection.join_registrant _ _ _
    rw [hregistrant, h.registrant]
    refine (Owns.congr_alive fun t ht ↦ ?_).symm
    -- the new connection has taken nothing yet
    have hne : t.2 ≠ s.previous_connection_id + 1 :=
      Nat.ne_of_lt (Nat.lt_succ_of_le (h.numbers t ht))
    rw [OpenChild, OpenChild, Apex.create, Dict.get?_set_ne _ _ hne]

theorem Recorded.close {s s' : State} {takes : List (String × ℕ)} {c : ℕ} (h : Recorded s takes)
    (hclose : close s c = some s') : Recorded s' takes where
  consistent := h.consistent.close hclose
  numbers := by
    obtain ⟨k, hk, rfl⟩ := Option.map_eq_some_iff.mp hclose
    exact h.numbers
  registrant node_id c' := by
    obtain ⟨k, hk, rfl⟩ := Option.map_eq_some_iff.mp hclose
    rw [h.consistent.closed_registrant hk node_id c', h.registrant, Owns, Owns, and_assoc]
    refine and_congr_right fun _ ↦ ?_
    rw [OpenChild, OpenChild, ← exists_and_right]
    refine exists_congr fun self ↦ ?_
    dsimp only
    rw [Dict.get?_erase_eq_some_iff, and_comm]

/-- The registry agrees with its history after every event. -/
theorem recorded_step {cfg : Config} {s s' : State} {e : Event} {takes : List (String × ℕ)}
    (h : Recorded s takes) (hstep : server cfg s e = some s') :
    Recorded s' (takes ++ taken s e) := by
  cases e with
  | opened config =>
      cases hstep
      show Recorded _ (takes ++ [])
      rw [List.append_nil]
      exact h.create config
  | received c msg raises =>
      obtain ⟨r, hr, rfl⟩ := Option.map_eq_some_iff.mp hstep
      rcases handle_cases hr with ⟨hnone, hq⟩ | ⟨node_id, htaken, ht⟩
      · rw [hnone, List.append_nil]
        exact h.quiet hq
      · rw [htaken]
        exact h.taking ht
  | closed c =>
      show Recorded s' (takes ++ [])
      rw [List.append_nil]
      exact h.close hstep

theorem recorded_run {cfg : Config} {s : State} {events : List Event}
    (h : (server cfg).run .init events = some s) :
    Recorded s ((server cfg).outputs taken .init events) := by
  have hrecorded := Machine.outputs_invariant (I := Recorded) (fun _ _ _ _ ↦ recorded_step)
    recorded_init h
  rwa [List.nil_append] at hrecorded

/-! ## Nothing is written to a closed connection -/

/-- Whoever is named in the shared data is open. -/
theorem named_open {s : State} (h : Consistent s) {c c' : ℕ} {k : Connection}
    (hk : s.connections.get? c = some k) (hnamed : Named s.shared k.standing.writer c') :
    c' ∈ s.connections := by
  rw [Dict.mem_iff_get?]
  cases hnamed with
  | own hc =>
      have hvalid := (h.connections c k hk).2
      have hsame : c' = c := by
        cases hstanding : k.standing <;> rw [hstanding] at hc hvalid
        · exact (Option.some.inj hc).symm.trans hvalid.1
        · exact (Option.some.inj hc).symm.trans hvalid
        · exact (Option.some.inj hc).symm.trans hvalid
        · exact nomatch hc
      exact ⟨k, hsame ▸ hk⟩
  | registrant node_id hc =>
      obtain ⟨k', hk', -⟩ := Option.map_eq_some_iff.mp (h.registered node_id c' hc)
      exact ⟨k', hk'⟩
  | dmm hc =>
      obtain ⟨k', hk', -⟩ := (h.dmm_writers.mem c').mp hc
      exact ⟨k', hk'⟩
  | parent all hc =>
      obtain ⟨k', hk', -⟩ := (h.parent_writers all).mem_keys.mp hc
      exact ⟨k', hk'⟩

/-- A connection that has just been opened is told about the Children alone. -/
theorem greeting_writer {k : Connection} {shared : SharedData} {w : Write}
    (hw : w ∈ k.greeting shared) : k.standing.writer = some w.writer := by
  have hreplay : ∀ c, w ∈ shared.replay c → w.writer = c := by
    intro c hc
    obtain ⟨info, -, hinfo⟩ := List.mem_flatMap.mp hc
    simp only [SensorInfo.replay, List.mem_append, List.mem_singleton, Option.mem_toList,
      Option.map_eq_some_iff] at hinfo
    rcases hinfo with (rfl | ⟨msg, -, rfl⟩) | ⟨msg, -, rfl⟩ <;> rfl
  cases k with
  | child self => exact nomatch hw
  | peer self => exact congrArg some (hreplay _ hw).symm
  | parent self =>
      rw [Connection.greeting] at hw
      split at hw
      · exact congrArg some (hreplay _ hw).symm
      · exact nomatch hw
  | recorder self => exact nomatch hw

/-- In every run, what an event writes goes to connections that are open after it. -/
theorem writes_open {cfg : Config} {events : List Event} {s s' : State} {e : Event}
    (hrun : (server cfg).run .init events = some s) (hstep : server cfg s e = some s') :
    ∀ w ∈ writes cfg s e, w.writer ∈ s'.connections := by
  intro w hw
  have hconsistent := (recorded_run hrun).consistent
  cases e with
  | opened config =>
      cases hstep
      have hfound : (create s config).connections.get? (s.previous_connection_id + 1) =
          some (Connection.make config (s.previous_connection_id + 1)) := Dict.get?_set_self ..
      exact named_open (hconsistent.create config) hfound (.own (greeting_writer hw))
  | received c msg raises =>
      obtain ⟨r, hr, rfl⟩ := Option.map_eq_some_iff.mp hstep
      obtain ⟨k, hk, rfl⟩ := Option.map_eq_some_iff.mp hr
      rw [writes, hr, Option.map_some, Option.getD_some] at hw
      have hopen := named_open hconsistent hk (handle_named hr hk w hw)
      -- a message opens and closes nothing
      have hsame : ∀ k', w.writer ∈ s.connections.set c k' :=
        fun k' ↦ Dict.mem_set.mpr (Or.inr hopen)
      cases k <;> exact hsame _
  | closed c => exact nomatch hw

/-- A configuration that adjusts and filters nothing. -/
def plain : Config where
  enableTimeSyncAdjustment := false
  sendRegistrationAck := false
  allowPeerRegistration := true
  detectionConfidenceFiltering := none
  strFloat _ := ""

/-- A message of a node. -/
def messageFrom (node_id : String) (destination : Option String)
    (registration : Option RegistrationRecord) : MessageRecord where
  received := ⟨0, 0⟩
  forwarded_count := 0
  parsed := some ⟨some node_id, destination, 0, none⟩
  registration := registration
  status_report := none
  error := none
  sapient_version := .BSI_FLEX_335_V2_0

/-- There are a Child, two Peers, the first of which closes, and a Parent. -/
def outlived : List Event :=
  [.opened ⟨.Child, .PROTO, false⟩, .opened ⟨.Peer, .PROTO, false⟩,
    .opened ⟨.Peer, .PROTO, false⟩, .opened ⟨.Parent, .PROTO, true⟩, .closed 2]

/-- The Child registers, which is written to the other Peer and to the Parent. -/
theorem writes_open_outlived :
    ∃ s s', (server plain).run .init outlived = some s ∧
      server plain s (.received 1 (messageFrom "edge" none (some ⟨"edge"⟩)) .nothing) =
        some s' ∧
      (writes plain s (.received 1 (messageFrom "edge" none (some ⟨"edge"⟩)) .nothing)).map
        Write.writer = [3, 4] ∧
      2 ∉ s'.connections ∧
      ∀ w ∈ writes plain s (.received 1 (messageFrom "edge" none (some ⟨"edge"⟩)) .nothing),
        w.writer ∈ s'.connections := by
  obtain ⟨s, hs⟩ : ∃ s, (server plain).run .init outlived = some s :=
    Option.isSome_iff_exists.mp (by decide +kernel)
  have hwritten : ((server plain).run .init outlived).map (fun s ↦
      (writes plain s (.received 1 (messageFrom "edge" none (some ⟨"edge"⟩)) .nothing)).map
        Write.writer) = some [3, 4] := by decide +kernel
  have hclosed : ((server plain).run .init outlived).bind (fun s ↦
      (server plain s (.received 1 (messageFrom "edge" none (some ⟨"edge"⟩)) .nothing)).map
        fun s' ↦ decide (2 ∉ s'.connections)) = some true := by decide +kernel
  rw [hs, Option.map_some, Option.some_inj] at hwritten
  rw [hs, Option.bind_some] at hclosed
  obtain ⟨s', hs', hgone⟩ := Option.map_eq_some_iff.mp hclosed
  exact ⟨s, s', hs, hs', hwritten, of_decide_eq_true hgone, writes_open hs hs'⟩

/-! ## What a Parent's message is written to -/

namespace Handling

variable {κ : Type}

/-- The message is written to some connections, and that is counted. -/
def deliver (h : Handling κ) (writers : List Writer) : Handling κ :=
  { h with
    msg := { h.msg with forwarded_count := h.msg.forwarded_count + writers.length }
    writes := h.writes ++ writers.map h.msg.to }

theorem deliver_nil (h : Handling κ) : h.deliver [] = h := by
  rw [deliver, List.map_nil, List.append_nil]
  rfl

/-- What is written of a message does not depend on how often it was forwarded. -/
theorem deliver_deliver (h : Handling κ) (writers writers' : List Writer) :
    (h.deliver writers).deliver writers' = h.deliver (writers ++ writers') := by
  simp only [deliver, List.length_append, List.map_append, List.append_assoc, Nat.add_assoc]
  rfl

theorem writeEach_eq (h : Handling κ) (writers : List Writer) :
    h.writeEach writers = { h with writes := h.writes ++ writers.map h.msg.to } := by
  unfold writeEach
  induction writers generalizing h with
  | nil =>
      rw [List.map_nil, List.append_nil]
      rfl
  | cons writer writers ih =>
      rw [List.foldl_cons, ih, List.map_cons]
      simp only [write, List.append_assoc, List.singleton_append]

/-- The Parents that are written to by a loop that skips one of them. -/
theorem foldl_send_eq (writers : List ParentWriter) (except_writer : Option ParentWriter)
    (h : Handling κ) :
    writers.foldl
        (fun h writer ↦
          if some writer ≠ except_writer then
            (h.write (h.msg.to writer.writer)).setForwarded (h.msg.forwarded_count + 1)
          else h) h =
      h.deliver
        ((writers.filter fun writer ↦ some writer ≠ except_writer).map ParentWriter.writer) := by
  induction writers generalizing h with
  | nil => exact (deliver_nil h).symm
  | cons writer writers ih =>
      rw [List.foldl_cons, List.filter_cons]
      by_cases hw : some writer ≠ except_writer
      · rw [if_pos hw, if_pos (decide_eq_true hw), ih, List.map_cons, ← List.singleton_append,
          ← deliver_deliver]
        rfl
      · rw [if_neg hw, if_neg (by simpa using hw), ih]

theorem send_to_parent_eq {h : Handling κ} (herror : h.msg.error = none)
    (except_writer : Option ParentWriter) :
    h.send_to_parent false except_writer =
      h.deliver ((h.shared.parent_all_writers.filter fun writer ↦
        some writer ≠ except_writer).map ParentWriter.writer) := by
  unfold send_to_parent
  rw [if_neg (by rw [herror]; exact Bool.false_ne_true)]
  dsimp only
  rw [if_neg Bool.false_ne_true, List.append_nil]
  exact foldl_send_eq _ _ h

end Handling

namespace ParentConnection

/-- The connections that a Parent's message is written to, in order. -/
def targets (shared : SharedData) (self : ParentConnection) (destination : Option String) :
    List Writer :=
  (destination.bind shared.registrant).toList ++ shared.dmm_writers ++
    (shared.parent_all_writers.filter fun writer ↦
      some writer ≠ some self.parent_writer).map ParentWriter.writer

theorem route_eq (h : Handling ParentConnection) (destination : Option String) :
    route h destination = h.deliver (destination.bind h.shared.registrant).toList := by
  unfold route SharedData.registrant
  cases destination with
  | none => exact (h.deliver_nil).symm
  | some node_id =>
      rw [Option.bind_some, Option.bind_some]
      cases hget : h.shared.registered_sensors.get? node_id with
      | none => exact (h.deliver_nil).symm
      | some info => rfl

theorem forward_eq (h : Handling ParentConnection) :
    forward h = h.deliver h.shared.dmm_writers := by
  rw [forward, Handling.writeEach_eq]
  rfl

/-- A parsed message without an error is written to the targets, and counted. -/
theorem handle_message_eq {h : Handling ParentConnection} (herror : h.msg.error = none)
    {parsed : ParsedRecord} (hparsed : h.msg.parsed = some parsed) :
    handle_message h =
      (h.setForwarded 0).deliver (targets h.shared h.self parsed.destination_node_id) := by
  have hmatch : handle_message h =
      (forward (route (h.setForwarded 0) parsed.destination_node_id)).send_to_parent false
        (some h.self.parent_writer) := by
    unfold handle_message
    rw [if_pos herror]
    have hkept : (h.setForwarded 0).msg.parsed = some parsed := hparsed
    dsimp only
    rw [hkept]
    rfl
  have hdelivered : ∀ writers, ((h.setForwarded 0).deliver writers).msg.error = none :=
    fun _ ↦ herror
  rw [hmatch, route_eq, forward_eq, Handling.deliver_deliver,
    Handling.send_to_parent_eq (hdelivered _), Handling.deliver_deliver]
  rfl

/-- An error-free message that was not parsed is not written to anyone. -/
theorem handle_message_unparsed {h : Handling ParentConnection} (herror : h.msg.error = none)
    (hparsed : h.msg.parsed = none) :
    handle_message h = (h.setForwarded 0).raiseNone "destination_node_id" := by
  unfold handle_message
  rw [if_pos herror]
  have hkept : (h.setForwarded 0).msg.parsed = none := hparsed
  dsimp only
  rw [hkept]

end ParentConnection

/-! ## Who receives a Parent's message -/

def MessageRecord.destination_node_id (msg : MessageRecord) : Option String :=
  msg.parsed.bind ParsedRecord.destination_node_id

/-- Who a message from the Parent `p` is for, given the node ids taken so far. -/
inductive Receives (s : State) (takes : List (String × ℕ)) (p : ℕ) (destination : Option String) :
    ℕ → Prop
  | owner {node_id : String} {c : ℕ} (hdestination : destination = some node_id)
      (hc : Owns (OpenChild s) takes node_id c) : Receives s takes p destination c
  | peer {c : ℕ} {self : PeerConnection} (hc : s.connections.get? c = some (.peer self)) :
      Receives s takes p destination c
  | parent {c : ℕ} {self : ParentConnection} (hc : s.connections.get? c = some (.parent self))
      (hall : self.forward_all = true) (hp : c ≠ p) : Receives s takes p destination c

section Targets

variable {s : State} {takes : List (String × ℕ)}

theorem mem_dmm_writers (h : Consistent s) (c : ℕ) :
    c ∈ s.shared.dmm_writers ↔ ∃ self, s.connections.get? c = some (.peer self) := by
  rw [h.dmm_writers.mem c]
  constructor
  · rintro ⟨k, hk, hentry⟩
    cases k with
    | child self => exact nomatch hentry
    | peer self => exact ⟨self, hk⟩
    | parent self => exact nomatch hentry
    | recorder self => exact nomatch hentry
  · rintro ⟨self, hself⟩
    have hwriter : self.writer = c := (h.connections c _ hself).2
    exact ⟨.peer self, hself, congrArg some hwriter⟩

theorem mem_parent_all_writers (h : Consistent s) (writer : ParentWriter) :
    writer ∈ s.shared.parent_all_writers ↔ ∃ self,
      s.connections.get? writer.writer = some (.parent self) ∧ self.forward_all = true ∧
        self.parent_writer = writer := by
  rw [← SharedData.parent_writers, (h.parent_writers true).mem writer]
  constructor
  · rintro ⟨k, hk, hentry⟩
    cases k with
    | child self => cases hentry
    | peer self => cases hentry
    | parent self =>
        obtain ⟨hall, hwriter⟩ := Option.ite_none_right_eq_some.mp hentry
        exact ⟨self, hk, hall, Option.some.inj hwriter⟩
    | recorder self => cases hentry
  · rintro ⟨self, hself, hall, hwriter⟩
    exact ⟨.parent self, hself, Option.ite_none_right_eq_some.mpr ⟨hall, congrArg some hwriter⟩⟩

/-- The writers of the other Parents.  Comparing writers by value compares connections. -/
theorem mem_other_writers (h : Consistent s) {p : ℕ} {self : ParentConnection}
    (hp : s.connections.get? p = some (.parent self)) (c : ℕ) :
    c ∈ (s.shared.parent_all_writers.filter fun writer ↦
        some writer ≠ some self.parent_writer).map ParentWriter.writer ↔
      ∃ other, s.connections.get? c = some (.parent other) ∧ other.forward_all = true ∧
        c ≠ p := by
  have hself : self.writer = p := (h.connections p _ hp).2
  simp only [List.mem_map, List.mem_filter, decide_eq_true_iff]
  constructor
  · rintro ⟨writer, ⟨hmem, hne⟩, rfl⟩
    obtain ⟨other, hother, hall, hwriter⟩ := (mem_parent_all_writers h writer).mp hmem
    refine ⟨other, hother, hall, fun heq ↦ hne ?_⟩
    rw [heq, hp] at hother
    cases hother
    exact congrArg some hwriter.symm
  · rintro ⟨other, hother, hall, hne⟩
    have hwriter : other.writer = c := (h.connections c _ hother).2
    have hfound : s.connections.get? other.parent_writer.writer = some (.parent other) :=
      (congrArg s.connections.get? hwriter).trans hother
    have hmem : other.parent_writer ∈ s.shared.parent_all_writers :=
      (mem_parent_all_writers h _).mpr ⟨other, hfound, hall, rfl⟩
    refine ⟨other.parent_writer, ⟨hmem, fun heq ↦ hne ?_⟩, hwriter⟩
    have hsame := congrArg ParentWriter.writer (Option.some.inj heq)
    rw [← hwriter, ← hself]
    exact hsame

theorem mem_targets (h : Recorded s takes) {p : ℕ} {self : ParentConnection}
    (hp : s.connections.get? p = some (.parent self)) (destination : Option String) (c : ℕ) :
    c ∈ self.targets s.shared destination ↔ Receives s takes p destination c := by
  rw [ParentConnection.targets, List.mem_append, List.mem_append, Option.mem_toList,
    Option.bind_eq_some_iff, mem_dmm_writers h.consistent,
    mem_other_writers h.consistent hp]
  constructor
  · rintro ((⟨node_id, hdestination, hc⟩ | ⟨peer, hc⟩) | ⟨other, hc, hall, hne⟩)
    · exact .owner hdestination ((h.registrant node_id c).mp hc)
    · exact .peer hc
    · exact .parent hc hall hne
  · intro hreceives
    cases hreceives with
    | owner hdestination hc => exact Or.inl (Or.inl ⟨_, hdestination, (h.registrant _ c).mpr hc⟩)
    | peer hc => exact Or.inl (Or.inr ⟨_, hc⟩)
    | parent hc hall hne => exact Or.inr ⟨_, hc, hall, hne⟩

/-- Nobody is written to twice: a connection is a Child, a Peer or a Parent. -/
theorem nodup_targets (h : Recorded s takes) {p : ℕ} {self : ParentConnection}
    (hp : s.connections.get? p = some (.parent self)) (destination : Option String) :
    (self.targets s.shared destination).Nodup := by
  have hothers : ((s.shared.parent_all_writers.filter fun writer ↦
      some writer ≠ some self.parent_writer).map ParentWriter.writer).Nodup :=
    (h.consistent.parent_writers true).nodup_keys.sublist (List.filter_sublist.map _)
  have howner : (destination.bind s.shared.registrant).toList.Nodup := by
    cases destination.bind s.shared.registrant with
    | none => exact List.nodup_nil
    | some c => exact List.nodup_singleton c
  have hchild : ∀ c ∈ (destination.bind s.shared.registrant).toList, OpenChild s c := by
    intro c hc
    obtain ⟨node_id, -, hreg⟩ := Option.bind_eq_some_iff.mp (Option.mem_toList.mp hc)
    exact ((h.registrant node_id c).mp hreg).2
  refine List.nodup_append'.mpr ⟨List.nodup_append'.mpr ⟨howner,
    h.consistent.dmm_writers.nodup, ?_⟩, hothers, ?_⟩
  · intro c hc hpeer
    obtain ⟨child, hchild⟩ := hchild c hc
    obtain ⟨peer, hpeer⟩ := (mem_dmm_writers h.consistent c).mp hpeer
    rw [hchild] at hpeer
    exact nomatch hpeer
  · intro c hc hother
    obtain ⟨other, hother, -⟩ := (mem_other_writers h.consistent hp c).mp hother
    rcases List.mem_append.mp hc with hc | hc
    · obtain ⟨child, hchild⟩ := hchild c hc
      rw [hchild] at hother
      exact nomatch hother
    · obtain ⟨peer, hpeer⟩ := (mem_dmm_writers h.consistent c).mp hc
      rw [hpeer] at hother
      exact nomatch hother

/-- A message is for connections that are open, and not for the one it came from. -/
theorem Receives.open_ne {p c : ℕ} {self : ParentConnection} {destination : Option String}
    (hp : s.connections.get? p = some (.parent self))
    (h : Receives s takes p destination c) : c ∈ s.connections ∧ c ≠ p := by
  cases h with
  | owner _ hc =>
      obtain ⟨-, child, hchild⟩ := hc
      refine ⟨Dict.mem_iff_get?.mpr ⟨_, hchild⟩, ?_⟩
      rintro rfl
      rw [hp] at hchild
      exact nomatch hchild
  | peer hc =>
      refine ⟨Dict.mem_iff_get?.mpr ⟨_, hc⟩, ?_⟩
      rintro rfl
      rw [hp] at hc
      exact nomatch hc
  | parent hc _ hne => exact ⟨Dict.mem_iff_get?.mpr ⟨_, hc⟩, hne⟩

/-- What a Parent's message is written to, and how often it counts as forwarded. -/
theorem parent_handled (cfg : Config) {p : ℕ} {self : ParentConnection}
    (hp : s.connections.get? p = some (.parent self)) {msg : MessageRecord}
    (herror : msg.error = none) (raises : Raises) :
    ∃ r, handle cfg s p msg raises = some r ∧
      (msg.parsed = none → r.writes = []) ∧
      (msg.parsed.isSome →
        r.writes = (self.targets s.shared msg.destination_node_id).map msg.to) ∧
      r.msg.forwarded_count = r.writes.length := by
  refine ⟨s.finish p .parent (ParentConnection.handle_message (s.start self msg)), ?_, ?_⟩
  · rw [handle, hp]
    rfl
  · cases hparsed : msg.parsed with
    | none =>
        rw [ParentConnection.handle_message_unparsed herror hparsed]
        exact ⟨fun _ ↦ rfl, fun hsome ↦ absurd hsome Bool.false_ne_true, rfl⟩
    | some parsed =>
        rw [ParentConnection.handle_message_eq herror hparsed,
          MessageRecord.destination_node_id, hparsed]
        refine ⟨fun hnone ↦ absurd hnone (Option.some_ne_none parsed),
          fun _ ↦ List.nil_append _, ?_⟩
        show 0 + _ = ([] ++ List.map _ _).length
        rw [Nat.zero_add, List.nil_append, List.length_map]

end Targets

/-- Whatever the connections have done before, a message from a Parent that has no error is
written exactly once to each connection it is for and to no other, and that is counted.

No writer raises on it, which says at least that it is parsed if there is someone to write
it to: a writer asserts that first. -/
theorem parent_message_delivered {cfg : Config} {events : List Event} {s : State}
    (hrun : (server cfg).run .init events = some s) {p : ℕ} {self : ParentConnection}
    (hp : s.connections.get? p = some (.parent self)) {msg : MessageRecord}
    (herror : msg.error = none)
    (hwriters : ∀ c, Receives s ((server cfg).outputs taken .init events) p
      msg.destination_node_id c → msg.parsed.isSome) (raises : Raises) :
    ∃ r, handle cfg s p msg raises = some r ∧
      (∀ w ∈ r.writes, w = msg.to w.writer) ∧
      (∀ c, Receives s ((server cfg).outputs taken .init events) p msg.destination_node_id c →
        (r.writes.map Write.writer).count c = 1) ∧
      (∀ c ∈ r.writes.map Write.writer,
        Receives s ((server cfg).outputs taken .init events) p msg.destination_node_id c ∧
          c ∈ s.connections ∧ c ≠ p) ∧
      r.msg.forwarded_count = r.writes.length := by
  have hrecorded := recorded_run hrun
  obtain ⟨r, hr, hnone, hsome, hcount⟩ := parent_handled cfg hp herror raises
  -- without a writer that is called there may be a message that is not parsed
  obtain ⟨writers, hwrites, hnodup, hmem⟩ : ∃ writers : List Writer,
      r.writes = writers.map msg.to ∧ writers.Nodup ∧ ∀ c, c ∈ writers ↔
        Receives s ((server cfg).outputs taken .init events) p msg.destination_node_id c := by
    cases hparsed : msg.parsed with
    | none =>
        refine ⟨[], hnone hparsed, List.nodup_nil, fun c ↦ ?_⟩
        refine iff_of_false List.not_mem_nil fun hc ↦ ?_
        have hisSome := hwriters c hc
        rw [hparsed] at hisSome
        exact nomatch hisSome
    | some parsed =>
        exact ⟨_, hsome (hparsed ▸ rfl), nodup_targets hrecorded hp _,
          mem_targets hrecorded hp _⟩
  have hto : r.writes.map Write.writer = writers := by
    rw [hwrites, List.map_map]
    exact List.map_id writers
  refine ⟨r, hr, ?_, ?_, ?_, hcount⟩
  · intro w hw
    rw [hwrites] at hw
    obtain ⟨c, -, rfl⟩ := List.mem_map.mp hw
    rfl
  · intro c hc
    rw [hto]
    exact List.count_eq_one_of_mem hnodup ((hmem c).mpr hc)
  · intro c hc
    rw [hto] at hc
    have hreceives := (hmem c).mp hc
    exact ⟨hreceives, hreceives.open_ne hp⟩

/-! ## An acknowledgement -/

/-- Two Children register under one id, the first of them closes, and there are a Peer, a
Parent and a Recorder. -/
def takenOver : List Event :=
  [.opened ⟨.Child, .PROTO, false⟩, .opened ⟨.Child, .PROTO, false⟩,
    .opened ⟨.Peer, .PROTO, false⟩, .opened ⟨.Parent, .PROTO, true⟩,
    .opened ⟨.Parent, .PROTO, true⟩, .opened ⟨.Recorder, .PROTO, false⟩,
    .received 1 (messageFrom "edge" none (some ⟨"edge"⟩)) .nothing,
    .received 2 (messageFrom "edge" none (some ⟨"edge"⟩)) .nothing,
    .closed 1]

theorem parent_message_delivered_takenOver :
    ∃ s r, (server plain).run .init takenOver = some s ∧
      handle plain s 5 (messageFrom "fusion" (some "edge") none) .nothing = some r ∧
      (r.writes.map Write.writer).count 2 = 1 ∧ (r.writes.map Write.writer).count 3 = 1 ∧
      (r.writes.map Write.writer).count 4 = 1 ∧ r.msg.forwarded_count = r.writes.length := by
  obtain ⟨s, hs⟩ : ∃ s, (server plain).run .init takenOver = some s :=
    Option.isSome_iff_exists.mp (by decide +kernel)
  have hfound : ∀ c k, ((server plain).run .init takenOver).bind (·.connections.get? c) = some k →
      s.connections.get? c = some k := by
    intro c k hk
    rw [hs, Option.bind_some] at hk
    exact hk
  have hpeer := hfound 3 (.peer ⟨3, .PROTO, none⟩) (by decide +kernel)
  have hother := hfound 4 (.parent ⟨4, .PROTO, true⟩) (by decide +kernel)
  have hsender := hfound 5 (.parent ⟨5, .PROTO, true⟩) (by decide +kernel)
  have howner : Owns (OpenChild s) ((server plain).outputs taken .init takenOver) "edge" 2 := by
    have hlast : lastTaker ((server plain).outputs taken .init takenOver) "edge" = some 2 := by
      decide +kernel
    obtain ⟨k, hk⟩ : ∃ k, ((server plain).run .init takenOver).bind (·.connections.get? 2) =
        some k := Option.isSome_iff_exists.mp (by decide +kernel)
    have hstanding : (((server plain).run .init takenOver).bind (·.connections.get? 2)).map
        Connection.standing = some (.child 2 (some "edge") true) := by decide +kernel
    rw [hk] at hstanding
    obtain ⟨child, rfl⟩ := (isChild_iff k).mpr ⟨_, _, _, Option.some.inj hstanding⟩
    exact ⟨hlast, child, hfound 2 _ hk⟩
  have herror : (messageFrom "fusion" (some "edge") none).error = none := rfl
  obtain ⟨r, hr, -, honce, -, hcount⟩ :=
    parent_message_delivered hs hsender herror (fun _ _ ↦ rfl) .nothing
  exact ⟨s, r, hs, hr, honce 2 (.owner rfl howner), honce 3 (.peer hpeer),
    honce 4 (.parent hother rfl (by decide)), hcount⟩

end Apex

end SensorFusion
