import SensorFusion.Apex.Forwarding
import SensorFusion.Apex.Saving

/-!
# What the server reports

`ApexServer.serve` numbers the messages that are read from all of its sockets, keeps them in
a channel for each connection, and hands them to the connection one after the other.  It
reports the connection, the messages and at last the disconnection to the thread that saves
them.  In every run the numbers are different, and the reports on one connection come in
order; so the database takes them all, and says of each connection that is open what its
reports say.
-/

namespace SensorFusion

namespace Apex

open Sqlite (Item StoredRecord ConnectionRecord DisconnectionRecord)

/-! ## Serving connections -/

/-- A connection that is served. -/
structure Served where
  /-- The memory channel. -/
  received : List ReceivedDataRecord
  /-- The connection is about to be closed. -/
  failed : Bool
  deriving DecidableEq

structure Serving where
  server : State
  previous_message_id : ℕ
  served : Dict ℕ Served

def Serving.start : Serving := ⟨.init, 0, ∅⟩

def ConnectionType.name : ConnectionType → String
  | .Peer => "Peer"
  | .Child => "Child"
  | .Parent => "Parent"
  | .Recorder => "Recorder"

inductive Activity
  | opened (config : ConnectionConfig) (peer : String) (time : ℤ)
  /-- `read_to_channel` has received a message. -/
  | read (connection_id : ℕ) (timestamp : ℤ)
  /-- `read_from_channel` handles a message, as the parser makes it of what was received. -/
  | handled (connection_id : ℕ) (msg : StoredRecord) (raises : Raises)
  | closed (connection_id : ℕ) (time : ℤ) (reason : String)

/-- `connection.handle_message` raises: only that of a Parent lets an exception through. -/
def handle_raises (s : State) (connection_id : ℕ) (msg : MessageRecord) : Bool :=
  match s.connections.get? connection_id with
  | some (.parent self) => (ParentConnection.handle_message (s.start self msg)).raised.isSome
  | _ => false

def Handled.fatal (r : Handled) : Bool := r.msg.error.map ErrorRecord.severity = some .FATAL

/-- `serve`, for all connections.  A connection that has failed handles no more messages. -/
def serving (cfg : Config) : Machine Serving Activity
  | s, .opened config _ _ =>
      some { s with
        server := create s.server config
        served := s.served.set (s.server.previous_connection_id + 1) ⟨[], false⟩ }
  | s, .read connection_id timestamp =>
      (s.served.get? connection_id).map fun served ↦
        let message_id := s.previous_message_id + 1
        { s with
          previous_message_id := message_id
          served := s.served.set connection_id
            { served with received := served.received ++ [⟨message_id, timestamp⟩] } }
  | s, .handled connection_id msg raises =>
      match s.served.get? connection_id with
      | some ⟨raw_message :: received, false⟩ =>
          if msg.received = raw_message ∧ msg.connection_id = connection_id ∧
              msg.forwarded_count = 0 then
            (handle cfg s.server connection_id msg.toMessageRecord raises).map fun r ↦
              { s with
                server := r.state
                served := s.served.set connection_id
                  ⟨received, handle_raises s.server connection_id msg.toMessageRecord ||
                    r.fatal⟩ }
          else none
      | _ => none
  | s, .closed connection_id _ _ =>
      if connection_id ∈ s.served then
        (close s.server connection_id).map fun server ↦
          { s with server := server, served := s.served.erase connection_id }
      else none

/-- What is reported: a message as it is when it has been handled, unless its error is not to
be stored or the handling raises. -/
def callbacks (cfg : Config) (s : Serving) : Activity → List Item
  | .opened config peer time =>
      [.connection ⟨s.server.previous_connection_id + 1, config.type.name, peer, time⟩]
  | .read _ _ => []
  | .handled connection_id msg raises =>
      match handle cfg s.server connection_id msg.toMessageRecord raises with
      | some r =>
          if handle_raises s.server connection_id msg.toMessageRecord ∨
              r.msg.error.map ErrorRecord.severity = some .UNSTORED then []
          else [.message { msg with toMessageRecord := r.msg }]
      | none => []
  | .closed connection_id time reason => [.disconnection ⟨connection_id, time, reason⟩]

/-! ## Handling a message -/

theorem Handling.send_to_parent_received {κ : Type} (h : Handling κ) (high_level : Bool)
    (except_writer : Option ParentWriter) :
    (h.send_to_parent high_level except_writer).msg.received = h.msg.received := by
  unfold send_to_parent
  split
  · rfl
  · rw [foldl_send_eq]
    rfl

theorem ParentConnection.handle_message_received (h : Handling ParentConnection) :
    (handle_message h).msg.received = h.msg.received := by
  cases herror : h.msg.error with
  | some error =>
      unfold handle_message
      rw [herror]
      exact congrArg _ (h.send_error_reply_msg _ _)
  | none =>
      cases hparsed : h.msg.parsed with
      | none =>
          rw [handle_message_unparsed herror hparsed]
          rfl
      | some parsed =>
          rw [handle_message_eq herror hparsed]
          rfl

/-- Handling a message leaves alone which one it is, and which connections there are. -/
theorem handle_same {cfg : Config} {s : State} {c : ℕ} {msg : MessageRecord} {raises : Raises}
    {r : Handled} (hr : handle cfg s c msg raises = some r) (hfresh : msg.forwarded_count = 0) :
    r.msg.received = msg.received ∧
      r.state.previous_connection_id = s.previous_connection_id ∧
      ∀ c', c' ∈ r.state.connections ↔ c' ∈ s.connections := by
  obtain ⟨k, hk, rfl⟩ := Option.map_eq_some_iff.mp hr
  have hset : ∀ k', ∀ c', c' ∈ s.connections.set c k' ↔ c' ∈ s.connections := by
    intro k' c'
    rw [Dict.mem_set, or_iff_right_of_imp]
    rintro rfl
    exact Dict.mem_iff_get?.mpr ⟨k, hk⟩
  cases k with
  | child self =>
      exact ⟨(ChildConnection.settled_handle_message (h := s.start self msg) cfg raises rfl
        hfresh).received, rfl, hset _⟩
  | peer self =>
      exact ⟨(PeerConnection.settled_handle_message (h := s.start self msg) cfg raises rfl
        hfresh).received, rfl, hset _⟩
  | parent self =>
      exact ⟨ParentConnection.handle_message_received (s.start self msg), rfl, hset _⟩
  | recorder self => exact ⟨(s.start self msg).send_to_parent_received false none, rfl, hset _⟩

/-! ## The reports on one connection -/

/-- The numbers of messages that were reported, and of those in the channel. -/
def numbers (msgs : List StoredRecord) (received : List ReceivedDataRecord) : List ℕ :=
  msgs.map (·.received.message_id) ++ received.map ReceivedDataRecord.message_id

theorem numbers_nil_sublist (msgs : List StoredRecord) (received : List ReceivedDataRecord) :
    (numbers msgs []).Sublist (numbers msgs received) :=
  List.Sublist.append_left (List.nil_sublist _) _

/-- What has been reported on the connection `c`, if it is served as `served`. -/
inductive Stage (c : ℕ) (served : Option Served) (items : List Item) : Prop
  | unopened (hserved : served = none) (hitems : items = [])
  | opened {now : Served} {conn : ConnectionRecord} {msgs : List StoredRecord}
      (hserved : served = some now) (hitems : items = .connection conn :: msgs.map .message)
      (hordered : (numbers msgs now.received).Pairwise (· < ·))
  | closed {conn : ConnectionRecord} {msgs : List StoredRecord} {disconn : DisconnectionRecord}
      (hserved : served = none)
      (hitems : items = .connection conn :: msgs.map .message ++ [.disconnection disconn])
      (hordered : (numbers msgs []).Pairwise (· < ·))

/-- What has been reported so far. -/
structure Reported (s : Serving) (items : List Item) : Prop where
  stage : ∀ c, Stage c (s.served.get? c) (items.filter (Item.about c))
  later : ∀ c, s.server.previous_connection_id < c →
    s.served.get? c = none ∧ items.filter (Item.about c) = []
  connections : ∀ c, c ∈ s.served ↔ c ∈ s.server.connections
  /-- A number is given to one message alone, and on one connection. -/
  reader : ∃ reader : ℕ → ℕ,
    (∀ msg, .message msg ∈ items → msg.received.message_id ≤ s.previous_message_id ∧
      reader msg.received.message_id = msg.connection_id) ∧
    ∀ c now, s.served.get? c = some now → ∀ raw ∈ now.received,
      raw.message_id ≤ s.previous_message_id ∧ reader raw.message_id = c

theorem reported_start : Reported .start [] where
  stage _ := .unopened rfl rfl
  later _ _ := ⟨rfl, rfl⟩
  connections _ := Iff.rfl
  reader := ⟨fun _ ↦ 0, fun _ hmsg ↦ (nomatch hmsg), fun _ _ hnow ↦ (nomatch hnow)⟩

theorem filter_about_self {c : ℕ} {item : Item} (h : item.about c = true) (items : List Item) :
    (items ++ [item]).filter (Item.about c) = items.filter (Item.about c) ++ [item] := by
  rw [List.filter_append, List.filter_cons_of_pos h, List.filter_nil]

theorem filter_about_ne {c c' : ℕ} {item : Item} (h : item.about c = true) (hne : c' ≠ c)
    (items : List Item) :
    (items ++ [item]).filter (Item.about c') = items.filter (Item.about c') := by
  rw [List.filter_append, List.filter_cons_of_neg (by rw [Item.about_ne h hne]; exact
    Bool.false_ne_true), List.filter_nil, List.append_nil]

section Steps

variable {s s' : Serving} {items : List Item}

theorem Reported.opened (h : Reported s items) {cfg : Config} {config : ConnectionConfig}
    {peer : String} {time : ℤ} (hstep : serving cfg s (.opened config peer time) = some s') :
    Reported s' (items ++ callbacks cfg s (.opened config peer time)) := by
  cases hstep
  obtain ⟨-, hnothing⟩ := h.later (s.server.previous_connection_id + 1) (Nat.lt_succ_self _)
  rw [callbacks]
  have habout : (Item.connection ⟨s.server.previous_connection_id + 1, config.type.name, peer,
      time⟩).about (s.server.previous_connection_id + 1) = true := decide_eq_true rfl
  refine ⟨fun c ↦ ?_, fun c hc ↦ ?_, fun c ↦ ?_, ?_⟩
  · dsimp only
    by_cases hc : c = s.server.previous_connection_id + 1
    · subst hc
      rw [Dict.get?_set_self, filter_about_self habout, hnothing]
      exact @Stage.opened _ _ _ _ _ [] rfl rfl List.Pairwise.nil
    · rw [Dict.get?_set_ne _ _ hc, filter_about_ne habout hc]
      exact h.stage c
  · have hne : c ≠ s.server.previous_connection_id + 1 := (Nat.ne_of_lt hc).symm
    dsimp only
    rw [Dict.get?_set_ne _ _ hne, filter_about_ne habout hne]
    exact h.later c ((Nat.lt_succ_self _).trans hc)
  · rw [Dict.mem_set, h.connections c]
    exact Dict.mem_set.symm
  · obtain ⟨reader, hitems, hserved⟩ := h.reader
    refine ⟨reader, fun msg hmsg ↦ ?_, fun c now hnow raw hraw ↦ ?_⟩
    · rcases List.mem_append.mp hmsg with hmsg | hmsg
      · exact hitems msg hmsg
      · exact nomatch List.mem_singleton.mp hmsg
    · dsimp only at hnow
      rw [Dict.get?_set] at hnow
      split at hnow
      · cases hnow
        exact absurd hraw List.not_mem_nil
      · exact hserved c now hnow raw hraw

/-- The stage of a connection that is served. -/
theorem Reported.stage_opened (h : Reported s items) {c : ℕ} {now : Served}
    (hnow : s.served.get? c = some now) : ∃ conn msgs,
      items.filter (Item.about c) = .connection conn :: msgs.map .message ∧
        (numbers msgs now.received).Pairwise (· < ·) := by
  cases h.stage c with
  | unopened hserved _ => exact absurd (hnow.symm.trans hserved) nofun
  | opened hserved hitems hordered =>
      rw [hnow] at hserved
      cases hserved
      exact ⟨_, _, hitems, hordered⟩
  | closed hserved _ _ => exact absurd (hnow.symm.trans hserved) nofun

/-- All numbers that a connection has seen are given. -/
theorem Reported.numbers_le (h : Reported s items) {c : ℕ} {now : Served}
    (hnow : s.served.get? c = some now) {conn : ConnectionRecord} {msgs : List StoredRecord}
    (hitems : items.filter (Item.about c) = .connection conn :: msgs.map .message) :
    ∀ id ∈ numbers msgs now.received, id ≤ s.previous_message_id := by
  obtain ⟨reader, hreported, hserved⟩ := h.reader
  intro id hid
  rcases List.mem_append.mp hid with hid | hid
  · obtain ⟨msg, hmsg, rfl⟩ := List.mem_map.mp hid
    have hmem : Item.message msg ∈ items.filter (Item.about c) := by
      rw [hitems]
      exact List.mem_cons_of_mem _ (List.mem_map_of_mem hmsg)
    exact (hreported msg (List.mem_filter.mp hmem).1).1
  · obtain ⟨raw, hraw, rfl⟩ := List.mem_map.mp hid
    exact (hserved c now hnow raw hraw).1

theorem Reported.read (h : Reported s items) {cfg : Config} {c : ℕ} {timestamp : ℤ}
    (hstep : serving cfg s (.read c timestamp) = some s') : Reported s' items := by
  obtain ⟨now, hnow, rfl⟩ := Option.map_eq_some_iff.mp hstep
  refine ⟨fun c' ↦ ?_, fun c' hc' ↦ ?_, fun c' ↦ ?_, ?_⟩
  · dsimp only
    by_cases hc : c' = c
    · subst hc
      obtain ⟨conn, msgs, hitems, hordered⟩ := h.stage_opened hnow
      rw [Dict.get?_set_self]
      refine .opened rfl hitems ?_
      rw [numbers, List.map_append, ← List.append_assoc]
      refine List.pairwise_append.mpr ⟨hordered, List.pairwise_singleton _ _,
        fun id hid id' hid' ↦ ?_⟩
      rw [List.mem_singleton.mp hid']
      exact Nat.lt_succ_of_le (h.numbers_le hnow hitems id hid)
    · rw [Dict.get?_set_ne _ _ hc]
      exact h.stage c'
  · have hne : c' ≠ c := by
      rintro rfl
      exact absurd (hnow.symm.trans (h.later c' hc').1) nofun
    dsimp only
    rw [Dict.get?_set_ne _ _ hne]
    exact h.later c' hc'
  · rw [← h.connections c', Dict.mem_set, or_iff_right_of_imp]
    rintro rfl
    exact Dict.mem_iff_get?.mpr ⟨now, hnow⟩
  · obtain ⟨reader, hreported, hserved⟩ := h.reader
    have hkeep : ∀ id ≤ s.previous_message_id,
        (if id = s.previous_message_id + 1 then c else reader id) = reader id :=
      fun id hle ↦ if_neg (Nat.ne_of_lt (Nat.lt_succ_of_le hle))
    refine ⟨fun id ↦ if id = s.previous_message_id + 1 then c else reader id, fun msg hmsg ↦ ?_,
      fun c' now' hnow' raw hraw ↦ ?_⟩
    · obtain ⟨hle, hreader⟩ := hreported msg hmsg
      exact ⟨Nat.le_succ_of_le hle, (hkeep _ hle).trans hreader⟩
    · have hold : ∀ c' now', s.served.get? c' = some now' → ∀ raw ∈ now'.received,
          raw.message_id ≤ s.previous_message_id + 1 ∧
            (if raw.message_id = s.previous_message_id + 1 then c else reader raw.message_id) =
              c' := by
        intro c' now' hnow' raw hraw
        obtain ⟨hle, hreader⟩ := hserved c' now' hnow' raw hraw
        exact ⟨Nat.le_succ_of_le hle, (hkeep _ hle).trans hreader⟩
      dsimp only at hnow' ⊢
      rw [Dict.get?_set] at hnow'
      split at hnow'
      · rename_i hc
        cases hnow'
        rcases List.mem_append.mp hraw with hraw | hraw
        · exact hc ▸ hold c now hnow raw hraw
        · rw [List.mem_singleton.mp hraw, if_pos rfl]
          exact ⟨le_refl _, hc.symm⟩
      · exact hold c' now' hnow' raw hraw

theorem Reported.closed (h : Reported s items) {cfg : Config} {c : ℕ} {time : ℤ}
    {reason : String} (hstep : serving cfg s (.closed c time reason) = some s') :
    Reported s' (items ++ callbacks cfg s (.closed c time reason)) := by
  obtain ⟨hmem, hstep⟩ := Option.ite_none_right_eq_some.mp hstep
  obtain ⟨server, hclose, rfl⟩ := Option.map_eq_some_iff.mp hstep
  obtain ⟨k, hk, rfl⟩ := Option.map_eq_some_iff.mp hclose
  obtain ⟨now, hnow⟩ := Dict.mem_iff_get?.mp hmem
  rw [callbacks]
  have habout : (Item.disconnection ⟨c, time, reason⟩).about c = true := decide_eq_true rfl
  refine ⟨fun c' ↦ ?_, fun c' hc' ↦ ?_, fun c' ↦ ?_, ?_⟩
  · dsimp only
    by_cases hc : c' = c
    · subst hc
      obtain ⟨conn, msgs, hitems, hordered⟩ := h.stage_opened hnow
      refine .closed (by rw [Dict.get?_erase, if_pos rfl]) (by
        rw [filter_about_self habout, hitems]) ?_
      exact hordered.sublist (numbers_nil_sublist msgs now.received)
    · rw [Dict.get?_erase_ne _ hc, filter_about_ne habout hc]
      exact h.stage c'
  · have hne : c' ≠ c := by
      rintro rfl
      exact absurd (hnow.symm.trans (h.later c' hc').1) nofun
    dsimp only
    rw [Dict.get?_erase_ne _ hne, filter_about_ne habout hne]
    exact h.later c' hc'
  · rw [Dict.mem_erase, h.connections c']
    exact Dict.mem_erase.symm
  · obtain ⟨reader, hreported, hserved⟩ := h.reader
    refine ⟨reader, fun msg hmsg ↦ ?_, fun c' now' hnow' ↦ ?_⟩
    · rcases List.mem_append.mp hmsg with hmsg | hmsg
      · exact hreported msg hmsg
      · exact nomatch List.mem_singleton.mp hmsg
    · exact hserved c' now' (Dict.get?_erase_eq_some_iff.mp hnow').2

/-- What is reported of a message that is handled. -/
theorem callbacks_handled {cfg : Config} {c : ℕ} {msg : StoredRecord} {raises : Raises}
    {r : Handled} (hr : handle cfg s.server c msg.toMessageRecord raises = some r)
    (hfresh : msg.forwarded_count = 0) :
    callbacks cfg s (.handled c msg raises) = [] ∨
      ∃ msg' : StoredRecord, callbacks cfg s (.handled c msg raises) = [.message msg'] ∧
        msg'.received = msg.received ∧ msg'.connection_id = msg.connection_id := by
  rw [callbacks, hr]
  dsimp only
  split
  · exact Or.inl rfl
  · exact Or.inr ⟨_, rfl, (handle_same hr hfresh).1, rfl⟩

/-- The step with which a message is handled. -/
theorem serving_handled {cfg : Config} {c : ℕ} {msg : StoredRecord} {raises : Raises}
    (hstep : serving cfg s (.handled c msg raises) = some s') :
    ∃ received failed r, s.served.get? c = some ⟨msg.received :: received, false⟩ ∧
      msg.connection_id = c ∧ msg.forwarded_count = 0 ∧
      handle cfg s.server c msg.toMessageRecord raises = some r ∧
      s' = { s with server := r.state, served := s.served.set c ⟨received, failed⟩ } := by
  simp only [serving] at hstep
  split at hstep
  · rename_i raw received hnow
    obtain ⟨⟨hraw, hc, hfresh⟩, hstep⟩ := Option.ite_none_right_eq_some.mp hstep
    obtain ⟨r, hr, rfl⟩ := Option.map_eq_some_iff.mp hstep
    exact ⟨received, _, r, hraw ▸ hnow, hc, hfresh, hr, rfl⟩
  · cases hstep

theorem Reported.handled (h : Reported s items) {cfg : Config} {c : ℕ} {msg : StoredRecord}
    {raises : Raises} (hstep : serving cfg s (.handled c msg raises) = some s') :
    Reported s' (items ++ callbacks cfg s (.handled c msg raises)) := by
  obtain ⟨received, failed, r, hnow, hc, hfresh, hr, rfl⟩ := serving_handled hstep
  obtain ⟨-, hprevious, hconnections⟩ := handle_same hr hfresh
  obtain ⟨conn, msgs, hitems, hordered⟩ := h.stage_opened hnow
  obtain ⟨reader, hreported, hserved⟩ := h.reader
  -- what is new in the reports is about this connection, and next in order
  obtain ⟨hself, hother, hmessages⟩ :
      (∃ msgs', (items ++ callbacks cfg s (.handled c msg raises)).filter (Item.about c) =
        .connection conn :: msgs'.map .message ∧
          (numbers msgs' received).Sublist (numbers msgs (msg.received :: received))) ∧
      (∀ c' ≠ c, (items ++ callbacks cfg s (.handled c msg raises)).filter (Item.about c') =
        items.filter (Item.about c')) ∧
      ∀ msg', .message msg' ∈ items ++ callbacks cfg s (.handled c msg raises) →
        .message msg' ∈ items ∨ msg'.received = msg.received ∧ msg'.connection_id = c := by
    rcases callbacks_handled hr hfresh with hnothing | ⟨msg', hmsg, hreceived, hconnection⟩
    · rw [hnothing, List.append_nil]
      exact ⟨⟨msgs, hitems, List.sublist_cons_self _ _ |>.append_left _⟩, fun _ _ ↦ rfl,
        fun _ hmsg ↦ Or.inl hmsg⟩
    · have habout : (Item.message msg').about c = true :=
        decide_eq_true (hconnection.trans hc)
      rw [hmsg]
      refine ⟨⟨msgs ++ [msg'], ?_, ?_⟩, fun c' hne ↦ filter_about_ne habout hne items,
        fun msg₁ hmsg₁ ↦ ?_⟩
      · rw [filter_about_self habout, hitems, List.map_append]
        rfl
      · rw [numbers, numbers, List.map_append, List.append_assoc, List.map_singleton, hreceived]
        exact List.Sublist.refl _
      · rcases List.mem_append.mp hmsg₁ with hmsg₁ | hmsg₁
        · exact Or.inl hmsg₁
        · cases List.mem_singleton.mp hmsg₁
          exact Or.inr ⟨hreceived, hconnection.trans hc⟩
  refine ⟨fun c' ↦ ?_, fun c' hc' ↦ ?_, fun c' ↦ ?_, reader, fun msg₁ hmsg₁ ↦ ?_,
    fun c' now' hnow' raw hraw ↦ ?_⟩
  · by_cases hc' : c' = c
    · rw [hc', Dict.get?_set_self]
      obtain ⟨msgs', hitems', hsub⟩ := hself
      exact .opened rfl hitems' (hordered.sublist hsub)
    · dsimp only
      rw [Dict.get?_set_ne _ _ hc', hother c' hc']
      exact h.stage c'
  · rw [hprevious] at hc'
    have hne : c' ≠ c := by
      rintro rfl
      exact absurd (hnow.symm.trans (h.later c' hc').1) nofun
    dsimp only
    rw [Dict.get?_set_ne _ _ hne, hother c' hne]
    exact h.later c' hc'
  · dsimp only
    rw [hconnections, ← h.connections c', Dict.mem_set, or_iff_right_of_imp]
    rintro rfl
    exact Dict.mem_iff_get?.mpr ⟨_, hnow⟩
  · rcases hmessages msg₁ hmsg₁ with hold | ⟨hreceived, hconnection⟩
    · exact hreported msg₁ hold
    · rw [hreceived, hconnection]
      exact hserved c _ hnow msg.received List.mem_cons_self
  · dsimp only at hnow'
    rw [Dict.get?_set] at hnow'
    split at hnow'
    · rename_i hc'
      cases hnow'
      rw [hc']
      exact hserved c _ hnow raw (List.mem_cons_of_mem _ hraw)
    · exact hserved c' now' hnow' raw hraw

theorem Reported.step (h : Reported s items) {cfg : Config} {activity : Activity}
    (hstep : serving cfg s activity = some s') :
    Reported s' (items ++ callbacks cfg s activity) := by
  cases activity with
  | opened config peer time => exact h.opened hstep
  | read c timestamp =>
      rw [callbacks, List.append_nil]
      exact h.read hstep
  | handled c msg raises => exact h.handled hstep
  | closed c time reason => exact h.closed hstep

theorem reported_run {cfg : Config} {activities : List Activity}
    (hrun : (serving cfg).run .start activities = some s) :
    Reported s ((serving cfg).outputs (callbacks cfg) .start activities) := by
  have hreported := Machine.outputs_invariant (I := Reported)
    (fun _ _ _ _ h hstep ↦ Reported.step h hstep) reported_start hrun
  rwa [List.nil_append] at hreported

/-! ## Numbers are different -/

theorem count_filterMap_filter {α β : Type*} [DecidableEq β] {f : α → Option β} {p : α → Bool}
    {b : β} {l : List α} (h : ∀ a ∈ l, f a = some b → p a = true) :
    (l.filterMap f).count b = ((l.filter p).filterMap f).count b := by
  induction l with
  | nil => rfl
  | cons a l ih =>
      have hl := ih fun a' ha' ↦ h a' (List.mem_cons_of_mem a ha')
      by_cases hp : p a = true
      · rw [List.filter_cons_of_pos hp, List.filterMap_cons, List.filterMap_cons]
        cases f a with
        | none => exact hl
        | some b' => rw [List.count_cons, List.count_cons, hl]
      · rw [List.filter_cons_of_neg hp, ← hl, List.filterMap_cons]
        cases hf : f a with
        | none => rfl
        | some b' =>
            have hne : b' ≠ b := fun heq ↦ hp (h a List.mem_cons_self (heq ▸ hf))
            rw [List.count_cons_of_ne hne]

theorem connection_ids_messages (msgs : List StoredRecord) :
    (msgs.map Item.message).filterMap Item.connection_id? = [] := by
  rw [List.filterMap_map]
  exact List.filterMap_eq_nil_iff.mpr fun _ _ ↦ rfl

theorem message_ids_messages (msgs : List StoredRecord) :
    (msgs.map Item.message).filterMap Item.message_id? = numbers msgs [] := by
  rw [List.filterMap_map, numbers, List.map_nil, List.append_nil]
  exact congrFun (List.filterMap_eq_map
    (f := fun msg : StoredRecord ↦ msg.received.message_id)) msgs

/-- A connection is reported once, and its messages in the order of their numbers. -/
theorem Stage.ids {c : ℕ} {served : Option Served} (h : Stage c served items) :
    (items.filterMap Item.connection_id?).length ≤ 1 ∧
      (items.filterMap Item.message_id?).Pairwise (· < ·) := by
  cases h with
  | unopened _ hitems =>
      rw [hitems]
      exact ⟨Nat.zero_le 1, List.Pairwise.nil⟩
  | @opened now conn msgs _ hitems hordered =>
      have hconnection : (Item.connection conn :: msgs.map Item.message).filterMap
          Item.connection_id? = [conn.id] := congrArg _ (connection_ids_messages msgs)
      have hmessage : (Item.connection conn :: msgs.map Item.message).filterMap
          Item.message_id? = numbers msgs [] := message_ids_messages msgs
      rw [hitems, hconnection, hmessage]
      exact ⟨le_refl 1, hordered.sublist (numbers_nil_sublist msgs now.received)⟩
  | @closed conn msgs disconn _ hitems hordered =>
      have hconnection : (Item.connection conn :: msgs.map Item.message ++
          [Item.disconnection disconn]).filterMap Item.connection_id? = [conn.id] := by
        rw [List.filterMap_append]
        exact congrArg (conn.id :: · ++ []) (connection_ids_messages msgs)
      have hmessage : (Item.connection conn :: msgs.map Item.message ++
          [Item.disconnection disconn]).filterMap Item.message_id? = numbers msgs [] := by
        rw [List.filterMap_append]
        exact (List.append_nil _).trans (message_ids_messages msgs)
      rw [hitems, hconnection, hmessage]
      exact ⟨le_refl 1, hordered⟩

theorem Reported.savable (h : Reported s items) : Sqlite.Savable items := by
  constructor
  · refine List.nodup_iff_count_le_one.mpr fun c ↦ ?_
    have habout : ∀ item ∈ items, item.connection_id? = some c → item.about c = true := by
      intro item _ hid
      cases item with
      | connection conn => exact decide_eq_true (Option.some.inj hid)
      | message msg => cases hid
      | disconnection disconn => cases hid
      | stop => cases hid
    rw [count_filterMap_filter habout]
    exact List.count_le_length.trans (h.stage c).ids.1
  · obtain ⟨reader, hreported, -⟩ := h.reader
    refine List.nodup_iff_count_le_one.mpr fun id ↦ ?_
    have habout : ∀ item ∈ items, item.message_id? = some id → item.about (reader id) = true := by
      intro item hitem hid
      cases item with
      | connection conn => cases hid
      | message msg =>
          cases hid
          exact decide_eq_true (hreported msg hitem).2.symm
      | disconnection disconn => cases hid
      | stop => cases hid
    rw [count_filterMap_filter habout]
    exact List.nodup_iff_count_le_one.mp ((h.stage (reader id)).ids.2.imp Nat.ne_of_lt) id

/-- Whatever the connections do, the numbers of the messages that are reported are different,
and on each connection there are reported, in this order, the connection, messages with
increasing numbers and, if it is not open any more, the disconnection. -/
theorem callbacks_ordered {cfg : Config} {activities : List Activity} {s : Serving}
    (hrun : (serving cfg).run .start activities = some s) :
    (((serving cfg).outputs (callbacks cfg) .start activities).filterMap
        Item.message_id?).Nodup ∧
      ∀ c, ∃ msgs : List StoredRecord, (numbers msgs []).Pairwise (· < ·) ∧
        (c ∈ s.server.connections → ∃ conn,
          ((serving cfg).outputs (callbacks cfg) .start activities).filter (Item.about c) =
            .connection conn :: msgs.map .message) ∧
        (c ∉ s.server.connections →
          ((serving cfg).outputs (callbacks cfg) .start activities).filter (Item.about c) = [] ∨
          ∃ conn disconn,
            ((serving cfg).outputs (callbacks cfg) .start activities).filter (Item.about c) =
              .connection conn :: msgs.map .message ++ [.disconnection disconn]) := by
  have hreported := reported_run hrun
  refine ⟨hreported.savable.message_ids, fun c ↦ ?_⟩
  have hopen := hreported.connections c
  rw [← Dict.get?_isSome_iff] at hopen
  cases hreported.stage c with
  | unopened hserved hitems =>
      rw [hserved] at hopen
      exact ⟨[], List.Pairwise.nil, fun hc ↦ absurd (hopen.mpr hc) Bool.false_ne_true,
        fun _ ↦ Or.inl hitems⟩
  | @opened now conn msgs hserved hitems hordered =>
      rw [hserved] at hopen
      exact ⟨msgs, hordered.sublist (numbers_nil_sublist msgs now.received),
        fun _ ↦ ⟨conn, hitems⟩, fun hc ↦ absurd (hopen.mp rfl) hc⟩
  | @closed conn msgs disconn hserved hitems hordered =>
      rw [hserved] at hopen
      exact ⟨msgs, hordered, fun hc ↦ absurd (hopen.mpr hc) Bool.false_ne_true,
        fun _ ↦ Or.inr ⟨conn, disconn, hitems⟩⟩

/-- The only message of the Peer below. -/
def fromPeer : StoredRecord := { Sqlite.stored 1 "alert" none with connection_id := 2 }

/-- A Child registers and reports a detection, and a Peer, whose message was read before, closes
after it has been handled. -/
def attending : List Activity :=
  [.opened ⟨.Child, .PROTO, false⟩ "edge:14000" 0, .opened ⟨.Peer, .PROTO, false⟩ "fusion:14001" 0,
    .read 2 0, .read 1 0, .read 1 0,
    .handled 1 (Sqlite.stored 2 "registration" (some ⟨"edge"⟩)) .nothing,
    .handled 1 (Sqlite.stored 3 "detection_report" none) .nothing,
    .handled 2 fromPeer .nothing, .closed 2 9 "Connection closed"]

theorem callbacks_ordered_attending :
    ∃ s, (serving plain).run .start attending = some s ∧
      (((serving plain).outputs (callbacks plain) .start attending).filterMap
        Item.message_id?).Nodup ∧
      ((serving plain).outputs (callbacks plain) .start attending).filterMap
        Item.message_id? = [2, 3, 1] ∧
      (∃ conn, ∃ msgs : List StoredRecord, (numbers msgs []).Pairwise (· < ·) ∧
        ((serving plain).outputs (callbacks plain) .start attending).filter (Item.about 1) =
          .connection conn :: msgs.map .message) ∧
      ∃ conn disconn, ∃ msgs : List StoredRecord, (numbers msgs []).Pairwise (· < ·) ∧
        ((serving plain).outputs (callbacks plain) .start attending).filter (Item.about 2) =
          .connection conn :: msgs.map .message ++ [.disconnection disconn] := by
  obtain ⟨s, hs⟩ : ∃ s, (serving plain).run .start attending = some s :=
    Option.isSome_iff_exists.mp (by decide +kernel)
  have hopen : ((serving plain).run .start attending).map
      (fun s ↦ (decide (1 ∈ s.server.connections), decide (2 ∉ s.server.connections))) =
        some (true, true) := by decide +kernel
  rw [hs, Option.map_some, Option.some_inj, Prod.mk.injEq] at hopen
  have hreported : ((serving plain).outputs (callbacks plain) .start attending).filter
      (Item.about 2) ≠ [] := by decide +kernel
  obtain ⟨hnodup, hall⟩ := callbacks_ordered hs
  obtain ⟨msgs₁, hmsgs₁, hfirst, -⟩ := hall 1
  obtain ⟨msgs₂, hmsgs₂, -, hsecond⟩ := hall 2
  obtain ⟨conn₁, hfirst⟩ := hfirst (of_decide_eq_true hopen.1)
  obtain ⟨conn₂, disconn, hsecond⟩ :=
    (hsecond (of_decide_eq_true hopen.2)).resolve_left hreported
  exact ⟨s, hs, hnodup, by decide +kernel, ⟨conn₁, msgs₁, hmsgs₁, hfirst⟩, conn₂, disconn, msgs₂,
    hmsgs₂, hsecond⟩

/-! ## From the sockets to the database -/

/-- Whatever the connections do, however the thread that saves and the one that adds to its
list take turns and wherever the database rolls over, the database takes what is passed to
it.  When everything has been added, in time, and saved, its row for each connection that is
open says what has been reported on it: which of its messages are the latest; and these
messages are there. -/
theorem everything_saved {cfg : Config} {activities : List Activity} {s : Serving}
    (hserving : (serving cfg).run .start activities = some s) {labels : List Sqlite.Label}
    {t : Sqlite.SqliteThread} (hthread : Sqlite.thread.run .start labels = some t)
    (hadded : labels.flatMap Sqlite.added <+:
      (serving cfg).outputs (callbacks cfg) .start activities) :
    ∃ db, Sqlite.saver.run .empty (Sqlite.thread.outputs Sqlite.performed .start labels) =
        some db ∧
      (labels.flatMap Sqlite.added = (serving cfg).outputs (callbacks cfg) .start activities →
        Sqlite.thread.Meets (fun t l ↦ ¬ Sqlite.Late t l) .start labels →
        t.phase = .waiting → t.pending = [] → ∀ c ∈ s.server.connections,
          ∃ (conn : ConnectionRecord) (msgs : List StoredRecord),
            ((serving cfg).outputs (callbacks cfg) .start activities).filter (Item.about c) =
              .connection conn :: msgs.map .message ∧
            db.connections.get? c =
              some { conn.row with recent := msgs.foldl Sqlite.Recent.note .nothing } ∧
            ∀ id ∈ (msgs.foldl Sqlite.Recent.note .nothing).ids, id ∈ db.messages) := by
  have hreported := reported_run hserving
  obtain ⟨hsaved, -, hcaught⟩ := Sqlite.saved_in_order hthread
  have hsavable := hreported.savable.sublist (hsaved.trans hadded.sublist)
  obtain ⟨db, hdb, hrows⟩ := Sqlite.exists_saved hsavable
  refine ⟨db, hdb, fun hall hmeets hphase hpending c hc ↦ ?_⟩
  have hitems := ((hcaught hmeets).2 hphase hpending).trans hall
  obtain ⟨now, hnow⟩ := Dict.mem_iff_get?.mp ((hreported.connections c).mpr hc)
  obtain ⟨conn, msgs, hfilter, -⟩ := hreported.stage_opened hnow
  have hentry : ((serving cfg).outputs (callbacks cfg) .start activities).foldl
      (Sqlite.entry c) none =
        some { conn.row with recent := msgs.foldl Sqlite.Recent.note .nothing } := by
    have habout : ∀ item ∈ Item.connection conn :: msgs.map .message, item.about c = true := by
      intro item hitem
      rw [← hfilter] at hitem
      exact (List.mem_filter.mp hitem).2
    have hconn : Sqlite.entry c none (.connection conn) = some conn.row :=
      if_pos (habout _ List.mem_cons_self)
    rw [Sqlite.foldl_entry_filter, hfilter, List.foldl_cons, hconn]
    refine Sqlite.foldl_entry_messages c (fun msg hmsg ↦ of_decide_eq_true ?_) conn.row
    exact habout _ (List.mem_cons_of_mem _ (List.mem_map_of_mem hmsg))
  rw [hitems] at hrows
  have hrow := (hrows c _ rfl).mpr hentry
  refine ⟨conn, msgs, hfilter, hrow, fun id hid ↦ ?_⟩
  obtain ⟨-, hids⟩ := Sqlite.recent_heard hdb hrow
  obtain ⟨msg, -, -, saved, hmessage⟩ := hids id hid
  exact Dict.mem_iff_get?.mpr ⟨_, hmessage⟩

/-- A message that was forwarded to the Peer. -/
def toPeer (msg : StoredRecord) : StoredRecord := { msg with forwarded_count := 1 }

/-- What is reported is added and saved, in three turns and with a rollover before the second. -/
def relaying : List Sqlite.Label :=
  [.load, .append (.connection ⟨1, "Child", "edge:14000", 0⟩), .load,
    .append (.connection ⟨2, "Peer", "fusion:14001", 0⟩), .wake false, .take,
    .read fun _ ↦ 0, .read fun _ ↦ 0, .read fun _ ↦ 0, .load,
    .append (.message (toPeer (Sqlite.stored 2 "registration" (some ⟨"edge"⟩)))), .load,
    .append (.message (toPeer (Sqlite.stored 3 "detection_report" none))), .wake true, .take,
    .read fun _ ↦ 0, .load, .append (.message fromPeer), .read fun _ ↦ 0, .read fun _ ↦ 0, .load,
    .append (.disconnection ⟨2, 9, "Connection closed"⟩), .wake false, .take,
    .read fun _ ↦ 0, .read fun _ ↦ 0, .read fun _ ↦ 0]

theorem everything_saved_relaying :
    ∃ s db, (serving plain).run .start attending = some s ∧
      Sqlite.saver.run .empty (Sqlite.thread.outputs Sqlite.performed .start relaying) = some db ∧
      ∃ (conn : ConnectionRecord) (msgs : List StoredRecord), db.connections.get? 1 =
        some { conn.row with recent := msgs.foldl Sqlite.Recent.note .nothing } := by
  obtain ⟨s, hs⟩ : ∃ s, (serving plain).run .start attending = some s :=
    Option.isSome_iff_exists.mp (by decide +kernel)
  obtain ⟨t, ht⟩ : ∃ t, Sqlite.thread.run .start relaying = some t :=
    Option.isSome_iff_exists.mp (by decide +kernel)
  have hall : relaying.flatMap Sqlite.added =
      (serving plain).outputs (callbacks plain) .start attending := by decide +kernel
  have hmeets : Sqlite.thread.Meets (fun t l ↦ ¬ Sqlite.Late t l) .start relaying := by
    simp [relaying, Machine.Meets, Sqlite.Late, Sqlite.thread, Sqlite.SqliteThread.start,
      Sqlite.SqliteThread.read]
  have hphase : (Sqlite.thread.run .start relaying).map (fun t ↦ (t.phase, t.pending)) =
      some (.waiting, []) := by decide +kernel
  have hopen : ((serving plain).run .start attending).map
      (fun s ↦ decide (1 ∈ s.server.connections)) = some true := by decide +kernel
  rw [ht, Option.map_some, Option.some_inj, Prod.mk.injEq] at hphase
  rw [hs, Option.map_some, Option.some_inj] at hopen
  obtain ⟨db, hdb, hrows⟩ := everything_saved hs ht (hall ▸ List.prefix_rfl)
  obtain ⟨conn, msgs, -, hrow, -⟩ :=
    hrows hall hmeets hphase.1 hphase.2 1 (of_decide_eq_true hopen)
  exact ⟨s, db, hs, hdb, conn, msgs, hrow⟩

end Steps

end Apex

end SensorFusion
