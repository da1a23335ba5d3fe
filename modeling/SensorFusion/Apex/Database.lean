import SensorFusion.Apex.Connection
import SensorFusion.Lib.Machine
import SensorFusion.Lib.Table

/-!
# The database of the middleware

`SqliteSaver` saves the connections and the messages in a database.  The row of a connection
refers to the recent messages that came in on it.  Now and then the database rolls over: a
new one is begun with the connections that are open and the messages they refer to.  Whoever
reads the new database finds in it what there would be in a single one, for all connections
that are open; and no message is lost.
-/

namespace SensorFusion

namespace Apex

namespace Sqlite

/-! ## Records -/

structure ConnectionRecord where
  id : ℕ
  type : String
  peer : String
  time : ℤ
  deriving DecidableEq

structure DisconnectionRecord where
  connection_id : ℕ
  time : ℤ
  reason : String
  deriving DecidableEq

/-- A message as it is saved: what the connections handle, and what they do not look at. -/
structure StoredRecord extends MessageRecord where
  /-- `received.connection_id`. -/
  connection_id : ℕ
  /-- `parsed.message_type`. -/
  message_type : Option String
  data_decoded_xml : String
  data_binary_proto : Option (List UInt8)
  decoded_timestamp : ℤ
  data_json : Option String
  deriving DecidableEq

/-! ## Rows -/

structure Message where
  connection_id : ℕ
  timestamp_received : ℤ
  timestamp_decoded : ℤ
  timestamp_saved : ℤ
  xml : String
  proto : Option (List UInt8)
  json : Option String
  forwarded_count : ℕ
  parsed_type : Option String
  parsed_node_id : Option String
  parsed_timestamp : Option ℤ
  registration_node_type : Option String
  status_report_system : Option String
  status_report_is_unchanged : Option Bool
  error_severity : Option ErrorSeverity
  error_description : Option String
  sapient_version : SapientVersion
  deriving DecidableEq

/-- The columns of a connection that refer to messages. -/
structure Recent where
  recent_msg_id_registration : Option ℕ
  recent_msg_id_status_new : Option ℕ
  recent_msg_id_status_unchanged : Option ℕ
  recent_msg_id_detection : Option ℕ
  deriving DecidableEq

def Recent.nothing : Recent := ⟨none, none, none, none⟩

def Recent.ids (recent : Recent) : List ℕ :=
  recent.recent_msg_id_registration.toList ++ recent.recent_msg_id_status_new.toList ++
    recent.recent_msg_id_status_unchanged.toList ++ recent.recent_msg_id_detection.toList

structure Connection where
  client_type : String
  peer : String
  connect_time : ℤ
  disconnect_time : Option ℤ
  disconnect_reason : Option String
  recent : Recent
  deriving DecidableEq

/-- Both tables, by their primary keys. -/
structure Database where
  messages : Dict ℕ Message
  connections : Dict ℕ Connection
  deriving DecidableEq

def Database.empty : Database := ⟨∅, ∅⟩

/-! ## Saving -/

/-- A second row with a primary key that is in use raises. -/
def insert_connection (conn : ConnectionRecord) (db : Database) : Option Database :=
  (db.connections.insertNew (conn.id,
    { client_type := conn.type
      peer := conn.peer
      connect_time := conn.time
      disconnect_time := none
      disconnect_reason := none
      recent := .nothing })).map fun connections ↦ { db with connections := connections }

/-- `_record_to_message`, with the primary key. -/
def record_to_message (saved_timestamp : ℤ) (msg : StoredRecord) : ℕ × Message :=
  (msg.received.message_id,
    { connection_id := msg.connection_id
      timestamp_received := msg.received.timestamp
      timestamp_decoded := msg.decoded_timestamp
      timestamp_saved := saved_timestamp
      xml := msg.data_decoded_xml
      proto := msg.data_binary_proto
      json := if msg.parsed.isSome then msg.data_json else none
      forwarded_count := msg.forwarded_count
      parsed_type := if msg.parsed.isSome then msg.message_type else none
      parsed_node_id := msg.parsed.bind ParsedRecord.node_id
      parsed_timestamp := msg.parsed.map ParsedRecord.message_timestamp
      registration_node_type := msg.registration.map RegistrationRecord.node_name
      status_report_system := msg.status_report.map StatusReportRecord.system
      status_report_is_unchanged := msg.status_report.map StatusReportRecord.is_unchanged
      error_severity := msg.error.map ErrorRecord.severity
      error_description := msg.error.map ErrorRecord.description
      sapient_version := msg.sapient_version })

/-- The columns of the connection that a message changes, if it changes any. -/
def StoredRecord.args (msg : StoredRecord) : Option (Recent → Recent) :=
  let message_id := msg.received.message_id
  if msg.error ≠ none then none
  else if msg.registration ≠ none then
    some fun _ ↦
      { recent_msg_id_registration := some message_id
        recent_msg_id_status_new := none
        recent_msg_id_status_unchanged := none
        recent_msg_id_detection := none }
  else match msg.status_report with
    | some status_report =>
        if ¬ status_report.is_unchanged then
          some fun recent ↦
            { recent with
              recent_msg_id_status_new := some message_id
              recent_msg_id_status_unchanged := none }
        else some fun recent ↦ { recent with recent_msg_id_status_unchanged := some message_id }
    | none =>
        if msg.parsed.isSome ∧ msg.message_type = some "detection_report" then
          some fun recent ↦ { recent with recent_msg_id_detection := some message_id }
        else none

/-- One round of the loop of `_update_connection_multi`. -/
def update_connection (connections : Dict ℕ Connection) (msg : StoredRecord) :
    Dict ℕ Connection :=
  match msg.args with
  | none => connections
  | some args =>
      connections.updateRow msg.connection_id fun row ↦ { row with recent := args row.recent }

/-- `_update_connection_multi`. -/
def update_connection_multi (msgs : List StoredRecord) (connections : Dict ℕ Connection) :
    Dict ℕ Connection := msgs.foldl update_connection connections

def insert_message_multi (saved_timestamp : ℤ) (msg_list : List StoredRecord) (db : Database) :
    Option Database :=
  (db.messages.insertAll (msg_list.map (record_to_message saved_timestamp))).map fun messages ↦
    { messages := messages
      connections := update_connection_multi msg_list db.connections }

def update_disconnection (disconn : DisconnectionRecord) (db : Database) : Database :=
  { db with connections := db.connections.updateRow disconn.connection_id fun row ↦
      { row with
        disconnect_reason := some disconn.reason
        disconnect_time := some disconn.time } }

/-! ## Rolling over -/

/-- The connections that are open, and the messages that they refer to. -/
def rollover_export (db : Database) : Dict ℕ Connection × Dict ℕ Message :=
  let active_connections := db.connections.select fun _ row ↦ row.disconnect_time = none
  let all_ids := active_connections.items.flatMap fun entry ↦ entry.2.recent.ids
  (active_connections, db.messages.select fun id _ ↦ id ∈ all_ids)

def rollover_import (conn_list : Dict ℕ Connection) (msg_list : Dict ℕ Message)
    (db : Database) : Database where
  messages := db.messages.update msg_list
  connections := db.connections.update conn_list

/-- The database that is used from now on. -/
def rollover (db : Database) : Database :=
  rollover_import (rollover_export db).1 (rollover_export db).2 .empty

/-! ## Runs -/

inductive Operation
  | connection (conn : ConnectionRecord)
  | messages (saved_timestamp : ℤ) (msg_list : List StoredRecord)
  | disconnection (disconn : DisconnectionRecord)
  | rollover
  deriving DecidableEq

/-- What is done to the database that is in use. -/
def saver : Machine Database Operation
  | db, .connection conn => insert_connection conn db
  | db, .messages saved_timestamp msg_list => insert_message_multi saved_timestamp msg_list db
  | db, .disconnection disconn => some (update_disconnection disconn db)
  | db, .rollover => some (Sqlite.rollover db)

/-- The database that is left behind by a rollover. -/
def archived (db : Database) : Operation → List Database
  | .rollover => [db]
  | _ => []

/-- The operations without the rollovers. -/
def unrolled (operations : List Operation) : List Operation :=
  operations.filter (· ≠ .rollover)

/-! ## What is in a database after a rollover -/

section Rollover

variable {db full : Database}

theorem get?_rollover_connections (id : ℕ) (row : Connection) :
    (rollover db).connections.get? id = some row ↔
      db.connections.get? id = some row ∧ row.disconnect_time = none := by
  rw [rollover, rollover_import, Database.empty, Dict.get?_update_empty]
  exact Dict.get?_select_eq_some_iff

theorem get?_rollover_messages (id : ℕ) (message : Message) :
    (rollover db).messages.get? id = some message ↔ db.messages.get? id = some message ∧
      ∃ c row, db.connections.get? c = some row ∧ row.disconnect_time = none ∧
        id ∈ row.recent.ids := by
  rw [rollover, rollover_import, Database.empty, Dict.get?_update_empty]
  refine Dict.get?_select_eq_some_iff.trans (and_congr_right fun _ ↦ ?_)
  rw [List.mem_flatMap]
  constructor
  · rintro ⟨⟨c, row⟩, hmem, hid⟩
    obtain ⟨hrow, hopen⟩ := Dict.get?_select_eq_some_iff.mp (Dict.get?_eq_some_iff.mpr hmem)
    exact ⟨c, row, hrow, hopen, hid⟩
  · rintro ⟨c, row, hrow, hopen, hid⟩
    exact ⟨(c, row), Dict.get?_eq_some_iff.mp
      (Dict.get?_select_eq_some_iff.mpr ⟨hrow, hopen⟩), hid⟩

end Rollover

/-! ## What a row refers to -/

/-- A message changes the columns of its own connection to refer to itself. -/
theorem mem_ids_args {msg : StoredRecord} {args : Recent → Recent} (h : msg.args = some args)
    {recent : Recent} {id : ℕ} (hid : id ∈ (args recent).ids) :
    id = msg.received.message_id ∨ id ∈ recent.ids := by
  unfold StoredRecord.args at h
  dsimp only at h
  split at h
  · cases h
  · split at h
    · cases h
      simp only [Recent.ids, Option.toList_some, Option.toList_none, List.append_nil,
        List.mem_singleton] at hid
      exact Or.inl hid
    · split at h
      · split at h
        · cases h
          simp only [Recent.ids, Option.toList_some, Option.toList_none, List.append_nil,
            List.mem_append, List.mem_singleton] at hid ⊢
          tauto
        · cases h
          simp only [Recent.ids, Option.toList_some, List.mem_append, List.mem_singleton] at hid ⊢
          tauto
      · split at h
        · cases h
          simp only [Recent.ids, Option.toList_some, List.mem_append, List.mem_singleton] at hid ⊢
          tauto
        · cases h

/-! ## One database and many -/

/-- The connections that are open are among `connections`. -/
def Covers (full connections : Dict ℕ Connection) : Prop :=
  ∀ c row, full.get? c = some row → row.disconnect_time = none → connections.get? c = some row

theorem Covers.updateRow {full connections : Dict ℕ Connection} (h : Covers full connections)
    (k : ℕ) {f : Connection → Connection}
    (hf : ∀ row, (f row).disconnect_time = none → row.disconnect_time = none) :
    Covers (full.updateRow k f) (connections.updateRow k f) := by
  intro c row' hrow' hopen
  rw [Dict.get?_updateRow] at hrow' ⊢
  split
  · rename_i hc
    rw [if_pos hc] at hrow'
    obtain ⟨row, hrow, rfl⟩ := Option.map_eq_some_iff.mp hrow'
    rw [h c row hrow (hf row hopen)]
    rfl
  · rename_i hc
    rw [if_neg hc] at hrow'
    exact h c row' hrow' hopen

/-- The database `db` is what rollovers have left of the database `full`. -/
structure Within (db full : Database) : Prop where
  messages : Dict.Part db.messages full.messages
  connections : Dict.Part db.connections full.connections
  covers : Covers full.connections db.connections

theorem within_refl (db : Database) : Within db db :=
  ⟨.refl _, .refl _, fun _ _ hrow _ ↦ hrow⟩

section Within

variable {db full db' full' : Database}

theorem Within.rollover (h : Within db full) : Within (rollover db) full where
  messages id message hmessage := h.messages id message ((get?_rollover_messages id message).mp
    hmessage).1
  connections c row hrow := h.connections c row ((get?_rollover_connections c row).mp hrow).1
  covers c row hrow hopen :=
    (get?_rollover_connections c row).mpr ⟨h.covers c row hrow hopen, hopen⟩

theorem Within.insert_connection (h : Within db full) {conn : ConnectionRecord}
    (hfull : insert_connection conn full = some full') :
    ∃ db', Sqlite.insert_connection conn db = some db' ∧ Within db' full' := by
  obtain ⟨connections, hnew, rfl⟩ := Option.map_eq_some_iff.mp hfull
  obtain ⟨hfresh, rfl⟩ := Dict.insertNew_eq_some.mp hnew
  refine ⟨_, Option.map_eq_some_iff.mpr ⟨_, Dict.insertNew_eq_some.mpr
    ⟨h.connections.notMem hfresh, rfl⟩, rfl⟩, h.messages, h.connections.set _ _, ?_⟩
  intro c row hrow hopen
  rw [Dict.get?_set] at hrow ⊢
  split
  · rename_i hc
    rwa [if_pos hc] at hrow
  · rename_i hc
    rw [if_neg hc] at hrow
    exact h.covers c row hrow hopen

theorem Within.update_connection {connections full : Dict ℕ Connection}
    (hpart : Dict.Part connections full) (hcovers : Covers full connections)
    (msg : StoredRecord) :
    Dict.Part (update_connection connections msg) (update_connection full msg) ∧
      Covers (update_connection full msg) (update_connection connections msg) := by
  unfold Sqlite.update_connection
  split
  · exact ⟨hpart, hcovers⟩
  · exact ⟨hpart.updateRow _ _, hcovers.updateRow _ fun _ hopen ↦ hopen⟩

theorem Within.update_connection_multi {msgs : List StoredRecord}
    {connections full : Dict ℕ Connection} (hpart : Dict.Part connections full)
    (hcovers : Covers full connections) :
    Dict.Part (update_connection_multi msgs connections) (update_connection_multi msgs full) ∧
      Covers (update_connection_multi msgs full) (update_connection_multi msgs connections) := by
  induction msgs generalizing connections full with
  | nil => exact ⟨hpart, hcovers⟩
  | cons msg msgs ih =>
      obtain ⟨hpart', hcovers'⟩ := Within.update_connection hpart hcovers msg
      exact ih hpart' hcovers'

theorem Within.insert_message_multi (h : Within db full) {saved_timestamp : ℤ}
    {msgs : List StoredRecord}
    (hfull : insert_message_multi saved_timestamp msgs full = some full') :
    ∃ db', Sqlite.insert_message_multi saved_timestamp msgs db = some db' ∧ Within db' full' := by
  obtain ⟨messages, hinsert, rfl⟩ := Option.map_eq_some_iff.mp hfull
  obtain ⟨messages', hinsert', hpart⟩ := h.messages.insertAll hinsert
  obtain ⟨hconnections, hcovers⟩ := Within.update_connection_multi h.connections h.covers
  exact ⟨_, Option.map_eq_some_iff.mpr ⟨messages', hinsert', rfl⟩, hpart, hconnections, hcovers⟩

theorem Within.update_disconnection (h : Within db full) (disconn : DisconnectionRecord) :
    Within (update_disconnection disconn db) (update_disconnection disconn full) where
  messages := h.messages
  connections := h.connections.updateRow _ _
  covers := h.covers.updateRow _ fun _ hopen ↦ nomatch hopen

theorem Within.step (h : Within db full) {operation : Operation} (hop : operation ≠ .rollover)
    (hfull : saver full operation = some full') :
    ∃ db', saver db operation = some db' ∧ Within db' full' := by
  cases operation with
  | connection conn => exact h.insert_connection hfull
  | messages saved_timestamp msgs => exact h.insert_message_multi hfull
  | disconnection disconn =>
      cases hfull
      exact ⟨_, rfl, h.update_disconnection disconn⟩
  | rollover => exact absurd rfl hop

/-- The rows that an operation inserts. -/
def Operation.rows : Operation → List (ℕ × Message)
  | .messages saved_timestamp msgs => msgs.map (record_to_message saved_timestamp)
  | _ => []

theorem get?_step {operation : Operation} (hop : operation ≠ .rollover)
    (hstep : saver db operation = some db') (id : ℕ) (message : Message) :
    db'.messages.get? id = some message ↔
      db.messages.get? id = some message ∨ (id, message) ∈ operation.rows := by
  cases operation with
  | connection conn =>
      obtain ⟨connections, -, rfl⟩ := Option.map_eq_some_iff.mp hstep
      exact (or_iff_left List.not_mem_nil).symm
  | messages saved_timestamp msgs =>
      obtain ⟨messages, hinsert, rfl⟩ := Option.map_eq_some_iff.mp hstep
      exact Dict.get?_insertAll hinsert id message
  | disconnection disconn =>
      cases hstep
      exact (or_iff_left List.not_mem_nil).symm
  | rollover => exact absurd rfl hop

/-- All messages of `full` are in one of the databases, and nothing else is. -/
def Complete (databases : List Database) (full : Database) : Prop :=
  ∀ id message, full.messages.get? id = some message ↔
    ∃ d ∈ databases, d.messages.get? id = some message

theorem complete_empty : Complete ([] ++ [Database.empty]) .empty := by
  intro id message
  simp only [List.nil_append, List.mem_singleton, exists_eq_left]

theorem Complete.step {archive : List Database} (h : Complete (archive ++ [db]) full)
    {operation : Operation} (hop : operation ≠ .rollover) (hstep : saver db operation = some db')
    (hfull : saver full operation = some full') : Complete (archive ++ [db']) full' := by
  intro id message
  rw [get?_step hop hfull, h id message]
  simp only [List.mem_append, List.mem_singleton, or_and_right, exists_or, exists_eq_left,
    get?_step hop hstep, or_assoc]

theorem Complete.rollover {archive : List Database} (h : Complete (archive ++ [db]) full) :
    Complete (archive ++ [db] ++ [rollover db]) full := by
  intro id message
  rw [h id message]
  constructor
  · rintro ⟨d, hd, hmessage⟩
    exact ⟨d, List.mem_append_left _ hd, hmessage⟩
  · rintro ⟨d, hd, hmessage⟩
    rcases List.mem_append.mp hd with hd | hd
    · exact ⟨d, hd, hmessage⟩
    · rw [List.mem_singleton.mp hd] at hmessage
      exact ⟨db, List.mem_append_right _ List.mem_cons_self,
        ((get?_rollover_messages id message).mp hmessage).1⟩

theorem unrolled_cons {operation : Operation} (hop : operation ≠ .rollover)
    (operations : List Operation) :
    unrolled (operation :: operations) = operation :: unrolled operations :=
  List.filter_cons_of_pos (decide_eq_true hop)

/-- The run with the rollovers follows the run without them. -/
theorem within_run {operations : List Operation} {archive : List Database} (h : Within db full)
    (hcomplete : Complete (archive ++ [db]) full)
    (hfull : saver.run full (unrolled operations) = some full') :
    ∃ db', saver.run db operations = some db' ∧ Within db' full' ∧
      Complete (archive ++ saver.outputs archived db operations ++ [db']) full' := by
  induction operations generalizing db full archive with
  | nil =>
      cases hfull
      exact ⟨db, rfl, h, by rwa [Machine.outputs, List.append_nil]⟩
  | cons operation operations ih =>
      by_cases hop : operation = .rollover
      · subst hop
        have hskip : unrolled (.rollover :: operations) = unrolled operations := rfl
        rw [hskip] at hfull
        obtain ⟨db', hrun, hwithin, hall⟩ := ih h.rollover hcomplete.rollover hfull
        refine ⟨db', hrun, hwithin, ?_⟩
        rwa [Machine.outputs_cons (show saver db .rollover = some (Sqlite.rollover db) from rfl),
          ← List.append_assoc]
      · rw [unrolled_cons hop] at hfull
        obtain ⟨full₁, hstep, hfull⟩ := Machine.run_cons_eq_some.mp hfull
        obtain ⟨db₁, hdb, hwithin⟩ := h.step hop hstep
        obtain ⟨db', hrun, hwithin', hall⟩ := ih hwithin (hcomplete.step hop hdb hstep) hfull
        refine ⟨db', Machine.run_cons_eq_some.mpr ⟨db₁, hdb, hrun⟩, hwithin', ?_⟩
        have hnone : archived db operation = [] := by
          cases operation with
          | rollover => exact absurd rfl hop
          | connection conn => rfl
          | messages saved_timestamp msgs => rfl
          | disconnection disconn => rfl
        rwa [Machine.outputs_cons hdb, hnone, List.nil_append]

end Within

/-! ## The history of a connection -/

/-- The columns after a message. -/
def Recent.note (recent : Recent) (msg : StoredRecord) : Recent :=
  match msg.args with
  | none => recent
  | some args => args recent

/-- The messages saved for the connection `c` since it was inserted. -/
def Operation.heard (c : ℕ) (history : List StoredRecord) : Operation → List StoredRecord
  | .connection conn => if conn.id = c then [] else history
  | .messages _ msgs => history ++ msgs.filter (·.connection_id = c)
  | _ => history

def heard (c : ℕ) (operations : List Operation) : List StoredRecord :=
  operations.foldl (Operation.heard c) []

/-- The row of a connection says what its history says, and what it refers to is there. -/
structure Agrees (db : Database) (history : ℕ → List StoredRecord) : Prop where
  recent : ∀ c row, db.connections.get? c = some row →
    row.recent = (history c).foldl Recent.note .nothing
  referred : ∀ c row, db.connections.get? c = some row → ∀ id ∈ row.recent.ids,
    ∃ msg ∈ history c, msg.received.message_id = id ∧
      ∃ saved_timestamp, db.messages.get? id = some (record_to_message saved_timestamp msg).2

theorem get?_update_connection_multi (c : ℕ) (msgs : List StoredRecord)
    (connections : Dict ℕ Connection) :
    (update_connection_multi msgs connections).get? c = (connections.get? c).map fun row ↦
      { row with recent := (msgs.filter (·.connection_id = c)).foldl Recent.note row.recent } := by
  induction msgs generalizing connections with
  | nil =>
      show connections.get? c = (connections.get? c).map fun row ↦ row
      exact (congrFun Option.map_id (connections.get? c)).symm
  | cons msg msgs ih =>
      rw [update_connection_multi, List.foldl_cons]
      refine (ih _).trans ?_
      unfold update_connection
      cases hargs : msg.args with
      | none =>
          have hnote : ∀ recent, Recent.note recent msg = recent := by
            intro recent
            rw [Recent.note, hargs]
          by_cases hc : msg.connection_id = c
          · simp [List.filter_cons_of_pos, hc, hnote]
          · simp [List.filter_cons_of_neg, hc]
      | some args =>
          have hnote : ∀ recent, Recent.note recent msg = args recent := by
            intro recent
            rw [Recent.note, hargs]
          dsimp only
          rw [Dict.get?_updateRow]
          by_cases hc : msg.connection_id = c
          · subst hc
            rw [if_pos rfl, Option.map_map]
            simp [hnote, Function.comp_def]
          · rw [if_neg (Ne.symm hc)]
            simp [List.filter_cons_of_neg, hc]

/-- What the columns refer to is the latest message, or what they referred to before. -/
theorem mem_ids_foldl {msgs : List StoredRecord} {recent : Recent} {id : ℕ}
    (hid : id ∈ (msgs.foldl Recent.note recent).ids) :
    id ∈ recent.ids ∨ ∃ msg ∈ msgs, msg.received.message_id = id := by
  induction msgs generalizing recent with
  | nil => exact Or.inl hid
  | cons msg msgs ih =>
      rcases ih hid with hnote | ⟨msg', hmsg', hid'⟩
      · unfold Recent.note at hnote
        split at hnote
        · exact Or.inl hnote
        · rename_i args hargs
          rcases mem_ids_args hargs hnote with rfl | hbefore
          · exact Or.inr ⟨msg, List.mem_cons_self, rfl⟩
          · exact Or.inl hbefore
      · exact Or.inr ⟨msg', List.mem_cons_of_mem msg hmsg', hid'⟩

section Agrees

variable {db db' : Database} {history : ℕ → List StoredRecord}

theorem Agrees.insert_connection (h : Agrees db history) {conn : ConnectionRecord}
    (hstep : insert_connection conn db = some db') :
    Agrees db' fun c ↦ if conn.id = c then [] else history c := by
  obtain ⟨connections, hnew, rfl⟩ := Option.map_eq_some_iff.mp hstep
  obtain ⟨-, rfl⟩ := Dict.insertNew_eq_some.mp hnew
  constructor
  · intro c row hrow
    dsimp only at hrow ⊢
    rw [Dict.get?_set] at hrow
    by_cases hc : c = conn.id
    · rw [if_pos hc] at hrow
      cases hrow
      rw [if_pos hc.symm]
      rfl
    · rw [if_neg hc] at hrow
      rw [if_neg (Ne.symm hc)]
      exact h.recent c row hrow
  · intro c row hrow id hid
    dsimp only at hrow ⊢
    rw [Dict.get?_set] at hrow
    by_cases hc : c = conn.id
    · rw [if_pos hc] at hrow
      cases hrow
      cases hid
    · rw [if_neg hc] at hrow
      rw [if_neg (Ne.symm hc)]
      exact h.referred c row hrow id hid

theorem Agrees.insert_message_multi (h : Agrees db history) {saved_timestamp : ℤ}
    {msgs : List StoredRecord} (hstep : insert_message_multi saved_timestamp msgs db = some db') :
    Agrees db' fun c ↦ history c ++ msgs.filter (·.connection_id = c) := by
  obtain ⟨messages, hinsert, rfl⟩ := Option.map_eq_some_iff.mp hstep
  have hmessages := Dict.get?_insertAll hinsert
  constructor
  · intro c row hrow
    dsimp only at hrow ⊢
    rw [get?_update_connection_multi] at hrow
    obtain ⟨row₀, hrow₀, rfl⟩ := Option.map_eq_some_iff.mp hrow
    rw [List.foldl_append, ← h.recent c row₀ hrow₀]
  · intro c row hrow id hid
    dsimp only at hrow ⊢
    rw [get?_update_connection_multi] at hrow
    obtain ⟨row₀, hrow₀, rfl⟩ := Option.map_eq_some_iff.mp hrow
    rcases mem_ids_foldl hid with hbefore | ⟨msg, hmsg, rfl⟩
    · obtain ⟨msg, hmsg, hmid, saved, hrow⟩ := h.referred c row₀ hrow₀ id hbefore
      exact ⟨msg, List.mem_append_left _ hmsg, hmid, saved, (hmessages id _).mpr (Or.inl hrow)⟩
    · refine ⟨msg, List.mem_append_right _ hmsg, rfl, saved_timestamp, ?_⟩
      exact (hmessages _ _).mpr (Or.inr (List.mem_map_of_mem (List.mem_filter.mp hmsg).1))

theorem Agrees.update_disconnection (h : Agrees db history) (disconn : DisconnectionRecord) :
    Agrees (update_disconnection disconn db) history := by
  -- the columns that refer to messages stay as they are
  have hsame : ∀ c row, (Sqlite.update_disconnection disconn db).connections.get? c = some row →
      ∃ row₀, db.connections.get? c = some row₀ ∧ row.recent = row₀.recent := by
    intro c row hrow
    rw [Sqlite.update_disconnection, Dict.get?_updateRow] at hrow
    split at hrow
    · obtain ⟨row₀, hrow₀, rfl⟩ := Option.map_eq_some_iff.mp hrow
      exact ⟨row₀, hrow₀, rfl⟩
    · exact ⟨row, hrow, rfl⟩
  constructor
  · intro c row hrow
    obtain ⟨row₀, hrow₀, hrecent⟩ := hsame c row hrow
    rw [hrecent, h.recent c row₀ hrow₀]
  · intro c row hrow id hid
    obtain ⟨row₀, hrow₀, hrecent⟩ := hsame c row hrow
    exact h.referred c row₀ hrow₀ id (hrecent ▸ hid)

theorem Agrees.rollover (h : Agrees db history) : Agrees (rollover db) history where
  recent c row hrow := h.recent c row ((get?_rollover_connections c row).mp hrow).1
  referred c row hrow id hid := by
    obtain ⟨hrow', hopen⟩ := (get?_rollover_connections c row).mp hrow
    obtain ⟨msg, hmsg, hmid, saved, hmessage⟩ := h.referred c row hrow' id hid
    exact ⟨msg, hmsg, hmid, saved,
      (get?_rollover_messages id _).mpr ⟨hmessage, c, row, hrow', hopen, hid⟩⟩

theorem Agrees.step (h : Agrees db history) {operation : Operation}
    (hstep : saver db operation = some db') :
    Agrees db' fun c ↦ operation.heard c (history c) := by
  cases operation with
  | connection conn => exact h.insert_connection hstep
  | messages saved_timestamp msgs => exact h.insert_message_multi hstep
  | disconnection disconn =>
      cases hstep
      exact h.update_disconnection disconn
  | rollover =>
      cases hstep
      exact h.rollover

end Agrees

theorem agrees_run {operations : List Operation} {db db' : Database}
    {history : ℕ → List StoredRecord} (h : Agrees db history)
    (hrun : saver.run db operations = some db') :
    Agrees db' fun c ↦ operations.foldl (Operation.heard c) (history c) := by
  induction operations generalizing db history with
  | nil =>
      cases hrun
      exact h
  | cons operation operations ih =>
      obtain ⟨db₁, hstep, hrun⟩ := Machine.run_cons_eq_some.mp hrun
      exact ih (h.step hstep) hrun

/-! ## Main results -/

/-- Wherever the database rolls over, the one in use says of every connection in it which
messages are the latest since it was opened, as its history has it: the registration, the
status reports since then and the detection.  Each message that it refers to is there, as it
was saved. -/
theorem recent_heard {operations : List Operation} {db : Database}
    (hrun : saver.run .empty operations = some db) {c : ℕ} {row : Connection}
    (hrow : db.connections.get? c = some row) :
    row.recent = (heard c operations).foldl Recent.note .nothing ∧
      ∀ id ∈ row.recent.ids, ∃ msg ∈ heard c operations, msg.received.message_id = id ∧
        ∃ saved_timestamp,
          db.messages.get? id = some (record_to_message saved_timestamp msg).2 := by
  have hempty : Agrees .empty fun _ ↦ [] :=
    ⟨fun _ _ hnone ↦ (nomatch hnone), fun _ _ hnone ↦ (nomatch hnone)⟩
  have hagrees := agrees_run hempty hrun
  exact ⟨hagrees.recent c row hrow, hagrees.referred c row hrow⟩

/-- A message of the connection 1. -/
def stored (message_id : ℕ) (message_type : String) (registration : Option RegistrationRecord) :
    StoredRecord where
  received := ⟨message_id, 0⟩
  forwarded_count := 0
  parsed := some ⟨some "edge", none, 0, none⟩
  registration := registration
  status_report := none
  error := none
  sapient_version := .BSI_FLEX_335_V2_0
  connection_id := 1
  message_type := some message_type
  data_decoded_xml := ""
  data_binary_proto := some []
  decoded_timestamp := 0
  data_json := none

/-- The database rolls over after a registration and a detection, and between two further
detections. -/
def rolling : List Operation :=
  [.connection ⟨1, "Child", "edge:14000", 0⟩,
    .messages 1 [stored 1 "registration" (some ⟨"edge"⟩), stored 2 "detection_report" none],
    .rollover, .messages 2 [stored 3 "detection_report" none], .rollover,
    .messages 3 [stored 4 "detection_report" none]]

theorem recent_heard_rolling :
    ∃ db row, saver.run .empty rolling = some db ∧ db.connections.get? 1 = some row ∧
      row.recent = ⟨some 1, none, none, some 4⟩ ∧
      ∀ id ∈ row.recent.ids, ∃ msg ∈ heard 1 rolling, msg.received.message_id = id ∧
        ∃ saved_timestamp,
          db.messages.get? id = some (record_to_message saved_timestamp msg).2 := by
  obtain ⟨db, hdb⟩ : ∃ db, saver.run .empty rolling = some db :=
    Option.isSome_iff_exists.mp (by decide +kernel)
  obtain ⟨row, hrow⟩ : ∃ row, (saver.run .empty rolling).bind (·.connections.get? 1) = some row :=
    Option.isSome_iff_exists.mp (by decide +kernel)
  rw [hdb, Option.bind_some] at hrow
  obtain ⟨hrecent, hids⟩ := recent_heard hdb hrow
  exact ⟨db, row, hdb, hrow, hrecent.trans (by decide +kernel), hids⟩

/-- If a single database could take all of the operations, so can databases that roll over at
any time.  The one in use has of all connections that are open the same rows as the single
one, all its rows are rows of the single one, and the messages of the single one are those of
the databases taken together. -/
theorem rollover_transparent {operations : List Operation} {full : Database}
    (hfull : saver.run .empty (unrolled operations) = some full) :
    ∃ db, saver.run .empty operations = some db ∧
      (∀ c row, row.disconnect_time = none →
        (db.connections.get? c = some row ↔ full.connections.get? c = some row)) ∧
      (∀ c row, db.connections.get? c = some row → full.connections.get? c = some row) ∧
      (∀ id message, db.messages.get? id = some message →
        full.messages.get? id = some message) ∧
      ∀ id message, full.messages.get? id = some message ↔
        ∃ d ∈ saver.outputs archived .empty operations ++ [db],
          d.messages.get? id = some message := by
  obtain ⟨db, hrun, hwithin, hall⟩ := within_run (within_refl .empty) complete_empty hfull
  refine ⟨db, hrun, fun c row hopen ↦ ?_, hwithin.connections, hwithin.messages, hall⟩
  exact ⟨hwithin.connections c row, fun hrow ↦ hwithin.covers c row hrow hopen⟩

theorem rollover_transparent_rolling :
    ∃ full db, saver.run .empty (unrolled rolling) = some full ∧
      saver.run .empty rolling = some db ∧
      ∀ id message, full.messages.get? id = some message ↔
        ∃ d ∈ saver.outputs archived .empty rolling ++ [db],
          d.messages.get? id = some message := by
  obtain ⟨full, hfull⟩ : ∃ full, saver.run .empty (unrolled rolling) = some full :=
    Option.isSome_iff_exists.mp (by decide +kernel)
  obtain ⟨db, hdb, -, -, -, hall⟩ := rollover_transparent hfull
  exact ⟨full, db, hfull, hdb, hall⟩

end Sqlite

end Apex

end SensorFusion
