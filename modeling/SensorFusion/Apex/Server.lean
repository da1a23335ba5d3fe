import SensorFusion.Apex.Connection

/-!
# The server

`ApexServer.serve` makes a connection object for every socket that is opened, hands it every
message that is read from the socket, and calls its `handle_closed` once, after the last
message.  A run of the server is a list of these events, in any order.
-/

namespace SensorFusion

namespace Apex

inductive ConnectionType
  | Peer
  | Child
  | Parent
  | Recorder
  deriving DecidableEq

structure ConnectionConfig where
  type : ConnectionType
  format : MessageFormat
  forwardAll : Bool
  deriving DecidableEq

inductive Connection
  | child (self : ChildConnection)
  | peer (self : PeerConnection)
  | parent (self : ParentConnection)
  | recorder (self : RecorderConnection)
  deriving DecidableEq

/-- `connections` are the connections that are open. -/
structure State where
  shared : SharedData
  connections : Dict ℕ Connection
  previous_connection_id : ℕ
  deriving DecidableEq

/-- `ConnectionCreator`. -/
def State.init : State where
  shared :=
    { registered_sensors := ∅
      dmm_writers := []
      parent_high_level_writers := []
      parent_all_writers := [] }
  connections := ∅
  previous_connection_id := 0

/-! ## Opening a connection -/

/-- The connection object that is made for a writer. -/
def Connection.make (config : ConnectionConfig) (writer : Writer) : Connection :=
  match config.type with
  | .Peer => .peer ⟨writer, config.format, none⟩
  | .Child => .child ⟨writer, config.format, none, none, none, none⟩
  | .Parent => .parent ⟨writer, config.format, config.forwardAll⟩
  | .Recorder => .recorder ⟨config.format⟩

/-- What the `__init__` of a connection does to the shared data. -/
def Connection.join : Connection → SharedData → SharedData
  | .peer self, shared => { shared with dmm_writers := shared.dmm_writers ++ [self.writer] }
  | .parent self, shared =>
      if self.forward_all then
        { shared with parent_all_writers := shared.parent_all_writers ++ [self.parent_writer] }
      else
        { shared with
          parent_high_level_writers := shared.parent_high_level_writers ++ [self.parent_writer] }
  | _, shared => shared

/-- What the `__init__` of a connection writes. -/
def Connection.greeting : Connection → SharedData → List Write
  | .peer self, shared => shared.replay self.writer
  | .parent self, shared => if self.forward_all then shared.replay self.writer else []
  | _, _ => []

/-- `ConnectionCreator.create`. -/
def create (s : State) (config : ConnectionConfig) : State :=
  let connection_id := s.previous_connection_id + 1
  let connection := Connection.make config connection_id
  { shared := connection.join s.shared
    connections := s.connections.set connection_id connection
    previous_connection_id := connection_id }

/-! ## Handling a message -/

/-- What a message has brought about. -/
structure Handled where
  state : State
  msg : MessageRecord
  writes : List Write

/-- The handling of a message starts. -/
def State.start {κ : Type} (s : State) (self : κ) (msg : MessageRecord) : Handling κ :=
  ⟨s.shared, self, msg, [], none⟩

/-- The handling of a message on `connection_id` ends. -/
def State.finish {κ : Type} (s : State) (connection_id : ℕ) (make : κ → Connection)
    (h : Handling κ) : Handled where
  state := { s with
    shared := h.shared
    connections := s.connections.set connection_id (make h.self) }
  msg := h.msg
  writes := h.writes

/-- `connection.handle_message(msg, …)`. -/
def handle (cfg : Config) (s : State) (connection_id : ℕ) (msg : MessageRecord)
    (raises : Raises) : Option Handled :=
  (s.connections.get? connection_id).map fun
    | .child self => s.finish connection_id .child
        (ChildConnection.handle_message cfg raises (s.start self msg))
    | .peer self => s.finish connection_id .peer
        (PeerConnection.handle_message cfg raises (s.start self msg))
    | .parent self => s.finish connection_id .parent
        (ParentConnection.handle_message (s.start self msg))
    | .recorder self => s.finish connection_id .recorder
        (RecorderConnection.handle_message (s.start self msg))

/-! ## Closing a connection -/

def Connection.handle_closed : Connection → SharedData → SharedData
  | .child self, shared => self.handle_closed shared
  | .peer self, shared => self.handle_closed shared
  | .parent self, shared => self.handle_closed shared
  | .recorder _, shared => shared

def close (s : State) (connection_id : ℕ) : Option State :=
  (s.connections.get? connection_id).map fun connection ↦
    { s with
      shared := connection.handle_closed s.shared
      connections := s.connections.erase connection_id }

/-! ## Runs -/

inductive Event
  | opened (config : ConnectionConfig)
  | received (connection_id : ℕ) (msg : MessageRecord) (raises : Raises)
  | closed (connection_id : ℕ)
  deriving DecidableEq

/-- The server, one event at a time. -/
def server (cfg : Config) : Machine State Event
  | s, .opened config => some (create s config)
  | s, .received connection_id msg raises =>
      (handle cfg s connection_id msg raises).map Handled.state
  | s, .closed connection_id => close s connection_id

/-- What is written when an event happens, in order. -/
def writes (cfg : Config) (s : State) : Event → List Write
  | .opened config =>
      (Connection.make config (s.previous_connection_id + 1)).greeting s.shared
  | .received connection_id msg raises =>
      ((handle cfg s connection_id msg raises).map Handled.writes).getD []
  | .closed _ => []

/-- The node id that a Child takes with a message: its first registration that is accepted
and gets as far as the registry. -/
def ChildConnection.takes (self : ChildConnection) (msg : MessageRecord) (raises : Raises) :
    Option String :=
  if self.registration = none ∧ msg.error = none ∧ msg.registration ≠ none ∧
      raises.timestamp = none ∧ raises.sensor_id = none then
    msg.parsed.bind ParsedRecord.node_id
  else none

/-- The node ids that are taken by an event, with the connections that take them. -/
def taken (s : State) : Event → List (String × ℕ)
  | .received connection_id msg raises =>
      match s.connections.get? connection_id with
      | some (.child self) => (self.takes msg raises).toList.map (·, connection_id)
      | _ => []
  | _ => []

end Apex

end SensorFusion
