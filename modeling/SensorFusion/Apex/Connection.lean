import SensorFusion.Lib.Dict
import SensorFusion.Lib.Machine
import SensorFusion.Python.Float

/-!
# The connections of the middleware

The middleware accepts connections of four types, Child, Peer, Parent and Recorder, which
share one `SharedData`: a registry of the Children by their node ids, and the writers of the
Peers and the Parents.  A message that comes in on one connection is written to others.

`ParentConnection.handle_message` is the version that `route_parent_to_child.py` puts in when
the image is built.
-/

namespace SensorFusion

namespace Apex

/-! ## Records -/

inductive MessageFormat
  | XML
  | JSON
  | GEO_JSON
  | PROTO
  deriving DecidableEq

inductive SapientVersion
  | VERSION6
  | BSI_FLEX_335_V1_0
  | BSI_FLEX_335_V2_0
  deriving DecidableEq

inductive ErrorSeverity
  | UNSTORED
  | SILENT
  | NOISY
  | FATAL
  deriving DecidableEq

structure ErrorRecord where
  severity : ErrorSeverity
  description : String
  deriving DecidableEq

structure ReceivedDataRecord where
  message_id : ℕ
  /-- In microseconds. -/
  timestamp : ℤ
  deriving DecidableEq

structure ParsedRecord where
  node_id : Option String
  destination_node_id : Option String
  message_timestamp : ℤ
  detection_confidence : Option PyFloat
  deriving DecidableEq

structure RegistrationRecord where
  node_name : String
  deriving DecidableEq

structure StatusReportRecord where
  system : String
  is_unchanged : Bool
  deriving DecidableEq

/-- A message as the parsers hand it over.  Mostly either `error` or `parsed` is set;
`parse_xml` sets neither for bytes that are not UTF-8. -/
structure MessageRecord where
  received : ReceivedDataRecord
  forwarded_count : ℕ
  parsed : Option ParsedRecord
  registration : Option RegistrationRecord
  status_report : Option StatusReportRecord
  error : Option ErrorRecord
  sapient_version : SapientVersion
  deriving DecidableEq

/-- The number of the connection that a `ConnectionWriter` was made for: `serve` makes one
for every connection. -/
abbrev Writer := ℕ

/-- What a writer is called with. -/
inductive Content
  | message (message_id : ℕ) (parsed : Option ParsedRecord) (version : SapientVersion)
  | registration_ack (destination_id : Option String)
  | error (message_id : ℕ) (error_message : String) (destination_id : Option String)
  deriving DecidableEq

structure Write where
  writer : Writer
  content : Content
  deriving DecidableEq

/-- `writer(msg, msg.sapient_version)`. -/
def MessageRecord.to (msg : MessageRecord) (writer : Writer) : Write :=
  ⟨writer, .message msg.received.message_id msg.parsed msg.sapient_version⟩

structure SensorInfo where
  writer : Writer
  registration : MessageRecord
  dmm_msg_offset : ℤ
  message_format : MessageFormat
  recent_status_new : Option MessageRecord
  recent_status_unchanged : Option MessageRecord
  deriving DecidableEq

/-- Compared by value, as a data class. -/
structure ParentWriter where
  writer : Writer
  message_format : MessageFormat
  deriving DecidableEq

structure SharedData where
  registered_sensors : Dict String SensorInfo
  dmm_writers : List Writer
  parent_high_level_writers : List ParentWriter
  parent_all_writers : List ParentWriter
  deriving DecidableEq

structure Config where
  enableTimeSyncAdjustment : Bool
  sendRegistrationAck : Bool
  allowPeerRegistration : Bool
  /-- The threshold, if the filter is enabled, and whether failures are stored. -/
  detectionConfidenceFiltering : Option (PyFloat × Bool)
  /-- A float in an f-string. -/
  strFloat : PyFloat → String

/-! ## Handling a message -/

/-- How far the handling of a message has come; `self` is the connection it came in on. -/
structure Handling (κ : Type) where
  shared : SharedData
  self : κ
  msg : MessageRecord
  writes : List Write
  raised : Option String

/-- The texts of the exceptions, if any, that the calls of code outside the connections
raise: adjusting a timestamp, inserting a sensor id and making an acknowledgement.  Writers
that a message is forwarded to do not raise here. -/
structure Raises where
  timestamp : Option String
  sensor_id : Option String
  registration_ack : Option String
  deriving DecidableEq

/-- None of the calls raises. -/
def Raises.nothing : Raises := ⟨none, none, none⟩

namespace Handling

variable {κ : Type}

/-- `msg.error = …`. -/
def fail (h : Handling κ) (severity : ErrorSeverity) (description : String) : Handling κ :=
  { h with msg := { h.msg with error := some ⟨severity, description⟩ } }

def raise (h : Handling κ) (text : String) : Handling κ := { h with raised := some text }

/-- What `None.name` raises. -/
def raiseNone (h : Handling κ) (name : String) : Handling κ :=
  h.raise ("AttributeError: 'NoneType' object has no attribute '" ++ name ++ "'")

/-- The next part of a handler, unless it has returned with an error or has raised. -/
def andThen (h : Handling κ) (next : Handling κ → Handling κ) : Handling κ :=
  if h.msg.error.isSome ∨ h.raised.isSome then h else next h

/-- A call that may raise. -/
def call (h : Handling κ) (raises : Option String) (next : Handling κ → Handling κ) :
    Handling κ :=
  match raises with
  | some text => h.raise text
  | none => next h

def write (h : Handling κ) (w : Write) : Handling κ := { h with writes := h.writes ++ [w] }

/-- `for writer in …: writer(msg, msg.sapient_version)`. -/
def writeEach (h : Handling κ) (writers : List Writer) : Handling κ :=
  writers.foldl (fun h writer ↦ h.write (h.msg.to writer)) h

def setForwarded (h : Handling κ) (count : ℕ) : Handling κ :=
  { h with msg := { h.msg with forwarded_count := count } }

/-- `SharedData.send_to_parent`. -/
def send_to_parent (h : Handling κ) (high_level : Bool) (except_writer : Option ParentWriter) :
    Handling κ :=
  if h.msg.error.isSome then h
  else
    let writers := h.shared.parent_all_writers ++
      if high_level then h.shared.parent_high_level_writers else []
    writers.foldl
      (fun h writer ↦
        if some writer ≠ except_writer then
          (h.write (h.msg.to writer.writer)).setForwarded (h.msg.forwarded_count + 1)
        else h) h

/-- `_apply_timestamp_offset`. -/
def apply_timestamp_offset (cfg : Config) (offset : ℤ) (h : Handling κ) : Handling κ :=
  if cfg.enableTimeSyncAdjustment then
    { h with msg := { h.msg with parsed := h.msg.parsed.map fun parsed ↦
        { parsed with message_timestamp := parsed.message_timestamp + offset } } }
  else h

/-- `_send_error_reply_if_necessary`. -/
def send_error_reply_if_necessary (writer : Writer) (destination_id : Option String)
    (h : Handling κ) : Handling κ :=
  match h.msg.error with
  | some ⟨.NOISY, description⟩ =>
      h.write ⟨writer, .error h.msg.received.message_id description destination_id⟩
  | _ => h

/-- `except Exception as e: msg.error = FatalError(…)`. -/
def catchAll (h : Handling κ) : Handling κ :=
  match h.raised with
  | some text => { h.fail .FATAL text with raised := none }
  | none => h

end Handling

/-- An optional text in an f-string. -/
def strOption : Option String → String
  | some text => text
  | none => "None"

/-! ## Child connections -/

structure ChildConnection where
  writer : Writer
  message_format : MessageFormat
  registration : Option MessageRecord
  node_id : Option String
  last_status_report_system : Option String
  time_offset : Option ℤ
  deriving DecidableEq

namespace ChildConnection

/-- `_filter_detection`. -/
def filter_detection (cfg : Config) (h : Handling ChildConnection) : Handling ChildConnection :=
  match cfg.detectionConfidenceFiltering, h.msg.parsed.bind ParsedRecord.detection_confidence with
  | some (threshold, storeInDatabase), some confidence =>
      if confidence.ge threshold then h
      else h.fail (if storeInDatabase then .SILENT else .UNSTORED)
        ("Detection confidence " ++ cfg.strFloat confidence ++
          " less than filter threshold " ++ cfg.strFloat threshold)
  | _, _ => h

/-- The message goes to the Peers. -/
def forward (h : Handling ChildConnection) : Handling ChildConnection :=
  (h.writeEach h.shared.dmm_writers).setForwarded h.shared.dmm_writers.length

/-- `send_registration_ack` to the Child itself, if it is wanted. -/
def acknowledge (cfg : Config) (raises : Raises) (h : Handling ChildConnection) :
    Handling ChildConnection :=
  if cfg.sendRegistrationAck then
    h.call raises.registration_ack fun h ↦
      h.write ⟨h.self.writer, .registration_ack h.self.node_id⟩
  else h

/-- The registration is received: the Child is found under `node_id` from now on, whoever
was before. -/
def register (node_id : String) (offset : ℤ) (h : Handling ChildConnection) :
    Handling ChildConnection :=
  { h with
    self := { h.self with node_id := some node_id, registration := some h.msg }
    shared := { h.shared with
      registered_sensors := h.shared.registered_sensors.set node_id
        { writer := h.self.writer
          registration := h.msg
          dmm_msg_offset := offset
          message_format := h.self.message_format
          recent_status_new := none
          recent_status_unchanged := none } } }

/-- The "message delay" that is included in the time offset. -/
def messageDelay : ℤ := 100000

/-- `_handle_registration`, for the first registration of a connection. -/
def handle_registration (cfg : Config) (raises : Raises) (h : Handling ChildConnection) :
    Handling ChildConnection :=
  if h.msg.error.isSome then h
  else if h.msg.registration = none then h.fail .SILENT "Registration message expected"
  else match h.msg.parsed with
    | none => h.raiseNone "node_id"
    | some parsed => match parsed.node_id with
      | none => h.fail .FATAL "Child sent registration message with no ID"
      | some node_id =>
          let time_offset := h.msg.received.timestamp - parsed.message_timestamp
          let offset := time_offset - messageDelay
          let h := { h with self := { h.self with time_offset := some offset } }
          h.call raises.timestamp fun h ↦
            (h.apply_timestamp_offset cfg offset).call raises.sensor_id fun h ↦
              acknowledge cfg raises (forward (register node_id (-time_offset) h))

/-- The message must come from the node that registered here, and no other connection may
have taken the id over.  The connection's `time_offset` is set when it registers. -/
def check_owner (cfg : Config) (raises : Raises) (h : Handling ChildConnection) :
    Handling ChildConnection :=
  match h.msg.parsed with
  | none => h.raiseNone "node_id"
  | some parsed =>
      if parsed.node_id ≠ h.self.node_id then
        h.fail .NOISY ("Expected node ID " ++ strOption h.self.node_id ++ ", got node ID " ++
          strOption parsed.node_id)
      else
        let node_info := h.self.node_id.bind h.shared.registered_sensors.get?
        if node_info.map SensorInfo.writer ≠ some h.self.writer then
          h.fail .SILENT
            ("Node ID " ++ strOption h.self.node_id ++ " hijacked by another connection")
        else
          h.call raises.timestamp fun h ↦
            h.apply_timestamp_offset cfg (h.self.time_offset.getD 0)

/-- `node_info` is changed in place. -/
def updateInfo (f : SensorInfo → SensorInfo) (h : Handling ChildConnection) :
    Handling ChildConnection :=
  match h.self.node_id with
  | none => h
  | some node_id =>
      match h.shared.registered_sensors.get? node_id with
      | none => h
      | some node_info =>
          { h with shared := { h.shared with
              registered_sensors := h.shared.registered_sensors.set node_id (f node_info) } }

/-- A further registration. -/
def reregister (cfg : Config) (raises : Raises) (h : Handling ChildConnection) :
    Handling ChildConnection :=
  if h.msg.registration = none then h
  else
    let h := { h with self := { h.self with
      registration := some h.msg
      last_status_report_system := none } }
    acknowledge cfg raises <| updateInfo (fun node_info ↦
      { node_info with
        registration := h.msg
        recent_status_new := none
        recent_status_unchanged := none }) h

/-- A status report. -/
def handle_status_report (h : Handling ChildConnection) : Handling ChildConnection :=
  match h.msg.status_report with
  | none => h
  | some status_report =>
      if status_report.is_unchanged then
        match h.self.last_status_report_system with
        | none => h.fail .NOISY "Status report \"Unchanged\" received before \"New\""
        | some system =>
            if system ≠ status_report.system then
              h.fail .NOISY ("Status report \"Unchanged\" has system \"" ++
                status_report.system ++ "\" different from last \"New\" system \"" ++ system ++
                "\"")
            else
              updateInfo (fun node_info ↦
                { node_info with recent_status_unchanged := some h.msg }) h
      else
        let h := { h with self := { h.self with
          last_status_report_system := some status_report.system } }
        updateInfo (fun node_info ↦
          { node_info with
            recent_status_new := some h.msg
            recent_status_unchanged := none }) h

/-- `_handle_other`. -/
def handle_other (cfg : Config) (raises : Raises) (h : Handling ChildConnection) :
    Handling ChildConnection :=
  h.andThen (check_owner cfg raises)
    |>.andThen (reregister cfg raises)
    |>.andThen handle_status_report
    |>.andThen (filter_detection cfg)
    |>.andThen forward

def handle_message (cfg : Config) (raises : Raises) (h : Handling ChildConnection) :
    Handling ChildConnection :=
  let h := if h.self.registration = none then handle_registration cfg raises h
    else handle_other cfg raises h
  let h := if h.raised = none then h.send_to_parent false none else h
  let h := h.catchAll
  h.send_error_reply_if_necessary h.self.writer h.self.node_id

def handle_closed (self : ChildConnection) (shared : SharedData) : SharedData :=
  match self.node_id with
  | none => shared
  | some node_id =>
      if (shared.registered_sensors.get? node_id).map SensorInfo.writer = some self.writer then
        { shared with registered_sensors := shared.registered_sensors.erase node_id }
      else shared

end ChildConnection

/-! ## The nodes that registered before a connection -/

/-- What a Peer or a Parent that has just connected is told about the Children. -/
def SensorInfo.replay (writer : Writer) (node_info : SensorInfo) : List Write :=
  [node_info.registration.to writer] ++
    (node_info.recent_status_new.map (MessageRecord.to · writer)).toList ++
    (node_info.recent_status_unchanged.map (MessageRecord.to · writer)).toList

def SharedData.replay (shared : SharedData) (writer : Writer) : List Write :=
  (shared.registered_sensors.items.map Prod.snd).flatMap (SensorInfo.replay writer)

/-! ## Peer connections -/

structure PeerConnection where
  writer : Writer
  message_format : MessageFormat
  dmm_id : Option String
  deriving DecidableEq

namespace PeerConnection

/-- `_handle_registration`. -/
def handle_registration (cfg : Config) (raises : Raises) (h : Handling PeerConnection) :
    Handling PeerConnection :=
  if h.msg.registration = none then h
  else if ¬ cfg.allowPeerRegistration then h.fail .NOISY "Peer should not send registration"
  else match h.msg.parsed with
    | none => h.raiseNone "node_id"
    | some parsed => match parsed.node_id with
      | none => h.fail .FATAL "Peer sent registration message with no ID"
      | some node_id =>
          if h.self.dmm_id ≠ none ∧ h.self.dmm_id ≠ some node_id then
            h.fail .FATAL ("Peer sent registration with inconsistent ID (" ++
              strOption h.self.dmm_id ++ " -> " ++ node_id)
          else
            ({ h with self := { h.self with dmm_id := some node_id } } : Handling _).call
              raises.registration_ack fun h ↦
                h.write ⟨h.self.writer, .registration_ack h.self.dmm_id⟩

/-- The message must come from the node that registered here, if any did. -/
def check_source (h : Handling PeerConnection) : Handling PeerConnection :=
  match h.self.dmm_id, h.msg.parsed with
  | none, _ => h
  | some _, none => h.raiseNone "node_id"
  | some dmm_id, some parsed =>
      if parsed.node_id ≠ some dmm_id then
        h.fail .NOISY ("Expected node ID " ++ dmm_id ++ ", got node ID " ++
          strOption parsed.node_id)
      else h

/-- To the destination, if there is one, and to the Parents. -/
def forward (cfg : Config) (raises : Raises) (h : Handling PeerConnection) :
    Handling PeerConnection :=
  match h.msg.parsed with
  | none => h.raiseNone "destination_node_id"
  | some parsed => match parsed.destination_node_id with
    | none => h.send_to_parent true none
    | some destination => match h.shared.registered_sensors.get? destination with
      | none => h.fail .NOISY ("Unknown node ID " ++ destination)
      | some node_connection =>
          h.call raises.timestamp fun h ↦
            let h := h.apply_timestamp_offset cfg node_connection.dmm_msg_offset
            ((h.write (h.msg.to node_connection.writer)).setForwarded 1).send_to_parent false none

/-- `_handle_message_inner`. -/
def handle_message_inner (cfg : Config) (raises : Raises) (h : Handling PeerConnection) :
    Handling PeerConnection :=
  h.andThen (handle_registration cfg raises)
    |>.andThen check_source
    |>.andThen (forward cfg raises)

def handle_message (cfg : Config) (raises : Raises) (h : Handling PeerConnection) :
    Handling PeerConnection :=
  let h := (handle_message_inner cfg raises h).catchAll
  h.send_error_reply_if_necessary h.self.writer h.self.dmm_id

def handle_closed (self : PeerConnection) (shared : SharedData) : SharedData :=
  { shared with dmm_writers := shared.dmm_writers.erase self.writer }

end PeerConnection

/-! ## Parent connections -/

structure ParentConnection where
  writer : Writer
  message_format : MessageFormat
  forward_all : Bool
  deriving DecidableEq

namespace ParentConnection

def parent_writer (self : ParentConnection) : ParentWriter := ⟨self.writer, self.message_format⟩

/-- The message goes to the Child that its destination names, if there is one. -/
def route (h : Handling ParentConnection) (destination : Option String) :
    Handling ParentConnection :=
  match destination.bind h.shared.registered_sensors.get? with
  | none => h
  | some node_connection =>
      (h.write (h.msg.to node_connection.writer)).setForwarded (h.msg.forwarded_count + 1)

/-- The message goes to the Peers. -/
def forward (h : Handling ParentConnection) : Handling ParentConnection :=
  (h.writeEach h.shared.dmm_writers).setForwarded
    (h.msg.forwarded_count + h.shared.dmm_writers.length)

/-- `handle_message` as it is patched.  What is raised is not caught. -/
def handle_message (h : Handling ParentConnection) : Handling ParentConnection :=
  if h.msg.error = none then
    let h := h.setForwarded 0
    match h.msg.parsed with
    | none => h.raiseNone "destination_node_id"
    | some parsed =>
        (forward (route h parsed.destination_node_id)).send_to_parent false
          (some h.self.parent_writer)
  else h.send_error_reply_if_necessary h.self.writer none

def handle_closed (self : ParentConnection) (shared : SharedData) : SharedData :=
  if self.forward_all then
    { shared with parent_all_writers := shared.parent_all_writers.erase self.parent_writer }
  else
    { shared with
      parent_high_level_writers := shared.parent_high_level_writers.erase self.parent_writer }

end ParentConnection

/-! ## Recorder connections -/

structure RecorderConnection where
  message_format : MessageFormat
  deriving DecidableEq

def RecorderConnection.handle_message (h : Handling RecorderConnection) :
    Handling RecorderConnection :=
  h.send_to_parent false none

end Apex

end SensorFusion
