import SensorFusion.Python.Text
import SensorFusion.Sapient.Schema

/-!
# The client-side validators

`validate` and its part for each kind of content, with the texts of their errors.
-/

namespace SensorFusion.Sapient

open Proto

/-! ## Identifiers -/

/-- `_is_valid_uuid`: what `uuid.UUID` accepts. -/
def isValidUuid (s : String) : Bool :=
  let hex := Text.remove "uuid:".toList (Text.remove "urn:".toList s.toList)
  let hex := Text.remove "-".toList (Text.stripBy (fun c ↦ c == '{' || c == '}') hex)
  decide (hex.length = 32) &&
    match Text.int16? hex with
    | some n => decide (0 ≤ n ∧ n < 2 ^ 128)
    | none => false

/-- `[0-9A-HJKMNP-TV-Z]`. -/
def isCrockford (c : Char) : Bool :=
  ('0' ≤ c && c ≤ '9') || ('A' ≤ c && c ≤ 'H') || c == 'J' || c == 'K' || c == 'M' || c == 'N' ||
    ('P' ≤ c && c ≤ 'T') || ('V' ≤ c && c ≤ 'Z')

/-- `_is_valid_ulid`: what `_ULID_RE` matches. -/
def isValidUlid (s : String) : Bool :=
  match Text.beforeDollar s.toList with
  | [] => false
  | c :: rest => '0' ≤ c && c ≤ '7' && decide (rest.length = 25) && rest.all isCrockford

/-- `_scalar_in_unit_interval`. -/
def scalarInUnitInterval : PyFloat → Bool
  | .fin q => decide (0 ≤ q ∧ q ≤ 1)
  | _ => false

/-! ## The rules -/

/-- `_err`: an error unless the condition holds. -/
def err (cond : Bool) (msg : String) : List String := if cond then [] else [msg]

theorem err_eq_nil_iff {cond : Bool} {msg : String} : err cond msg = [] ↔ cond = true := by
  cases cond <;> simp [err]

/-- The rule for the modes of a registration, from mode number `i` on. -/
def validateModes (i : ℕ) : List Message → List String
  | [] => []
  | md :: mds =>
      (if md.has "task" then
        err ((md.sub "task").has "concurrent_tasks")
          ("Registration.mode_definition[" ++ toString i ++
            "].task.concurrent_tasks is mandatory (validator quirk)")
      else []) ++ validateModes (i + 1) mds

def validateRegistration (r : Message) : List String :=
  err (decide (0 < r.count "node_definition")) "Registration.node_definition is mandatory" ++
  err (r.str "icd_version" == "BSI Flex 335 v2.0")
    "Registration.icd_version must be the literal \"BSI Flex 335 v2.0\" (validator quirk)" ++
  err (decide (0 < r.count "capabilities")) "Registration.capabilities is mandatory" ++
  err (r.has "status_definition") "Registration.status_definition is mandatory" ++
  err (decide (0 < r.count "mode_definition")) "Registration.mode_definition is mandatory" ++
  err (decide (0 < r.count "config_data")) "Registration.config_data is mandatory" ++
  validateModes 0 (r.subs "mode_definition")

def validateRegistrationAck (ra : Message) : List String :=
  err (ra.has "acceptance") "RegistrationAck.acceptance is mandatory"

def validateStatusReport (s : Message) : List String :=
  err (isValidUlid (s.str "report_id"))
    "StatusReport.report_id is mandatory and must be a valid ULID" ++
  err (s.num "system" != 0) "StatusReport.system is mandatory (cannot be UNSPECIFIED)" ++
  err (s.num "info" != 0) "StatusReport.info is mandatory (cannot be UNSPECIFIED)" ++
  err (s.str "mode" != "") "StatusReport.mode is mandatory (validator quirk: must be non-empty)" ++
  (if s.str "active_task_id" != "" then
    err (isValidUlid (s.str "active_task_id"))
      "StatusReport.active_task_id must be a valid ULID when set"
  else [])

def validateDetectionReport (d : Message) : List String :=
  err (isValidUlid (d.str "report_id"))
    "DetectionReport.report_id is mandatory and must be a valid ULID" ++
  err (isValidUlid (d.str "object_id"))
    "DetectionReport.object_id is mandatory and must be a valid ULID" ++
  (if d.str "task_id" != "" then
    err (isValidUlid (d.str "task_id")) "DetectionReport.task_id must be a valid ULID when set"
  else []) ++
  err (d.has "location" || d.has "range_bearing")
    "DetectionReport must have either location or range_bearing" ++
  err (!(d.has "location" && d.has "range_bearing"))
    "DetectionReport must NOT have both location and range_bearing" ++
  (if d.has "detection_confidence" then
    err (scalarInUnitInterval (d.float "detection_confidence"))
      "DetectionReport.detection_confidence must be in [0,1]"
  else [])

def validateTask (t : Message) : List String :=
  err (isValidUlid (t.str "task_id")) "Task.task_id is mandatory and must be a valid ULID" ++
  err (t.num "control" != 0) "Task.control is mandatory (cannot be UNSPECIFIED)"

def validateTaskAck (ta : Message) : List String :=
  err (isValidUlid (ta.str "task_id")) "TaskAck.task_id is mandatory and must be a valid ULID" ++
  err (ta.num "task_status" != 0) "TaskAck.task_status is mandatory (cannot be UNSPECIFIED)"

def validateAlert (a : Message) : List String :=
  err (isValidUlid (a.str "alert_id")) "Alert.alert_id is mandatory and must be a valid ULID" ++
  (if a.has "ranking" then
    err (scalarInUnitInterval (a.float "ranking")) "Alert.ranking must be in [0,1]"
  else []) ++
  (if a.has "confidence" then
    err (scalarInUnitInterval (a.float "confidence")) "Alert.confidence must be in [0,1]"
  else []) ++
  (if a.str "region_id" != "" then
    err (isValidUlid (a.str "region_id")) "Alert.region_id must be a valid ULID when set"
  else [])

def validateAlertAck (aa : Message) : List String :=
  err (isValidUlid (aa.str "alert_id")) "AlertAck.alert_id is mandatory and must be a valid ULID" ++
  err (aa.num "alert_ack_status" != 0)
    "AlertAck.alert_ack_status is mandatory (cannot be UNSPECIFIED)"

def validateError (e : Message) : List String :=
  err (!(e.bytes "packet").isEmpty) "Error.packet is mandatory (must be non-empty bytes)" ++
  err (decide (0 < e.count "error_message")) "Error.error_message is mandatory (at least one entry)"

/-- The rules for a kind of content. -/
def validateContent (m : Message) : Option String → List String
  | some "registration" => validateRegistration (m.sub "registration")
  | some "registration_ack" => validateRegistrationAck (m.sub "registration_ack")
  | some "status_report" => validateStatusReport (m.sub "status_report")
  | some "detection_report" => validateDetectionReport (m.sub "detection_report")
  | some "task" => validateTask (m.sub "task")
  | some "task_ack" => validateTaskAck (m.sub "task_ack")
  | some "alert" => validateAlert (m.sub "alert")
  | some "alert_ack" => validateAlertAck (m.sub "alert_ack")
  | some "error" => validateError (m.sub "error")
  | _ => []

/-- `validate`: the errors of a message, none if it is valid. -/
def validate (message : Message) : List String :=
  err (message.has "timestamp") "SapientMessage.timestamp is mandatory" ++
  err (message.str "node_id" != "" && isValidUuid (message.str "node_id"))
    "SapientMessage.node_id must be a valid UUID" ++
  (if message.str "destination_id" != "" then
    err (isValidUuid (message.str "destination_id"))
      "SapientMessage.destination_id must be a valid UUID when set"
  else []) ++
  err (content message).isSome "SapientMessage.content is mandatory" ++
  validateContent message (content message)

end SensorFusion.Sapient
