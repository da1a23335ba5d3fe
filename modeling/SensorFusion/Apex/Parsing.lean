import SensorFusion.Apex.Database
import SensorFusion.Apex.Replay
import SensorFusion.Apex.Validator

/-!
# Parsing a message

`parse_proto` makes of the bytes of a message the record that the connections handle.  A message
that cannot be parsed, or in which the validator finds an error, gets a record with that error;
so a record without one is of a message that is valid throughout.

The parser is chosen by the format of the connection.  A message in XML is translated first, and
its contents are not validated; what `parse_xml` makes of it is left open here.
-/

namespace SensorFusion

universe u

namespace Apex

open Proto
open Sqlite (StoredRecord)

variable {T : Type u}

/-- What `parse_proto` asks of code outside it, and what it is configured with. -/
structure Parser (T : Type u) extends Library T where
  /-- The type of a SAPIENT message of the version of the connection. -/
  sapient_message : T
  sapient_version : SapientVersion
  ParseFromString : List UInt8 → Except String Message
  MessageToJson : Message → String
  /-- `StatusReport.System.Name`. -/
  SystemName : ℤ → Except String String
  /-- The translation into XML, if it is wanted. -/
  translate : Option (Message → Except String String)

/-- A message as it is handed to the parser. -/
structure Incoming where
  connection_id : ℕ
  received : ReceivedDataRecord
  data_bytes : List UInt8
  decoded_timestamp : ℤ
  /-- The ULID that the generator of ids makes, if it is asked for one. -/
  generated_ulid : String

namespace Parser

/-- The record that is made first. -/
def blank (P : Parser T) (msg_data : Incoming) : StoredRecord where
  received := msg_data.received
  forwarded_count := 0
  parsed := none
  registration := none
  status_report := none
  error := none
  sapient_version := P.sapient_version
  connection_id := msg_data.connection_id
  message_type := none
  data_decoded_xml := ""
  data_binary_proto := some msg_data.data_bytes
  decoded_timestamp := msg_data.decoded_timestamp
  data_json := none

/-- `result.error = …`. -/
def fail (result : StoredRecord) (severity : ErrorSeverity) (description : String) :
    StoredRecord :=
  { result with error := some ⟨severity, description⟩ }

/-- `text or None`. -/
def orNone (text : String) : Option String := if text = "" then none else some text

/-- `detection_confidence or None`. -/
def confidence (m : Message) : Option PyFloat :=
  let x := (m.sub "detection_report").float "detection_confidence"
  if x = .fin 0 then none else some x

/-- `result.parsed = …`, at last. -/
def finish (P : Parser T) (result : StoredRecord) (m : Message) (sensor_ulid : String) :
    Except String StoredRecord := do
  let message_timestamp ← P.ToDatetime (m.sub "timestamp")
  return { result with
    message_type := (P.schema P.sapient_message).whichOneof "content" m
    parsed := some
      { node_id := orNone sensor_ulid
        destination_node_id := orNone (m.str "destination_id")
        message_timestamp := message_timestamp
        detection_confidence := confidence m } }

/-- `",".join(msg_parsed.error.error_message)`. -/
def errorText (m : Message) : String :=
  ",".intercalate ((m.sub "error").filterMap fun
    | ("error_message", .str s) => some s
    | _ => none)

/-- The part of `parse_proto` that is about the kind of content. -/
def classify (P : Parser T) (result : StoredRecord) (m : Message) (sensor_ulid : String) :
    Except String StoredRecord :=
  if m.has "registration" then
    if sensor_ulid = "" then .ok (fail result .NOISY "Registration missing node ID")
    else
      P.finish { result with
        registration := some ⟨(m.sub "registration").str "short_name"⟩ } m sensor_ulid
  else if m.has "status_report" then
    let status_report := m.sub "status_report"
    let info := status_report.num "info"
    if info ≠ 1 ∧ info ≠ 2 then
      (P.SystemName info).map fun name ↦ fail result .NOISY ("Unknown status info: " ++ name)
    else do
      let name ← P.SystemName (status_report.num "system")
      P.finish { result with
        status_report := some ⟨String.ofList (name.toList.drop "SYSTEM_".length),
          decide (info = 2)⟩ } m sensor_ulid
  else if m.has "error" then P.finish (fail result .SILENT (errorText m)) m sensor_ulid
  else P.finish result m sensor_ulid

/-- The part of `parse_proto` after a validation without errors.  The generator of ids is asked
for a ULID if the message has no node id. -/
def convert (P : Parser T) (result : StoredRecord) (m : Message) (generated_ulid : String) :
    Except String StoredRecord :=
  match P.translate with
  | none => P.classify result m (m.str "node_id")
  | some translate =>
      match translate m with
      | .error e => .ok (fail result .NOISY ("TranslationError: " ++ e))
      | .ok xml =>
          P.classify { result with data_decoded_xml := xml } m
            (if m.str "node_id" = "" then generated_ulid else m.str "node_id")

/-- `"\n".join(…)`, of all errors. -/
def errorReport (errors : List ValidationError) : String :=
  "Validation " ++ toString errors.length ++ " errors:\n" ++
    "\n".intercalate (errors.map ValidationError.full_str)

/-- The part of `parse_proto` after the validation has listed its errors. -/
def judge (P : Parser T) (result : StoredRecord) (m : Message) (errors : List ValidationError)
    (generated_ulid : String) : Except String StoredRecord :=
  if errors = [] then P.convert result m generated_ulid
  else .ok (fail result .NOISY (errorReport errors))

end Parser

/-- The validation, if one is required. -/
def Validator.validate_if_required [DecidableEq T] (P : Parser T) (validator : Validator)
    (m : Message) (received_time : ℤ) : Except String (List ValidationError × Validator) :=
  if validator.is_validation_required then
    validator.validate_sapient_message P.toLibrary P.sapient_message m received_time
  else .ok ([], validator)

/-- `parse_proto`, with the validator as it is afterwards. -/
def parse_proto [DecidableEq T] (P : Parser T) (msg_data : Incoming) (validator : Validator) :
    Except String (StoredRecord × Validator) :=
  match P.ParseFromString msg_data.data_bytes with
  | .error e => .ok (Parser.fail (P.blank msg_data) .NOISY ("DecodeError: " ++ e), validator)
  | .ok m => do
      let result : StoredRecord := { P.blank msg_data with data_json := some (P.MessageToJson m) }
      let (errors, next) ← validator.validate_if_required P m msg_data.received.timestamp
      let record ← P.judge result m errors msg_data.generated_ulid
      return (record, next)

/-! ## The parser of a connection -/

/-- What `serve` has for parsing the messages of a connection. -/
inductive Reader (T : Type u)
  | proto (parser : Parser T)
  | xml (parse_xml : Incoming → Validator → Except String (StoredRecord × Validator))

/-- What the parsers of a connection are made of. -/
structure Parsers (T : Type u) where
  protobuf : Parser T
  bsi_flex_v1_to_xml : Message → Except String String
  parse_xml : Incoming → Validator → Except String (StoredRecord × Validator)

/-- `_get_parser`. -/
def getParser (P : Parsers T) (enable_message_conversion : Bool) (message_format : MessageFormat) :
    Except String (Reader T) :=
  if ¬ enable_message_conversion then .ok (.proto { P.protobuf with translate := none })
  else match message_format with
    | .PROTO => .ok (.proto { P.protobuf with translate := some P.bsi_flex_v1_to_xml })
    | .XML => .ok (.xml P.parse_xml)
    | _ => .error "NotImplementedError: unknown parser"

def Reader.parse [DecidableEq T] :
    Reader T → Incoming → Validator → Except String (StoredRecord × Validator)
  | .proto parser => parse_proto parser
  | .xml parse_xml => parse_xml

/-! ## Which message it is -/

/-- The record is of the message that was handed to the parser. -/
structure Made (msg_data : Incoming) (record : StoredRecord) : Prop where
  received : record.received = msg_data.received
  connection_id : record.connection_id = msg_data.connection_id
  fresh : record.forwarded_count = 0

namespace Parser

variable {P : Parser T} {msg_data : Incoming} {result record : StoredRecord} {m : Message}
  {sensor_ulid : String}

theorem made_fail (h : Made msg_data result) (severity : ErrorSeverity) (description : String) :
    Made msg_data (fail result severity description) := ⟨h.received, h.connection_id, h.fresh⟩

theorem made_finish (hr : P.finish result m sensor_ulid = .ok record) (h : Made msg_data result) :
    Made msg_data record := by
  obtain ⟨time, -, hr⟩ := bind_eq_ok.mp hr
  cases hr
  exact ⟨h.received, h.connection_id, h.fresh⟩

theorem made_classify (hr : P.classify result m sensor_ulid = .ok record)
    (h : Made msg_data result) : Made msg_data record := by
  unfold classify at hr
  split at hr
  · split at hr
    · cases hr
      exact made_fail h _ _
    · exact made_finish hr ⟨h.received, h.connection_id, h.fresh⟩
  · split at hr
    · dsimp only at hr
      split at hr
      · obtain ⟨name, -, rfl⟩ := map_eq_ok.mp hr
        exact made_fail h _ _
      · obtain ⟨name, -, hr⟩ := bind_eq_ok.mp hr
        exact made_finish hr ⟨h.received, h.connection_id, h.fresh⟩
    · split at hr
      · exact made_finish hr (made_fail h _ _)
      · exact made_finish hr h

theorem made_convert {generated_ulid : String}
    (hr : P.convert result m generated_ulid = .ok record) (h : Made msg_data result) :
    Made msg_data record := by
  unfold convert at hr
  split at hr
  · exact made_classify hr h
  · split at hr
    · cases hr
      exact made_fail h _ _
    · exact made_classify hr ⟨h.received, h.connection_id, h.fresh⟩

end Parser

/-! ## Which kind of message it is -/

/-- A message that is parsed has one content at most, as the members of a `oneof`. -/
def Parser.OneContent (P : Parser T) : Prop :=
  ∀ data_bytes m, P.ParseFromString data_bytes = .ok m → m.has "detection_report" = true →
    m.has "registration" = false ∧ m.has "status_report" = false

namespace Parser

variable {P : Parser T} {result record : StoredRecord} {m : Message} {sensor_ulid : String}

theorem confidence_of_not_has (h : m.has "detection_report" = false) : confidence m = none := by
  have hlookup : m.lookup "detection_report" = none := by
    cases hlookup : m.lookup "detection_report" with
    | none => rfl
    | some v =>
        have hhas := Message.has_iff.mpr ⟨v, Message.mem_of_lookup hlookup⟩
        exact absurd (hhas.symm.trans h) Bool.noConfusion
  have hsub : m.sub "detection_report" = [] := by rw [Message.sub, hlookup]
  unfold confidence
  rw [hsub]
  exact if_pos rfl

/-- Nothing has been found out of the message yet. -/
structure Unread (result : StoredRecord) : Prop where
  parsed : result.parsed = none
  registration : result.registration = none
  status_report : result.status_report = none

theorem Unread.oneKind (h : Unread result) : OneKind result.toMessageRecord where
  registration hne := absurd h.registration hne
  detection hne := absurd (by rw [h.parsed]; rfl) hne

/-- A record that says what the message is, and not more than one thing. -/
theorem oneKind_finish (hr : P.finish result m sensor_ulid = .ok record)
    (hreport : result.registration ≠ none → result.status_report = none)
    (hdetection : confidence m ≠ none →
      result.registration = none ∧ result.status_report = none) :
    OneKind record.toMessageRecord := by
  obtain ⟨time, -, hr⟩ := bind_eq_ok.mp hr
  cases hr
  exact ⟨hreport, hdetection⟩

theorem oneKind_classify (hr : P.classify result m sensor_ulid = .ok record)
    (hunread : Unread result) (hone : m.has "detection_report" = true →
      m.has "registration" = false ∧ m.has "status_report" = false) :
    OneKind record.toMessageRecord := by
  have hnone {f : String} (hf : m.has f = true)
      (hother : m.has "detection_report" = true → m.has f = false) : confidence m = none := by
    refine confidence_of_not_has (Bool.not_eq_true _ ▸ fun hhas ↦ ?_)
    exact absurd (hf.symm.trans (hother hhas)) Bool.noConfusion
  unfold classify at hr
  split at hr
  · rename_i hregistration
    split at hr
    · cases hr
      exact Unread.oneKind ⟨hunread.parsed, hunread.registration, hunread.status_report⟩
    · exact oneKind_finish hr (fun _ ↦ hunread.status_report) fun hne ↦
        absurd (hnone hregistration fun hhas ↦ (hone hhas).1) hne
  · split at hr
    · rename_i hstatus
      dsimp only at hr
      split at hr
      · obtain ⟨name, -, rfl⟩ := map_eq_ok.mp hr
        exact Unread.oneKind ⟨hunread.parsed, hunread.registration, hunread.status_report⟩
      · obtain ⟨name, -, hr⟩ := bind_eq_ok.mp hr
        exact oneKind_finish hr (fun hne ↦ absurd hunread.registration hne) fun hne ↦
          absurd (hnone hstatus fun hhas ↦ (hone hhas).2) hne
    · split at hr
      · exact oneKind_finish hr (fun hne ↦ absurd hunread.registration hne)
          fun _ ↦ ⟨hunread.registration, hunread.status_report⟩
      · exact oneKind_finish hr (fun hne ↦ absurd hunread.registration hne)
          fun _ ↦ ⟨hunread.registration, hunread.status_report⟩

end Parser

/-- The records of a parser are of messages of one kind. -/
theorem oneKind_parse_proto [DecidableEq T] {P : Parser T} (hone : P.OneContent)
    {msg_data : Incoming} {V next : Validator} {record : StoredRecord}
    (h : parse_proto P msg_data V = .ok (record, next)) : OneKind record.toMessageRecord := by
  unfold parse_proto at h
  split at h
  · cases h
    exact Parser.Unread.oneKind ⟨rfl, rfl, rfl⟩
  · rename_i m hm
    obtain ⟨⟨errors, next'⟩, -, h⟩ := bind_eq_ok.mp h
    obtain ⟨record', hrecord, h⟩ := bind_eq_ok.mp h
    cases h
    unfold Parser.judge at hrecord
    split at hrecord
    · unfold Parser.convert at hrecord
      split at hrecord
      · exact Parser.oneKind_classify hrecord ⟨rfl, rfl, rfl⟩ (hone _ m hm)
      · split at hrecord
        · cases hrecord
          exact Parser.Unread.oneKind ⟨rfl, rfl, rfl⟩
        · exact Parser.oneKind_classify hrecord ⟨rfl, rfl, rfl⟩ (hone _ m hm)
    · cases hrecord
      exact Parser.Unread.oneKind ⟨rfl, rfl, rfl⟩

/-! ## Valid messages -/

section Valid

variable [DecidableEq T] {P : Parser T} {msg_data : Incoming} {V next : Validator}

/-- Neither in the message nor in what is nested in it there is a fault. -/
def Valid (lib : Library T) (options : ValidationOptions) (t : T) (m : Message) : Prop :=
  ∀ p t' m', Below lib.schema (Validator.enters lib) t m p t' m' →
    ∀ e, ¬ Validator.Fault lib options t' m' p e

/-- A validation that lists no error is of a valid message. -/
theorem valid_of_validated (hon : V.options.types ≠ []) {m : Message} {received_time : ℤ}
    (h : V.validate_if_required P m received_time = .ok ([], next)) :
    Valid P.toLibrary V.options P.sapient_message m := by
  rw [Validator.validate_if_required, Validator.is_validation_required,
    decide_eq_true (List.length_pos_of_ne_nil hon), if_pos rfl] at h
  obtain ⟨timestamp, detection, contents, -, -, hcontents, herrors⟩ :=
    Validator.validate_sapient_message_eq_ok.mp h
  intro p t' m' hbelow e hfault
  have hmem := (Validator.validate_message_faults hcontents e).mpr ⟨p, t', m', hbelow, hfault⟩
  rw [(List.append_eq_nil_iff.mp herrors.symm).2] at hmem
  exact List.not_mem_nil hmem

theorem validate_if_required_options {m : Message} {received_time : ℤ}
    {errors : List ValidationError}
    (h : V.validate_if_required P m received_time = .ok (errors, next)) :
    next.options = V.options := by
  unfold Validator.validate_if_required at h
  split at h
  · obtain ⟨-, detection, -, -, hdetection, -, -⟩ :=
      Validator.validate_sapient_message_eq_ok.mp h
    rw [Validator.check_detection_timestamp_reasonable] at hdetection
    split at hdetection
    · obtain ⟨time, -, hdetection⟩ := bind_eq_ok.mp hdetection
      cases hdetection
      rfl
    · cases hdetection
      rfl
  · cases h
    rfl

/-- The record is of the message, the validator keeps its options, and without an error the
message could be parsed and is valid. -/
theorem parse_proto_ok {record : StoredRecord} (h : parse_proto P msg_data V = .ok (record, next)) :
    Made msg_data record ∧ next.options = V.options ∧
      (record.error = none → ∃ m, P.ParseFromString msg_data.data_bytes = .ok m ∧
        (V.options.types ≠ [] → Valid P.toLibrary V.options P.sapient_message m)) := by
  have hblank : Made msg_data (P.blank msg_data) := ⟨rfl, rfl, rfl⟩
  unfold parse_proto at h
  split at h
  · cases h
    exact ⟨Parser.made_fail hblank _ _, rfl, nofun⟩
  · rename_i m hm
    obtain ⟨⟨errors, next'⟩, hvalidated, h⟩ := bind_eq_ok.mp h
    obtain ⟨record', hrecord, h⟩ := bind_eq_ok.mp h
    cases h
    have hmade : Made msg_data
        ({ P.blank msg_data with data_json := some (P.MessageToJson m) } : StoredRecord) :=
      ⟨rfl, rfl, rfl⟩
    rw [Parser.judge] at hrecord
    by_cases herrors : errors = []
    · subst herrors
      rw [if_pos rfl] at hrecord
      exact ⟨Parser.made_convert hrecord hmade, validate_if_required_options hvalidated,
        fun _ ↦ ⟨m, hm, fun hon ↦ valid_of_validated hon hvalidated⟩⟩
    · rw [if_neg herrors] at hrecord
      cases hrecord
      exact ⟨Parser.made_fail hmade _ _, validate_if_required_options hvalidated, nofun⟩

end Valid

end Apex

end SensorFusion
