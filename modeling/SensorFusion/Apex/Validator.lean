import SensorFusion.Lib.Sites
import SensorFusion.Python.Number
import SensorFusion.Sapient.Identifiers

/-!
# The validator of the middleware

Every connection has a `Validator`, which is asked about each message that comes in, before
anything else is done with it.  The options say which types of validation are performed; the
errors of all of them go into one list, in the order of a walk through the message.  What the
validator finds are exactly the faults of the message and of what is nested in it, each under
its path; and the types do not depend on each other.
-/

namespace SensorFusion

universe u

namespace Apex

open Proto Text

/-! ## Options and errors -/

inductive ValidationType
  | MANDATORY_FIELDS_PRESENT
  | MANDATORY_ONEOF_PRESENT
  | MANDATORY_REPEATED_PRESENT
  | NO_UNKNOWN_FIELDS
  | NO_UNKNOWN_ENUM_VALUES
  | ID_FORMAT_VALID
  | MESSAGE_TIMESTAMP_REASONABLE
  | DETECTION_TIMESTAMP_REASONABLE
  | SUPPORTED_ICD_VERSION
  deriving DecidableEq

/-- `self.type.name.lower().replace("_", " ")`. -/
def ValidationType.type_str : ValidationType → String
  | MANDATORY_FIELDS_PRESENT => "mandatory fields present"
  | MANDATORY_ONEOF_PRESENT => "mandatory oneof present"
  | MANDATORY_REPEATED_PRESENT => "mandatory repeated present"
  | NO_UNKNOWN_FIELDS => "no unknown fields"
  | NO_UNKNOWN_ENUM_VALUES => "no unknown enum values"
  | ID_FORMAT_VALID => "id format valid"
  | MESSAGE_TIMESTAMP_REASONABLE => "message timestamp reasonable"
  | DETECTION_TIMESTAMP_REASONABLE => "detection timestamp reasonable"
  | SUPPORTED_ICD_VERSION => "supported icd version"

/-- Times are in microseconds. -/
structure ValidationOptions where
  types : List ValidationType
  strict_id_format : Bool
  message_timestamp_range : ℤ × ℤ
  detection_minimum_gap : ℤ
  supported_icd_versions : List String

structure ValidationError where
  type : ValidationType
  message : String
  path : FieldPath
  deriving DecidableEq

def ValidationError.full_str (e : ValidationError) : String :=
  (if e.path ≠ [] then ".".intercalate e.path else "(root)") ++ " (" ++ e.type.type_str ++ "): " ++
    e.message

/-- `str` of a `timedelta`. -/
def strTimedelta (t : ℤ) : String :=
  let seconds := t / 1000000
  let days := seconds / 86400
  (if days = 0 then ""
    else toString days ++ " day" ++ (if days.natAbs ≠ 1 then "s" else "") ++ ", ") ++
  String.ofList (Nat.toDigits 10 (seconds % 86400 / 3600).toNat ++ ':' ::
    fixedDigits 1 (seconds % 3600 / 60).toNat ++ ':' :: fixedDigits 1 (seconds % 60).toNat ++
      if t % 1000000 = 0 then [] else '.' :: fixedDigits 5 (t % 1000000).toNat)

/-- `_td_str`. -/
def td_str (td : ℤ) : String :=
  if td < 0 then "-" ++ strTimedelta (-td) else strTimedelta td

example : td_str (-900000) = "-0:00:00.900000" ∧ td_str 86461000000 = "1 day, 0:01:01" := by
  decide +kernel

/-- What the validator asks of code outside it: the generated descriptors, the protobuf
library, and the texts of a time and of an unknown field. -/
structure Library (T : Type u) where
  schema : Schema T
  full_name : T → String
  /-- The numbers of the enumeration that a field has for its type. -/
  values_by_number : T → String → List ℤ
  ToDatetime : Message → Except String ℤ
  strDatetime : ℤ → String
  format_unknown_field : String × Value → String

structure Validator where
  options : ValidationOptions
  previous_detection_time : Option ℤ

/-! ## Identifiers -/

/-- A pattern that is a sequence of classes of characters matches the whole text. -/
def fullmatch (classes : List (Char → Bool)) (s : Text) : Bool :=
  decide (s.length = classes.length) && (classes.zip s).all fun a ↦ a.1 a.2

/-- What matches `[0-9A-HJKMNP-TV-Z]` if case is ignored: two of the characters that are not
ASCII fold to `s` and `k`. -/
def isCrockfordIgnorecase (c : Char) : Bool :=
  Sapient.isCrockford c.toUpper || c == '\u017f' || c == '\u212a'

/-- A digit up to seven and 25 characters. -/
def ulidClasses (isCrockford : Char → Bool) : List (Char → Bool) :=
  (fun c ↦ '0' ≤ c && c ≤ '7') :: List.replicate 25 isCrockford

/-- `[0-9a-f]`. -/
def isLowerHex (c : Char) : Bool := ('0' ≤ c && c ≤ '9') || ('a' ≤ c && c ≤ 'f')

/-- `_valid_uuid4_re`. -/
def uuid4Classes : List (Char → Bool) :=
  List.replicate 8 isLowerHex ++ (· == '-') :: List.replicate 4 isLowerHex ++
    (· == '-') :: (· == '4') :: List.replicate 3 isLowerHex ++
    (· == '-') :: (fun c ↦ c == '8' || c == '9' || c == 'a' || c == 'b') ::
    List.replicate 3 isLowerHex ++ (· == '-') :: List.replicate 12 isLowerHex

/-- A text is a ULID, as strictly as the options want it. -/
def ValidationOptions.takesUlid (options : ValidationOptions) (value : String) : Bool :=
  fullmatch (ulidClasses
    (if options.strict_id_format then Sapient.isCrockford else isCrockfordIgnorecase)) value.toList

/-- The same for a UUID; the one that is not strict takes what `UUID` takes. -/
def ValidationOptions.takesUuid (options : ValidationOptions) (value : String) : Bool :=
  if options.strict_id_format then fullmatch uuid4Classes value.toList
  else Sapient.isValidUuid value

/-! ## Validating a message -/

namespace Validator

variable {T : Type u}

/-- `_check_ulid_format_valid`. -/
def check_ulid_format_valid (self : Validator) (value : FieldValue) (path : FieldPath) :
    List ValidationError :=
  match value with
  | .one (.str s) =>
      if self.options.takesUlid s then []
      else [⟨.ID_FORMAT_VALID, "Invalid ULID: " ++ s, path⟩]
  | _ => []

/-- `_check_uuid_format_valid`. -/
def check_uuid_format_valid (self : Validator) (value : FieldValue) (path : FieldPath) :
    List ValidationError :=
  match value with
  | .one (.str s) =>
      if self.options.takesUuid s then []
      else [⟨.ID_FORMAT_VALID, "Invalid UUID: " ++ s, path⟩]
  | _ => []

/-- `_check_enum_values_known`. -/
def check_enum_values_known (values_by_number : List ℤ) (value : FieldValue) (path : FieldPath) :
    List ValidationError :=
  match value with
  | .one (.enum n) =>
      if n ∈ values_by_number then []
      else [⟨.NO_UNKNOWN_ENUM_VALUES, "Unknown enum value: " ++ toString n, path⟩]
  | _ => []

/-- `_check_mandatory_oneof_fields`. -/
def check_mandatory_oneof_fields (d : MessageDesc T) (m : Message) (path : FieldPath) :
    List ValidationError :=
  (d.oneofs.filter fun o ↦ .is_mandatory ∈ o.options ∧ d.whichOneof o.name m = none).map fun o ↦
    ⟨.MANDATORY_ONEOF_PRESENT, "Missing mandatory OneOf field: " ++ o.name, path⟩

/-- A field that the type of the message does not declare. -/
def unknownFields (d : MessageDesc T) (m : Message) : List (String × Value) :=
  m.filter fun f ↦ f.1 ∉ d.fields.map FieldDesc.name

/-- `_check_no_unknown_fields`. -/
def check_no_unknown_fields (lib : Library T) (d : MessageDesc T) (m : Message) (path : FieldPath) :
    List ValidationError :=
  (unknownFields d m).map fun f ↦
    ⟨.NO_UNKNOWN_FIELDS, "Unknown field " ++ lib.format_unknown_field f, path⟩

/-- The field gives the version of the ICD. -/
def IsVersion (fd : FieldDesc T) : Prop :=
  fd.kind = .string ∧ "icd_version".toList <:+: fd.name.toList

instance [DecidableEq T] (fd : FieldDesc T) : Decidable (IsVersion fd) :=
  inferInstanceAs (Decidable (_ ∧ _))

/-- `value.replace("_", " ")`. -/
def adjusted (value : String) : String :=
  String.ofList (value.toList.map fun c ↦ if c = '_' then ' ' else c)

/-- The version is supported, up to underscores.  A field without a value has no `replace`, and
neither have the elements of a repeated one. -/
def check_icd_version [DecidableEq T] (self : Validator) (fd : FieldDesc T) (value : FieldValue)
    (path : FieldPath) : Except String (List ValidationError) :=
  if .SUPPORTED_ICD_VERSION ∈ self.options.types ∧ IsVersion fd then
    match value with
    | .one (.str s) =>
        .ok (if adjusted s ∈ self.options.supported_icd_versions then []
          else [⟨.SUPPORTED_ICD_VERSION, "Unsupported ICD version: " ++ fd.name ++ ": " ++ s,
            path⟩])
    | .none => .error "AttributeError: 'NoneType' object has no attribute 'replace'"
    | _ => .error "AttributeError: 'RepeatedScalarContainer' object has no attribute 'replace'"
  else .ok []

/-- A mandatory field is there. -/
def check_present (type : ValidationType) (message : String) (value : FieldValue)
    (path : FieldPath) : List ValidationError :=
  match value with
  | .none => [⟨type, message, path⟩]
  | _ => []

/-- The part of `validate_field` that is about the value itself. -/
def check_field [DecidableEq T] (lib : Library T) (self : Validator) (t : T) (fd : FieldDesc T)
    (value : FieldValue) (path : FieldPath) : Except String (List ValidationError) := do
  let version ← self.check_icd_version fd value path
  return (if .MANDATORY_FIELDS_PRESENT ∈ self.options.types ∧ .is_mandatory ∈ fd.options ∧
        fd.label ≠ .repeated then
      check_present .MANDATORY_FIELDS_PRESENT ("Missing mandatory field: " ++ fd.name) value path
    else []) ++ version ++
    (if .MANDATORY_REPEATED_PRESENT ∈ self.options.types ∧ .is_mandatory ∈ fd.options ∧
        fd.label = .repeated then
      check_present .MANDATORY_REPEATED_PRESENT ("Missing mandatory repeated field: " ++ fd.name)
        value path
    else []) ++
    (if .ID_FORMAT_VALID ∈ self.options.types ∧ .is_ulid ∈ fd.options then
      self.check_ulid_format_valid value path
    else []) ++
    (if .ID_FORMAT_VALID ∈ self.options.types ∧ .is_uuid ∈ fd.options then
      self.check_uuid_format_valid value path
    else []) ++
    (if .NO_UNKNOWN_ENUM_VALUES ∈ self.options.types ∧ fd.kind = .enum then
      check_enum_values_known (lib.values_by_number t fd.name) value path
    else [])

/-- `desc.message_type.full_name.startswith("sapient_msg.")`. -/
def enters (lib : Library T) (t : T) : Bool :=
  "sapient_msg.".toList.isPrefixOf (lib.full_name t).toList

/-- The part of `validate_message` that is about the message itself. -/
def check_message (lib : Library T) (self : Validator) (t : T) (m : Message) (path : FieldPath) :
    List ValidationError :=
  (if .NO_UNKNOWN_FIELDS ∈ self.options.types then
    check_no_unknown_fields lib (lib.schema t) m path else []) ++
  if .MANDATORY_ONEOF_PRESENT ∈ self.options.types then
    check_mandatory_oneof_fields (lib.schema t) m path else []

mutual

/-- `validate_field`, of a field of `m`. -/
def validate_field [DecidableEq T] (lib : Library T) (self : Validator) (t : T)
    (fd : FieldDesc T) (m : Message) (path : FieldPath) : Except String (List ValidationError) := do
  let errors ← self.check_field lib t fd (fd.get m) path
  match fd.kind with
  | .message t' =>
      if enters lib t' then
        let nested ← collect (fun entry ↦
          self.validate_message lib t' entry.2.1 (path ++ entry.1)) (fd.entries m)
        return errors ++ nested
      else return errors
  | _ => return errors
termination_by 2 * sizeOf m
decreasing_by have := entry.2.2; omega

def validate_message [DecidableEq T] (lib : Library T) (self : Validator) (t : T) (m : Message)
    (path : FieldPath) : Except String (List ValidationError) := do
  let errors ← collect (fun fd ↦ self.validate_field lib t fd m (path ++ [fd.name]))
    (lib.schema t).fields
  return self.check_message lib t m path ++ errors
termination_by 2 * sizeOf m + 1

end

/-- `_check_message_timestamp_reasonable`, if it is to be performed. -/
def check_message_timestamp_reasonable (lib : Library T) (self : Validator) (m : Message)
    (received_time : ℤ) : Except String (List ValidationError) :=
  if .MESSAGE_TIMESTAMP_REASONABLE ∈ self.options.types then do
    let message_timedelta := (← lib.ToDatetime (m.sub "timestamp")) - received_time
    let (min_timedelta, max_timedelta) := self.options.message_timestamp_range
    return (if message_timedelta < min_timedelta then
        [⟨.MESSAGE_TIMESTAMP_REASONABLE,
          "Timestamp delta " ++ td_str message_timedelta ++ " < " ++ td_str min_timedelta, []⟩]
      else []) ++
      if message_timedelta > max_timedelta then
        [⟨.MESSAGE_TIMESTAMP_REASONABLE,
          "Timestamp delta " ++ td_str message_timedelta ++ " > " ++ td_str max_timedelta, []⟩]
      else []
  else .ok []

/-- The errors of a detection at `message_datetime`. -/
def detectionErrors (lib : Library T) (self : Validator) (message_datetime : ℤ) :
    List ValidationError :=
  match self.previous_detection_time with
  | none => []
  | some previous =>
      let detection_timedelta := message_datetime - previous
      (if 0 < detection_timedelta ∧ detection_timedelta < self.options.detection_minimum_gap then
        [⟨.DETECTION_TIMESTAMP_REASONABLE,
          "Detection time delta " ++ strTimedelta detection_timedelta ++ " too small", []⟩]
      else []) ++
      if detection_timedelta < 0 then
        [⟨.DETECTION_TIMESTAMP_REASONABLE, "Detection time " ++ lib.strDatetime message_datetime ++
          " earlier than previous " ++ lib.strDatetime previous, []⟩]
      else []

/-- `_check_detection_timestamp_reasonable`, if it is to be performed, with what is kept for the
next one. -/
def check_detection_timestamp_reasonable (lib : Library T) (self : Validator) (m : Message) :
    Except String (List ValidationError × Validator) :=
  if .DETECTION_TIMESTAMP_REASONABLE ∈ self.options.types ∧ m.has "detection_report" then do
    let message_datetime ← lib.ToDatetime (m.sub "timestamp")
    return (self.detectionErrors lib message_datetime,
      { self with previous_detection_time := some message_datetime })
  else .ok ([], self)

/-- `validate_sapient_message`.  If it raises, the connection is closed, and its validator is
not asked again. -/
def validate_sapient_message [DecidableEq T] (lib : Library T) (self : Validator) (t : T)
    (m : Message) (received_time : ℤ) : Except String (List ValidationError × Validator) := do
  let timestamp ← self.check_message_timestamp_reasonable lib m received_time
  let (detection, next) ← self.check_detection_timestamp_reasonable lib m
  let contents ← self.validate_message lib t m []
  return (timestamp ++ detection ++ contents, next)

def is_validation_required (self : Validator) : Bool := decide (0 < self.options.types.length)

/-! ## Faults -/

section Faults

variable {lib : Library T} {self : Validator}

/-- The faults of a message by itself, `path` leading to it. -/
inductive MessageFault (lib : Library T) (options : ValidationOptions) (t : T) (m : Message)
    (path : FieldPath) : ValidationError → Prop
  | unknown_field {f : String} {v : Value} (hon : .NO_UNKNOWN_FIELDS ∈ options.types)
      (hmem : (f, v) ∈ m) (hunknown : ∀ fd ∈ (lib.schema t).fields, fd.name ≠ f) :
      MessageFault lib options t m path
        ⟨.NO_UNKNOWN_FIELDS, "Unknown field " ++ lib.format_unknown_field (f, v), path⟩
  | missing_oneof {o : OneofDesc} (hon : .MANDATORY_ONEOF_PRESENT ∈ options.types)
      (ho : o ∈ (lib.schema t).oneofs) (hmandatory : .is_mandatory ∈ o.options)
      (hmissing : ∀ f v, (f, v) ∈ m → (lib.schema t).isMember o.name f = false) :
      MessageFault lib options t m path
        ⟨.MANDATORY_ONEOF_PRESENT, "Missing mandatory OneOf field: " ++ o.name, path⟩

/-- The faults of a field of a message, `path` leading to the field. -/
inductive FieldFault (lib : Library T) (options : ValidationOptions) (t : T) (fd : FieldDesc T)
    (m : Message) (path : FieldPath) : ValidationError → Prop
  | missing_field (hon : .MANDATORY_FIELDS_PRESENT ∈ options.types)
      (hmandatory : .is_mandatory ∈ fd.options) (hlabel : fd.label ≠ .repeated)
      (hmissing : ¬ fd.Present m) : FieldFault lib options t fd m path
        ⟨.MANDATORY_FIELDS_PRESENT, "Missing mandatory field: " ++ fd.name, path⟩
  | missing_repeated (hon : .MANDATORY_REPEATED_PRESENT ∈ options.types)
      (hmandatory : .is_mandatory ∈ fd.options) (hlabel : fd.label = .repeated)
      (hmissing : ¬ fd.Present m) : FieldFault lib options t fd m path
        ⟨.MANDATORY_REPEATED_PRESENT, "Missing mandatory repeated field: " ++ fd.name, path⟩
  | invalid_ulid {s : String} (hon : .ID_FORMAT_VALID ∈ options.types)
      (hulid : .is_ulid ∈ fd.options) (hvalue : fd.get m = .one (.str s))
      (hinvalid : options.takesUlid s = false) : FieldFault lib options t fd m path
        ⟨.ID_FORMAT_VALID, "Invalid ULID: " ++ s, path⟩
  | invalid_uuid {s : String} (hon : .ID_FORMAT_VALID ∈ options.types)
      (huuid : .is_uuid ∈ fd.options) (hvalue : fd.get m = .one (.str s))
      (hinvalid : options.takesUuid s = false) : FieldFault lib options t fd m path
        ⟨.ID_FORMAT_VALID, "Invalid UUID: " ++ s, path⟩
  | unknown_enum {n : ℤ} (hon : .NO_UNKNOWN_ENUM_VALUES ∈ options.types)
      (hkind : fd.kind = .enum) (hvalue : fd.get m = .one (.enum n))
      (hunknown : n ∉ lib.values_by_number t fd.name) : FieldFault lib options t fd m path
        ⟨.NO_UNKNOWN_ENUM_VALUES, "Unknown enum value: " ++ toString n, path⟩
  | unsupported_version {s : String} (hon : .SUPPORTED_ICD_VERSION ∈ options.types)
      (hversion : IsVersion fd) (hvalue : fd.get m = .one (.str s))
      (hunsupported : adjusted s ∉ options.supported_icd_versions) :
      FieldFault lib options t fd m path
        ⟨.SUPPORTED_ICD_VERSION, "Unsupported ICD version: " ++ fd.name ++ ": " ++ s, path⟩

/-- The faults of a message, without those of what is nested in it. -/
def Fault (lib : Library T) (options : ValidationOptions) (t : T) (m : Message) (path : FieldPath)
    (e : ValidationError) : Prop :=
  MessageFault lib options t m path e ∨
    ∃ fd ∈ (lib.schema t).fields, FieldFault lib options t fd m (path ++ [fd.name]) e

theorem mem_unknownFields {d : MessageDesc T} {m : Message} {f : String × Value} :
    f ∈ unknownFields d m ↔ f ∈ m ∧ ∀ fd ∈ d.fields, fd.name ≠ f.1 := by
  rw [unknownFields, List.mem_filter, decide_eq_true_iff, List.mem_map]
  simp only [not_exists, not_and]

theorem whichOneof_eq_none_iff {d : MessageDesc T} {oneof : String} {m : Message} :
    d.whichOneof oneof m = none ↔ ∀ f v, (f, v) ∈ m → d.isMember oneof f = false := by
  rw [MessageDesc.whichOneof, Option.map_eq_none_iff, List.find?_eq_none, Prod.forall]
  simp only [Bool.not_eq_true]

theorem mem_check_message {t : T} {m : Message} {path : FieldPath} {e : ValidationError} :
    e ∈ self.check_message lib t m path ↔ MessageFault lib self.options t m path e := by
  simp only [check_message, List.mem_append, List.mem_ite_nil_right, check_no_unknown_fields,
    check_mandatory_oneof_fields, List.mem_map, mem_unknownFields, List.mem_filter,
    decide_eq_true_iff, whichOneof_eq_none_iff]
  constructor
  · rintro (⟨hon, ⟨f, v⟩, ⟨hmem, hunknown⟩, rfl⟩ | ⟨hon, o, ⟨ho, hmandatory, hmissing⟩, rfl⟩)
    · exact .unknown_field hon hmem hunknown
    · exact .missing_oneof hon ho hmandatory hmissing
  · intro h
    cases h with
    | unknown_field hon hmem hunknown => exact Or.inl ⟨hon, _, ⟨hmem, hunknown⟩, rfl⟩
    | missing_oneof hon ho hmandatory hmissing =>
        exact Or.inr ⟨hon, _, ⟨ho, hmandatory, hmissing⟩, rfl⟩

theorem mem_check_present {type : ValidationType} {message : String} {value : FieldValue}
    {path : FieldPath} {e : ValidationError} : e ∈ check_present type message value path ↔
      value = .none ∧ e = ⟨type, message, path⟩ := by
  unfold check_present
  split
  · simp
  · rename_i hvalue
    exact iff_of_false List.not_mem_nil fun h ↦ hvalue h.1

theorem mem_check_ulid_format_valid {value : FieldValue} {path : FieldPath} {e : ValidationError} :
    e ∈ self.check_ulid_format_valid value path ↔ ∃ s, value = .one (.str s) ∧
      self.options.takesUlid s = false ∧ e = ⟨.ID_FORMAT_VALID, "Invalid ULID: " ++ s, path⟩ := by
  unfold check_ulid_format_valid
  split
  · rename_i s
    simp
  · rename_i hvalue
    exact iff_of_false List.not_mem_nil fun ⟨s, hs, _⟩ ↦ hvalue s hs

theorem mem_check_uuid_format_valid {value : FieldValue} {path : FieldPath} {e : ValidationError} :
    e ∈ self.check_uuid_format_valid value path ↔ ∃ s, value = .one (.str s) ∧
      self.options.takesUuid s = false ∧ e = ⟨.ID_FORMAT_VALID, "Invalid UUID: " ++ s, path⟩ := by
  unfold check_uuid_format_valid
  split
  · rename_i s
    simp
  · rename_i hvalue
    exact iff_of_false List.not_mem_nil fun ⟨s, hs, _⟩ ↦ hvalue s hs

theorem mem_check_enum_values_known {values_by_number : List ℤ} {value : FieldValue}
    {path : FieldPath} {e : ValidationError} :
    e ∈ check_enum_values_known values_by_number value path ↔
      ∃ n, value = .one (.enum n) ∧ n ∉ values_by_number ∧
        e = ⟨.NO_UNKNOWN_ENUM_VALUES, "Unknown enum value: " ++ toString n, path⟩ := by
  unfold check_enum_values_known
  split
  · rename_i n
    simp
  · rename_i hvalue
    exact iff_of_false List.not_mem_nil fun ⟨n, hn, _⟩ ↦ hvalue n hn

end Faults

section Versions

variable [DecidableEq T] {self : Validator} {fd : FieldDesc T} {value : FieldValue}
  {path : FieldPath}

/-- What is found at the version, if nothing is raised. -/
theorem mem_check_icd_version {errors : List ValidationError}
    (h : self.check_icd_version fd value path = .ok errors) (e : ValidationError) :
    e ∈ errors ↔ .SUPPORTED_ICD_VERSION ∈ self.options.types ∧ IsVersion fd ∧
      ∃ s, value = .one (.str s) ∧ adjusted s ∉ self.options.supported_icd_versions ∧
        e = ⟨.SUPPORTED_ICD_VERSION, "Unsupported ICD version: " ++ fd.name ++ ": " ++ s,
          path⟩ := by
  unfold check_icd_version at h
  split at h
  · rename_i hon
    split at h
    · cases h
      simp [hon]
    · cases h
    · cases h
  · rename_i hoff
    cases h
    exact iff_of_false List.not_mem_nil fun ⟨hon, hversion, _⟩ ↦ hoff ⟨hon, hversion⟩

/-- The version can be checked of a single text alone. -/
theorem check_icd_version_fails_iff :
    (∃ text, self.check_icd_version fd value path = .error text) ↔
      .SUPPORTED_ICD_VERSION ∈ self.options.types ∧ IsVersion fd ∧ ∀ s, value ≠ .one (.str s) := by
  unfold check_icd_version
  split
  · rename_i hon
    rw [iff_true_intro hon.1, iff_true_intro hon.2, true_and, true_and]
    split
    · rename_i s
      exact iff_of_false (fun ⟨_, h⟩ ↦ nomatch h) fun h ↦ h s rfl
    · exact iff_of_true ⟨_, rfl⟩ nofun
    · rename_i hvalue _
      exact iff_of_true ⟨_, rfl⟩ hvalue
  · rename_i hoff
    exact iff_of_false (fun ⟨_, h⟩ ↦ nomatch h) fun ⟨hon, hversion, _⟩ ↦ hoff ⟨hon, hversion⟩

end Versions

/-! ## A walk through the message -/

section Walk

variable [DecidableEq T] {lib : Library T} {self : Validator}

/-- What is checked at one site. -/
def check_site (lib : Library T) (self : Validator) (site : Site T) :
    Except String (List ValidationError) :=
  match site.field with
  | none => .ok (self.check_message lib site.type site.message site.path)
  | some fd => self.check_field lib site.type fd (fd.get site.message) site.path

/-- The errors of a message are collected on a walk through it. -/
theorem validate_message_eq (t : T) (m : Message) (path : FieldPath) :
    self.validate_message lib t m path =
      collect (self.check_site lib) (sites lib.schema (enters lib) t m path) := by
  induction hsize : sizeOf m using Nat.strong_induction_on generalizing t m path with
  | _ n ih =>
      rw [validate_message, sites, collect, collect_flatMap]
      -- what is found at a field and below it
      have hfield : ∀ fd ∈ (lib.schema t).fields,
          self.validate_field lib t fd m (path ++ [fd.name]) =
            collect (self.check_site lib) (⟨path ++ [fd.name], t, m, some fd⟩ ::
              match fd.kind with
              | .message t' =>
                  if enters lib t' then
                    (fd.entries m).flatMap fun entry ↦ sites lib.schema (enters lib) t' entry.2.1
                      (path ++ [fd.name] ++ entry.1)
                  else []
              | _ => []) := by
        intro fd _
        rw [validate_field, collect]
        refine congrArg (self.check_field lib t fd (fd.get m) (path ++ [fd.name]) >>= ·) ?_
        funext errors
        cases fd.kind with
        | message t' =>
            dsimp only
            split
            · rw [collect_flatMap, collect_congr fun entry _ ↦ ih _ (hsize ▸ entry.2.2) t' _ _ rfl]
            · exact congrArg Except.ok (List.append_nil errors).symm
        | _ => exact congrArg Except.ok (List.append_nil errors).symm
      rw [collect_congr hfield]
      rfl

/-- What is found at a field, if nothing is raised, are its faults. -/
theorem mem_check_field {t : T} {fd : FieldDesc T} {m : Message} {path : FieldPath}
    {errors : List ValidationError} (h : self.check_field lib t fd (fd.get m) path = .ok errors)
    (e : ValidationError) : e ∈ errors ↔ FieldFault lib self.options t fd m path e := by
  obtain ⟨version, hversion, h⟩ := bind_eq_ok.mp h
  cases h
  simp only [List.mem_append, mem_check_icd_version hversion,
    List.mem_ite_nil_right, mem_check_present,
    mem_check_ulid_format_valid, mem_check_uuid_format_valid, mem_check_enum_values_known,
    FieldDesc.get_eq_none_iff]
  constructor
  · rintro (((((⟨⟨hon, hmandatory, hlabel⟩, hmissing, rfl⟩ |
      ⟨hon, hversion, s, hvalue, hunsupported, rfl⟩) |
      ⟨⟨hon, hmandatory, hlabel⟩, hmissing, rfl⟩) |
      ⟨⟨hon, hulid⟩, s, hvalue, hinvalid, rfl⟩) |
      ⟨⟨hon, huuid⟩, s, hvalue, hinvalid, rfl⟩) |
      ⟨⟨hon, hkind⟩, n, hvalue, hunknown, rfl⟩)
    · exact .missing_field hon hmandatory hlabel hmissing
    · exact .unsupported_version hon hversion hvalue hunsupported
    · exact .missing_repeated hon hmandatory hlabel hmissing
    · exact .invalid_ulid hon hulid hvalue hinvalid
    · exact .invalid_uuid hon huuid hvalue hinvalid
    · exact .unknown_enum hon hkind hvalue hunknown
  · intro h
    cases h with
    | missing_field hon hmandatory hlabel hmissing =>
        exact Or.inl (Or.inl (Or.inl (Or.inl (Or.inl ⟨⟨hon, hmandatory, hlabel⟩, hmissing, rfl⟩))))
    | unsupported_version hon hversion hvalue hunsupported =>
        exact Or.inl (Or.inl (Or.inl (Or.inl (Or.inr
          ⟨hon, hversion, _, hvalue, hunsupported, rfl⟩))))
    | missing_repeated hon hmandatory hlabel hmissing =>
        exact Or.inl (Or.inl (Or.inl (Or.inr ⟨⟨hon, hmandatory, hlabel⟩, hmissing, rfl⟩)))
    | invalid_ulid hon hulid hvalue hinvalid =>
        exact Or.inl (Or.inl (Or.inr ⟨⟨hon, hulid⟩, _, hvalue, hinvalid, rfl⟩))
    | invalid_uuid hon huuid hvalue hinvalid =>
        exact Or.inl (Or.inr ⟨⟨hon, huuid⟩, _, hvalue, hinvalid, rfl⟩)
    | unknown_enum hon hkind hvalue hunknown =>
        exact Or.inr ⟨⟨hon, hkind⟩, _, hvalue, hunknown, rfl⟩

/-- Checking a field raises if it is a version that is not there, or is repeated. -/
theorem check_field_fails_iff {t : T} {fd : FieldDesc T} {value : FieldValue} {path : FieldPath} :
    (∃ text, self.check_field lib t fd value path = .error text) ↔
      .SUPPORTED_ICD_VERSION ∈ self.options.types ∧ IsVersion fd ∧ ∀ s, value ≠ .one (.str s) := by
  rw [← @check_icd_version_fails_iff _ _ self fd value path, check_field]
  cases self.check_icd_version fd value path with
  | ok errors => exact iff_of_false (fun ⟨_, h⟩ ↦ nomatch h) fun ⟨_, h⟩ ↦ nomatch h
  | error text => exact iff_of_true ⟨text, rfl⟩ ⟨text, rfl⟩

/-- Whatever the message: unless the validation raises, its errors are the faults of the message
and of the messages nested in it, each under the path that leads there, and nothing else. -/
theorem validate_message_faults {t : T} {m : Message} {path : FieldPath}
    {errors : List ValidationError} (h : self.validate_message lib t m path = .ok errors)
    (e : ValidationError) : e ∈ errors ↔ ∃ p t' m', Below lib.schema (enters lib) t m p t' m' ∧
      Fault lib self.options t' m' (path ++ p) e := by
  rw [validate_message_eq] at h
  rw [mem_of_collect h]
  constructor
  · rintro ⟨site, hsite, given, hgiven, he⟩
    obtain ⟨p, hbelow, hat⟩ := mem_sites_iff.mp hsite
    refine ⟨p, site.type, site.message, hbelow, ?_⟩
    rw [check_site] at hgiven
    rcases hat with ⟨hfield, hpath⟩ | ⟨fd, hfd, hfield, hpath⟩
    · rw [hfield] at hgiven
      cases hgiven
      rw [hpath] at he
      exact Or.inl (mem_check_message.mp he)
    · rw [hfield, hpath] at hgiven
      exact Or.inr ⟨fd, hfd, (mem_check_field hgiven e).mp he⟩
  · rintro ⟨p, t', m', hbelow, hfault | ⟨fd, hfd, hfault⟩⟩
    · exact ⟨⟨path ++ p, t', m', none⟩, mem_sites_iff.mpr ⟨p, hbelow, Or.inl ⟨rfl, rfl⟩⟩, _, rfl,
        mem_check_message.mpr hfault⟩
    · have hsite : ⟨path ++ p ++ [fd.name], t', m', some fd⟩ ∈
          sites lib.schema (enters lib) t m path :=
        mem_sites_iff.mpr ⟨p, hbelow, Or.inr ⟨fd, hfd, rfl, rfl⟩⟩
      cases hgiven : self.check_site lib ⟨path ++ p ++ [fd.name], t', m', some fd⟩ with
      | ok given => exact ⟨_, hsite, given, hgiven, (mem_check_field hgiven e).mpr hfault⟩
      | error text =>
          obtain ⟨text', hfails⟩ := collect_fails_iff.mpr ⟨_, hsite, text, hgiven⟩
          exact absurd (h.symm.trans hfails) nofun

/-- The schema of BSI Flex 335 v2.0, with the numbers of two of its enumerations. -/
def flexLibrary : Library Sapient.MessageType where
  schema := Sapient.schema
  full_name t :=
    if t = .Timestamp then "google.protobuf.Timestamp" else "sapient_msg.bsi_flex_335_v2_0"
  values_by_number _ f :=
    if f = "system" then [0, 1, 2, 3, 5] else if f = "info" then [0, 1, 2] else []
  ToDatetime m := .ok (m.num "seconds" * 1000000 + m.num "nanos" / 1000)
  strDatetime := toString
  format_unknown_field f := "number: " ++ f.1

/-- A validator that performs all types but two. -/
def strict : Validator where
  options :=
    { types := [.MANDATORY_FIELDS_PRESENT, .MANDATORY_ONEOF_PRESENT, .MANDATORY_REPEATED_PRESENT,
        .NO_UNKNOWN_FIELDS, .NO_UNKNOWN_ENUM_VALUES, .ID_FORMAT_VALID,
        .DETECTION_TIMESTAMP_REASONABLE]
      strict_id_format := true
      message_timestamp_range := (-900000, 100000)
      detection_minimum_gap := 80000
      supported_icd_versions := [] }
  previous_detection_time := none

/-- A status report of an unknown system, with an unknown field. -/
def unknownStatus : Message :=
  [("timestamp", .msg []), ("node_id", .str "6a24a9c1-8214-415a-8927-50099e086ad4"),
    ("status_report", .msg [("report_id", .str "01H7DCESBYA6QTKFMY6FD7WE6T"),
      ("system", .enum 4), ("info", .enum 1), ("mode", .str "default"), ("99", .int 3)])]

theorem validate_message_faults_unknownStatus :
    ∃ errors : List ValidationError, errors.map ValidationError.full_str =
        ["status_report (no unknown fields): Unknown field number: 99",
          "status_report.system (no unknown enum values): Unknown enum value: 4"] ∧
      ∀ e, e ∈ errors ↔ ∃ p t' m',
        Below flexLibrary.schema (enters flexLibrary) .SapientMessage unknownStatus p t' m' ∧
          Fault flexLibrary strict.options t' m' ([] ++ p) e :=
  ⟨[⟨.NO_UNKNOWN_FIELDS, "Unknown field number: 99", ["status_report"]⟩,
      ⟨.NO_UNKNOWN_ENUM_VALUES, "Unknown enum value: 4", ["status_report", "system"]⟩],
    by decide +kernel, validate_message_faults (by decide +kernel)⟩

/-- Validating a message raises exactly if the versions of the ICD are checked and somewhere in
the message a field that gives one does not have a single text for its value. -/
theorem validate_message_raises_iff {t : T} {m : Message} {path : FieldPath} :
    (∃ text, self.validate_message lib t m path = .error text) ↔
      .SUPPORTED_ICD_VERSION ∈ self.options.types ∧
        ∃ p t' m', Below lib.schema (enters lib) t m p t' m' ∧
          ∃ fd ∈ (lib.schema t').fields, IsVersion fd ∧ ∀ s, fd.get m' ≠ .one (.str s) := by
  rw [validate_message_eq, collect_fails_iff]
  constructor
  · rintro ⟨site, hsite, text, htext⟩
    obtain ⟨p, hbelow, hat⟩ := mem_sites_iff.mp hsite
    rw [check_site] at htext
    rcases hat with ⟨hfield, -⟩ | ⟨fd, hfd, hfield, -⟩
    · rw [hfield] at htext
      cases htext
    · rw [hfield] at htext
      obtain ⟨hon, hversion, hvalue⟩ := check_field_fails_iff.mp ⟨text, htext⟩
      exact ⟨hon, p, _, _, hbelow, fd, hfd, hversion, hvalue⟩
  · rintro ⟨hon, p, t', m', hbelow, fd, hfd, hversion, hvalue⟩
    have hfails : ∃ text, self.check_field lib t' fd (fd.get m') (path ++ p ++ [fd.name]) =
        .error text := check_field_fails_iff.mpr ⟨hon, hversion, hvalue⟩
    exact ⟨⟨path ++ p ++ [fd.name], t', m', some fd⟩,
      mem_sites_iff.mpr ⟨p, hbelow, Or.inr ⟨fd, hfd, rfl, rfl⟩⟩, hfails⟩

end Walk

/-! ## The types of validation -/

section Types

variable {lib : Library T} {self : Validator}

/-- Of the types of validation, only some are performed. -/
def only (self : Validator) (types : List ValidationType) : Validator :=
  { self with options := { self.options with types := types } }

/-- The errors of some types. -/
def ofTypes (types : List ValidationType) (errors : List ValidationError) :
    List ValidationError := errors.filter fun e ↦ decide (e.type ∈ types)

theorem ofTypes_append (types : List ValidationType) (errors errors' : List ValidationError) :
    ofTypes types (errors ++ errors') = ofTypes types errors ++ ofTypes types errors' :=
  List.filter_append _ _

theorem ofTypes_of_mem {types : List ValidationType} {type : ValidationType}
    (htype : type ∈ types) {errors : List ValidationError} (herrors : ∀ e ∈ errors, e.type = type) :
    ofTypes types errors = errors :=
  List.filter_eq_self.mpr fun e he ↦ decide_eq_true ((herrors e he).symm ▸ htype)

theorem ofTypes_of_notMem {types : List ValidationType} {type : ValidationType}
    (htype : type ∉ types) {errors : List ValidationError} (herrors : ∀ e ∈ errors, e.type = type) :
    ofTypes types errors = [] :=
  List.filter_eq_nil_iff.mpr fun e he h ↦ htype (herrors e he ▸ of_decide_eq_true h)

/-- A check of one type is left out or stays as it is. -/
theorem ofTypes_ite {types : List ValidationType} (hsub : types ⊆ self.options.types)
    {type : ValidationType} {p : Prop} [Decidable p] {errors : List ValidationError}
    (herrors : ∀ e ∈ errors, e.type = type) :
    ofTypes types (if type ∈ self.options.types ∧ p then errors else []) =
      if type ∈ types ∧ p then errors else [] := by
  by_cases hp : type ∈ self.options.types ∧ p
  · rw [if_pos hp]
    by_cases htype : type ∈ types
    · rw [if_pos ⟨htype, hp.2⟩, ofTypes_of_mem htype herrors]
    · rw [if_neg fun h ↦ htype h.1, ofTypes_of_notMem htype herrors]
  · rw [if_neg hp, if_neg fun h ↦ hp ⟨hsub h.1, h.2⟩]
    rfl

theorem type_of_mem_check_present {type : ValidationType} {message : String} {value : FieldValue}
    {path : FieldPath} : ∀ e ∈ check_present type message value path, e.type = type := by
  intro e he
  obtain ⟨-, rfl⟩ := mem_check_present.mp he
  rfl

theorem ofTypes_check_message {types : List ValidationType} (hsub : types ⊆ self.options.types)
    (t : T) (m : Message) (path : FieldPath) :
    ofTypes types (self.check_message lib t m path) =
      (self.only types).check_message lib t m path := by
  have hunknown : ∀ e ∈ check_no_unknown_fields lib (lib.schema t) m path,
      e.type = .NO_UNKNOWN_FIELDS := by
    intro e he
    obtain ⟨f, -, rfl⟩ := List.mem_map.mp he
    rfl
  have honeof : ∀ e ∈ check_mandatory_oneof_fields (lib.schema t) m path,
      e.type = .MANDATORY_ONEOF_PRESENT := by
    intro e he
    obtain ⟨o, -, rfl⟩ := List.mem_map.mp he
    rfl
  have hfirst := ofTypes_ite hsub (p := True) hunknown
  have hsecond := ofTypes_ite hsub (p := True) honeof
  simp only [and_true] at hfirst hsecond
  rw [check_message, ofTypes_append, hfirst, hsecond]
  rfl

variable [DecidableEq T]

theorem check_icd_version_types {types : List ValidationType} (hsub : types ⊆ self.options.types)
    {fd : FieldDesc T} {value : FieldValue} {path : FieldPath} {errors : List ValidationError}
    (h : self.check_icd_version fd value path = .ok errors) :
    (self.only types).check_icd_version fd value path = .ok (ofTypes types errors) := by
  have htype : ∀ e ∈ errors, e.type = .SUPPORTED_ICD_VERSION := by
    intro e he
    obtain ⟨-, -, s, -, -, rfl⟩ := (mem_check_icd_version h e).mp he
    rfl
  unfold check_icd_version at h ⊢
  by_cases hon : .SUPPORTED_ICD_VERSION ∈ types
  · rw [ofTypes_of_mem hon htype, ← h]
    exact if_congr (and_congr_left' (iff_of_true hon (hsub hon))) rfl rfl
  · rw [ofTypes_of_notMem hon htype]
    exact if_neg fun h' ↦ hon h'.1

theorem check_field_types {types : List ValidationType} (hsub : types ⊆ self.options.types)
    {t : T} {fd : FieldDesc T} {value : FieldValue} {path : FieldPath}
    {errors : List ValidationError} (h : self.check_field lib t fd value path = .ok errors) :
    (self.only types).check_field lib t fd value path = .ok (ofTypes types errors) := by
  obtain ⟨version, hversion, h⟩ := bind_eq_ok.mp h
  cases h
  have hulid : ∀ e ∈ self.check_ulid_format_valid value path, e.type = .ID_FORMAT_VALID := by
    intro e he
    obtain ⟨s, -, -, rfl⟩ := mem_check_ulid_format_valid.mp he
    rfl
  have huuid : ∀ e ∈ self.check_uuid_format_valid value path, e.type = .ID_FORMAT_VALID := by
    intro e he
    obtain ⟨s, -, -, rfl⟩ := mem_check_uuid_format_valid.mp he
    rfl
  have henum : ∀ e ∈ check_enum_values_known (lib.values_by_number t fd.name) value path,
      e.type = .NO_UNKNOWN_ENUM_VALUES := by
    intro e he
    obtain ⟨n, -, -, rfl⟩ := mem_check_enum_values_known.mp he
    rfl
  refine bind_ok_of (check_icd_version_types hsub hversion) (congrArg Except.ok ?_)
  simp only [ofTypes_append, ofTypes_ite hsub type_of_mem_check_present, ofTypes_ite hsub hulid,
    ofTypes_ite hsub huuid, ofTypes_ite hsub henum]
  rfl

theorem validate_message_types {types : List ValidationType} (hsub : types ⊆ self.options.types)
    {t : T} {m : Message} {path : FieldPath} {errors : List ValidationError}
    (h : self.validate_message lib t m path = .ok errors) :
    (self.only types).validate_message lib t m path = .ok (ofTypes types errors) := by
  rw [validate_message_eq] at h ⊢
  refine collect_filter (fun site _ given hgiven ↦ ?_) h
  rw [check_site] at hgiven ⊢
  cases hfield : site.field with
  | none =>
      rw [hfield] at hgiven
      cases hgiven
      exact congrArg Except.ok (ofTypes_check_message hsub _ _ _).symm
  | some fd =>
      rw [hfield] at hgiven
      exact check_field_types hsub hgiven

/-- The contents of a message are validated without regard to the messages before it. -/
theorem validate_message_congr {self' : Validator} (h : self'.options = self.options) (t : T)
    (m : Message) (path : FieldPath) :
    self'.validate_message lib t m path = self.validate_message lib t m path := by
  obtain ⟨options, previous⟩ := self
  obtain ⟨options', previous'⟩ := self'
  cases h
  rw [validate_message_eq, validate_message_eq]
  refine collect_congr fun site _ ↦ ?_
  obtain ⟨p, t', m', field⟩ := site
  cases field <;> rfl

end Types

/-! ## Timestamps -/

section Timestamps

variable {lib : Library T} {self : Validator}

theorem type_of_timestamp {m : Message} {received_time : ℤ} {errors : List ValidationError}
    (h : self.check_message_timestamp_reasonable lib m received_time = .ok errors) :
    ∀ e ∈ errors, e.type = .MESSAGE_TIMESTAMP_REASONABLE := by
  rw [check_message_timestamp_reasonable] at h
  split at h
  · obtain ⟨dt, -, h⟩ := bind_eq_ok.mp h
    cases h
    intro e he
    simp only [List.mem_append, List.mem_ite_nil_right, List.mem_singleton] at he
    rcases he with ⟨-, rfl⟩ | ⟨-, rfl⟩ <;> rfl
  · cases h
    exact fun _ he ↦ absurd he List.not_mem_nil

/-- A detection at `time` follows one at `previous`: at the same time, or at least `gap` later. -/
def Paced (gap previous time : ℤ) : Prop :=
  previous = time ∨ previous < time ∧ previous + gap ≤ time

instance (gap previous time : ℤ) : Decidable (Paced gap previous time) :=
  inferInstanceAs (Decidable (_ ∨ _))

theorem type_of_detectionErrors {time : ℤ} :
    ∀ e ∈ self.detectionErrors lib time, e.type = .DETECTION_TIMESTAMP_REASONABLE := by
  unfold detectionErrors
  split
  · exact fun _ he ↦ absurd he List.not_mem_nil
  · intro e he
    simp only [List.mem_append, List.mem_ite_nil_right, List.mem_singleton] at he
    rcases he with ⟨-, rfl⟩ | ⟨-, rfl⟩ <;> rfl

theorem detectionErrors_eq_nil_iff {time : ℤ} : self.detectionErrors lib time = [] ↔
    ∀ previous ∈ self.previous_detection_time,
      Paced self.options.detection_minimum_gap previous time := by
  unfold detectionErrors
  cases self.previous_detection_time with
  | none => exact iff_of_true rfl nofun
  | some previous =>
      simp only [List.append_eq_nil_iff, ite_eq_right_iff, List.cons_ne_nil, imp_false, not_and,
        Option.mem_some_iff, forall_eq', Paced]
      omega

/-- The time of a message, if it is a detection. -/
def detectionTime (lib : Library T) (m : Message) : Option ℤ :=
  if m.has "detection_report" then (lib.ToDatetime (m.sub "timestamp")).toOption else none

/-- What is kept of the detections, if only some types of validation are performed. -/
structure Follows (types : List ValidationType) (V V' : Validator) : Prop where
  options : V'.options = (V.only types).options
  previous : .DETECTION_TIMESTAMP_REASONABLE ∈ types →
    V'.previous_detection_time = V.previous_detection_time

theorem check_message_timestamp_types {types : List ValidationType}
    (hsub : types ⊆ self.options.types) {self' : Validator} (hfollows : Follows types self self')
    {m : Message} {received_time : ℤ} {errors : List ValidationError}
    (h : self.check_message_timestamp_reasonable lib m received_time = .ok errors) :
    self'.check_message_timestamp_reasonable lib m received_time =
      .ok (ofTypes types errors) := by
  obtain ⟨options, previous⟩ := self'
  cases hfollows.options
  have htype := type_of_timestamp h
  by_cases hon : .MESSAGE_TIMESTAMP_REASONABLE ∈ types
  · rw [ofTypes_of_mem hon htype, ← h]
    exact if_congr (iff_of_true hon (hsub hon)) rfl rfl
  · rw [ofTypes_of_notMem hon htype]
    exact if_neg hon

theorem check_detection_timestamp_types {types : List ValidationType}
    (hsub : types ⊆ self.options.types) {self' : Validator} (hfollows : Follows types self self')
    {m : Message} {errors : List ValidationError} {next : Validator}
    (h : self.check_detection_timestamp_reasonable lib m = .ok (errors, next)) :
    ∃ next', self'.check_detection_timestamp_reasonable lib m =
      .ok (ofTypes types errors, next') ∧ next.options = self.options ∧
      Follows types next next' := by
  obtain ⟨options, previous⟩ := self'
  obtain ⟨hoptions, hprevious⟩ := hfollows
  cases hoptions
  have htype : ∀ e ∈ errors, e.type = .DETECTION_TIMESTAMP_REASONABLE := by
    rw [check_detection_timestamp_reasonable] at h
    split at h
    · obtain ⟨time, -, h⟩ := bind_eq_ok.mp h
      cases h
      exact type_of_detectionErrors
    · cases h
      exact fun _ he ↦ absurd he List.not_mem_nil
  by_cases hon : .DETECTION_TIMESTAMP_REASONABLE ∈ types
  · cases hprevious hon
    rw [ofTypes_of_mem hon htype]
    rw [check_detection_timestamp_reasonable] at h ⊢
    by_cases hhas : m.has "detection_report" = true
    · rw [if_pos ⟨hsub hon, hhas⟩] at h
      rw [if_pos ⟨hon, hhas⟩]
      obtain ⟨time, htime, h⟩ := bind_eq_ok.mp h
      cases h
      exact ⟨_, bind_ok_of htime rfl, rfl, rfl, fun _ ↦ rfl⟩
    · rw [if_neg fun h' ↦ hhas h'.2] at h
      rw [if_neg fun h' ↦ hhas h'.2]
      cases h
      exact ⟨_, rfl, rfl, rfl, fun _ ↦ rfl⟩
  · rw [ofTypes_of_notMem hon htype]
    refine ⟨_, if_neg fun h' ↦ hon h'.1, ?_⟩
    have hnext : next.options = self.options := by
      rw [check_detection_timestamp_reasonable] at h
      split at h
      · obtain ⟨time, -, h⟩ := bind_eq_ok.mp h
        cases h
        rfl
      · cases h
        rfl
    refine ⟨hnext, ?_, fun hon' ↦ absurd hon' hon⟩
    exact congrArg (fun o : ValidationOptions ↦ { o with types := types }) hnext.symm

end Timestamps

/-! ## One message after the other -/

section Runs

variable [DecidableEq T] {lib : Library T} {self : Validator}

/-- What a validator finds in the messages that it is asked about, each with the time at which
it was received. -/
def validate_all (lib : Library T) (t : T) :
    Validator → List (Message × ℤ) → Except String (List (List ValidationError))
  | _, [] => .ok []
  | self, (m, received_time) :: messages => do
      let (errors, next) ← self.validate_sapient_message lib t m received_time
      let others ← validate_all lib t next messages
      return errors :: others

theorem validate_all_cons_eq_ok {t : T} {m : Message} {received_time : ℤ}
    {messages : List (Message × ℤ)} {found : List (List ValidationError)} :
    validate_all lib t self ((m, received_time) :: messages) = .ok found ↔
      ∃ errors next others, self.validate_sapient_message lib t m received_time =
        .ok (errors, next) ∧ validate_all lib t next messages = .ok others ∧
        found = errors :: others := by
  rw [validate_all, bind_eq_ok]
  constructor
  · rintro ⟨⟨errors, next⟩, hfirst, h⟩
    obtain ⟨others, hothers, h⟩ := bind_eq_ok.mp h
    cases h
    exact ⟨errors, next, others, hfirst, hothers, rfl⟩
  · rintro ⟨errors, next, others, hfirst, hothers, rfl⟩
    exact ⟨(errors, next), hfirst, bind_ok_of hothers rfl⟩

/-- The parts of a validation. -/
theorem validate_sapient_message_eq_ok {t : T} {m : Message} {received_time : ℤ}
    {errors : List ValidationError} {next : Validator} :
    self.validate_sapient_message lib t m received_time = .ok (errors, next) ↔
      ∃ timestamp detection contents,
        self.check_message_timestamp_reasonable lib m received_time = .ok timestamp ∧
        self.check_detection_timestamp_reasonable lib m = .ok (detection, next) ∧
        self.validate_message lib t m [] = .ok contents ∧
        errors = timestamp ++ detection ++ contents := by
  rw [validate_sapient_message, bind_eq_ok]
  constructor
  · rintro ⟨timestamp, htimestamp, h⟩
    obtain ⟨⟨detection, next'⟩, hdetection, h⟩ := bind_eq_ok.mp h
    obtain ⟨contents, hcontents, h⟩ := bind_eq_ok.mp h
    cases h
    exact ⟨timestamp, detection, contents, htimestamp, hdetection, hcontents, rfl⟩
  · rintro ⟨timestamp, detection, contents, htimestamp, hdetection, hcontents, rfl⟩
    exact ⟨timestamp, htimestamp, bind_ok_of hdetection (bind_ok_of hcontents rfl)⟩

/-- What is found in the contents is not about detections. -/
theorem type_of_contents {t : T} {m : Message} {contents : List ValidationError}
    (h : self.validate_message lib t m [] = .ok contents) :
    ∀ e ∈ contents, e.type ≠ .DETECTION_TIMESTAMP_REASONABLE := by
  intro e he
  obtain ⟨p, t', m', -, hfault | ⟨fd, -, hfault⟩⟩ := (validate_message_faults h e).mp he
  · cases hfault <;> nofun
  · cases hfault <;> nofun

/-- What a validator keeps is the time of the last detection, and it says so if that one does
not follow the one before. -/
theorem detection_step {t : T} {m : Message} {received_time : ℤ} {errors : List ValidationError}
    {next : Validator} (hon : .DETECTION_TIMESTAMP_REASONABLE ∈ self.options.types)
    (h : self.validate_sapient_message lib t m received_time = .ok (errors, next)) :
    next = { self with
      previous_detection_time := (detectionTime lib m).or self.previous_detection_time } ∧
    ((∀ e ∈ errors, e.type ≠ .DETECTION_TIMESTAMP_REASONABLE) ↔
      ∀ time ∈ detectionTime lib m, ∀ previous ∈ self.previous_detection_time,
        Paced self.options.detection_minimum_gap previous time) := by
  obtain ⟨timestamp, detection, contents, htimestamp, hdetection, hcontents, rfl⟩ :=
    validate_sapient_message_eq_ok.mp h
  have hothers : (∀ e ∈ timestamp ++ detection ++ contents,
      e.type ≠ .DETECTION_TIMESTAMP_REASONABLE) ↔
        ∀ e ∈ detection, e.type ≠ .DETECTION_TIMESTAMP_REASONABLE := by
    constructor
    · exact fun h e he ↦ h e (List.mem_append_left _ (List.mem_append_right _ he))
    · intro h e he
      rcases List.mem_append.mp he with he | he
      · rcases List.mem_append.mp he with he | he
        · rw [type_of_timestamp htimestamp e he]
          nofun
        · exact h e he
      · exact type_of_contents hcontents e he
  rw [hothers]
  rw [check_detection_timestamp_reasonable] at hdetection
  by_cases hhas : m.has "detection_report" = true
  · rw [if_pos ⟨hon, hhas⟩] at hdetection
    obtain ⟨time, htime, hdetection⟩ := bind_eq_ok.mp hdetection
    cases hdetection
    have hsome : detectionTime lib m = some time := by
      rw [detectionTime, if_pos hhas, htime]
      rfl
    rw [hsome]
    refine ⟨rfl, ?_⟩
    simp only [Option.mem_some_iff, forall_eq']
    rw [← @detectionErrors_eq_nil_iff _ lib, List.eq_nil_iff_forall_not_mem]
    exact forall₂_congr fun e he ↦
      iff_of_false (fun h ↦ h (type_of_detectionErrors e he)) fun h ↦ h
  · rw [if_neg fun h ↦ hhas h.2] at hdetection
    cases hdetection
    have hnone : detectionTime lib m = none := if_neg hhas
    rw [hnone]
    exact ⟨rfl, iff_of_true (fun _ he ↦ absurd he List.not_mem_nil) nofun⟩

/-- In every run of a validator, it finds nothing wrong with the times of the detections exactly
if each of them follows the one before it, whatever else has come in between. -/
theorem detections_paced {t : T} {messages : List (Message × ℤ)}
    {found : List (List ValidationError)}
    (hon : .DETECTION_TIMESTAMP_REASONABLE ∈ self.options.types)
    (h : validate_all lib t self messages = .ok found) :
    (∀ errors ∈ found, ∀ e ∈ errors, e.type ≠ .DETECTION_TIMESTAMP_REASONABLE) ↔
      (self.previous_detection_time.toList ++
        messages.filterMap fun message ↦ detectionTime lib message.1).IsChain
          (Paced self.options.detection_minimum_gap) := by
  induction messages generalizing self found with
  | nil =>
      cases h
      refine iff_of_true (fun _ he ↦ absurd he List.not_mem_nil) ?_
      cases self.previous_detection_time <;> simp
  | cons message messages ih =>
      obtain ⟨m, received_time⟩ := message
      obtain ⟨errors, next, others, hfirst, hothers, rfl⟩ := validate_all_cons_eq_ok.mp h
      obtain ⟨hnext, hfine⟩ := detection_step hon hfirst
      have hon' : .DETECTION_TIMESTAMP_REASONABLE ∈ next.options.types := by
        rw [hnext]
        exact hon
      rw [List.forall_mem_cons, hfine, ih hon' hothers, hnext, List.filterMap_cons]
      dsimp only
      cases detectionTime lib m with
      | none => exact and_iff_right nofun
      | some time =>
          -- the time is compared with the last one, and is the one that the others follow
          rw [Option.some_or]
          cases self.previous_detection_time with
          | none => exact and_iff_right fun _ _ _ hprevious ↦ nomatch hprevious
          | some previous =>
              simp only [Option.mem_some_iff, forall_eq']
              exact List.isChain_cons_cons.symm

/-- A detection so many milliseconds from 1970 on. -/
def detectionAt (milliseconds : ℤ) : Message :=
  [("timestamp", .msg [("seconds", .int (milliseconds / 1000)),
    ("nanos", .int (milliseconds % 1000 * 1000000))]), ("detection_report", .msg [])]

/-- Two detections in too short a time. -/
theorem detections_paced_hasty :
    ¬ ([1000, 1050].map (· * 1000)).IsChain (Paced 80000) ∧
      ((∀ errors ∈ [[], [], [⟨.DETECTION_TIMESTAMP_REASONABLE,
          "Detection time delta 0:00:00.050000 too small", []⟩]],
          ∀ e ∈ errors, ValidationError.type e ≠ .DETECTION_TIMESTAMP_REASONABLE) ↔
        ((strict.only [.DETECTION_TIMESTAMP_REASONABLE]).previous_detection_time.toList ++
          [(detectionAt 1000, 0), (unknownStatus, 0), (detectionAt 1050, 0)].filterMap
            fun message : Message × ℤ ↦ detectionTime flexLibrary message.1).IsChain
              (Paced 80000)) :=
  ⟨by decide, @detections_paced _ _ flexLibrary (strict.only [.DETECTION_TIMESTAMP_REASONABLE])
    .SapientMessage _ _ (by decide) (by decide +kernel)⟩

theorem validate_sapient_message_types {types : List ValidationType}
    (hsub : types ⊆ self.options.types) {self' : Validator} (hfollows : Follows types self self')
    {t : T} {m : Message} {received_time : ℤ} {errors : List ValidationError} {next : Validator}
    (h : self.validate_sapient_message lib t m received_time = .ok (errors, next)) :
    ∃ next', self'.validate_sapient_message lib t m received_time =
      .ok (ofTypes types errors, next') ∧ next.options = self.options ∧
      Follows types next next' := by
  obtain ⟨timestamp, detection, contents, htimestamp, hdetection, hcontents, rfl⟩ :=
    validate_sapient_message_eq_ok.mp h
  obtain ⟨next', hdetection', hoptions, hnext⟩ :=
    check_detection_timestamp_types hsub hfollows hdetection
  refine ⟨next', validate_sapient_message_eq_ok.mpr ⟨_, _, _,
    check_message_timestamp_types hsub hfollows htimestamp, hdetection',
    (validate_message_congr hfollows.options t m []).trans (validate_message_types hsub hcontents),
    ?_⟩, hoptions, hnext⟩
  rw [ofTypes_append, ofTypes_append]

/-- The types of validation are independent: in every run of a validator that raises nothing,
one that performs only some of its types raises nothing either and finds in each message just
the errors of these types. -/
theorem types_independent {types : List ValidationType} (hsub : types ⊆ self.options.types)
    {t : T} {messages : List (Message × ℤ)} {found : List (List ValidationError)}
    (h : validate_all lib t self messages = .ok found) :
    validate_all lib t (self.only types) messages = .ok (found.map (ofTypes types)) := by
  have hrun : ∀ self', Follows types self self' →
      validate_all lib t self' messages = .ok (found.map (ofTypes types)) := by
    induction messages generalizing self found with
    | nil =>
        intro self' _
        cases h
        rfl
    | cons message messages ih =>
        obtain ⟨m, received_time⟩ := message
        obtain ⟨errors, next, others, hfirst, hothers, rfl⟩ := validate_all_cons_eq_ok.mp h
        intro self' hfollows
        obtain ⟨next', hfirst', hoptions, hnext⟩ :=
          validate_sapient_message_types hsub hfollows hfirst
        exact validate_all_cons_eq_ok.mpr ⟨_, next', _, hfirst',
          ih (hoptions ▸ hsub) hothers next' hnext, rfl⟩
  exact hrun _ ⟨rfl, fun _ ↦ rfl⟩

theorem types_independent_unknownStatus :
    validate_all flexLibrary .SapientMessage
        (strict.only [.NO_UNKNOWN_FIELDS, .DETECTION_TIMESTAMP_REASONABLE])
        [(unknownStatus, 0), (unknownStatus, 1)] =
      .ok (([[⟨.NO_UNKNOWN_FIELDS, "Unknown field number: 99", ["status_report"]⟩,
        ⟨.NO_UNKNOWN_ENUM_VALUES, "Unknown enum value: 4", ["status_report", "system"]⟩],
        [⟨.NO_UNKNOWN_FIELDS, "Unknown field number: 99", ["status_report"]⟩,
        ⟨.NO_UNKNOWN_ENUM_VALUES, "Unknown enum value: 4", ["status_report", "system"]⟩]]).map
          (ofTypes [.NO_UNKNOWN_FIELDS, .DETECTION_TIMESTAMP_REASONABLE])) :=
  types_independent (by decide) (by decide +kernel)

end Runs

end Validator

end Apex

end SensorFusion
