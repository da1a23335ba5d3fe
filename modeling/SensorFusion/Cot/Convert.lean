import SensorFusion.Cot.Xml
import SensorFusion.Lib.Except
import SensorFusion.Python.Number
import SensorFusion.Sapient.Schema

/-!
# From SAPIENT to Cursor on Target

`convert` and its table of handlers.  What can go wrong is an enumeration number without
a name: protobuf keeps such numbers, and `Name` raises for them.
-/

namespace SensorFusion.Cot

open Proto (Message)

/-- The `ValueError` of `EnumTypeWrapper.Name`. -/
structure Undeclared where
  enum : String
  number : ℤ
deriving DecidableEq, Repr

/-- `EnumTypeWrapper.Name`. -/
def enumName (enum : String) (names : List (ℤ × String)) (number : ℤ) : Except Undeclared Text :=
  match names.lookup number with
  | some name => .ok name.toList
  | none => .error ⟨enum, number⟩

/-! ## Tables -/

/-- `Registration.NodeType`. -/
def NODE_TYPES : List (ℤ × String) :=
  [(0, "NODE_TYPE_UNSPECIFIED"), (1, "NODE_TYPE_OTHER"), (2, "NODE_TYPE_RADAR"),
   (3, "NODE_TYPE_LIDAR"), (4, "NODE_TYPE_CAMERA"), (5, "NODE_TYPE_SEISMIC"),
   (6, "NODE_TYPE_ACOUSTIC"), (7, "NODE_TYPE_PROXIMITY_SENSOR"), (8, "NODE_TYPE_PASSIVE_RF"),
   (9, "NODE_TYPE_HUMAN"), (10, "NODE_TYPE_CHEMICAL"), (11, "NODE_TYPE_BIOLOGICAL"),
   (12, "NODE_TYPE_RADIATION"), (13, "NODE_TYPE_KINETIC"), (14, "NODE_TYPE_JAMMER"),
   (15, "NODE_TYPE_CYBER"), (16, "NODE_TYPE_LDEW"), (17, "NODE_TYPE_RFDEW"),
   (18, "NODE_TYPE_MOBILE_NODE"), (19, "NODE_TYPE_POINTABLE_NODE"),
   (20, "NODE_TYPE_FUSION_NODE")]

/-- `StatusReport.System`. -/
def SYSTEMS : List (ℤ × String) :=
  [(0, "SYSTEM_UNSPECIFIED"), (1, "SYSTEM_OK"), (2, "SYSTEM_WARNING"), (3, "SYSTEM_ERROR"),
   (5, "SYSTEM_GOODBYE")]

def NODE_TYPE_TO_COT : List (ℤ × String) :=
  [(2, "a-f-G-E-S-R"), (3, "a-f-G-E-S"), (4, "a-f-G-E-S-E"), (5, "a-f-G-E-S"), (6, "a-f-G-E-S"),
   (7, "a-f-G-E-S"), (8, "a-f-G-E-S-W"), (9, "a-f-G-U-C-I"), (10, "a-f-G-E-S"),
   (11, "a-f-G-E-S"), (12, "a-f-G-E-S"), (13, "a-f-G-E-V-A"), (14, "a-f-G-E-X-J"),
   (15, "a-f-G-U"), (16, "a-f-G-E-W-L"), (17, "a-f-G-E-W-D"), (18, "a-f-G-U"),
   (19, "a-f-G-E-S"), (20, "a-f-G-U-H"), (1, "a-f-G-U"), (0, "a-f-G-U")]

def DETECTION_DEFAULT_TYPE : String := "a-u-G"
def ALERT_DEFAULT_TYPE : String := "a-h-G"
def NODE_DEFAULT_TYPE : String := "a-f-G-U"

/-! ## The event -/

/-- A number with leading zeros. -/
def padded (width n : ℕ) : Text :=
  List.replicate (width - (Nat.toDigits 10 n).length) '0' ++ Nat.toDigits 10 n

/-- The date of a day counted from 1970-01-01. -/
def civil (days : ℕ) : ℕ × ℕ × ℕ :=
  let z := days + 719468
  let doe := z % 146097
  let yoe := (doe - doe / 1460 + doe / 36524 - doe / 146096) / 365
  let doy := doe - (365 * yoe + yoe / 4 - yoe / 100)
  let mp := (5 * doy + 2) / 153
  let month := if mp < 10 then mp + 3 else mp - 9
  let year := yoe + z / 146097 * 400
  (if month ≤ 2 then year + 1 else year, month, doy - (153 * mp + 2) / 5 + 1)

/-- `_utc` of a time in microseconds from 1970 on. -/
def utc (t : ℕ) : Text :=
  let s := t / 1000000
  let (year, month, day) := civil (s / 86400)
  padded 4 year ++ '-' :: padded 2 month ++ '-' :: padded 2 day ++ 'T' ::
    padded 2 (s / 3600 % 24) ++ ':' :: padded 2 (s / 60 % 60) ++ ':' :: padded 2 (s % 60) ++
    '.' :: padded 3 (t % 1000000 / 1000) ++ ['Z']

example : utc 1709210096789000 = "2024-02-29T12:34:56.789Z".toList := by decide

/-- A position: latitude, longitude and height, as the converter takes them. -/
structure Position where
  lat : PyFloat
  lon : PyFloat
  hae : PyFloat
deriving DecidableEq

/-- The attributes of an element. -/
def attribs (l : List (String × Text)) : List (Text × Text) := l.map fun a ↦ (a.1.toList, a.2)

/-- The element that `_build_cot` builds. -/
def cotEvent (uid cot_type : Text) (pos : Position) (callsign remarks : Text)
    (stale_seconds now : ℕ) : Element :=
  .mk "event".toList (attribs [("version", "2.0".toList), ("uid", uid), ("type", cot_type),
      ("time", utc now), ("start", utc now), ("stale", utc (now + stale_seconds * 1000000)),
      ("how", "m-g".toList)]) []
    [.mk "point".toList (attribs [("lat", pos.lat.format 7), ("lon", pos.lon.format 7),
        ("hae", pos.hae.format 3), ("ce", "9999999.0".toList), ("le", "9999999.0".toList)]) [] [],
      .mk "detail".toList [] []
        ([.mk "contact".toList (attribs [("callsign", callsign)]) [] [],
          .mk "__group".toList (attribs [("name", "Cyan".toList), ("role", "Team Member".toList)])
            [] [],
          .mk "precisionlocation".toList
            (attribs [("altsrc", "GPS".toList), ("geopointsrc", "GPS".toList)]) [] []] ++
        if remarks ≠ [] then [.mk "remarks".toList [] remarks []] else [])]

/-- The bytes of an event. -/
def document (event : Element) : List UInt8 :=
  encodeRefs "<?xml version=\"1.0\" encoding=\"UTF-8\" standalone=\"yes\"?>".toList ++
    tostring event

/-! ## Handlers -/

/-- `_location_from`: `x` is taken for the latitude and `y` for the longitude. -/
def locationFrom (loc : Message) : Option Position :=
  if loc.has "x" = true ∧ loc.has "y" = true then
    some ⟨loc.float "x", loc.float "y", if loc.has "z" then loc.float "z" else .fin 0⟩
  else none

/-- `s[:8]`. -/
def first8 (s : String) : Text := s.toList.take 8

/-- `s or t`. -/
def orElse (s t : Text) : Text := if s = [] then t else s

/-- `_registration_meta`. -/
def registrationMeta (m : Message) : Except Undeclared (Text × Text × Text) := do
  let r := m.sub "registration"
  let node_type := ((r.subs "node_definition").head?.map fun d ↦ d.num "node_type").getD 0
  let cot_type := (NODE_TYPE_TO_COT.lookup node_type).getD NODE_DEFAULT_TYPE
  let callsign := orElse (r.str "short_name").toList (r.str "name").toList
  let callsign := orElse callsign
    (((r.subs "config_data").head?.map fun c ↦ c.str "model").getD "").toList
  let callsign := orElse callsign ("node-".toList ++ first8 (m.str "node_id"))
  let name ← enumName "NodeType" NODE_TYPES node_type
  pure (cot_type.toList, callsign, "SAPIENT Registration · node_type=".toList ++ name)

/-- The location at a field of a part of the message, if the field is set. -/
def locationAt (content field : String) (m : Message) : Option Position :=
  if (m.sub content).has field then locationFrom ((m.sub content).sub field) else none

def statusReportMeta (m : Message) : Except Undeclared (Text × Text × Text) := do
  let s := m.sub "status_report"
  let name ← enumName "System" SYSTEMS (s.num "system")
  pure (NODE_DEFAULT_TYPE.toList, "node-".toList ++ first8 (m.str "node_id"),
    "SAPIENT StatusReport · system=".toList ++ name ++ " mode=".toList ++ (s.str "mode").toList)

/-- `m.detection_report.object_id or m.detection_report.report_id`. -/
def detectionId (m : Message) : Text :=
  orElse ((m.sub "detection_report").str "object_id").toList
    ((m.sub "detection_report").str "report_id").toList

def detectionReportMeta (m : Message) : Except Undeclared (Text × Text × Text) :=
  .ok (DETECTION_DEFAULT_TYPE.toList, "det-".toList ++ (detectionId m).take 8,
    "SAPIENT DetectionReport · node=".toList ++ first8 (m.str "node_id") ++ " report=".toList ++
      ((m.sub "detection_report").str "report_id").toList)

def alertMeta (m : Message) : Except Undeclared (Text × Text × Text) :=
  let a := m.sub "alert"
  .ok (ALERT_DEFAULT_TYPE.toList, "alert-".toList ++ first8 (a.str "alert_id"),
    "SAPIENT Alert · ".toList ++ orElse (a.str "description").toList "alert".toList)

/-- An entry of `_CONTENT_HANDLERS`. -/
structure Handler where
  loc_provider : Message → Option Position
  uid_fn : Message → Text
  meta_fn : Message → Except Undeclared (Text × Text × Text)
  stale_seconds : ℕ

/-- `_CONTENT_HANDLERS.get`. -/
def contentHandler : String → Option Handler
  | "registration" => some
      ⟨fun _ ↦ none, fun m ↦ (m.str "node_id").toList, registrationMeta, 300⟩
  | "status_report" => some
      ⟨locationAt "status_report" "node_location", fun m ↦ (m.str "node_id").toList,
        statusReportMeta, 300⟩
  | "detection_report" => some
      ⟨locationAt "detection_report" "location", fun m ↦ "det-".toList ++ detectionId m,
        detectionReportMeta, 600⟩
  | "alert" => some
      ⟨locationAt "alert" "location",
        fun m ↦ "alert-".toList ++ ((m.sub "alert").str "alert_id").toList, alertMeta, 900⟩
  | _ => none

/-! ## Conversion -/

/-- The fallback position. -/
structure Fallback where
  lat : Option PyFloat
  lon : Option PyFloat
  alt : Option PyFloat

/-- The fallback as a position, if it has both coordinates. -/
def Fallback.position (fb : Fallback) : Option Position :=
  match fb.lat, fb.lon with
  | some lat, some lon => some ⟨lat, lon, fb.alt.getD (.fin 0)⟩
  | _, _ => none

/-- The position that a handler finds for a message. -/
def Handler.position (h : Handler) (fb : Fallback) (m : Message) : Option Position :=
  (h.loc_provider m).or fb.position

/-- The handler of a message. -/
def handlerOf (m : Message) : Option Handler := (Sapient.content m).bind contentHandler

/-- The event that `convert` makes of a message. -/
def convertEvent (fb : Fallback) (now : ℕ) (m : Message) : Except Undeclared (Option Element) :=
  match handlerOf m with
  | none => .ok none
  | some h =>
      match h.position fb m with
      | none => .ok none
      | some pos => do
          let (cot_type, callsign, remarks) ← h.meta_fn m
          pure (some (cotEvent (h.uid_fn m) cot_type pos callsign remarks h.stale_seconds now))

/-- `convert`. -/
def convert (fb : Fallback) (now : ℕ) (m : Message) : Except Undeclared (Option (List UInt8)) :=
  (convertEvent fb now m).map (Option.map document)

/-! ## When a conversion raises -/

/-- The numbers in a message that `convert` asks the names of are declared. -/
def Named (m : Message) : Prop :=
  (Sapient.content m = some "registration" →
    (NODE_TYPES.lookup ((((m.sub "registration").subs "node_definition").head?.map
      fun d ↦ d.num "node_type").getD 0)).isSome) ∧
  (Sapient.content m = some "status_report" →
    (SYSTEMS.lookup ((m.sub "status_report").num "system")).isSome)

instance (m : Message) : Decidable (Named m) := inferInstanceAs (Decidable (_ ∧ _))

/-- There is a position for a message. -/
def Positioned (fb : Fallback) (m : Message) : Prop :=
  ∃ h pos, handlerOf m = some h ∧ h.position fb m = some pos

theorem enumName_ok_iff {enum : String} {names : List (ℤ × String)} {number : ℤ} :
    (∃ name, enumName enum names number = .ok name) ↔ (names.lookup number).isSome := by
  unfold enumName
  cases names.lookup number <;> simp

/-- A handler gives a meta exactly when the message is named. -/
theorem meta_ok_iff {m : Message} {h : Handler} (hh : handlerOf m = some h) :
    (∃ r, h.meta_fn m = .ok r) ↔ Named m := by
  obtain ⟨content, hcontent, hh⟩ := Option.bind_eq_some_iff.mp hh
  unfold contentHandler at hh
  unfold Named
  split at hh
  · -- a registration
    cases hh
    have hname := @enumName_ok_iff "NodeType" NODE_TYPES
      ((((m.sub "registration").subs "node_definition").head?.map fun d ↦ d.num "node_type").getD 0)
    simp only [hcontent, true_implies, Option.some.injEq, String.reduceEq, false_implies, and_true]
    rw [← hname]
    constructor
    · rintro ⟨r, hr⟩
      obtain ⟨name, hname, -⟩ := bind_eq_ok.mp hr
      exact ⟨name, hname⟩
    · rintro ⟨name, hname⟩
      exact ⟨_, bind_eq_ok.mpr ⟨name, hname, rfl⟩⟩
  · -- a status report
    cases hh
    have hname := @enumName_ok_iff "System" SYSTEMS ((m.sub "status_report").num "system")
    simp only [hcontent, true_implies, Option.some.injEq, String.reduceEq, false_implies, true_and]
    rw [← hname]
    constructor
    · rintro ⟨r, hr⟩
      obtain ⟨name, hname, -⟩ := bind_eq_ok.mp hr
      exact ⟨name, hname⟩
    · rintro ⟨name, hname⟩
      exact ⟨_, bind_eq_ok.mpr ⟨name, hname, rfl⟩⟩
  · cases hh
    refine iff_of_true ⟨_, rfl⟩ ?_
    simp [hcontent]
  · cases hh
    refine iff_of_true ⟨_, rfl⟩ ?_
    simp [hcontent]
  · cases hh

/-- `convert` raises exactly when there is a position to emit and a number without a
name. -/
theorem convert_ok_iff (fb : Fallback) (now : ℕ) (m : Message) :
    (∃ r, convert fb now m = .ok r) ↔ (Positioned fb m → Named m) := by
  unfold convert convertEvent Positioned
  cases hh : handlerOf m with
  | none => simp [Except.map]
  | some h =>
      cases hpos : h.position fb m with
      | none => simp [hpos, Except.map]
      | some pos =>
          have hmeta := meta_ok_iff hh
          simp only [Option.some.injEq, exists_and_left, exists_eq_left', hpos, exists_eq',
            true_implies]
          rw [← hmeta]
          cases h.meta_fn m with
          | error e => simp [bind, Except.bind, Except.map]
          | ok r => simp [bind, Except.bind, Except.map, pure, Except.pure]

/-- When there is a position, what is emitted is an event at that position. -/
theorem convertEvent_eq_of_position {fb : Fallback} {now : ℕ} {m : Message} {h : Handler}
    {pos : Position} {o : Option Element} (hh : handlerOf m = some h)
    (hpos : h.position fb m = some pos) (ho : convertEvent fb now m = .ok o) :
    ∃ uid cot_type callsign remarks stale_seconds,
      o = some (cotEvent uid cot_type pos callsign remarks stale_seconds now) := by
  unfold convertEvent at ho
  rw [hh] at ho
  dsimp only at ho
  rw [hpos] at ho
  obtain ⟨⟨cot_type, callsign, remarks⟩, -, ho⟩ := bind_eq_ok.mp ho
  cases ho
  exact ⟨_, _, _, _, _, rfl⟩

theorem positioned_of_convertEvent {fb : Fallback} {now : ℕ} {m : Message} {e : Element}
    (h : convertEvent fb now m = .ok (some e)) : Positioned fb m := by
  unfold convertEvent at h
  cases hh : handlerOf m with
  | none => rw [hh] at h; cases h
  | some hd =>
      rw [hh] at h
      dsimp only at h
      cases hpos : hd.position fb m with
      | none => rw [hpos] at h; cases h
      | some pos => exact ⟨hd, pos, hh, hpos⟩

/-- A message is emitted only if there is a position for it. -/
theorem positioned_of_convert {fb : Fallback} {now : ℕ} {m : Message} {doc : List UInt8}
    (h : convert fb now m = .ok (some doc)) : Positioned fb m := by
  obtain ⟨o, ho, hdoc⟩ := map_eq_ok.mp h
  cases o with
  | none => cases hdoc
  | some e => exact positioned_of_convertEvent ho

/-- If there is a position for a message then it is not skipped. -/
theorem convert_ne_none {fb : Fallback} {now : ℕ} {m : Message} (h : Positioned fb m) :
    convert fb now m ≠ .ok none := by
  intro hnone
  obtain ⟨hd, pos, hh, hpos⟩ := h
  obtain ⟨o, ho, hdoc⟩ := map_eq_ok.mp hnone
  obtain ⟨uid, cot_type, callsign, remarks, stale_seconds, rfl⟩ :=
    convertEvent_eq_of_position hh hpos ho
  cases hdoc

end SensorFusion.Cot
