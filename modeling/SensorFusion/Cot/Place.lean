import SensorFusion.Cot.Convert

/-!
# The point of an event

Where an event is put on the map.  `_location_from` is the one place that reads a
`Location`: it takes `x` for the latitude and `y` for the longitude, as the templates that
are sent do.
-/

namespace SensorFusion.Cot

open Proto (Message)

/-- `LOCATION_COORDINATE_SYSTEM_LAT_LNG_DEG_M`. -/
def LAT_LNG_DEG_M : ℤ := 1

/-- `LOCATION_COORDINATE_SYSTEM_UTM_M`. -/
def UTM_M : ℤ := 5

/-- The latitude and the longitude of the `point` of an event, as `float` reads them. -/
def Element.place (e : Element) : Option (PyFloat × PyFloat) := do
  let point ← e.find "point".toList
  let lat ← (← point.get "lat".toList).float?
  let lon ← (← point.get "lon".toList).float?
  pure (lat, lon)

/-- A latitude and a longitude in degrees. -/
def OnGlobe (lat lon : PyFloat) : Prop := lat.Within 90 ∧ lon.Within 180

instance (lat lon : PyFloat) : Decidable (OnGlobe lat lon) := inferInstanceAs (Decidable (_ ∧ _))

theorem OnGlobe.representable {lat lon : PyFloat} (h : OnGlobe lat lon) :
    lat.Representable ∧ lon.Representable :=
  ⟨h.1.representable (by decide +kernel), h.2.representable (by decide +kernel)⟩

/-- A fallback position, if there is one, is on the globe. -/
def Fallback.Valid (fb : Fallback) : Prop := ∀ pos ∈ fb.position, OnGlobe pos.lat pos.lon

/-- The field of a content that has a `Location` of its own. -/
def locationField : String → Option String
  | "status_report" => some "node_location"
  | "detection_report" | "alert" => some "location"
  | _ => none

/-- The `Location` that a message carries. -/
def locationOf (m : Message) : Option Message := do
  let content ← Sapient.content m
  let field ← locationField content
  if (m.sub content).has field then some ((m.sub content).sub field) else none

/-- The point that `_build_cot` writes has both coordinates, with seven decimals. -/
theorem find_point (uid cot_type : Text) (pos : Position) (callsign remarks : Text)
    (stale_seconds now : ℕ) :
    ∃ point, (cotEvent uid cot_type pos callsign remarks stale_seconds now).find "point".toList =
        some point ∧
      point.get "lat".toList = some (pos.lat.format 7) ∧
      point.get "lon".toList = some (pos.lon.format 7) := by
  refine ⟨_, rfl, ?_, ?_⟩
  · simp [Element.get, Element.attrib, attribs]
  · simp [Element.get, Element.attrib, attribs, List.lookup_cons]

/-- The point reads as the position it was built from. -/
theorem place_cotEvent {pos : Position} (hlat : pos.lat.Representable)
    (hlon : pos.lon.Representable) (uid cot_type callsign remarks : Text) (stale_seconds now : ℕ) :
    ∃ lat lon,
      (cotEvent uid cot_type pos callsign remarks stale_seconds now).place = some (lat, lon) ∧
      lat.Near 7 pos.lat ∧ lon.Near 7 pos.lon ∧ (OnGlobe pos.lat pos.lon → OnGlobe lat lon) := by
  obtain ⟨point, hpoint, hgetlat, hgetlon⟩ :=
    find_point uid cot_type pos callsign remarks stale_seconds now
  obtain ⟨lat, hlat, hlatnear, hlatin⟩ := float?_format (by decide : 0 < 7) hlat
  obtain ⟨lon, hlon, hlonnear, hlonin⟩ := float?_format (by decide : 0 < 7) hlon
  refine ⟨lat, lon, ?_, hlatnear, hlonnear, fun h ↦ ⟨hlatin 90 h.1, hlonin 180 h.2⟩⟩
  simp only [Element.place, hpoint, hgetlat, hgetlon, hlat, hlon, Option.bind_eq_bind,
    Option.bind_some, Option.pure_def]

/-- A handler looks for the `Location` that its message carries. -/
theorem loc_provider_eq {m : Message} {h : Handler} (hh : handlerOf m = some h) :
    h.loc_provider m = (locationOf m).bind locationFrom := by
  obtain ⟨content, hcontent, hh⟩ := Option.bind_eq_some_iff.mp hh
  have hloc : ∀ field, locationField content = some field →
      locationAt content field m = (locationOf m).bind locationFrom := by
    intro field hfield
    simp only [locationOf, hcontent, hfield, Option.bind_eq_bind, Option.bind_some]
    unfold locationAt
    split <;> rfl
  unfold contentHandler at hh
  split at hh
  · cases hh
    rw [locationOf, hcontent]
    rfl
  · cases hh
    exact hloc _ rfl
  · cases hh
    exact hloc _ rfl
  · cases hh
    exact hloc _ rfl
  · cases hh

/-- A message with a `Location` is one that has a handler. -/
theorem handlerOf_of_locationOf {m loc : Message} (h : locationOf m = some loc) :
    ∃ hd, handlerOf m = some hd := by
  obtain ⟨content, hcontent, h⟩ := Option.bind_eq_some_iff.mp h
  obtain ⟨field, hfield, -⟩ := Option.bind_eq_some_iff.mp h
  rw [handlerOf, hcontent, Option.bind_some]
  unfold locationField at hfield
  split at hfield
  · exact ⟨_, rfl⟩
  · exact ⟨_, rfl⟩
  · exact ⟨_, rfl⟩
  · cases hfield

/-- An event that is emitted at a position is read at that position. -/
theorem place_of_position {fb : Fallback} {now : ℕ} {m : Message} {h : Handler} {pos : Position}
    {r : Option (List UInt8)} (hh : handlerOf m = some h) (hpos : h.position fb m = some pos)
    (hlat : pos.lat.Representable) (hlon : pos.lon.Representable)
    (hr : convert fb now m = .ok r) :
    ∃ e lat lon, convertEvent fb now m = .ok (some e) ∧ r = some (document e) ∧
      e.place = some (lat, lon) ∧ lat.Near 7 pos.lat ∧ lon.Near 7 pos.lon ∧
      (OnGlobe pos.lat pos.lon → OnGlobe lat lon) := by
  obtain ⟨o, ho, rfl⟩ := map_eq_ok.mp hr
  obtain ⟨uid, cot_type, callsign, remarks, stale_seconds, rfl⟩ :=
    convertEvent_eq_of_position hh hpos ho
  obtain ⟨lat, lon, hplace⟩ :=
    place_cotEvent hlat hlon uid cot_type callsign remarks stale_seconds now
  exact ⟨_, lat, lon, ho, rfl, hplace⟩

/-- A message whose `Location` has both `x` and `y` is emitted there, `x` as the latitude,
whatever the `coordinate_system`: `_location_from` does not read it. -/
theorem place_of_location {fb : Fallback} {now : ℕ} {m loc : Message} {r : Option (List UInt8)}
    (hloc : locationOf m = some loc) (hx : loc.has "x" = true) (hy : loc.has "y" = true)
    (hlat : (loc.float "x").Representable) (hlon : (loc.float "y").Representable)
    (hr : convert fb now m = .ok r) :
    ∃ e lat lon, convertEvent fb now m = .ok (some e) ∧ r = some (document e) ∧
      e.place = some (lat, lon) ∧ lat.Near 7 (loc.float "x") ∧ lon.Near 7 (loc.float "y") ∧
      (OnGlobe (loc.float "x") (loc.float "y") → OnGlobe lat lon) := by
  obtain ⟨h, hh⟩ := handlerOf_of_locationOf hloc
  have hpos : h.position fb m = some ⟨loc.float "x", loc.float "y",
      if loc.has "z" then loc.float "z" else .fin 0⟩ := by
    rw [Handler.position, loc_provider_eq hh, hloc, Option.bind_some, locationFrom,
      if_pos ⟨hx, hy⟩, Option.some_or]
  exact place_of_position hh hpos hlat hlon hr

/-- A message with a `Location` in degrees is emitted there: `x` is the latitude and `y`
the longitude, to seven decimals.  Without a `Location` that has both, it is emitted at
the fallback position or not at all.  Neither leaves the globe.  What ought to become of
the other systems is left open: they are degrees too by `place_of_location`. -/
theorem convert_place {fb : Fallback} (hfb : fb.Valid) {now : ℕ} {m : Message}
    {r : Option (List UInt8)} (hr : convert fb now m = .ok r) :
    (∀ loc, locationOf m = some loc → loc.has "x" = true → loc.has "y" = true →
      loc.num "coordinate_system" = LAT_LNG_DEG_M →
      (loc.float "x").Representable → (loc.float "y").Representable →
      ∃ e lat lon, convertEvent fb now m = .ok (some e) ∧ r = some (document e) ∧
        e.place = some (lat, lon) ∧ lat.Near 7 (loc.float "x") ∧ lon.Near 7 (loc.float "y") ∧
        (OnGlobe (loc.float "x") (loc.float "y") → OnGlobe lat lon)) ∧
    ((∀ loc, locationOf m = some loc → loc.has "x" = false ∨ loc.has "y" = false) →
      r = none ∨ ∃ e lat lon pos, convertEvent fb now m = .ok (some e) ∧ r = some (document e) ∧
        fb.position = some pos ∧ e.place = some (lat, lon) ∧ lat.Near 7 pos.lat ∧
        lon.Near 7 pos.lon ∧ OnGlobe lat lon) := by
  constructor
  · intro loc hloc hx hy _ hlat hlon
    exact place_of_location hloc hx hy hlat hlon hr
  · intro hno
    have hnone : (locationOf m).bind locationFrom = none := by
      cases hloc : locationOf m with
      | none => rfl
      | some loc =>
          rw [Option.bind_some, locationFrom, if_neg]
          rintro ⟨hx, hy⟩
          rcases hno loc hloc with h | h
          · exact Bool.false_ne_true (h.symm.trans hx)
          · exact Bool.false_ne_true (h.symm.trans hy)
    cases r with
    | none => exact .inl rfl
    | some doc =>
        obtain ⟨h, pos, hh, hpos⟩ := positioned_of_convert hr
        have hfallback : fb.position = some pos := by
          rw [← hpos, Handler.position, loc_provider_eq hh, hnone, Option.none_or]
        have hvalid := hfb pos hfallback
        obtain ⟨e, lat, lon, he, hdoc, hplace, hlatnear, hlonnear, hglobe⟩ :=
          place_of_position hh hpos hvalid.representable.1 hvalid.representable.2 hr
        exact .inr ⟨e, lat, lon, pos, he, hdoc, hfallback, hplace, hlatnear, hlonnear,
          hglobe hvalid⟩

/-- A detection report with a `Location`. -/
def detectionAt (x y : ℚ) (coordinate_system : ℤ) : Message :=
  [("detection_report", .msg [("location", .msg [("x", .float (.fin x)), ("y", .float (.fin y)),
    ("coordinate_system", .enum coordinate_system)])])]

/-- What is emitted for a detection in Brisbane, the latitude in `x`. -/
theorem convert_place_brisbane : ∃ e lat lon,
    convert ⟨none, none, none⟩ 0 (detectionAt (-27.4698) 153.0251 LAT_LNG_DEG_M) =
      .ok (some (document e)) ∧
    e.place = some (lat, lon) ∧ lat.Near 7 (.fin (-27.4698)) ∧ lon.Near 7 (.fin 153.0251) ∧
    OnGlobe lat lon := by
  obtain ⟨r, hr⟩ := (convert_ok_iff ⟨none, none, none⟩ 0
    (detectionAt (-27.4698) 153.0251 LAT_LNG_DEG_M)).mpr fun _ ↦ by decide
  have hfb : Fallback.Valid ⟨none, none, none⟩ := by
    intro pos h
    cases h
  have hat : OnGlobe (.fin (-27.4698)) (.fin 153.0251) := by decide +kernel
  obtain ⟨e, lat, lon, -, rfl, hplace, hlatnear, hlonnear, hglobe⟩ :=
    (convert_place hfb hr).1 _ rfl rfl rfl rfl hat.representable.1 hat.representable.2
  exact ⟨e, lat, lon, hr, hplace, hlatnear, hlonnear, hglobe hat⟩

/-- With the longitude in `x`, the latitude that is emitted is the longitude; and metres
east and north of a UTM zone are emitted as degrees. -/
theorem convert_longitude_first :
    (∃ e, convert ⟨none, none, none⟩ 0 (detectionAt 153.0251 (-27.4698) LAT_LNG_DEG_M) =
        .ok (some (document e)) ∧
      e.place = some (.fin 153.0251, .fin (-27.4698)) ∧
      ¬ OnGlobe (.fin 153.0251) (.fin (-27.4698))) ∧
    ∃ e, convert ⟨none, none, none⟩ 0 (detectionAt 318720 176487 UTM_M) =
        .ok (some (document e)) ∧
      e.place = some (.fin 318720, .fin 176487) ∧ ¬ OnGlobe (.fin 318720) (.fin 176487) := by
  exact ⟨⟨_, rfl, by decide +kernel, by decide +kernel⟩, _, rfl, by decide +kernel,
    by decide +kernel⟩

end SensorFusion.Cot
