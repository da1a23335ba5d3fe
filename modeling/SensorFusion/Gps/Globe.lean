import SensorFusion.Gps.Encoding

/-!
# Positions on the globe

`_coord_to_decimal` takes whatever `float` reads for degrees and minutes, and any text for a
hemisphere.  What the fix shows lies on the globe when the coordinates that arrive are in the
standard form and do not lie beyond a pole or the antimeridian.
-/

namespace SensorFusion.Gps

open Text

/-! ## The coordinates of a sentence -/

namespace Axis

/-- The place of a coordinate in a layout. -/
def index : Axis → ℕ
  | latitude => 0
  | longitude => 1

end Axis

def Sentence.coordinate (s : Sentence) : Axis → Option ℚ
  | .latitude => s.latitude
  | .longitude => s.longitude

def GpsFix.coordinate (f : GpsFix) : Axis → Option ℚ
  | .latitude => f.latitude
  | .longitude => f.longitude

/-- The texts of a coordinate and of its hemisphere in a sentence of a type that has them. -/
def coordinateFields (A : Axis) (sentence : Text) : Option (Text × Text) :=
  let part := fun i ↦ (parts sentence).getD i []
  ((LAYOUTS.find? fun L ↦ (part 0).drop 2 = L.typ).bind fun L ↦ L.coordinates[A.index]?).map
    fun i ↦ (part i.1, part i.2)

/-- The lines that are decoded, stripped, with what they say. -/
def decodedLines : List Text → List (Text × Sentence)
  | [] => []
  | text :: texts =>
      if (strip text).head? = some '$' then
        match parseSentence (strip text) with
        | .error _ => []
        | .ok none => decodedLines texts
        | .ok (some parsed) => (strip text, parsed) :: decodedLines texts
      else decodedLines texts

def Label.decoded : Label → List (Text × Sentence)
  | .datagram data _ _ _ => decodedLines (splitlines ((decodeAscii data).dropWhile (· ≠ '$')))
  | .snapshot _ => []

/-- The lines that are decoded in a run. -/
def decoded (ls : List Label) : List (Text × Sentence) := ls.flatMap Label.decoded

/-- Coordinates are within their limits, and none was taken but from fields in the standard form
of its axis. -/
structure OnGlobe (ls : List Label) (l : Listener) : Prop where
  within : ∀ A x, l.fix.coordinate A = some x → |x| ≤ A.limit
  standard : ∀ e ∈ decoded ls, ∀ A x, e.2.coordinate A = some x →
    ∃ r : Reading A, coordinateFields A e.1 = some (r.field, r.hemisphere)

/-- Where a line gives a coordinate that `float` reads, it is in the standard form and not beyond
the limit of its axis. -/
def Placed (A : Axis) (line : Text) : Prop :=
  ∀ value hemi, coordinateFields A line = some (value, hemi) → value ≠ [] → hemi ≠ [] →
    (float? value).isSome → ∃ r : Reading A, value = r.field ∧ hemi = r.hemisphere ∧
      (r.degrees < A.limit ∨ r.minutesValue = 0)

/-! ## Where a coordinate comes from -/

/-- The coordinates of a sentence are those of its fields. -/
def Decodes (s : Sentence) (coordinates : List (Text × Text)) : Prop :=
  ∀ A, match coordinates[Axis.index A]? with
    | none => s.coordinate A = none
    | some (value, hemi) => coordToDecimal value hemi = .ok (s.coordinate A)

section

variable {talker : Text} {part : ℕ → Text} {s : Sentence}

theorem decodes_pair {v h v' h' : Text} (hlat : coordToDecimal v h = .ok s.latitude)
    (hlon : coordToDecimal v' h' = .ok s.longitude) : Decodes s [(v, h), (v', h')]
  | .latitude => hlat
  | .longitude => hlon

theorem decodes_gga (h : parseGga talker part = .ok s) :
    Decodes s [(part 2, part 3), (part 4, part 5)] := by
  obtain ⟨lat, hlat, h⟩ := bind_eq_ok.mp h
  obtain ⟨lon, hlon, h⟩ := bind_eq_ok.mp h
  obtain ⟨quality, -, h⟩ := bind_eq_ok.mp h
  obtain ⟨satellites, -, h⟩ := bind_eq_ok.mp h
  obtain ⟨hdop, -, h⟩ := bind_eq_ok.mp h
  obtain ⟨altitude, -, h⟩ := bind_eq_ok.mp h
  cases h
  exact decodes_pair hlat hlon

theorem decodes_rmc (h : parseRmc talker part = .ok s) :
    Decodes s [(part 3, part 4), (part 5, part 6)] := by
  obtain ⟨lat, hlat, h⟩ := bind_eq_ok.mp h
  obtain ⟨lon, hlon, h⟩ := bind_eq_ok.mp h
  obtain ⟨speed, -, h⟩ := bind_eq_ok.mp h
  obtain ⟨track, -, h⟩ := bind_eq_ok.mp h
  cases h
  exact decodes_pair hlat hlon

theorem decodes_gll (h : parseGll talker part = .ok s) :
    Decodes s [(part 1, part 2), (part 3, part 4)] := by
  obtain ⟨lat, hlat, h⟩ := bind_eq_ok.mp h
  obtain ⟨lon, hlon, h⟩ := bind_eq_ok.mp h
  cases h
  exact decodes_pair hlat hlon

theorem decodes_gns (h : parseGns talker part = .ok s) :
    Decodes s [(part 2, part 3), (part 4, part 5)] := by
  obtain ⟨lat, hlat, h⟩ := bind_eq_ok.mp h
  obtain ⟨lon, hlon, h⟩ := bind_eq_ok.mp h
  obtain ⟨satellites, -, h⟩ := bind_eq_ok.mp h
  obtain ⟨hdop, -, h⟩ := bind_eq_ok.mp h
  obtain ⟨altitude, -, h⟩ := bind_eq_ok.mp h
  obtain ⟨geoid, -, h⟩ := bind_eq_ok.mp h
  cases h
  exact decodes_pair hlat hlon

theorem decodes_nil (h : ∀ A, s.coordinate A = none) : Decodes s [] := h

theorem decodes_vtg (h : parseVtg talker part = .ok s) : Decodes s [] := by
  obtain ⟨track, -, h⟩ := bind_eq_ok.mp h
  obtain ⟨knots, -, h⟩ := bind_eq_ok.mp h
  obtain ⟨kph, -, h⟩ := bind_eq_ok.mp h
  cases h
  exact decodes_nil fun A ↦ by cases A <;> rfl

theorem decodes_gsv (h : parseGsv talker part = .ok s) : Decodes s [] := by
  unfold parseGsv at h
  split at h
  · obtain ⟨view, -, h⟩ := bind_eq_ok.mp h
    cases h
    exact decodes_nil fun A ↦ by cases A <;> rfl
  · cases h
    exact decodes_nil fun A ↦ by cases A <;> rfl

end

/-- The coordinate fields of a sentence whose type is in the table. -/
theorem coordinateFields_eq {sentence : Text} {L : Layout} (hL : L ∈ LAYOUTS)
    (htyp : ((parts sentence).getD 0 []).drop 2 = L.typ) (A : Axis) :
    coordinateFields A sentence = (L.coordinates.map fun i ↦
      ((parts sentence).getD i.1 [], (parts sentence).getD i.2 []))[A.index]? := by
  have hfind : ∀ L ∈ LAYOUTS, (LAYOUTS.find? fun L' ↦ L.typ = L'.typ) = some L := by decide
  unfold coordinateFields
  dsimp only
  rw [htyp, hfind L hL, Option.bind_some, List.getElem?_map]

theorem decodes_of_layout {sentence : Text} {s : Sentence} {x : Except ParseError Sentence}
    {L : Layout} (hL : L ∈ LAYOUTS) (htyp : ((parts sentence).getD 0 []).drop 2 = L.typ)
    (hx : ∀ {s}, x = .ok s → Decodes s (L.coordinates.map fun i ↦
      ((parts sentence).getD i.1 [], (parts sentence).getD i.2 [])))
    (h : x.map some = .ok (some s)) (A : Axis) :
    match coordinateFields A sentence with
    | none => s.coordinate A = none
    | some (value, hemi) => coordToDecimal value hemi = .ok (s.coordinate A) := by
  obtain ⟨_, h, hs⟩ := map_eq_ok.mp h
  cases hs
  rw [coordinateFields_eq hL htyp A]
  exact hx h A

/-- A decoded sentence has the coordinates of its fields. -/
theorem decodes_parseSentence {line : Text} {s : Sentence}
    (h : parseSentence line = .ok (some s)) (A : Axis) :
    match coordinateFields A (strip line) with
    | none => s.coordinate A = none
    | some (value, hemi) => coordToDecimal value hemi = .ok (s.coordinate A) := by
  unfold parseSentence decodeBody at h
  dsimp only at h
  rw [← parts] at h
  split at h
  · split at h
    · cases h
    split at h
    · rename_i htyp
      exact decodes_of_layout (show GGA ∈ LAYOUTS by decide) htyp.1 decodes_gga h A
    split at h
    · rename_i htyp
      exact decodes_of_layout (show RMC ∈ LAYOUTS by decide) htyp.1 decodes_rmc h A
    split at h
    · rename_i htyp
      exact decodes_of_layout (show GLL ∈ LAYOUTS by decide) htyp.1 decodes_gll h A
    split at h
    · rename_i htyp
      exact decodes_of_layout (show VTG ∈ LAYOUTS by decide) htyp.1 decodes_vtg h A
    split at h
    · rename_i htyp
      exact decodes_of_layout (show GSV ∈ LAYOUTS by decide) htyp.1 decodes_gsv h A
    split at h
    · rename_i htyp
      exact decodes_of_layout (show GNS ∈ LAYOUTS by decide) htyp.1 decodes_gns h A
    · cases h
  · cases h

/-! ## Coordinates in the standard form -/

/-- A coordinate is taken only where both texts are there and `float` reads the first. -/
theorem taken_of_coordToDecimal {value hemi : Text} {x : ℚ}
    (h : coordToDecimal value hemi = .ok (some x)) :
    value ≠ [] ∧ hemi ≠ [] ∧ (float? value).isSome := by
  unfold coordToDecimal at h
  split at h
  · cases h
  · rename_i hne
    refine ⟨(not_or.mp hne).1, (not_or.mp hne).2, ?_⟩
    split at h
    · cases h
    all_goals
      rename_i hfloat
      rw [hfloat]
      rfl

theorem Reading.abs_value_le {A : Axis} (r : Reading A)
    (h : r.degrees < A.limit ∨ r.minutesValue = 0) : |r.value| ≤ A.limit := by
  have hlow := r.minutesValue_nonneg
  have hhigh := r.minutesValue_lt
  have hpos : 0 ≤ (r.degrees : ℚ) + r.minutesValue / 60 := by positivity
  have habs : |r.value| = r.degrees + r.minutesValue / 60 := by
    rw [value, abs_mul, abs_of_nonneg hpos]
    split
    · rw [abs_neg, abs_one, one_mul]
    · rw [abs_one, one_mul]
  rw [habs]
  rcases h with h | h
  · have hdegrees : (r.degrees : ℚ) + 1 ≤ A.limit := by exact_mod_cast h
    linarith
  · have hdegrees : (r.degrees : ℚ) ≤ A.limit := by exact_mod_cast r.degrees_le
    rw [h, zero_div, add_zero]
    exact hdegrees

/-- What a well placed line gives is the value of a reading within the limits. -/
theorem Placed.reading {A : Axis} {line : Text} {s : Sentence} {x : ℚ} (hplaced : Placed A line)
    (hstrip : strip line = line) (hparse : parseSentence line = .ok (some s))
    (hx : s.coordinate A = some x) : ∃ r : Reading A,
      coordinateFields A line = some (r.field, r.hemisphere) ∧ r.value = x ∧ |x| ≤ A.limit := by
  have hdecodes := decodes_parseSentence hparse A
  rw [hstrip, hx] at hdecodes
  cases hfields : coordinateFields A line with
  | none =>
      rw [hfields] at hdecodes
      cases hdecodes
  | some fields =>
      obtain ⟨value, hemi⟩ := fields
      rw [hfields] at hdecodes
      obtain ⟨hvalue, hhemi, hfloat⟩ := taken_of_coordToDecimal hdecodes
      obtain ⟨r, rfl, rfl, hlimit⟩ := hplaced value hemi hfields hvalue hhemi hfloat
      have hr := r.coordToDecimal_eq
      rw [hdecodes] at hr
      cases hr
      exact ⟨r, rfl, rfl, r.abs_value_le hlimit⟩

/-! ## Runs -/

theorem decodedLines_spec {texts : List Text} {e : Text × Sentence} (h : e ∈ decodedLines texts) :
    strip e.1 = e.1 ∧ parseSentence e.1 = .ok (some e.2) := by
  induction texts with
  | nil => cases h
  | cons text texts ih =>
      rw [decodedLines] at h
      split at h
      · split at h
        · cases h
        · exact ih h
        · rename_i parsed hparse
          rcases List.mem_cons.mp h with rfl | h
          · exact ⟨strip_strip text, hparse⟩
          · exact ih h
      · exact ih h

theorem decoded_spec {ls : List Label} {e : Text × Sentence} (h : e ∈ decoded ls) :
    strip e.1 = e.1 ∧ parseSentence e.1 = .ok (some e.2) := by
  obtain ⟨label, -, he⟩ := List.mem_flatMap.mp h
  cases label with
  | datagram data addr clock today => exact decodedLines_spec he
  | snapshot now => cases he

/-- What is consumed is what the decoded lines say. -/
theorem heardLines_sentences (addr : Addr) (clock : ℕ → ℚ) (texts : List Text) (i : ℕ) :
    (heardLines addr clock i texts).map Heard.sentence = (decodedLines texts).map Prod.snd := by
  induction texts generalizing i with
  | nil => rfl
  | cons text texts ih =>
      rw [heardLines, decodedLines]
      by_cases hdollar : (strip text).head? = some '$'
      · rw [if_pos hdollar, if_pos hdollar]
        cases hparse : parseSentence (strip text) with
        | error exc => rfl
        | ok parsed =>
            cases parsed with
            | none => exact ih (i + 1)
            | some parsed => exact congrArg (parsed :: ·) (ih (i + 1))
      · rw [if_neg hdollar, if_neg hdollar]
        exact ih (i + 1)

theorem heard_sentences (ls : List Label) :
    (heard ls).map Heard.sentence = (decoded ls).map Prod.snd := by
  rw [heard, decoded, List.map_flatMap, List.map_flatMap]
  refine List.flatMap_congr fun label _ ↦ ?_
  cases label with
  | datagram data addr clock today => exact heardLines_sentences addr clock _ 0
  | snapshot now => rfl

/-- A coordinate of the fix is that of a line which was decoded. -/
theorem Tracks.exists_decoded {l : Listener} {ls : List Label} (h : Tracks l (heard ls)) {A : Axis}
    {x : ℚ} (hx : l.fix.coordinate A = some x) : ∃ e ∈ decoded ls, e.2.coordinate A = some x := by
  have hlast : lastOf (Sentence.coordinate · A) (heard ls) = some x := by
    cases A with
    | latitude => exact h.latitude.symm.trans hx
    | longitude => exact h.longitude.symm.trans hx
  obtain ⟨e, he, hcoord⟩ := List.mem_filterMap.mp (List.mem_of_getLast? hlast)
  have hmem : e.sentence ∈ (decoded ls).map Prod.snd :=
    heard_sentences ls ▸ List.mem_map_of_mem he
  obtain ⟨e', he', heq⟩ := List.mem_map.mp hmem
  exact ⟨e', he', heq ▸ hcoord⟩

/-- In a run whose lines are well placed the fix is on the globe in every state. -/
theorem onGlobe_of_placed {port : ℕ} {bind : Text} {ls : List Label}
    (hplaced : ∀ e ∈ decoded ls, ∀ A, Placed A e.1) {ls' : List Label} (hstart : ls' <+: ls)
    {l : Listener} (hrun : Listener.step.run (.init port bind) ls' = some l) : OnGlobe ls' l := by
  have htracks : Tracks l (heard ls') := (tracks_init port bind).run hrun
  have hmem {e : Text × Sentence} (he : e ∈ decoded ls') : e ∈ decoded ls := by
    obtain ⟨label, hlabel, he⟩ := List.mem_flatMap.mp he
    exact List.mem_flatMap.mpr ⟨label, hstart.subset hlabel, he⟩
  have hreading {e : Text × Sentence} (he : e ∈ decoded ls') {A : Axis} {x : ℚ}
      (hx : e.2.coordinate A = some x) := by
    obtain ⟨hstrip, hparse⟩ := decoded_spec he
    exact (hplaced e (hmem he) A).reading hstrip hparse hx
  constructor
  · intro A x hx
    obtain ⟨e, he, hcoord⟩ := htracks.exists_decoded hx
    obtain ⟨r, -, -, hle⟩ := hreading he hcoord
    exact hle
  · intro e he A x hx
    obtain ⟨r, hfields, -, -⟩ := hreading he hx
    exact ⟨r, hfields⟩

def northern : Reading .latitude :=
  ⟨48, 7, some "038".toList, false, by decide, by decide, List.all_eq_true.mp (by decide)⟩

def nearby : Reading .longitude :=
  ⟨11, 31, some "000".toList, false, by decide, by decide, List.all_eq_true.mp (by decide)⟩

/-- A GGA sentence with a latitude field and its hemisphere. -/
def ggaAtLatitude (latitude checksum : String) : Label :=
  .sentence ("$GPGGA,123519," ++ latitude ++ ",01131.000,E,1,08,0.9,545.4,M,46.9,M,,*" ++ checksum)
    1000

theorem onGlobe_gga : ∃ l,
    Listener.step.run (.init 8500 "0.0.0.0".toList) [ggaAtLatitude "4807.038,N" "47"] = some l ∧
    OnGlobe [ggaAtLatitude "4807.038,N" "47"] l := by
  have hfields : (decoded [ggaAtLatitude "4807.038,N" "47"]).map (fun e ↦
      (coordinateFields .latitude e.1, coordinateFields .longitude e.1)) =
      [(some (northern.field, northern.hemisphere), some (nearby.field, nearby.hemisphere))] := by
    decide +kernel
  obtain ⟨l, hl⟩ : ∃ l, Listener.step.run (.init 8500 "0.0.0.0".toList)
      [ggaAtLatitude "4807.038,N" "47"] = some l := ⟨_, rfl⟩
  refine ⟨l, hl, onGlobe_of_placed (fun e he A value hemi hvalue _ _ _ ↦ ?_) List.prefix_rfl hl⟩
  have hpair := List.mem_map_of_mem he (f := fun e : Text × Sentence ↦
    (coordinateFields .latitude e.1, coordinateFields .longitude e.1))
  rw [hfields, List.mem_singleton] at hpair
  obtain ⟨hlat, hlon⟩ := Prod.mk.inj hpair
  cases A with
  | latitude =>
      rw [hlat] at hvalue
      cases hvalue
      exact ⟨northern, rfl, rfl, .inl (by decide)⟩
  | longitude =>
      rw [hlon] at hvalue
      cases hvalue
      exact ⟨nearby, rfl, rfl, .inl (by decide)⟩

/-- A sentence takes the fix beyond the pole, in a hemisphere that there is not. -/
theorem beyond_pole : ∃ l,
    Listener.step.run (.init 8500 "0.0.0.0".toList) [ggaAtLatitude "9530.000,X" "5E"] = some l ∧
    l.fix.latitude = some (191 / 2) ∧ ¬ OnGlobe [ggaAtLatitude "9530.000,X" "5E"] l := by
  have hrun : (Listener.step.run (.init 8500 "0.0.0.0".toList)
      [ggaAtLatitude "9530.000,X" "5E"]).map (fun l ↦ l.fix.latitude) = some (some (191 / 2)) := by
    decide +kernel
  obtain ⟨l, hl, hlatitude⟩ := Option.map_eq_some_iff.mp hrun
  refine ⟨l, hl, hlatitude, fun h ↦ ?_⟩
  have hle := h.within .latitude _ hlatitude
  revert hle
  decide +kernel

end SensorFusion.Gps
