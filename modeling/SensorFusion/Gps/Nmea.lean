import SensorFusion.Python.Number

/-!
# NMEA sentences

`parse_sentence` and what it is made of.  A sentence that is decoded keeps exactly the
keys that the source gives its type.  Decoding can also raise: a numeric field that is no
number, or a coordinate that is an infinity or a NaN.
-/

namespace SensorFusion.Gps

open Text

/-- The exceptions that decoding raises. -/
inductive ParseError where
  | valueError
  | overflowError
deriving DecidableEq, Repr

/-- A decoded sentence. -/
inductive Sentence where
  | gga (talker : Text) (time_utc : Option Text) (latitude longitude : Option ℚ)
      (fix_quality satellites : ℤ) (hdop altitude : Option PyFloat)
  | rmc (talker : Text) (time_utc : Option Text) (status : Text) (latitude longitude : Option ℚ)
      (speed_knots track_deg : Option PyFloat) (date : Option Text)
  | gll (talker : Text) (latitude longitude : Option ℚ) (time_utc : Option Text) (status : Text)
  | vtg (talker : Text) (track_deg_true speed_knots speed_kph : Option PyFloat)
  | gsv (talker : Text) (satellites_in_view : Option ℤ)
  | gns (talker : Text) (time_utc : Option Text) (latitude longitude : Option ℚ)
      (mode_indicator : Text) (fix_quality satellites : ℤ)
      (hdop altitude geoid_separation : Option PyFloat)
deriving DecidableEq

/-! ## Fields -/

/-- `int(s)`. -/
def toInt (s : Text) : Except ParseError ℤ :=
  match int? s with
  | some n => .ok n
  | none => .error .valueError

/-- `float(s)`. -/
def toFloat (s : Text) : Except ParseError PyFloat :=
  match float? s with
  | some x => .ok x
  | none => .error .valueError

/-- `s or None`. -/
def orNone (s : Text) : Option Text := if s = [] then none else some s

/-- `float(s) if s else None`. -/
def floatOrNone (s : Text) : Except ParseError (Option PyFloat) :=
  if s = [] then .ok none else (toFloat s).map some

/-- `int(s) if s.isdigit() else 0`. -/
def intOrZero (s : Text) : Except ParseError ℤ := if isdigit s then toInt s else .ok 0

/-- `_checksum_ok`. -/
def checksumOk (sentence : Text) : Bool :=
  if sentence.head? = some '$' ∧ '*' ∈ sentence then
    let body := sentence.tail.takeWhile (· ≠ '*')
    let csum := (strip (sentence.tail.dropWhile (· ≠ '*')).tail).take 2
    let actual := body.foldl (fun (actual : ℕ) ch ↦ actual ^^^ ch.toNat) 0
    csum ≠ [] && int16? csum = some (actual : ℤ)
  else false

/-- `_coord_to_decimal`: the truncation to degrees is outside the `try`, and raises for
an infinity or a NaN. -/
def coordToDecimal (value hemi : Text) : Except ParseError (Option ℚ) :=
  if value = [] ∨ hemi = [] then .ok none
  else
    match float? value with
    | none => .ok none
    | some .nan => .error .valueError
    | some .posInf | some .negInf => .error .overflowError
    | some (.fin f) =>
        let deg := truncate (f / 100)
        let minutes := f - deg * 100
        let decimal := deg + minutes / 60
        .ok (some (if hemi = ['S'] ∨ hemi = ['W'] then -decimal else decimal))

/-- `_hms_dmy_to_iso`. -/
def hmsDmyToIso (hhmmss : Text) (ddmmyy : Option Text) : Option Text :=
  if hhmmss.length < 6 then none
  else
    let h := hhmmss.take 2
    let m := (hhmmss.drop 2).take 2
    let s := hhmmss.drop 4
    let time := 'T' :: h ++ ':' :: m ++ ':' :: s ++ ['Z']
    match ddmmyy with
    | none => some time
    | some ddmmyy =>
        if 6 ≤ ddmmyy.length then
          let dd := ddmmyy.take 2
          let mm := (ddmmyy.drop 2).take 2
          let yy := (ddmmyy.drop 4).take 2
          some ("20".toList ++ yy ++ '-' :: mm ++ '-' :: dd ++ time)
        else some time

/-! ## The types of sentences

`part` gives the fields between the commas. -/

section

variable (talker : Text) (part : ℕ → Text)

def parseGga : Except ParseError Sentence := do
  let latitude ← coordToDecimal (part 2) (part 3)
  let longitude ← coordToDecimal (part 4) (part 5)
  let fix_quality ← intOrZero (part 6)
  let satellites ← intOrZero (part 7)
  let hdop ← floatOrNone (part 8)
  let altitude ← floatOrNone (part 9)
  pure (.gga talker (orNone (part 1)) latitude longitude fix_quality satellites hdop altitude)

def parseRmc : Except ParseError Sentence := do
  let latitude ← coordToDecimal (part 3) (part 4)
  let longitude ← coordToDecimal (part 5) (part 6)
  let speed_knots ← floatOrNone (part 7)
  let track_deg ← floatOrNone (part 8)
  pure (.rmc talker (orNone (part 1)) (part 2) latitude longitude speed_knots track_deg
    (orNone (part 9)))

def parseGll : Except ParseError Sentence := do
  let latitude ← coordToDecimal (part 1) (part 2)
  let longitude ← coordToDecimal (part 3) (part 4)
  pure (.gll talker latitude longitude (orNone (part 5)) (part 6))

def parseVtg : Except ParseError Sentence := do
  let track_deg_true ← floatOrNone (part 1)
  let speed_knots ← floatOrNone (part 5)
  let speed_kph ← floatOrNone (part 7)
  pure (.vtg talker track_deg_true speed_knots speed_kph)

def parseGsv : Except ParseError Sentence := do
  let satellites_in_view ←
    if isdigit (part 3) then (toInt (part 3)).map some else .ok none
  pure (.gsv talker satellites_in_view)

def parseGns : Except ParseError Sentence := do
  let mode := part 6
  let valid := mode.any (· ≠ 'N')
  let latitude ← coordToDecimal (part 2) (part 3)
  let longitude ← coordToDecimal (part 4) (part 5)
  let satellites ← intOrZero (part 7)
  let hdop ← floatOrNone (part 8)
  let altitude ← floatOrNone (part 9)
  let geoid_separation ← floatOrNone (part 10)
  pure (.gns talker (orNone (part 1)) latitude longitude mode (if valid then 1 else 0) satellites
    hdop altitude geoid_separation)

end

/-- `parse_sentence` of what stands between the dollar and the star. -/
def decodeBody (body : Text) : Except ParseError (Option Sentence) :=
  let parts := split ',' body
  let part := fun i ↦ parts.getD i []
  let talker := (part 0).take 2
  let typ := (part 0).drop 2
  if (part 0).length < 5 then .ok none
  else if typ = "GGA".toList ∧ 14 ≤ parts.length then (parseGga talker part).map some
  else if typ = "RMC".toList ∧ 12 ≤ parts.length then (parseRmc talker part).map some
  else if typ = "GLL".toList ∧ 7 ≤ parts.length then (parseGll talker part).map some
  else if typ = "VTG".toList ∧ 9 ≤ parts.length then (parseVtg talker part).map some
  else if typ = "GSV".toList ∧ 4 ≤ parts.length then (parseGsv talker part).map some
  else if typ = "GNS".toList ∧ 13 ≤ parts.length then (parseGns talker part).map some
  else .ok none

/-- `parse_sentence`: nothing for a sentence that is not understood. -/
def parseSentence (sentence : Text) : Except ParseError (Option Sentence) :=
  let sentence := strip sentence
  if checksumOk sentence then decodeBody (sentence.tail.takeWhile (· ≠ '*'))
  else .ok none

example : parseSentence "$GPGGA,123519,4807.038,N,01131.000,E,1,08,0.9,545.4,M,46.9,M,,*47".toList =
    .ok (some (.gga "GP".toList (some "123519".toList) (some (48 + 7038 / 60000))
      (some (11 + 31 / 60)) 1 8 (some (.fin (9 / 10))) (some (.fin (5454 / 10))))) := by
  decide +kernel

/-- What is decoded has a valid checksum. -/
theorem checksumOk_of_parseSentence {line : Text} {s : Sentence}
    (h : parseSentence line = .ok (some s)) : checksumOk (strip line) = true := by
  unfold parseSentence at h
  dsimp only at h
  split at h
  · assumption
  · cases h

/-! ## Keys

What `parsed.get(key)` gives; `track_deg` is looked up as a key of its own. -/

namespace Sentence

def talker : Sentence → Text
  | .gga t .. | .rmc t .. | .gll t .. | .vtg t .. | .gsv t .. | .gns t .. => t

def type : Sentence → Text
  | .gga .. => "GGA".toList
  | .rmc .. => "RMC".toList
  | .gll .. => "GLL".toList
  | .vtg .. => "VTG".toList
  | .gsv .. => "GSV".toList
  | .gns .. => "GNS".toList

def latitude : Sentence → Option ℚ
  | .gga _ _ lat .. | .rmc _ _ _ lat .. | .gll _ lat .. | .gns _ _ lat .. => lat
  | _ => none

def longitude : Sentence → Option ℚ
  | .gga _ _ _ lon .. | .rmc _ _ _ _ lon .. | .gll _ _ lon .. | .gns _ _ _ lon .. => lon
  | _ => none

def altitude : Sentence → Option PyFloat
  | .gga _ _ _ _ _ _ _ alt | .gns _ _ _ _ _ _ _ _ alt _ => alt
  | _ => none

def hdop : Sentence → Option PyFloat
  | .gga _ _ _ _ _ _ hdop _ | .gns _ _ _ _ _ _ _ hdop _ _ => hdop
  | _ => none

def satellites : Sentence → Option ℤ
  | .gga _ _ _ _ _ satellites _ _ | .gns _ _ _ _ _ _ satellites _ _ _ => some satellites
  | _ => none

def speed_knots : Sentence → Option PyFloat
  | .rmc _ _ _ _ _ speed _ _ | .vtg _ _ speed _ => speed
  | _ => none

def track_deg : Sentence → Option (Option PyFloat)
  | .rmc _ _ _ _ _ _ track _ => some track
  | _ => none

end Sentence

end SensorFusion.Gps
