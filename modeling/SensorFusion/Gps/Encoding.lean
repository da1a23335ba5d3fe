import SensorFusion.Gps.Isolation
import SensorFusion.Lib.Except
import SensorFusion.Python.Hex

/-!
# The standard encoding of positions

Coordinates are written as degrees and minutes in one number, with the hemisphere in a field of
its own, and a sentence joins its fields with commas between a dollar and a checksum.  Decoding
gives back what was written.
-/

namespace SensorFusion.Gps

open Text

/-! ## Coordinates -/

inductive Axis where
  | latitude
  | longitude
deriving DecidableEq, Repr

namespace Axis

/-- The digits of the degrees. -/
def width : Axis → ℕ
  | latitude => 2
  | longitude => 3

def limit : Axis → ℕ
  | latitude => 90
  | longitude => 180

/-- The letter of a hemisphere. -/
def letter : Axis → Bool → Char
  | latitude, false => 'N'
  | latitude, true => 'S'
  | longitude, false => 'E'
  | longitude, true => 'W'

end Axis

/-- A number with zeros in front. -/
def padded (width n : ℕ) : Text := fixedDigits (width - 1) n

/-- A coordinate in degrees and minutes; `negative` tells the hemisphere. -/
structure Reading (A : Axis) where
  degrees : ℕ
  minutes : ℕ
  decimals : Option Text
  negative : Bool
  degrees_le : degrees ≤ A.limit
  minutes_lt : minutes < 60
  isDigit_decimals : ∀ c ∈ decimals.getD [], c.isDigit

theorem isDigit_of_mem_padded {width n : ℕ} : ∀ c ∈ padded width n, c.isDigit :=
  isDigit_of_mem_fixedDigits

theorem length_padded {width n : ℕ} (hwidth : 0 < width) (h : n < 10 ^ width) :
    (padded width n).length = width := by
  have hlen := (Nat.length_toDigits_le_iff (by decide) hwidth).mpr h
  rw [padded, fixedDigits, List.length_append, List.length_replicate]
  omega

theorem ofDigitChars_padded (width n : ℕ) : Nat.ofDigitChars 10 (padded width n) 0 = n :=
  ofDigitChars_fixedDigits (width - 1) n

theorem padded_ne_nil {width n : ℕ} : padded width n ≠ [] :=
  List.ne_nil_of_length_pos ((Nat.zero_le _).trans_lt (lt_length_fixedDigits (width - 1) n))

/-- Digits as a number are below the power of ten of their length. -/
theorem ofDigitChars_lt {ds : Text} (h : ∀ c ∈ ds, c.isDigit) :
    Nat.ofDigitChars 10 ds 0 < 10 ^ ds.length := by
  induction ds with
  | nil => exact Nat.one_pos
  | cons c ds ih =>
      obtain ⟨hc, hds⟩ := List.forall_mem_cons.mp h
      have hdigit : c.toNat - '0'.toNat ≤ 9 := by
        have hle := (Char.isDigit_iff_toNat.mp hc).2
        have h₉ : '9'.toNat = '0'.toNat + 9 := rfl
        omega
      have hlt := ih hds
      have hmul := Nat.mul_le_mul_left (10 ^ ds.length) hdigit
      rw [Nat.ofDigitChars_cons, Nat.ofDigitChars_eq_ofDigitChars_zero, Nat.mul_zero, Nat.zero_add,
        List.length_cons, pow_succ]
      omega

namespace Reading

variable {A : Axis} (r : Reading A)

/-- `DDMM.m…` or `DDDMM.m…`. -/
def decimal : Decimal where
  whole := padded A.width r.degrees ++ padded 2 r.minutes
  fraction := r.decimals
  ne_nil := fun h ↦
    padded_ne_nil (List.append_eq_nil_iff.mp (List.append_eq_nil_iff.mp h).1).2
  isDigit_whole := fun c hc ↦
    (List.mem_append.mp hc).elim (isDigit_of_mem_padded c) (isDigit_of_mem_padded c)
  isDigit_fraction := r.isDigit_decimals

def field : Text := r.decimal.text

def hemisphere : Text := [A.letter r.negative]

/-- The minutes with their decimals. -/
def minutesValue : ℚ :=
  r.minutes + Nat.ofDigitChars 10 (r.decimals.getD []) 0 / 10 ^ (r.decimals.getD []).length

/-- Degrees and minutes as signed degrees. -/
def value : ℚ := (if r.negative then -1 else 1) * (r.degrees + r.minutesValue / 60)

theorem minutesValue_nonneg : 0 ≤ r.minutesValue := by
  unfold minutesValue
  positivity

theorem minutesValue_lt : r.minutesValue < 60 := by
  have hten : (0 : ℚ) < 10 ^ (r.decimals.getD []).length := by positivity
  have hminutes : (r.minutes : ℚ) + 1 ≤ 60 := by exact_mod_cast r.minutes_lt
  have hdecimals : (Nat.ofDigitChars 10 (r.decimals.getD []) 0 : ℚ) /
      10 ^ (r.decimals.getD []).length < 1 := by
    rw [div_lt_one hten]
    exact_mod_cast ofDigitChars_lt r.isDigit_decimals
  unfold minutesValue
  linarith

theorem value_decimal : r.decimal.value = r.degrees * 100 + r.minutesValue := by
  have hlen : (padded 2 r.minutes).length = 2 :=
    length_padded (by decide) (r.minutes_lt.trans (by decide))
  have hten : (10 : ℚ) ^ (r.decimals.getD []).length ≠ 0 := by positivity
  rw [Decimal.value, decimal, List.append_assoc, Nat.ofDigitChars_append,
    Nat.ofDigitChars_append, ofDigitChars_padded,
    @Nat.ofDigitChars_eq_ofDigitChars_zero (padded _ _), hlen, ofDigitChars_padded,
    Nat.ofDigitChars_eq_ofDigitChars_zero, minutesValue]
  push_cast
  field_simp
  ring

/-- The degrees are what is left of the number when it is cut off at the hundreds. -/
theorem truncate_value : truncate (r.decimal.value / 100) = r.degrees := by
  have hlow := r.minutesValue_nonneg
  have hhigh := r.minutesValue_lt
  have hpos : 0 ≤ r.decimal.value / 100 := div_nonneg r.decimal.value_nonneg (by positivity)
  rw [truncate, if_pos hpos, Int.floor_eq_iff, value_decimal]
  push_cast
  constructor <;> linarith

theorem value_decimal_lt : r.decimal.value < PyFloat.OVERFLOW := by
  have hdegrees : (r.degrees : ℚ) ≤ 180 := by
    have hle := r.degrees_le
    have hlimit : A.limit ≤ 180 := by cases A <;> decide
    exact_mod_cast hle.trans hlimit
  have hover : (20000 : ℚ) < PyFloat.OVERFLOW := by decide +kernel
  have hhigh := r.minutesValue_lt
  rw [value_decimal]
  linarith

theorem field_ne_nil : r.field ≠ [] := fun h ↦
  padded_ne_nil (List.append_eq_nil_iff.mp (List.append_eq_nil_iff.mp h).1).1

theorem hemisphere_iff : r.hemisphere = ['S'] ∨ r.hemisphere = ['W'] ↔ r.negative = true := by
  unfold hemisphere
  cases A <;> cases r.negative <;> decide

/-- A coordinate is decoded to the value that was written. -/
theorem coordToDecimal_eq : coordToDecimal r.field r.hemisphere = .ok (some r.value) := by
  have hne : ¬ (r.field = [] ∨ r.hemisphere = []) :=
    not_or.mpr ⟨r.field_ne_nil, List.cons_ne_nil _ _⟩
  have hfloat : float? r.field = some (.fin r.decimal.value) := by
    rw [field, Decimal.float?_text, PyFloat.ofRat_of_nonneg r.decimal.value_nonneg
      r.value_decimal_lt]
  rw [coordToDecimal, if_neg hne, hfloat]
  dsimp only
  rw [truncate_value, value_decimal, Int.cast_natCast, add_sub_cancel_left, value]
  by_cases hneg : r.negative = true
  · rw [if_pos (r.hemisphere_iff.mpr hneg), if_pos hneg, neg_one_mul]
  · rw [if_neg (mt r.hemisphere_iff.mp hneg), if_neg hneg, one_mul]

theorem notMem_hemisphere {c : Char} (hc : c ∉ ['N', 'S', 'E', 'W']) : c ∉ r.hemisphere := by
  intro hmem
  rw [hemisphere, List.mem_singleton] at hmem
  have hletter : ∀ A b, Axis.letter A b ∈ ['N', 'S', 'E', 'W'] := by
    rintro (_ | _) (_ | _) <;> decide
  exact hc (hmem ▸ hletter A r.negative)

end Reading

/-! ## Other fields -/

/-- A text that no separator of a sentence is in. -/
structure Field where
  text : Text
  comma_notMem : ',' ∉ text
  star_notMem : '*' ∉ text

def Field.ofDigits (s : Text) (h : ∀ c ∈ s, c.isDigit) : Field where
  text := s
  comma_notMem := fun hc ↦ ne_of_isDigit (h _ hc) rfl rfl
  star_notMem := fun hc ↦ ne_of_isDigit (h _ hc) rfl rfl

def Field.ofDecimal (d : Decimal) : Field where
  text := d.text
  comma_notMem := d.notMem_text rfl (by decide)
  star_notMem := d.notMem_text rfl (by decide)

def Reading.hemisphereField {A : Axis} (r : Reading A) : Field where
  text := r.hemisphere
  comma_notMem := r.notMem_hemisphere (by decide)
  star_notMem := r.notMem_hemisphere (by decide)

/-- A count in digits that `int` takes; no digits stand for none. -/
structure Count where
  digits : Text
  isDigit_digits : ∀ c ∈ digits, c.isDigit
  length_le : digits.length ≤ MAX_STR_DIGITS

namespace Count

def value (n : Count) : ℕ := Nat.ofDigitChars 10 n.digits 0

def field (n : Count) : Field := .ofDigits n.digits n.isDigit_digits

end Count

/-- A decimal with a sign. -/
structure Numeral where
  negative : Bool
  decimal : Decimal

namespace Numeral

def text (n : Numeral) : Text := if n.negative then '-' :: n.decimal.text else n.decimal.text

def value (n : Numeral) : ℚ := (if n.negative then -1 else 1) * n.decimal.value

theorem float?_text (n : Numeral) : float? n.text = some (.ofRat n.value) := by
  unfold text value
  by_cases hneg : n.negative = true
  · rw [if_pos hneg, if_pos hneg, Decimal.float?_neg_text,
      PyFloat.neg_ofRat n.decimal.value_nonneg, neg_one_mul]
  · rw [if_neg hneg, if_neg hneg, Decimal.float?_text, one_mul]

theorem text_ne_nil (n : Numeral) : n.text ≠ [] := by
  intro h
  have hnone : float? [] = none := by decide
  have hsome := n.float?_text
  rw [h, hnone] at hsome
  cases hsome

theorem notMem_text {c : Char} (hdigit : c.isDigit = false) (hpoint : c ≠ '.') (hminus : c ≠ '-')
    (n : Numeral) : c ∉ n.text := by
  unfold text
  split
  · rw [List.mem_cons, not_or]
    exact ⟨hminus, n.decimal.notMem_text hdigit hpoint⟩
  · exact n.decimal.notMem_text hdigit hpoint

def field (n : Numeral) : Field where
  text := n.text
  comma_notMem := notMem_text rfl (by decide) (by decide) n
  star_notMem := notMem_text rfl (by decide) (by decide) n

end Numeral

/-- A number that may be left out. -/
def numberField (n : Option Numeral) : Field :=
  (n.map Numeral.field).getD (.ofDigits [] fun _ hc ↦ absurd hc List.not_mem_nil)

def numberValue (n : Option Numeral) : Option PyFloat := n.map fun n ↦ .ofRat n.value

theorem floatOrNone_numberField (n : Option Numeral) :
    floatOrNone (numberField n).text = .ok (numberValue n) := by
  cases n with
  | none => rfl
  | some n =>
      show floatOrNone n.text = _
      rw [floatOrNone, if_neg n.text_ne_nil, toFloat, n.float?_text]
      rfl

theorem intOrZero_field (n : Count) : intOrZero n.field.text = .ok (n.value : ℤ) := by
  show intOrZero n.digits = _
  rw [intOrZero, Count.value]
  by_cases hne : n.digits = []
  · rw [hne]
    rfl
  · rw [if_pos (isdigit_of_digits hne n.isDigit_digits), toInt,
      int?_of_digits hne n.isDigit_digits, if_pos n.length_le]

/-! ## Sentences -/

structure Place where
  latitude : Reading .latitude
  longitude : Reading .longitude

def Place.fields (p : Place) : List Field :=
  [.ofDecimal p.latitude.decimal, p.latitude.hemisphereField, .ofDecimal p.longitude.decimal,
    p.longitude.hemisphereField]

/-- A sentence that tells a position; `rest` are the fields that are not decoded. -/
inductive Report where
  | gga (time_utc : Field) (place : Place) (fix_quality satellites : Count)
      (hdop altitude : Option Numeral) (rest : List Field) (length_rest : 4 ≤ rest.length)
  | gns (time_utc : Field) (place : Place) (mode_indicator : Field) (satellites : Count)
      (hdop altitude geoid_separation : Option Numeral) (rest : List Field)
      (length_rest : 2 ≤ rest.length)
  | rmc (time_utc status : Field) (place : Place) (speed_knots track_deg : Option Numeral)
      (date : Field) (rest : List Field) (length_rest : 2 ≤ rest.length)
  | gll (place : Place) (time_utc status : Field) (rest : List Field)

namespace Report

def layout : Report → Layout
  | gga .. => GGA
  | gns .. => GNS
  | rmc .. => RMC
  | gll .. => GLL

/-- The fields behind the talker and the type, in their order. -/
def fields : Report → List Field
  | gga time_utc place fix_quality satellites hdop altitude rest _ =>
      time_utc :: place.fields ++
        [fix_quality.field, satellites.field, numberField hdop, numberField altitude] ++ rest
  | gns time_utc place mode_indicator satellites hdop altitude geoid_separation rest _ =>
      time_utc :: place.fields ++ [mode_indicator, satellites.field, numberField hdop,
        numberField altitude, numberField geoid_separation] ++ rest
  | rmc time_utc status place speed_knots track_deg date rest _ =>
      time_utc :: status :: place.fields ++
        [numberField speed_knots, numberField track_deg, date] ++ rest
  | gll place time_utc status rest => place.fields ++ [time_utc, status] ++ rest

/-- What the sentence says. -/
def sentence (talker : Text) : Report → Sentence
  | gga time_utc place fix_quality satellites hdop altitude _ _ =>
      .gga talker (orNone time_utc.text) (some place.latitude.value) (some place.longitude.value)
        fix_quality.value satellites.value (numberValue hdop) (numberValue altitude)
  | gns time_utc place mode_indicator satellites hdop altitude geoid_separation _ _ =>
      .gns talker (orNone time_utc.text) (some place.latitude.value) (some place.longitude.value)
        mode_indicator.text (if mode_indicator.text.all (· = 'N') then 0 else 1)
        satellites.value (numberValue hdop) (numberValue altitude) (numberValue geoid_separation)
  | rmc time_utc status place speed_knots track_deg date _ _ =>
      .rmc talker (orNone time_utc.text) status.text (some place.latitude.value)
        (some place.longitude.value) (numberValue speed_knots) (numberValue track_deg)
        (orNone date.text)
  | gll place time_utc status _ =>
      .gll talker (some place.latitude.value) (some place.longitude.value)
        (orNone time_utc.text) status.text

/-- What stands between the dollar and the star. -/
def body (r : Report) (talker : Field) : Text :=
  [','].intercalate ((talker.text ++ r.layout.typ) :: r.fields.map Field.text)

end Report

/-- The checksum of a body. -/
def checksum (body : Text) : ℕ := body.foldl (fun (sum : ℕ) ch ↦ sum ^^^ ch.toNat) 0

/-- Two hexadecimal digits, in either case, that spell the checksum of a body. -/
def IsChecksum (body csum : Text) : Prop :=
  ∃ a b x y, csum = [a, b] ∧ digit? 16 a = some x ∧ digit? 16 b = some y ∧
    16 * x + y = checksum body

/-- A body between a dollar and its checksum. -/
def framed (body csum : Text) : Text := '$' :: (body ++ '*' :: csum)

section Framed

variable {body csum : Text}

theorem not_isSpace_of_hexDigit {c : Char} {v : ℕ} (h : digit? 16 c = some v) :
    ¬ isSpace c = true := by
  have hrange := toNat_of_hexDigit h
  unfold isSpace
  simp only [Bool.or_eq_true, Bool.and_eq_true, decide_eq_true_eq, beq_iff_eq]
  omega

theorem strip_framed (hcsum : IsChecksum body csum) {before after : Text}
    (hbefore : ∀ c ∈ before, isSpace c) (hafter : ∀ c ∈ after, isSpace c) :
    strip (before ++ framed body csum ++ after) = framed body csum := by
  obtain ⟨a, b, x, y, rfl, -, hb, -⟩ := hcsum
  have hne : framed body [a, b] ≠ [] := List.cons_ne_nil _ _
  have hlast : (framed body [a, b]).getLast hne = b := by
    have hsplit : framed body [a, b] = ('$' :: (body ++ ['*', a])) ++ [b] := by
      rw [List.cons_append, List.append_assoc]
      rfl
    rw [List.getLast_congr hne (List.append_ne_nil_of_right_ne_nil _ (List.cons_ne_nil b []))
      hsplit, List.getLast_append_singleton]
  have hdollar : ¬ isSpace '$' = true := by decide
  refine strip_of_blanks hbefore hafter hne hdollar ?_
  rw [hlast]
  exact not_isSpace_of_hexDigit hb

theorem takeWhile_framed (hstar : '*' ∉ body) (csum : Text) :
    (framed body csum).tail.takeWhile (· ≠ '*') = body := by
  have hbody : ∀ c ∈ body, decide (c ≠ '*') = true :=
    fun c hc ↦ decide_eq_true fun heq ↦ hstar (heq ▸ hc)
  rw [framed, List.tail_cons, List.takeWhile_append_of_pos hbody]
  exact List.append_nil _

theorem checksumOk_framed (hstar : '*' ∉ body) (hcsum : IsChecksum body csum) :
    checksumOk (framed body csum) = true := by
  have htake := takeWhile_framed hstar csum
  have hdrop : (framed body csum).tail.dropWhile (· ≠ '*') = '*' :: csum := by
    rw [framed, List.tail_cons, List.dropWhile_append_of_pos]
    · rfl
    · exact fun c hc ↦ decide_eq_true fun heq ↦ hstar (heq ▸ hc)
  obtain ⟨a, b, x, y, rfl, ha, hb, hsum⟩ := hcsum
  have hstrip : strip [a, b] = [a, b] := by
    refine stripBy_eq_self (List.forall_mem_cons.mpr ⟨?_, List.forall_mem_singleton.mpr ?_⟩)
    · exact Bool.eq_false_of_not_eq_true (not_isSpace_of_hexDigit ha)
    · exact Bool.eq_false_of_not_eq_true (not_isSpace_of_hexDigit hb)
  have hframe : (framed body [a, b]).head? = some '$' ∧ '*' ∈ framed body [a, b] :=
    ⟨rfl, List.mem_cons_of_mem _ (List.mem_append_right _ List.mem_cons_self)⟩
  rw [checksumOk, if_pos hframe]
  dsimp only
  rw [htake, hdrop, List.tail_cons, hstrip]
  refine (Bool.and_eq_true _ _).mpr ⟨rfl, decide_eq_true ?_⟩
  exact (int16?_pair ha hb).trans (congrArg (fun n : ℕ ↦ some (n : ℤ)) hsum)

end Framed

/-! ## Decoding -/

namespace Report

section

variable (talker address : Text) (time_utc status mode_indicator date : Field) (place : Place)
  (fix_quality satellites : Count) (hdop altitude geoid speed track : Option Numeral)
  (rest : List Field)

/-- The fields of a sentence behind its address, as `parse_sentence` looks them up. -/
def part (r : Report) : ℕ → Text := fun i ↦ (address :: r.fields.map Field.text).getD i []

theorem parseGga_part (h : 4 ≤ rest.length) :
    let r := gga time_utc place fix_quality satellites hdop altitude rest h
    parseGga talker (r.part address) = .ok (r.sentence talker) :=
  bind_ok_of place.latitude.coordToDecimal_eq <|
  bind_ok_of place.longitude.coordToDecimal_eq <|
  bind_ok_of (intOrZero_field fix_quality) <|
  bind_ok_of (intOrZero_field satellites) <|
  bind_ok_of (floatOrNone_numberField hdop) <|
  bind_ok_of (floatOrNone_numberField altitude) rfl

theorem parseRmc_part (h : 2 ≤ rest.length) :
    let r := rmc time_utc status place speed track date rest h
    parseRmc talker (r.part address) = .ok (r.sentence talker) :=
  bind_ok_of place.latitude.coordToDecimal_eq <|
  bind_ok_of place.longitude.coordToDecimal_eq <|
  bind_ok_of (floatOrNone_numberField speed) <|
  bind_ok_of (floatOrNone_numberField track) rfl

theorem parseGll_part :
    let r := gll place time_utc status rest
    parseGll talker (r.part address) = .ok (r.sentence talker) :=
  bind_ok_of place.latitude.coordToDecimal_eq <|
  bind_ok_of place.longitude.coordToDecimal_eq rfl

/-- A mode indicator shows a fix unless all its letters say that there is none. -/
theorem any_ite (mode : Text) :
    (if mode.any (· ≠ 'N') then 1 else 0 : ℤ) = if mode.all (· = 'N') then 0 else 1 := by
  have hnot : mode.any (· ≠ 'N') = !mode.all (· = 'N') := by
    rw [List.not_all_eq_any_not]
    exact congrArg mode.any (funext fun c ↦ decide_not)
  rw [hnot]
  cases mode.all (· = 'N') <;> rfl

theorem parseGns_part (h : 2 ≤ rest.length) :
    let r := gns time_utc place mode_indicator satellites hdop altitude geoid rest h
    parseGns talker (r.part address) = .ok (r.sentence talker) :=
  bind_ok_of place.latitude.coordToDecimal_eq <|
  bind_ok_of place.longitude.coordToDecimal_eq <|
  bind_ok_of (intOrZero_field satellites) <|
  bind_ok_of (floatOrNone_numberField hdop) <|
  bind_ok_of (floatOrNone_numberField altitude) <|
  bind_ok_of (floatOrNone_numberField geoid) <|
  congrArg (fun q ↦ Except.ok (Sentence.gns talker (orNone time_utc.text)
    (some place.latitude.value) (some place.longitude.value) mode_indicator.text q
    satellites.value (numberValue hdop) (numberValue altitude) (numberValue geoid)))
    (any_ite mode_indicator.text)

end

theorem layout_mem : ∀ r : Report, r.layout ∈ LAYOUTS
  | gga .. => show GGA ∈ LAYOUTS by decide
  | gns .. => show GNS ∈ LAYOUTS by decide
  | rmc .. => show RMC ∈ LAYOUTS by decide
  | gll .. => show GLL ∈ LAYOUTS by decide

theorem length_parts (r : Report) (address : Text) :
    r.layout.parts ≤ (address :: r.fields.map Field.text).length := by
  cases r <;>
    simp only [layout, GGA, GNS, RMC, GLL, fields, Place.fields, List.length_cons,
      List.length_map, List.length_append, List.length_nil] <;> omega

/-- The parts of a sentence hold no separators. -/
theorem unseparated_parts (r : Report) (talker : Field) :
    ∀ s ∈ (talker.text ++ r.layout.typ) :: r.fields.map Field.text, ',' ∉ s ∧ '*' ∉ s := by
  refine List.forall_mem_cons.mpr ⟨?_, fun s hs ↦ ?_⟩
  · have htyps : ∀ L ∈ LAYOUTS, ',' ∉ L.typ ∧ '*' ∉ L.typ := by decide
    have htyp := htyps r.layout r.layout_mem
    rw [List.mem_append, not_or, List.mem_append, not_or]
    exact ⟨⟨talker.comma_notMem, htyp.1⟩, talker.star_notMem, htyp.2⟩
  · obtain ⟨f, -, rfl⟩ := List.mem_map.mp hs
    exact ⟨f.comma_notMem, f.star_notMem⟩

theorem star_notMem_body (r : Report) (talker : Field) : '*' ∉ r.body talker := by
  intro h
  rcases mem_of_mem_intercalate h with h | ⟨s, hs, h⟩
  · exact absurd h (by decide)
  · exact (r.unseparated_parts talker s hs).2 h

theorem split_body (r : Report) (talker : Field) :
    split ',' (r.body talker) = (talker.text ++ r.layout.typ) :: r.fields.map Field.text :=
  split_intercalate (List.cons_ne_nil _ _) fun s hs ↦ (r.unseparated_parts talker s hs).1

end Report

/-- A sentence in the standard encoding, with its checksum and any blanks around it, is decoded
to what it says. -/
theorem parseSentence_report (r : Report) {talker : Field} (htalker : talker.text.length = 2)
    {csum : Text} (hcsum : IsChecksum (r.body talker) csum) {before after : Text}
    (hbefore : ∀ c ∈ before, isSpace c) (hafter : ∀ c ∈ after, isSpace c) :
    parseSentence (before ++ framed (r.body talker) csum ++ after) =
      .ok (some (r.sentence talker.text)) := by
  have hstar := r.star_notMem_body talker
  have htake : (talker.text ++ r.layout.typ).take 2 = talker.text := List.take_left' htalker
  have hdrop : (talker.text ++ r.layout.typ).drop 2 = r.layout.typ := List.drop_left' htalker
  have hlong : ¬ (talker.text ++ r.layout.typ).length < 5 := by
    have htyps : ∀ L ∈ LAYOUTS, L.typ.length = 3 := by decide
    rw [List.length_append, htalker, htyps r.layout r.layout_mem]
    decide
  have hparts := r.length_parts (talker.text ++ r.layout.typ)
  rw [parseSentence, strip_framed hcsum hbefore hafter, if_pos (checksumOk_framed hstar hcsum),
    takeWhile_framed hstar, decodeBody, r.split_body]
  simp only [List.getD_cons_zero, htake, hdrop, if_neg hlong]
  have hgns : ∀ t ∈ ["GGA", "RMC", "GLL", "VTG", "GSV"], "GNS".toList ≠ t.toList := by decide
  have hgll : ∀ t ∈ ["GGA", "RMC"], "GLL".toList ≠ t.toList := by decide
  have hrmc : "RMC".toList ≠ "GGA".toList := by decide
  cases r with
  | gga =>
      exact (if_pos ⟨rfl, hparts⟩).trans (congrArg (Except.map some) (Report.parseGga_part ..))
  | gns =>
      refine (if_neg fun h ↦ hgns "GGA" (by decide) h.1).trans ?_
      refine (if_neg fun h ↦ hgns "RMC" (by decide) h.1).trans ?_
      refine (if_neg fun h ↦ hgns "GLL" (by decide) h.1).trans ?_
      refine (if_neg fun h ↦ hgns "VTG" (by decide) h.1).trans ?_
      refine (if_neg fun h ↦ hgns "GSV" (by decide) h.1).trans ?_
      exact (if_pos ⟨rfl, hparts⟩).trans (congrArg (Except.map some) (Report.parseGns_part ..))
  | rmc =>
      refine (if_neg fun h ↦ hrmc h.1).trans ?_
      exact (if_pos ⟨rfl, hparts⟩).trans (congrArg (Except.map some) (Report.parseRmc_part ..))
  | gll =>
      refine (if_neg fun h ↦ hgll "GGA" (by decide) h.1).trans ?_
      refine (if_neg fun h ↦ hgll "RMC" (by decide) h.1).trans ?_
      exact (if_pos ⟨rfl, hparts⟩).trans (congrArg (Except.map some) (Report.parseGll_part ..))

/-- Seven degrees and five and a quarter minutes. -/
def southern : Reading .latitude :=
  ⟨7, 5, some "250".toList, true, by decide, by decide, List.all_eq_true.mp (by decide)⟩

def eastern : Reading .longitude :=
  ⟨20, 45, none, false, by decide, by decide, List.all_eq_true.mp rfl⟩

def gps : Field := ⟨"GP".toList, by decide, by decide⟩

def voidRmc : Report :=
  .rmc ⟨"123519".toList, by decide, by decide⟩ ⟨"V".toList, by decide, by decide⟩
    ⟨southern, eastern⟩ none none ⟨"230394".toList, by decide, by decide⟩
    [⟨[], by decide, by decide⟩, ⟨[], by decide, by decide⟩] (by decide)

theorem parseSentence_voidRmc :
    parseSentence " $GPRMC,123519,V,0705.250,S,02045,E,,,230394,,*0d\r\n".toList =
      .ok (some (.rmc "GP".toList (some "123519".toList) "V".toList (some (-567 / 80))
        (some (83 / 4)) none none (some "230394".toList))) := by
  have hchecksum : IsChecksum (voidRmc.body gps) "0d".toList :=
    ⟨'0', 'd', 0, 13, rfl, rfl, rfl, by decide +kernel⟩
  have htext : [' '] ++ framed (voidRmc.body gps) "0d".toList ++ "\r\n".toList =
      " $GPRMC,123519,V,0705.250,S,02045,E,,,230394,,*0d\r\n".toList := by decide +kernel
  have hsentence : voidRmc.sentence gps.text = .rmc "GP".toList (some "123519".toList) "V".toList
      (some (-567 / 80)) (some (83 / 4)) none none (some "230394".toList) := by decide +kernel
  rw [← htext, ← hsentence]
  exact parseSentence_report voidRmc rfl hchecksum (List.all_eq_true.mp rfl)
    (List.all_eq_true.mp (by decide))

end SensorFusion.Gps
