import SensorFusion.Python.Float
import SensorFusion.Python.Text

/-!
# Numbers read from and written to text

`float(s)`, `str.isdigit` and the fixed-point formats of f-strings.
-/

namespace SensorFusion

/-! ## Digits -/

namespace Text

/-- The characters of Unicode 15 that are digits and not decimal digits, as ranges. -/
def OTHER_DIGITS : List (ℕ × ℕ) :=
  [(0xb2, 0xb3), (0xb9, 0xb9), (0x1369, 0x1371), (0x19da, 0x19da), (0x2070, 0x2070),
   (0x2074, 0x2079), (0x2080, 0x2089), (0x2460, 0x2468), (0x2474, 0x247c), (0x2488, 0x2490),
   (0x24ea, 0x24ea), (0x24f5, 0x24fd), (0x24ff, 0x24ff), (0x2776, 0x277e), (0x2780, 0x2788),
   (0x278a, 0x2792), (0x10a40, 0x10a43), (0x10e60, 0x10e68), (0x11052, 0x1105a),
   (0x1f100, 0x1f10a)]

/-- `str.isdigit` of one code point. -/
def isDigitChar (c : Char) : Bool :=
  (DECIMAL_ZEROS.any fun z ↦ decide (z ≤ c.toNat ∧ c.toNat < z + 10)) ||
    OTHER_DIGITS.any fun r ↦ decide (r.1 ≤ c.toNat ∧ c.toNat ≤ r.2)

/-- `s.isdigit()`. -/
def isdigit (s : Text) : Bool := s ≠ [] && s.all isDigitChar

end Text

/-! ## `float` -/

namespace PyFloat

/-- The least magnitude that overflows to an infinity. -/
def OVERFLOW : ℚ := 2 ^ 1024 - 2 ^ 970

/-- A number that is not too large, or an infinity. -/
def ofRat (q : ℚ) : PyFloat :=
  if OVERFLOW ≤ q then .posInf else if q ≤ -OVERFLOW then .negInf else .fin q

/-- `-x`. -/
def neg : PyFloat → PyFloat
  | .fin q => .fin (-q)
  | .posInf => .negInf
  | .negInf => .posInf
  | .nan => .nan

theorem neg_overflow_lt : -OVERFLOW < 0 := by decide +kernel

theorem ofRat_of_nonneg {q : ℚ} (hq : 0 ≤ q) (hlt : q < OVERFLOW) : ofRat q = .fin q := by
  rw [ofRat, if_neg (not_le.mpr hlt), if_neg (not_le.mpr (neg_overflow_lt.trans_le hq))]

theorem neg_ofRat {q : ℚ} (hq : 0 ≤ q) : (ofRat q).neg = ofRat (-q) := by
  have hneg : ¬ OVERFLOW ≤ -q := not_le.mpr (by linarith [neg_overflow_lt])
  have hpos : ¬ q ≤ -OVERFLOW := not_le.mpr (neg_overflow_lt.trans_le hq)
  rw [ofRat, ofRat, if_neg hneg, if_neg hpos]
  by_cases h : OVERFLOW ≤ q
  · rw [if_pos h, if_pos (neg_le_neg h), neg]
  · rw [if_neg h, if_neg (mt neg_le_neg_iff.mp h), neg]

end PyFloat

namespace Text

/-- Drop the underscores of a literal, each of which has to stand between two digits;
`prev` tells whether a digit came before. -/
def dropUnderscores (prev : Bool) : Text → Option Text
  | [] => some []
  | '_' :: s =>
      match s with
      | d :: _ => if prev && d.isDigit then dropUnderscores false s else none
      | [] => none
  | c :: s => (dropUnderscores c.isDigit s).map (c :: ·)

/-- `mantissa · 10 ^ exponent`. -/
def scale (mantissa : ℕ) (exponent : ℤ) : ℚ :=
  if 0 ≤ exponent then mantissa * 10 ^ exponent.toNat else mantissa / 10 ^ (-exponent).toNat

/-- The exponent part of a literal, which may be missing. -/
def exponent? : Text → Option ℤ
  | [] => some 0
  | e :: s =>
      if e = 'e' ∨ e = 'E' then
        signed? (fun ds ↦ if ds ≠ [] && ds.all Char.isDigit then nat? 10 ds else none) s
      else none

/-- An unsigned literal in digits: an integer part, a fraction and an exponent. -/
def decimalFloat? (s : Text) : Option ℚ :=
  let whole := s.takeWhile Char.isDigit
  let rest := s.dropWhile Char.isDigit
  let fraction := if rest.head? = some '.' then rest.tail.takeWhile Char.isDigit else []
  let rest := if rest.head? = some '.' then rest.tail.dropWhile Char.isDigit else rest
  if whole ++ fraction = [] then none
  else do
    let exponent ← exponent? rest
    let mantissa ← nat? 10 (whole ++ fraction)
    pure (scale mantissa (exponent - fraction.length))

/-- An unsigned literal of `float(s)`. -/
def unsignedFloat? (s : Text) : Option PyFloat :=
  match decimalFloat? s with
  | some q => some (.ofRat q)
  | none =>
      let lower := s.map Char.toLower
      if lower = "inf".toList ∨ lower = "infinity".toList then some .posInf
      else if lower = "nan".toList then some .nan
      else none

/-- `float(s)`; `none` is `ValueError`. -/
def float? (s : Text) : Option PyFloat :=
  match dropUnderscores false (literal s) with
  | some ('+' :: s) => unsignedFloat? s
  | some ('-' :: s) => (unsignedFloat? s).map PyFloat.neg
  | some s => unsignedFloat? s
  | none => none

example : float? " -1_0.5e-1 ".toList = some (.fin (-21 / 20)) := by decide +kernel

end Text

/-! ## Formats -/

/-- The digits of a number, with enough zeros in front for `digits` decimals. -/
def fixedDigits (digits n : ℕ) : Text :=
  List.replicate (digits + 1 - (Nat.toDigits 10 n).length) '0' ++ Nat.toDigits 10 n

/-- A magnitude in units of the last decimal. -/
def fixedUnits (digits : ℕ) (q : ℚ) : ℕ := (roundHalfEven (|q| * 10 ^ digits)).toNat

/-- `f"{q:.<digits>f}"` of a finite number. -/
def formatFixed (digits : ℕ) (q : ℚ) : Text :=
  let ds := fixedDigits digits (fixedUnits digits q)
  (if q < 0 then ['-'] else []) ++ ds.take (ds.length - digits) ++
    if digits = 0 then [] else '.' :: ds.drop (ds.length - digits)

/-- `f"{x:.<digits>f}"`. -/
def PyFloat.format (digits : ℕ) : PyFloat → Text
  | .fin q => formatFixed digits q
  | .posInf => "inf".toList
  | .negInf => "-inf".toList
  | .nan => "nan".toList

example : formatFixed 1 (-41 / 4) = "-10.2".toList := by decide +kernel

/-- A float with the sign of a zero, which shows where it is written. -/
inductive SignedFloat where
  | float (x : PyFloat)
  | negZero
deriving DecidableEq, Repr

namespace SignedFloat

abbrev fin (q : ℚ) : SignedFloat := .float (.fin q)

/-- `f"{x:.<digits>f}"`. -/
def format (digits : ℕ) : SignedFloat → Text
  | .float x => x.format digits
  | .negZero => '-' :: formatFixed digits 0

def IsFinite : SignedFloat → Prop
  | .float (.fin _) | .negZero => True
  | .float _ => False

/-- It is written with a minus sign. -/
def minus : SignedFloat → Bool
  | .float (.fin q) => decide (q < 0)
  | .float x => decide (x = .negInf)
  | .negZero => true

end SignedFloat

/-- `int(q)` of a finite number, which drops the fraction. -/
def truncate (q : ℚ) : ℤ := if 0 ≤ q then ⌊q⌋ else ⌈q⌉

/-! ## Reading a format back -/

namespace Text

theorem digit?_of_isDigit {c : Char} (h : c.isDigit) :
    digit? 10 c = some (c.toNat - '0'.toNat) := by
  have hrange := Char.isDigit_iff_toNat.mp h
  unfold digit?
  dsimp only
  rw [if_pos hrange, if_pos]
  have : '9'.toNat = '0'.toNat + 9 := rfl
  omega

theorem isDigit_of_mem_toDigits {n : ℕ} {c : Char} (h : c ∈ Nat.toDigits 10 n) : c.isDigit :=
  Nat.isDigit_of_mem_toDigits (by decide) (by decide) h

/-- A digit is none of the other characters of a literal. -/
theorem ne_of_isDigit {c d : Char} (h : c.isDigit) (hd : d.isDigit = false) : c ≠ d := by
  rintro rfl
  rw [h] at hd
  cases hd

theorem digits?_of_digits {s : Text} (h : ∀ c ∈ s, c.isDigit) (acc : ℕ) :
    digits? 10 acc s = some (Nat.ofDigitChars 10 s acc) := by
  induction s generalizing acc with
  | nil => rfl
  | cons c s ih =>
      obtain ⟨hc, hs⟩ := List.forall_mem_cons.mp h
      rw [digits?, digit?_of_isDigit hc, Option.bind_some, ih hs, Nat.ofDigitChars_cons]
      rintro c' s' rfl -
      exact ne_of_isDigit hc rfl rfl

theorem nat?_of_digits {s : Text} (hne : s ≠ []) (h : ∀ c ∈ s, c.isDigit) :
    nat? 10 s = some (Nat.ofDigitChars 10 s 0) := by
  cases s with
  | nil => exact absurd rfl hne
  | cons c s =>
      obtain ⟨hc, hs⟩ := List.forall_mem_cons.mp h
      rw [nat?, digit?_of_isDigit hc, Option.bind_some, digits?_of_digits hs, Nat.ofDigitChars_cons,
        Nat.mul_zero, Nat.zero_add]

/-- A text without blanks at its ends is not stripped. -/
theorem stripBy_eq_self {p : Char → Bool} {s : Text} (h : ∀ c ∈ s, p c = false) :
    stripBy p s = s := by
  have hdrop : s.dropWhile p = s := by
    cases s with
    | nil => rfl
    | cons c s => rw [List.dropWhile_cons, h c List.mem_cons_self, if_neg Bool.false_ne_true]
  rw [stripBy, hdrop, rstripBy, List.rdropWhile_eq_self_iff]
  intro hne
  rw [h _ (List.getLast_mem hne)]
  exact Bool.false_ne_true

/-- A text of digits, points and minus signs is a literal as it stands. -/
theorem literal_eq_self {s : Text} (h : ∀ c ∈ s, c.isDigit ∨ c = '.' ∨ c = '-') :
    literal s = s := by
  have hplain : ∀ c ∈ s, toAscii c = c ∧ isCSpace c = false := by
    intro c hc
    rcases h c hc with hd | rfl | rfl
    · obtain ⟨h₁, h₂⟩ := Char.isDigit_iff_toNat.mp hd
      have h₀ : '0'.toNat = 48 := rfl
      have h₉ : '9'.toNat = 57 := rfl
      refine ⟨if_pos (by omega), ?_⟩
      unfold isCSpace
      simp only [Bool.or_eq_false_iff, Bool.and_eq_false_iff, decide_eq_false_iff_not,
        beq_eq_false_iff_ne]
      omega
    · exact ⟨rfl, rfl⟩
    · exact ⟨rfl, rfl⟩
  have hmap : s.map toAscii = s :=
    (List.map_congr_left fun c hc ↦ (hplain c hc).1).trans (List.map_id' s)
  rw [literal, hmap]
  exact stripBy_eq_self fun c hc ↦ (hplain c hc).2

theorem dropUnderscores_eq_self {s : Text} (h : '_' ∉ s) (b : Bool) :
    dropUnderscores b s = some s := by
  induction s generalizing b with
  | nil => rfl
  | cons c s ih =>
      rw [List.mem_cons, not_or] at h
      rw [dropUnderscores, ih h.2, Option.map_some]
      rintro rfl
      exact h.1 rfl

theorem scale_neg (n d : ℕ) : scale n (0 - d) = n / 10 ^ d := by
  unfold scale
  cases d with
  | zero => simp
  | succ d =>
      rw [if_neg (by push_cast; omega)]
      congr 2

/-! ### Decimals -/

/-- Digits, which may have a point among them. -/
structure Decimal where
  whole : Text
  fraction : Option Text
  ne_nil : whole ++ fraction.getD [] ≠ []
  isDigit_whole : ∀ c ∈ whole, c.isDigit
  isDigit_fraction : ∀ c ∈ fraction.getD [], c.isDigit

namespace Decimal

variable (d : Decimal)

def text : Text := d.whole ++ (d.fraction.map ('.' :: ·)).getD []

/-- The digits, in units of the last one. -/
def value : ℚ :=
  Nat.ofDigitChars 10 (d.whole ++ d.fraction.getD []) 0 / 10 ^ (d.fraction.getD []).length

theorem value_nonneg : 0 ≤ d.value := by
  unfold value
  positivity

variable {d}

theorem isDigit_or_point {c : Char} (h : c ∈ d.text) : c.isDigit ∨ c = '.' := by
  rcases List.mem_append.mp h with h | h
  · exact .inl (d.isDigit_whole c h)
  · have hfraction := d.isDigit_fraction
    cases hf : d.fraction with
    | none =>
        rw [hf] at h
        exact absurd h List.not_mem_nil
    | some ds =>
        rw [hf] at h hfraction
        exact (List.mem_cons.mp h).elim .inr fun h ↦ .inl (hfraction c h)

theorem notMem_text {c : Char} (hdigit : c.isDigit = false) (hpoint : c ≠ '.') : c ∉ d.text :=
  fun h ↦ (isDigit_or_point h).elim (fun hc ↦ ne_of_isDigit hc hdigit rfl) hpoint

variable (d)

theorem decimalFloat?_text : decimalFloat? d.text = some d.value := by
  have htake : d.text.takeWhile Char.isDigit = d.whole := by
    rw [text, List.takeWhile_append_of_pos d.isDigit_whole]
    cases d.fraction <;> exact List.append_nil _
  have hdrop : d.text.dropWhile Char.isDigit = (d.fraction.map ('.' :: ·)).getD [] := by
    rw [text, List.dropWhile_append_of_pos d.isDigit_whole]
    cases d.fraction <;> rfl
  have hall : ∀ c ∈ d.whole ++ d.fraction.getD [], c.isDigit := by
    intro c hc
    exact (List.mem_append.mp hc).elim (d.isDigit_whole c) (d.isDigit_fraction c)
  have hnat := nat?_of_digits d.ne_nil hall
  have hne := d.ne_nil
  have hfraction := d.isDigit_fraction
  unfold decimalFloat? value
  dsimp only
  rw [htake, hdrop]
  cases hf : d.fraction with
  | none =>
      rw [hf, Option.getD_none] at hne hnat
      rw [Option.map_none, Option.getD_none, List.head?_nil, if_neg (Option.some_ne_none _).symm,
        if_neg (Option.some_ne_none _).symm, if_neg hne, ← scale_neg]
      show (nat? 10 _).bind _ = _
      rw [hnat]
      rfl
  | some ds =>
      rw [hf, Option.getD_some] at hne hnat hfraction
      rw [Option.map_some, Option.getD_some, Option.getD_some, List.head?_cons, if_pos rfl,
        if_pos rfl, List.tail_cons, List.takeWhile_eq_self_iff.mpr hfraction,
        List.dropWhile_eq_nil_iff.mpr hfraction, if_neg hne, ← scale_neg]
      show (nat? 10 _).bind _ = _
      rw [hnat]
      rfl

theorem unsignedFloat?_text : unsignedFloat? d.text = some (.ofRat d.value) := by
  rw [unsignedFloat?, decimalFloat?_text]

theorem float?_text : float? d.text = some (.ofRat d.value) := by
  have hliteral : literal d.text = d.text :=
    literal_eq_self fun c hc ↦ (isDigit_or_point hc).imp_right .inl
  have hunder := dropUnderscores_eq_self (d.notMem_text (c := '_') rfl (by decide)) false
  unfold float?
  rw [hliteral, hunder]
  split
  · rename_i heq
    exact absurd (Option.some.inj heq ▸ List.mem_cons_self) (d.notMem_text rfl (by decide))
  · rename_i heq
    exact absurd (Option.some.inj heq ▸ List.mem_cons_self) (d.notMem_text rfl (by decide))
  · rename_i heq
    rw [← Option.some.inj heq, unsignedFloat?_text]
  · rename_i heq
    cases heq

theorem float?_neg_text : float? ('-' :: d.text) = some (PyFloat.neg (.ofRat d.value)) := by
  have hliteral : literal ('-' :: d.text) = '-' :: d.text :=
    literal_eq_self (List.forall_mem_cons.mpr
      ⟨.inr (.inr rfl), fun c hc ↦ (isDigit_or_point hc).imp_right .inl⟩)
  have hunder : '_' ∉ '-' :: d.text := by
    rw [List.mem_cons, not_or]
    exact ⟨by decide, d.notMem_text rfl (by decide)⟩
  rw [float?, hliteral, dropUnderscores_eq_self hunder]
  show (unsignedFloat? d.text).map PyFloat.neg = _
  rw [unsignedFloat?_text, Option.map_some]

end Decimal

end Text

theorem isDigit_of_mem_fixedDigits {digits n : ℕ} : ∀ c ∈ fixedDigits digits n, c.isDigit := by
  intro c hc
  rcases List.mem_append.mp hc with hc | hc
  · rw [List.eq_of_mem_replicate hc]
    rfl
  · exact Text.isDigit_of_mem_toDigits hc

theorem ofDigitChars_fixedDigits (digits n : ℕ) :
    Nat.ofDigitChars 10 (fixedDigits digits n) 0 = n := by
  rw [fixedDigits, Nat.ofDigitChars_append, Nat.ofDigitChars_replicate_zero, Nat.mul_zero,
    Nat.ofDigitChars_ten_toDigits]

theorem lt_length_fixedDigits (digits n : ℕ) : digits < (fixedDigits digits n).length := by
  rw [fixedDigits, List.length_append, List.length_replicate]
  omega

/-- Only zero is written with a zero in front. -/
theorem eq_zero_of_head?_toDigits {n : ℕ} (h : (Nat.toDigits 10 n).head? = some '0') : n = 0 := by
  induction n using Nat.strong_induction_on with
  | _ n ih =>
    by_cases hn : n < 10
    · rw [Nat.toDigits_of_lt_base hn, List.head?_cons, Option.some.injEq] at h
      have hsub := Nat.toNat_digitChar_sub_48_of_lt_ten hn
      rw [h] at hsub
      exact hsub.symm
    · have hdiv : n / 10 < n := Nat.div_lt_self (by omega) (by decide)
      rw [Nat.toDigits_of_base_le (by decide) (not_lt.mp hn),
        List.head?_append_of_ne_nil _ Nat.toDigits_ne_nil] at h
      have hzero := ih _ hdiv h
      omega

/-- In front of the decimals, a zero stands alone. -/
theorem whole_fixedDigits {digits n : ℕ}
    (h : ((fixedDigits digits n).take ((fixedDigits digits n).length - digits)).head? =
      some '0') :
    (fixedDigits digits n).take ((fixedDigits digits n).length - digits) = ['0'] := by
  by_cases hlen : (Nat.toDigits 10 n).length ≤ digits
  · obtain ⟨k, hk⟩ : ∃ k, digits + 1 - (Nat.toDigits 10 n).length = k + 1 :=
      ⟨digits - (Nat.toDigits 10 n).length, by omega⟩
    have htotal : (fixedDigits digits n).length - digits = 1 := by
      rw [fixedDigits, List.length_append, List.length_replicate]
      omega
    rw [htotal, fixedDigits, hk, List.replicate_succ]
    rfl
  · have hdigits : fixedDigits digits n = Nat.toDigits 10 n := by
      rw [fixedDigits, Nat.sub_eq_zero_of_le (by omega), List.replicate_zero, List.nil_append]
    rw [hdigits] at h ⊢
    rw [List.head?_take, if_neg (by omega)] at h
    obtain rfl := eq_zero_of_head?_toDigits h
    rw [Nat.toDigits_zero] at hlen ⊢
    obtain rfl : digits = 0 := by simpa using hlen
    rfl

/-- The number that a fixed-point format shows. -/
def fixedValue (digits : ℕ) (q : ℚ) : ℚ :=
  (if q < 0 then -1 else 1) * (fixedUnits digits q / 10 ^ digits)

theorem cast_fixedUnits (digits : ℕ) (q : ℚ) :
    (fixedUnits digits q : ℚ) = roundHalfEven (|q| * 10 ^ digits) := by
  have hpos : 0 ≤ roundHalfEven (|q| * 10 ^ digits) := roundHalfEven_nonneg (by positivity)
  rw [fixedUnits, ← Int.cast_natCast, Int.toNat_of_nonneg hpos]

/-- The number shown is within half a unit of the last decimal. -/
theorem abs_fixedValue_sub_le (digits : ℕ) (q : ℚ) :
    |fixedValue digits q - q| ≤ 1 / 2 / 10 ^ digits := by
  have hten : (0 : ℚ) < 10 ^ digits := by positivity
  have hround := abs_roundHalfEven_sub_le (|q| * 10 ^ digits)
  rw [← cast_fixedUnits] at hround
  have hunits : abs (fixedUnits digits q / 10 ^ digits - |q|) ≤ 1 / 2 / 10 ^ digits := by
    rw [← mul_div_cancel_right₀ |q| hten.ne', ← sub_div, abs_div, abs_of_pos hten]
    exact div_le_div_of_nonneg_right hround hten.le
  unfold fixedValue
  by_cases hq : q < 0
  · rw [if_pos hq, neg_one_mul, ← abs_neg, neg_sub, sub_neg_eq_add, add_comm]
    rwa [abs_of_neg hq, sub_neg_eq_add] at hunits
  · rw [if_neg hq, one_mul]
    rwa [abs_of_nonneg (not_lt.mp hq)] at hunits

theorem abs_fixedValue (digits : ℕ) (q : ℚ) :
    |fixedValue digits q| = fixedUnits digits q / 10 ^ digits := by
  have hpos : (0 : ℚ) ≤ fixedUnits digits q / 10 ^ digits := by positivity
  unfold fixedValue
  rw [abs_mul, abs_of_nonneg hpos]
  split
  · rw [abs_neg, abs_one, one_mul]
  · rw [abs_one, one_mul]

/-- Rounding to decimals does not cross a whole number. -/
theorem abs_fixedValue_le {digits bound : ℕ} (hdigits : 0 < digits) {q : ℚ} (hq : |q| ≤ bound) :
    |fixedValue digits q| ≤ bound := by
  have hten : (0 : ℚ) < 10 ^ digits := by positivity
  obtain ⟨d, rfl⟩ := Nat.exists_eq_succ_of_ne_zero hdigits.ne'
  have heven : ((bound * 10 ^ (d + 1) : ℕ) : ℤ) % 2 = 0 := by
    rw [pow_succ, ← Nat.mul_assoc]
    omega
  have hle : |q| * 10 ^ (d + 1) ≤ ((bound * 10 ^ (d + 1) : ℕ) : ℤ) + 1 / 2 := by
    have := mul_le_mul_of_nonneg_right hq hten.le
    rw [Nat.succ_eq_add_one] at this
    push_cast
    linarith
  have hround := (roundHalfEven_le_iff heven).mpr hle
  rw [abs_fixedValue, div_le_iff₀ hten, cast_fixedUnits]
  exact_mod_cast hround

/-- A fixed-point format reads back as the number it shows. -/
theorem float?_formatFixed {digits : ℕ} (hdigits : 0 < digits) {q : ℚ}
    (hq : |fixedValue digits q| < PyFloat.OVERFLOW) :
    Text.float? (formatFixed digits q) = some (.fin (fixedValue digits q)) := by
  rw [abs_fixedValue] at hq
  have hlen := lt_length_fixedDigits digits (fixedUnits digits q)
  have hvalue := ofDigitChars_fixedDigits digits (fixedUnits digits q)
  have hall := @isDigit_of_mem_fixedDigits digits (fixedUnits digits q)
  unfold formatFixed
  generalize fixedDigits digits (fixedUnits digits q) = ds at *
  dsimp only
  rw [if_neg hdigits.ne']
  have hwhole : ∀ c ∈ ds.take (ds.length - digits), c.isDigit :=
    fun c hc ↦ hall c (List.mem_of_mem_take hc)
  have hfrac : ∀ c ∈ ds.drop (ds.length - digits), c.isDigit :=
    fun c hc ↦ hall c (List.mem_of_mem_drop hc)
  have hfraclen : (ds.drop (ds.length - digits)).length = digits := by
    rw [List.length_drop]
    omega
  have hne : ds.take (ds.length - digits) ≠ [] := by
    intro h
    rw [List.take_eq_nil_iff] at h
    rcases h with h | rfl
    · omega
    · exact absurd hlen (Nat.not_lt_zero _)
  let d : Text.Decimal :=
    ⟨ds.take (ds.length - digits), some (ds.drop (ds.length - digits)),
      fun h ↦ hne (List.append_eq_nil_iff.mp h).1, hwhole, hfrac⟩
  have hd : PyFloat.ofRat d.value = .fin (fixedUnits digits q / 10 ^ digits) := by
    have hdvalue : d.value = fixedUnits digits q / 10 ^ digits := by
      show (Nat.ofDigitChars 10 (ds.take _ ++ ds.drop (ds.length - digits)) 0 : ℚ) /
        10 ^ (ds.drop (ds.length - digits)).length = _
      rw [List.take_append_drop, hvalue, hfraclen]
    rw [PyFloat.ofRat_of_nonneg d.value_nonneg (hdvalue ▸ hq), hdvalue]
  unfold fixedValue
  by_cases hneg : q < 0
  · rw [if_pos hneg, if_pos hneg, neg_one_mul]
    exact d.float?_neg_text.trans (by rw [hd, PyFloat.neg])
  · rw [if_neg hneg, if_neg hneg, one_mul]
    exact d.float?_text.trans (by rw [hd])

/-- The text of a float reads back as the float, to the decimals that are shown, and
within the same whole bounds. -/
theorem float?_format {digits : ℕ} (hdigits : 0 < digits) {x : PyFloat} (hx : x.Representable) :
    ∃ y, Text.float? (x.format digits) = some y ∧ y.Near digits x ∧
      ∀ bound, x.Within bound → y.Within bound := by
  cases x with
  | fin q =>
      have hmax : (PyFloat.MAX : ℚ) < PyFloat.OVERFLOW := by decide +kernel
      have hlt := (abs_fixedValue_le hdigits hx).trans_lt hmax
      exact ⟨_, float?_formatFixed hdigits hlt, abs_fixedValue_sub_le digits q,
        fun _ hq ↦ abs_fixedValue_le hdigits hq⟩
  | posInf => exact ⟨.posInf, rfl, rfl, fun _ h ↦ h⟩
  | negInf => exact ⟨.negInf, rfl, rfl, fun _ h ↦ h⟩
  | nan => exact ⟨.nan, rfl, rfl, fun _ h ↦ h⟩

end SensorFusion
