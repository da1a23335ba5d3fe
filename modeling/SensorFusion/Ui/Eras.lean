import Mathlib.Algebra.Order.Archimedean.Real.Basic
import SensorFusion.Python.Double
import SensorFusion.Ui.Sntp

/-!
# Times of other eras

Both probes read the seconds of a timestamp as seconds of the era that began in 1900, and
neither looks at its own clock for which era it is.  And both compute with doubles, of which
those of our time are `2 ^ -22` s apart, where a timestamp counts units of `2 ^ -32` s.  Here the
probes are written with what an operation does to its result as a parameter: with nothing done
to it they are the ones that the rest is about, and with `Double.round` they are the programs.
-/

namespace SensorFusion.Ui

open Wire (Bytes)
open Ntp

/-! ## The probes, operation by operation -/

section Rounded

variable (fl : ℚ → ℚ)

/-- An NTP timestamp as a Unix time.  The subtraction is one of integers, which then become a
float, and so does the quotient. -/
def unixTimeIn (int frac : ℕ) : ℚ := fl (fl (int - NTP_TO_UNIX) + fl (frac / 2 ^ 32))

/-- `t1` of `_query_sync`. -/
def receiveTimeIn (data : Bytes) : ℚ :=
  unixTimeIn fl (beValue ((data.drop 32).take 4)) (beValue ((data.drop 36).take 4))

/-- `t2` of `_query_sync`, and `server_unix` of `_sntp_probe`. -/
def transmitTimeIn (data : Bytes) : ℚ :=
  unixTimeIn fl (beValue ((data.drop 40).take 4)) (beValue ((data.drop 44).take 4))

/-- `_query_sync`. -/
def querySyncIn (server : Text) : Ntp.Exchange → Except String NtpResult
  | .network exc => .ok (.failed server ("network: " ++ exc))
  | .raised exc => .error exc
  | .reply t0 datagram t3 =>
      let data := datagram.take 48
      if data.length < 48 then
        .ok (.failed server ("short reply: " ++ toString data.length ++ " bytes"))
      else
        let t1 := receiveTimeIn fl data
        let t2 := transmitTimeIn fl data
        let offset := fl (fl (fl (t1 - t0) + fl (t2 - t3)) / 2)
        let rtt := fl (fl (t3 - t0) - fl (t2 - t1))
        .ok ⟨server, true, some offset, some rtt, none, severityOf |offset|⟩

/-- `_sntp_probe`. -/
def sntpProbeIn : Ntp.Exchange → Except String SntpResult
  | .network exc => .ok (.failed exc)
  | .raised exc => .error exc
  | .reply t_send datagram t_recv =>
      let data := datagram.take 1024
      if data.length < 48 then
        .ok (.failed ("short reply (" ++ toString data.length ++ " bytes)"))
      else
        let server_unix := transmitTimeIn fl data
        let rtt := fl (t_recv - t_send)
        let offset := fl (server_unix - fl (t_send + fl (rtt / 2)))
        .ok ⟨true, sntpSeverity |offset|, none, some offset, some rtt⟩

end Rounded

/-- Without rounding, these are the probes as they are elsewhere. -/
theorem querySyncIn_id : querySyncIn id = querySync := by
  funext server x
  cases x <;> rfl

theorem sntpProbeIn_id : sntpProbeIn id = sntpProbe := by
  funext x
  cases x <;> rfl

/-! ## Eras -/

/-- The seconds since 1900 of a time, as far as a timestamp holds them. -/
noncomputable def eraSeconds (T : ℝ) : ℕ := ⌊T + NTP_TO_UNIX⌋₊ % 2 ^ 32

/-- The fraction of a second, in the units of a timestamp. -/
noncomputable def eraFraction (T : ℝ) : ℕ :=
  ⌊(T + NTP_TO_UNIX - ⌊T + NTP_TO_UNIX⌋₊) * 2 ^ 32⌋₊

/-- The timestamp that a server sends for a time of any era. -/
noncomputable def eraStamp (T : ℝ) : Bytes :=
  beBytes 4 (eraSeconds T) ++ beBytes 4 (eraFraction T)

/-- A reply with a timestamp in the place of both. -/
noncomputable def eraReply (header : Bytes) (T : ℝ) (rest : Bytes) : Bytes :=
  header ++ (eraStamp T ++ (eraStamp T ++ rest))

/-- Both probes take the times in a reply for `T`, up to a unit of the timestamps: `_query_sync`
those in the 48 bytes that it receives, and `_sntp_probe` the one in its 1024 bytes. -/
def Decode (T : ℝ) (datagram : Bytes) : Prop :=
  |(receiveTimeIn Double.round (datagram.take 48) : ℝ) - T| ≤ 1 / 2 ^ 32 ∧
    |(transmitTimeIn Double.round (datagram.take 48) : ℝ) - T| ≤ 1 / 2 ^ 32 ∧
    |(transmitTimeIn Double.round (datagram.take 1024) : ℝ) - T| ≤ 1 / 2 ^ 32

/-- The time is before the end of the first era, and `n` units after 1970 it is close enough to a
double: `n` is one, or it is one unit before the double that is next to it, or it is one behind
and the time has nothing more than its units. -/
def Decodable (T : ℝ) : Prop :=
  T + NTP_TO_UNIX < 2 ^ 32 ∧
    let n := ⌊T * 2 ^ 32⌋₊
    let m := Double.spacing n
    n % m = 0 ∨ n % m = 1 ∧ T * 2 ^ 32 = n ∨ n % m + 1 = m ∧ (m = 2 → n % 4 = 3)

section Eras

variable {T : ℝ}

/-- The whole seconds of a time, and the units of the rest. -/
theorem floor_mem (hT : 0 ≤ T + NTP_TO_UNIX) :
    (⌊T + NTP_TO_UNIX⌋₊ : ℝ) ≤ T + NTP_TO_UNIX ∧ T + NTP_TO_UNIX < ⌊T + NTP_TO_UNIX⌋₊ + 1 ∧
      eraFraction T ≤ (T + NTP_TO_UNIX - ⌊T + NTP_TO_UNIX⌋₊) * 2 ^ 32 ∧
      (T + NTP_TO_UNIX - ⌊T + NTP_TO_UNIX⌋₊) * 2 ^ 32 < eraFraction T + 1 := by
  have hle := Nat.floor_le hT
  exact ⟨hle, Nat.lt_floor_add_one _,
    Nat.floor_le (mul_nonneg (sub_nonneg.mpr hle) (by positivity)), Nat.lt_floor_add_one _⟩

theorem eraFraction_lt (hT : 0 ≤ T + NTP_TO_UNIX) : eraFraction T < 2 ^ 32 := by
  obtain ⟨-, hlt, hfraction, -⟩ := floor_mem hT
  have hcast : (eraFraction T : ℝ) < 2 ^ 32 := by linarith
  exact_mod_cast hcast

theorem eraSeconds_lt (T : ℝ) : eraSeconds T < 2 ^ 32 := Nat.mod_lt _ (by positivity)

/-- What a timestamp loses of a time: whole eras, and less than a unit. -/
theorem eraStamp_loss (hT : 0 ≤ T + NTP_TO_UNIX) :
    ∃ ε : ℝ, 0 ≤ ε ∧ ε < 1 / 2 ^ 32 ∧ T - (unixTime (eraSeconds T) (eraFraction T) : ℚ) =
      2 ^ 32 * (⌊T + NTP_TO_UNIX⌋₊ / 2 ^ 32 : ℕ) + ε := by
  obtain ⟨-, -, hle, hlt⟩ := floor_mem hT
  have hera : (2 ^ 32 * (⌊T + NTP_TO_UNIX⌋₊ / 2 ^ 32 : ℕ) + eraSeconds T : ℝ) =
      ⌊T + NTP_TO_UNIX⌋₊ := by
    exact_mod_cast Nat.div_add_mod ⌊T + NTP_TO_UNIX⌋₊ (2 ^ 32)
  refine ⟨T + NTP_TO_UNIX - ⌊T + NTP_TO_UNIX⌋₊ - eraFraction T / 2 ^ 32, ?_, ?_, ?_⟩
  · linarith
  · linarith
  · rw [unixTime]
    push_cast
    linarith

/-- No whole era is lost just in the first. -/
theorem div_eq_zero_iff (hT : 0 ≤ T + NTP_TO_UNIX) :
    ⌊T + NTP_TO_UNIX⌋₊ / 2 ^ 32 = 0 ↔ T + NTP_TO_UNIX < 2 ^ 32 := by
  rw [Nat.div_eq_zero_iff_lt (by positivity), Nat.floor_lt hT]
  norm_num

/-! ### Rounding -/

/-- Only the sum is rounded: the difference and the quotient are doubles. -/
theorem unixTimeIn_round {int frac : ℕ} (hint : int < 2 ^ 32) (hfrac : frac < 2 ^ 32) :
    unixTimeIn Double.round int frac = Double.round (unixTime int frac) := by
  have hdiff : Double.round (int - NTP_TO_UNIX) = int - NTP_TO_UNIX := by
    have hround := Double.round_mul_zpow (n := (int : ℤ) - 2208988800) (k := 0) (by decide)
      (by rw [abs_lt]; omega)
    rw [zpow_zero, mul_one] at hround
    push_cast at hround
    exact hround
  have hquotient : Double.round (frac / 2 ^ 32) = frac / 2 ^ 32 := by
    have hround := Double.round_mul_zpow (n := (frac : ℤ)) (k := -32) (by decide)
      (by rw [abs_lt]; omega)
    rwa [Int.cast_natCast, zpow_neg, ← div_eq_mul_inv] at hround
  rw [unixTimeIn, hdiff, hquotient, unixTime]

/-- Rounding moves no timestamp by a second. -/
theorem abs_round_unixTime_le {int frac : ℕ} (hint : int < 2 ^ 32) (hfrac : frac < 2 ^ 32) :
    |Double.round (unixTime int frac) - unixTime int frac| ≤ 1 := by
  have hint' : (int : ℚ) < 2 ^ 32 := by exact_mod_cast hint
  have hfrac' : (frac / 2 ^ 32 : ℚ) < 1 := by
    rw [div_lt_one (by positivity)]
    exact_mod_cast hfrac
  have hsize : |unixTime int frac| < 2 ^ (53 + -20 : ℤ) := by
    have hint0 : (0 : ℚ) ≤ int := int.cast_nonneg
    have hfrac0 : (0 : ℚ) ≤ frac / 2 ^ 32 := by positivity
    rw [unixTime, NTP_TO_UNIX, abs_lt]
    norm_num
    constructor <;> linarith
  exact (Double.abs_round_sub_le (by decide) hsize).trans (by norm_num)

/-- In the first era a timestamp is the units since 1970. -/
theorem unixTime_first (hT : 0 ≤ T) (hfirst : T + NTP_TO_UNIX < 2 ^ 32) :
    unixTime (eraSeconds T) (eraFraction T) = ⌊T * 2 ^ 32⌋₊ * 2 ^ (-32 : ℤ) := by
  have hpos : 0 ≤ T + NTP_TO_UNIX := add_nonneg hT (by norm_num [NTP_TO_UNIX])
  obtain ⟨ε, hnonneg, hlt, hloss⟩ := eraStamp_loss hpos
  rw [(div_eq_zero_iff hpos).mpr hfirst, Nat.cast_zero, mul_zero, zero_add] at hloss
  have hunits : ∃ k : ℤ, unixTime (eraSeconds T) (eraFraction T) = k * 2 ^ (-32 : ℤ) := by
    refine ⟨(eraSeconds T - 2208988800) * 2 ^ 32 + eraFraction T, ?_⟩
    rw [unixTime, NTP_TO_UNIX, zpow_neg]
    push_cast
    ring
  obtain ⟨k, hk⟩ := hunits
  have htime : T * 2 ^ 32 = k + ε * 2 ^ 32 := by
    rw [hk, zpow_neg] at hloss
    push_cast at hloss
    linarith
  have hk0 : 0 ≤ k := by
    have hgt : (-1 : ℝ) < k := by linarith [mul_nonneg hT (by positivity : (0 : ℝ) ≤ 2 ^ 32)]
    exact Int.lt_add_one_iff.mp (by exact_mod_cast (by linarith : (0 : ℝ) < k + 1))
  obtain ⟨n, rfl⟩ := Int.eq_ofNat_of_zero_le hk0
  have hfloor : ⌊T * 2 ^ 32⌋₊ = n := by
    rw [Int.cast_natCast] at htime
    rw [htime, Nat.floor_eq_iff (by positivity)]
    constructor <;> linarith
  rw [hk, hfloor, Int.cast_natCast]

/-- What is decoded is for `T` just when `T` is decodable. -/
theorem abs_decoded_le_iff (hT : 0 ≤ T) :
    |(unixTimeIn Double.round (eraSeconds T) (eraFraction T) : ℝ) - T| ≤ 1 / 2 ^ 32 ↔
      Decodable T := by
  have hpos : 0 ≤ T + NTP_TO_UNIX := add_nonneg hT (by norm_num [NTP_TO_UNIX])
  rw [unixTimeIn_round (eraSeconds_lt T) (eraFraction_lt hpos), Decodable]
  by_cases hfirst : T + NTP_TO_UNIX < 2 ^ 32
  · -- in units, the time is rounded as its whole units are
    have hle : ⌊T * 2 ^ 32⌋₊ ≤ T * 2 ^ 32 := Nat.floor_le (mul_nonneg hT (by positivity))
    have hlt : T * 2 ^ 32 < ⌊T * 2 ^ 32⌋₊ + 1 := Nat.lt_floor_add_one _
    rw [and_iff_right hfirst, unixTime_first hT hfirst, Double.round_natCast_mul (by decide),
      ← Double.abs_rounded_sub_le_iff hle hlt]
    generalize (roundHalfEven _ * _ : ℚ) = r
    have hscale : ((r * 2 ^ (-32 : ℤ) : ℚ) : ℝ) - T = (r - T * 2 ^ 32) / 2 ^ 32 := by
      rw [zpow_neg]
      push_cast
      ring
    rw [hscale, abs_div, abs_of_pos (by positivity : (0 : ℝ) < 2 ^ 32),
      div_le_div_iff_of_pos_right (by positivity)]
  · -- a whole era is more than rounding makes up for
    refine iff_of_false (fun h ↦ ?_) fun h ↦ hfirst h.1
    obtain ⟨ε, hnonneg, -, hloss⟩ := eraStamp_loss hpos
    have hera : (1 : ℝ) ≤ (⌊T + NTP_TO_UNIX⌋₊ / 2 ^ 32 : ℕ) := by
      exact_mod_cast Nat.one_le_iff_ne_zero.mpr (mt (div_eq_zero_iff hpos).mp hfirst)
    have hround := abs_round_unixTime_le (eraSeconds_lt T) (eraFraction_lt hpos)
    have hcast : |((Double.round (unixTime (eraSeconds T) (eraFraction T)) : ℚ) : ℝ) -
        (unixTime (eraSeconds T) (eraFraction T) : ℚ)| ≤ 1 := by exact_mod_cast hround
    rw [abs_le] at h hcast
    linarith [h.1, hcast.2]

/-- Before the end of the first era, a time is decoded up to half of what doubles are apart. -/
theorem abs_decoded_le (hT : 0 ≤ T) (hfirst : T + NTP_TO_UNIX < 2 ^ 32) :
    |(unixTimeIn Double.round (eraSeconds T) (eraFraction T) : ℝ) - T| ≤
      1 / 2 ^ 23 + 1 / 2 ^ 32 := by
  have hpos : 0 ≤ T + NTP_TO_UNIX := add_nonneg hT (by norm_num [NTP_TO_UNIX])
  obtain ⟨ε, hnonneg, hlt, hloss⟩ := eraStamp_loss hpos
  rw [(div_eq_zero_iff hpos).mpr hfirst, Nat.cast_zero, mul_zero, zero_add] at hloss
  rw [unixTimeIn_round (eraSeconds_lt T) (eraFraction_lt hpos)]
  have hsize : |unixTime (eraSeconds T) (eraFraction T)| < 2 ^ (53 + -22 : ℤ) := by
    have hcast : |((unixTime (eraSeconds T) (eraFraction T) : ℚ) : ℝ)| < 2 ^ 31 := by
      norm_num [NTP_TO_UNIX] at hfirst
      rw [abs_lt]
      constructor <;> norm_num at hlt ⊢ <;> linarith
    have hpow : ((2 : ℚ) ^ (53 + -22 : ℤ)) = 2 ^ 31 := by norm_num
    rw [hpow]
    exact_mod_cast hcast
  have hround := Double.abs_round_sub_le (by decide) hsize
  have hcast : |((Double.round (unixTime (eraSeconds T) (eraFraction T)) : ℚ) : ℝ) -
      (unixTime (eraSeconds T) (eraFraction T) : ℚ)| ≤ 1 / 2 ^ 23 := by
    have hpow : ((2 : ℚ) ^ (-22 : ℤ) / 2) = 1 / 2 ^ 23 := by norm_num
    have hreal := (@Rat.cast_le _ _ ℝ _ _ _).mpr (hround.trans hpow.le)
    push_cast at hreal
    exact hreal
  rw [abs_le] at hcast ⊢
  constructor <;> linarith [hcast.1, hcast.2]

end Eras

/-! ### The reply of a server -/

theorem length_eraStamp (T : ℝ) : (eraStamp T).length = 8 := by
  rw [eraStamp, List.length_append, length_beBytes, length_beBytes]

section Reply

variable {fl : ℚ → ℚ} {header : Bytes} (hheader : header.length = 32) {T : ℝ} (rest : Bytes)

/-- The two fields of a timestamp, behind what comes before it. -/
theorem unixTimeIn_eraStamp (hT : 0 ≤ T + NTP_TO_UNIX) {front back : Bytes} {i n : ℕ}
    (hfront : front.length = i) (hn : i + 8 ≤ n) :
    unixTimeIn fl
        (beValue ((((front ++ (eraStamp T ++ back)).take n).drop i).take 4))
        (beValue ((((front ++ (eraStamp T ++ back)).take n).drop (i + 4)).take 4)) =
      unixTimeIn fl (eraSeconds T) (eraFraction T) := by
  have hsplit : front ++ (eraStamp T ++ back) =
      front ++ (beBytes 4 (eraSeconds T) ++ (beBytes 4 (eraFraction T) ++ back)) := by
    simp only [eraStamp, List.append_assoc]
  have hint : ((front ++ (eraStamp T ++ back)).drop i).take 4 = beBytes 4 (eraSeconds T) := by
    rw [hsplit]
    exact take_drop_append hfront (length_beBytes _ _)
  have hfrac : ((front ++ (eraStamp T ++ back)).drop (i + 4)).take 4 =
      beBytes 4 (eraFraction T) := by
    rw [hsplit, ← List.append_assoc]
    exact take_drop_append (by rw [List.length_append, hfront, length_beBytes])
      (length_beBytes _ _)
  rw [take_drop_take (by omega), take_drop_take (by omega), hint, hfrac,
    beValue_beBytes (eraSeconds_lt T), beValue_beBytes (eraFraction_lt hT)]

include hheader

theorem receiveTimeIn_eraReply (hT : 0 ≤ T + NTP_TO_UNIX) :
    receiveTimeIn fl ((eraReply header T rest).take 48) =
      unixTimeIn fl (eraSeconds T) (eraFraction T) :=
  unixTimeIn_eraStamp hT hheader (by decide)

theorem transmitTimeIn_eraReply (hT : 0 ≤ T + NTP_TO_UNIX) {n : ℕ} (hn : 48 ≤ n) :
    transmitTimeIn fl ((eraReply header T rest).take n) =
      unixTimeIn fl (eraSeconds T) (eraFraction T) := by
  have hfront : (header ++ eraStamp T).length = 40 := by
    rw [List.length_append, hheader, length_eraStamp]
  rw [transmitTimeIn, eraReply, ← List.append_assoc]
  exact unixTimeIn_eraStamp hT hfront hn

end Reply

/-- Both probes decode the time of a server, of 1970 or later, exactly when it is before the 7th
of February 2036, 06:28:16 UTC, and close enough to a double. -/
theorem decode_iff {T : ℝ} (hT : 0 ≤ T) {header : Bytes} (hheader : header.length = 32)
    (rest : Bytes) : Decode T (eraReply header T rest) ↔ Decodable T := by
  have hpos : 0 ≤ T + NTP_TO_UNIX := add_nonneg hT (by norm_num [NTP_TO_UNIX])
  rw [Decode, receiveTimeIn_eraReply hheader rest hpos,
    transmitTimeIn_eraReply hheader rest hpos le_rfl,
    transmitTimeIn_eraReply hheader rest hpos (by decide), and_self, and_self,
    abs_decoded_le_iff hT]

/-- Half a second past the first second of 2026. -/
theorem decode_iff_2026 :
    Decode (3534451201 / 2) (eraReply (List.replicate 32 0) (3534451201 / 2) []) := by
  refine (decode_iff (by norm_num) List.length_replicate []).mpr ⟨?_, ?_⟩
  · norm_num [NTP_TO_UNIX]
  · have hunits : ((3534451201 / 2 : ℝ) * 2 ^ 32) = ((3534451201 * 2 ^ 31 : ℕ) : ℝ) := by norm_num
    rw [hunits, Nat.floor_natCast]
    exact .inl (by decide +kernel)

/-- The end of the first era, as a Unix time. -/
def ERA_END : ℚ := 2 ^ 32 - NTP_TO_UNIX

theorem eraStamp_era_end : eraStamp ERA_END = List.replicate 8 0 := by
  have hsum : ((ERA_END : ℚ) : ℝ) + NTP_TO_UNIX = ((2 ^ 32 : ℕ) : ℝ) := by
    rw [ERA_END]
    push_cast
    ring
  have hseconds : eraSeconds ERA_END = 0 := by
    rw [eraSeconds, hsum, Nat.floor_natCast, Nat.mod_self]
  have hfraction : eraFraction ERA_END = 0 := by
    rw [eraFraction, hsum, Nat.floor_natCast, sub_self, zero_mul, Nat.floor_zero]
  rw [eraStamp, hseconds, hfraction]
  decide

/-- At the end of the first era, both probes report a server failing whose clock and the
local one are right.  And two units behind a second of January 2004 are rounded away. -/
theorem era_end_fails :
    (¬ Decode ERA_END (eraReply (List.replicate 32 0) ERA_END []) ∧
      (querySyncIn Double.round ['a']
        (.reply ERA_END (eraReply (List.replicate 32 0) ERA_END []) ERA_END)).map
          (·.severity) = .ok .fail ∧
      (sntpProbeIn Double.round
        (.reply ERA_END (eraReply (List.replicate 32 0) ERA_END []) ERA_END)).map
          (·.severity) = .ok .fail) ∧
    ¬ Decode (2 ^ 30 + 2 / 2 ^ 32)
      (eraReply (List.replicate 32 0) (2 ^ 30 + 2 / 2 ^ 32) []) := by
  have hpos : (0 : ℝ) ≤ ERA_END := by norm_num [ERA_END, NTP_TO_UNIX]
  refine ⟨⟨fun h ↦ ?_, ?_, ?_⟩, fun h ↦ ?_⟩
  · have hfirst := h.1
    rw [receiveTimeIn_eraReply List.length_replicate []
      (add_nonneg hpos (by norm_num [NTP_TO_UNIX])), abs_decoded_le_iff hpos] at hfirst
    have hend := hfirst.1
    norm_num [ERA_END, NTP_TO_UNIX] at hend
  · rw [eraReply, eraStamp_era_end]
    decide +kernel
  · rw [eraReply, eraStamp_era_end]
    decide +kernel
  · have hunits : ((2 ^ 30 + 2 / 2 ^ 32 : ℝ) * 2 ^ 32) = ((2 ^ 62 + 2 : ℕ) : ℝ) := by norm_num
    have hdouble := h.1
    rw [receiveTimeIn_eraReply List.length_replicate [] (by norm_num [NTP_TO_UNIX]),
      abs_decoded_le_iff (by norm_num), Decodable, hunits, Nat.floor_natCast] at hdouble
    have hno : ¬ ((2 ^ 62 + 2) % Double.spacing (2 ^ 62 + 2) = 0 ∨
        (2 ^ 62 + 2) % Double.spacing (2 ^ 62 + 2) = 1 ∨
        (2 ^ 62 + 2) % Double.spacing (2 ^ 62 + 2) + 1 = Double.spacing (2 ^ 62 + 2)) := by
      decide +kernel
    exact hno (hdouble.2.imp_right (.imp And.left And.left))

end SensorFusion.Ui
