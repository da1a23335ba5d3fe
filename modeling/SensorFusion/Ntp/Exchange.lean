import Mathlib.Data.Rat.Floor
import Mathlib.Tactic.Linarith
import Mathlib.Tactic.NormNum
import Mathlib.Tactic.Ring
import SensorFusion.Ntp.Probe

/-!
# What a probe measures

A request goes out, is under way for a while, is worked on by a server whose clock is off by
`theta`, and its reply is under way for another while.  The probe sees two readings of its
own clock, and the server's two readings as NTP timestamps: seconds since 1900 and a fraction
in units of `2 ^ -32` s.  The offset it computes is out by half of what the two ways differ
in.
-/

namespace SensorFusion.Ntp

open Wire (Bytes leBytes leValue)

/-! ## Timestamps -/

/-- The `k` low bytes of a number, most significant first. -/
def beBytes (k n : ℕ) : Bytes := (leBytes k n).reverse

@[simp] theorem length_beBytes (k n : ℕ) : (beBytes k n).length = k := by
  rw [beBytes, List.length_reverse, Wire.length_leBytes]

theorem beValue_beBytes {k n : ℕ} (h : n < 256 ^ k) : beValue (beBytes k n) = n := by
  rw [beValue, beBytes, List.reverse_reverse, Wire.leValue_leBytes k n h]

/-- The time is one that an NTP timestamp of the era until February 2036 can give. -/
def InEra (t : ℚ) : Prop := 0 ≤ t + NTP_TO_UNIX ∧ t + NTP_TO_UNIX < 2 ^ 32

/-- The time is a multiple of the unit of a timestamp. -/
def Representable (t : ℚ) : Prop := ∃ n : ℤ, t * 2 ^ 32 = n

/-- A time in units of `2 ^ -32` s since 1900, cut off. -/
def ticks (t : ℚ) : ℕ := ⌊(t + NTP_TO_UNIX) * 2 ^ 32⌋₊

/-- The timestamp of a time, as a server writes it. -/
def stamp (t : ℚ) : Bytes := beBytes 4 (ticks t / 2 ^ 32) ++ beBytes 4 (ticks t % 2 ^ 32)

/-- The time that a timestamp gives back. -/
def stamped (t : ℚ) : ℚ := unixTime (ticks t / 2 ^ 32) (ticks t % 2 ^ 32)

@[simp] theorem length_stamp (t : ℚ) : (stamp t).length = 8 := by
  rw [stamp, List.length_append, length_beBytes, length_beBytes]

theorem stamped_eq (t : ℚ) : stamped t = ticks t / 2 ^ 32 - NTP_TO_UNIX := by
  have hdiv : ((2 ^ 32 * (ticks t / 2 ^ 32) + ticks t % 2 ^ 32 : ℕ) : ℚ) = ticks t := by
    rw [Nat.div_add_mod]
  rw [Nat.cast_add, Nat.cast_mul, Nat.cast_pow, Nat.cast_two] at hdiv
  rw [stamped, unixTime, ← hdiv, add_div, mul_div_cancel_left₀ _ (by positivity)]
  ring

theorem ticks_le {t : ℚ} (h : InEra t) : ticks t ≤ (t + NTP_TO_UNIX) * 2 ^ 32 :=
  Nat.floor_le (mul_nonneg h.1 (by positivity))

theorem lt_ticks (t : ℚ) : (t + NTP_TO_UNIX) * 2 ^ 32 < ticks t + 1 := Nat.lt_floor_add_one _

theorem ticks_lt {t : ℚ} (h : InEra t) : ticks t < 2 ^ 64 := by
  have hlt : (ticks t : ℚ) < 2 ^ 64 :=
    calc (ticks t : ℚ) ≤ (t + NTP_TO_UNIX) * 2 ^ 32 := ticks_le h
      _ < 2 ^ 32 * 2 ^ 32 := mul_lt_mul_of_pos_right h.2 (by positivity)
      _ = 2 ^ 64 := by norm_num
  exact_mod_cast hlt

/-- A timestamp is less than a unit behind. -/
theorem stamped_mem {t : ℚ} (h : InEra t) : stamped t ≤ t ∧ t - 1 / 2 ^ 32 < stamped t := by
  have hle := ticks_le h
  have hlt := lt_ticks t
  rw [stamped_eq]
  constructor <;> linarith

theorem stamped_of_representable {t : ℚ} (h : InEra t) (ht : Representable t) : stamped t = t := by
  obtain ⟨n, hn⟩ := ht
  have hint : (t + NTP_TO_UNIX) * 2 ^ 32 = ((n + 2208988800 * 2 ^ 32 : ℤ) : ℚ) := by
    rw [add_mul, hn, NTP_TO_UNIX]
    norm_num
  have hpos : (0 : ℤ) ≤ n + 2208988800 * 2 ^ 32 := by
    have hle : 0 ≤ (t + NTP_TO_UNIX) * 2 ^ 32 := mul_nonneg h.1 (by positivity)
    rw [hint] at hle
    exact Int.cast_nonneg_iff.mp hle
  obtain ⟨k, hk⟩ := Int.eq_ofNat_of_zero_le hpos
  have hticks : (ticks t : ℚ) = (t + NTP_TO_UNIX) * 2 ^ 32 := by
    rw [ticks, hint, hk, Int.cast_natCast, Nat.floor_natCast]
  rw [stamped_eq, hticks, mul_div_cancel_right₀ _ (by positivity), add_sub_cancel_right]

/-! ## The exchange -/

/-- The offset that `_query_sync` computes of four times. -/
def offsetOf (t0 t1 t2 t3 : ℚ) : ℚ := ((t1 - t0) + (t2 - t3)) / 2

/-- The round trip that `_query_sync` computes of four times. -/
def rttOf (t0 t1 t2 t3 : ℚ) : ℚ := (t3 - t0) - (t2 - t1)

/-- A part of a datagram behind what comes before it. -/
theorem take_drop_append {front part back : Bytes} {i n : ℕ} (hfront : front.length = i)
    (hpart : part.length = n) : ((front ++ (part ++ back)).drop i).take n = part := by
  rw [List.drop_left' hfront, List.take_left' hpart]

/-- The result of a reply whose timestamps are those of two times. -/
theorem querySync_stamps (server : Text) {header : Bytes} (hheader : header.length = 32)
    (rest : Bytes) (t0 t3 : ℚ) {t1 t2 : ℚ} (h1 : InEra t1) (h2 : InEra t2) :
    querySync server (.reply t0 (header ++ stamp t1 ++ stamp t2 ++ rest) t3) =
      .ok ⟨server, true, some (offsetOf t0 (stamped t1) (stamped t2) t3),
        some (rttOf t0 (stamped t1) (stamped t2) t3), none,
        severityOf |offsetOf t0 (stamped t1) (stamped t2) t3|⟩ := by
  have hlen : (header ++ stamp t1 ++ stamp t2).length = 48 := by
    rw [List.length_append, List.length_append, hheader, length_stamp, length_stamp]
  have hsec {t : ℚ} (h : InEra t) : beValue (beBytes 4 (ticks t / 2 ^ 32)) = ticks t / 2 ^ 32 := by
    have := ticks_lt h
    exact beValue_beBytes (by omega)
  have hfrac (t : ℚ) : beValue (beBytes 4 (ticks t % 2 ^ 32)) = ticks t % 2 ^ 32 :=
    beValue_beBytes (by omega)
  -- the four fields, each with what comes before it and after it
  have hrx_int : (((header ++ stamp t1 ++ stamp t2).drop 32).take 4) =
      beBytes 4 (ticks t1 / 2 ^ 32) := by
    rw [stamp, List.append_assoc, List.append_assoc]
    exact take_drop_append hheader (length_beBytes _ _)
  have hrx_frac : (((header ++ stamp t1 ++ stamp t2).drop 36).take 4) =
      beBytes 4 (ticks t1 % 2 ^ 32) := by
    rw [stamp, ← List.append_assoc, List.append_assoc (header ++ _)]
    exact take_drop_append (by rw [List.length_append, hheader, length_beBytes])
      (length_beBytes _ _)
  have htx_int : (((header ++ stamp t1 ++ stamp t2).drop 40).take 4) =
      beBytes 4 (ticks t2 / 2 ^ 32) := by
    exact take_drop_append (by rw [List.length_append, hheader, length_stamp])
      (length_beBytes _ _)
  have htx_frac : (((header ++ stamp t1 ++ stamp t2).drop 44).take 4) =
      beBytes 4 (ticks t2 % 2 ^ 32) := by
    rw [stamp.eq_1 t2, ← List.append_assoc, ← List.append_nil (beBytes 4 (ticks t2 % 2 ^ 32))]
    refine (take_drop_append ?_ (length_beBytes _ _)).trans (List.append_nil _).symm
    rw [List.length_append, List.length_append, hheader, length_stamp, length_beBytes]
  simp only [querySync, List.take_left' hlen, hlen, lt_irrefl, if_false, hrx_int, hrx_frac,
    htx_int, htx_frac, hsec h1, hsec h2, hfrac]
  rfl

/-- An exchange: when the request is sent by the clock of the client, how far the clock of the
server is ahead, how long the two ways take, and how long the server does. -/
structure Trip where
  t0 : ℚ
  theta : ℚ
  d1 : ℚ
  d2 : ℚ
  p : ℚ
  d1_nonneg : 0 ≤ d1
  d2_nonneg : 0 ≤ d2
  p_nonneg : 0 ≤ p

namespace Trip

variable (trip : Trip)

/-- The request arrives, by the clock of the server. -/
def t1 : ℚ := trip.t0 + trip.d1 + trip.theta

/-- The reply is sent, by the clock of the server. -/
def t2 : ℚ := trip.t0 + trip.d1 + trip.p + trip.theta

/-- The reply arrives, by the clock of the client. -/
def t3 : ℚ := trip.t0 + trip.d1 + trip.p + trip.d2

/-- The datagram of the reply: what comes before the timestamps, and what may follow them. -/
def datagram (header rest : Bytes) : Bytes := header ++ stamp trip.t1 ++ stamp trip.t2 ++ rest

theorem offset_sub_theta :
    offsetOf trip.t0 trip.t1 trip.t2 trip.t3 - trip.theta = (trip.d1 - trip.d2) / 2 := by
  rw [offsetOf, t1, t2, t3]
  ring

theorem rtt_eq : rttOf trip.t0 trip.t1 trip.t2 trip.t3 = trip.d1 + trip.d2 := by
  rw [rttOf, t1, t2, t3]
  ring

/-- Half of the difference of the ways is at most half of their sum. -/
theorem abs_offset_le : |offsetOf trip.t0 trip.t1 trip.t2 trip.t3 - trip.theta| ≤
    rttOf trip.t0 trip.t1 trip.t2 trip.t3 / 2 := by
  have h1 := trip.d1_nonneg
  have h2 := trip.d2_nonneg
  rw [offset_sub_theta, rtt_eq, abs_le]
  constructor <;> linarith

/-- Cutting the timestamps off moves the offset by less than a unit. -/
theorem abs_stamped_le (h1 : InEra trip.t1) (h2 : InEra trip.t2) :
    |offsetOf trip.t0 (stamped trip.t1) (stamped trip.t2) trip.t3 -
      offsetOf trip.t0 trip.t1 trip.t2 trip.t3| ≤ 1 / 2 ^ 32 := by
  obtain ⟨hle1, hlt1⟩ := stamped_mem h1
  obtain ⟨hle2, hlt2⟩ := stamped_mem h2
  rw [offsetOf, offsetOf, abs_le]
  constructor <;> linarith

end Trip

/-- The offset is out by half of what the two ways differ in, so by no more than half of the
round trip; a probe gets both of them, up to the unit of a timestamp. -/
theorem querySync_trip (server : Text) (trip : Trip) (header rest : Bytes)
    (hheader : header.length = 32) (h1 : InEra trip.t1) (h2 : InEra trip.t2) :
    offsetOf trip.t0 trip.t1 trip.t2 trip.t3 - trip.theta = (trip.d1 - trip.d2) / 2 ∧
    rttOf trip.t0 trip.t1 trip.t2 trip.t3 = trip.d1 + trip.d2 ∧
    0 ≤ rttOf trip.t0 trip.t1 trip.t2 trip.t3 ∧
    |offsetOf trip.t0 trip.t1 trip.t2 trip.t3 - trip.theta| ≤
      rttOf trip.t0 trip.t1 trip.t2 trip.t3 / 2 ∧
    ∃ r offset rtt, querySync server (.reply trip.t0 (trip.datagram header rest) trip.t3) = .ok r ∧
      r.offset_s = some offset ∧ r.rtt_s = some rtt ∧
      |offset - offsetOf trip.t0 trip.t1 trip.t2 trip.t3| ≤ 1 / 2 ^ 32 ∧
      (Representable trip.t1 → Representable trip.t2 →
        offset = offsetOf trip.t0 trip.t1 trip.t2 trip.t3 ∧
        rtt = rttOf trip.t0 trip.t1 trip.t2 trip.t3) := by
  refine ⟨trip.offset_sub_theta, trip.rtt_eq, ?_, trip.abs_offset_le, _, _, _,
    querySync_stamps server hheader rest trip.t0 trip.t3 h1 h2, rfl, rfl,
    trip.abs_stamped_le h1 h2, fun ht1 ht2 ↦ ?_⟩
  · rw [trip.rtt_eq]
    exact add_nonneg trip.d1_nonneg trip.d2_nonneg
  · rw [stamped_of_representable h1 ht1, stamped_of_representable h2 ht2]
    exact ⟨rfl, rfl⟩

/-- Half a second ahead, and the request takes twice as long as the reply. -/
def uneven : Trip := ⟨0, 1 / 2, 1 / 4, 1 / 8, 1 / 16, by decide +kernel, by decide +kernel,
  by decide +kernel⟩

theorem querySync_uneven : ∃ r,
    querySync ['a'] (.reply 0 (uneven.datagram (List.replicate 32 0) []) uneven.t3) = .ok r ∧
      r.offset_s = some (9 / 16) ∧ r.rtt_s = some (3 / 8) := by
  have hera1 : InEra uneven.t1 := by
    unfold InEra
    decide +kernel
  have hera2 : InEra uneven.t2 := by
    unfold InEra
    decide +kernel
  obtain ⟨-, -, -, -, r, offset, rtt, hr, hoffset, hrtt, -, hexact⟩ :=
    querySync_trip ['a'] uneven (List.replicate 32 0) [] List.length_replicate hera1 hera2
  obtain ⟨rfl, rfl⟩ := hexact ⟨3221225472, by decide +kernel⟩ ⟨3489660928, by decide +kernel⟩
  refine ⟨r, hr, ?_, ?_⟩
  · rw [hoffset]
    decide +kernel
  · rw [hrtt]
    decide +kernel

end SensorFusion.Ntp
