import SensorFusion.Ntp.Exchange

/-!
# The router panel's own probe

`_sntp_probe` asks the router for the time without the ntp service (`edge/routes.py`).  It takes
the offset from one timestamp where `_query_sync` takes it from two, and has its thresholds
written a second time.  For a server that answers at once the two find the same, except for the
severity of an offset that is exactly at a threshold.
-/

namespace SensorFusion.Ui

open Wire (Bytes)
open Ntp

/-! ## `_sntp_probe` -/

structure SntpResult where
  ok : Bool
  severity : Severity
  error : Option String
  offset_s : Option ℚ
  rtt_s : Option ℚ
deriving DecidableEq

def SntpResult.failed (error : String) : SntpResult := ⟨false, .fail, some error, none, none⟩

/-- The ladder of the panel. -/
def sntpSeverity (abs_offset : ℚ) : Severity :=
  if 2 < abs_offset then .fail
  else if 1 / 2 < abs_offset then .warn
  else .ok

/-- `_sntp_probe`; `recvfrom` keeps 1024 bytes of a datagram. -/
def sntpProbe : Ntp.Exchange → Except String SntpResult
  | .network exc => .ok (.failed exc)
  | .raised exc => .error exc
  | .reply t_send datagram t_recv =>
      let data := datagram.take 1024
      if data.length < 48 then
        .ok (.failed ("short reply (" ++ toString data.length ++ " bytes)"))
      else
        let server_unix :=
          unixTime (beValue ((data.drop 40).take 4)) (beValue ((data.drop 44).take 4))
        let rtt := t_recv - t_send
        let offset := server_unix - (t_send + rtt / 2)
        .ok ⟨true, sntpSeverity |offset|, none, some offset, some rtt⟩

/-! ## What the probes make of a reply -/

/-- The receive timestamp of a reply, as both probes read it. -/
def receiveTime (datagram : Bytes) : ℚ :=
  unixTime (beValue ((datagram.drop 32).take 4)) (beValue ((datagram.drop 36).take 4))

/-- The transmit timestamp. -/
def transmitTime (datagram : Bytes) : ℚ :=
  unixTime (beValue ((datagram.drop 40).take 4)) (beValue ((datagram.drop 44).take 4))

/-- How far the transmit time is from the middle of two readings of the local clock. -/
def lead (t0 : ℚ) (datagram : Bytes) (t3 : ℚ) : ℚ := transmitTime datagram - (t0 + t3) / 2

theorem take_drop_take {l : Bytes} {n i k : ℕ} (h : i + k ≤ n) :
    ((l.take n).drop i).take k = (l.drop i).take k := by
  rw [List.drop_take, List.take_take, Nat.min_eq_left (by omega)]

/-- `_query_sync` of a reply that is long enough. -/
theorem querySync_reply (server : Text) (t0 t3 : ℚ) {datagram : Bytes}
    (h : 48 ≤ datagram.length) :
    querySync server (.reply t0 datagram t3) =
      let offset := offsetOf t0 (receiveTime datagram) (transmitTime datagram) t3
      .ok ⟨server, true, some offset,
        some (rttOf t0 (receiveTime datagram) (transmitTime datagram) t3), none,
        severityOf |offset|⟩ := by
  have hlen : ¬ (datagram.take 48).length < 48 := by
    rw [List.length_take]
    omega
  rw [querySync]
  dsimp only
  rw [if_neg hlen, take_drop_take (by decide), take_drop_take (by decide),
    take_drop_take (by decide), take_drop_take (by decide)]
  rfl

/-- `_sntp_probe` of a reply that is long enough. -/
theorem sntpProbe_reply (t0 t3 : ℚ) {datagram : Bytes} (h : 48 ≤ datagram.length) :
    sntpProbe (.reply t0 datagram t3) =
      .ok ⟨true, sntpSeverity |lead t0 datagram t3|, none, some (lead t0 datagram t3),
        some (t3 - t0)⟩ := by
  have hlen : ¬ (datagram.take 1024).length < 48 := by
    rw [List.length_take]
    omega
  have hlead : transmitTime datagram - (t0 + (t3 - t0) / 2) = lead t0 datagram t3 := by
    rw [lead]
    ring
  rw [sntpProbe]
  dsimp only
  rw [if_neg hlen, take_drop_take (by decide), take_drop_take (by decide), ← transmitTime, hlead]

/-- A reply whose receive and transmit timestamps are equal. -/
def Instant (datagram : Bytes) : Prop :=
  (datagram.drop 32).take 8 = (datagram.drop 40).take 8

instance (datagram : Bytes) : Decidable (Instant datagram) :=
  inferInstanceAs (Decidable (_ = _))

theorem Instant.receiveTime_eq {datagram : Bytes} (h : Instant datagram) :
    receiveTime datagram = transmitTime datagram := by
  have hint : (datagram.drop 32).take 4 = (datagram.drop 40).take 4 := by
    have htake := congrArg (List.take 4) h
    rwa [List.take_take, List.take_take] at htake
  have hfrac : (datagram.drop 36).take 4 = (datagram.drop 44).take 4 := by
    have hdrop := congrArg (List.drop 4) h
    rwa [List.drop_take, List.drop_take, List.drop_drop, List.drop_drop] at hdrop
  rw [receiveTime, transmitTime, hint, hfrac]

/-- Two equal timestamps give the middle of the exchange. -/
theorem offsetOf_self (t0 t t3 : ℚ) : offsetOf t0 t t t3 = t - (t0 + t3) / 2 := by
  rw [offsetOf]
  ring

theorem rttOf_self (t0 t t3 : ℚ) : rttOf t0 t t t3 = t3 - t0 := by
  rw [rttOf, sub_self, sub_zero]

/-! ## The ladders -/

/-- The ladders differ at their rungs. -/
theorem severities_eq_iff (x : ℚ) : severityOf x = sntpSeverity x ↔ x ≠ 1 / 2 ∧ x ≠ 2 := by
  have hwarn : WARN_THRESHOLD_S = 1 / 2 := rfl
  have hfail : FAIL_THRESHOLD_S = 2 := rfl
  rw [severityOf, sntpSeverity, hwarn, hfail]
  rcases lt_trichotomy x 2 with hx | rfl | hx
  · rw [if_neg hx.not_ge, if_neg hx.not_gt, and_iff_left hx.ne]
    rcases lt_trichotomy x (1 / 2) with hlow | rfl | hlow
    · rw [if_neg hlow.not_ge, if_neg hlow.not_gt]
      exact iff_of_true rfl hlow.ne
    · rw [if_pos le_rfl, if_neg (lt_irrefl _)]
      exact iff_of_false nofun fun h ↦ h rfl
    · rw [if_pos hlow.le, if_pos hlow]
      exact iff_of_true rfl hlow.ne'
  · rw [if_pos le_rfl, if_neg (lt_irrefl _), if_pos (by norm_num)]
    exact iff_of_false nofun fun h ↦ h.2 rfl
  · have hlow : 1 / 2 < x := lt_trans (by norm_num) hx
    rw [if_pos hx.le, if_pos hx]
    exact iff_of_true rfl ⟨hlow.ne', hx.ne'⟩

/-- The two probes find the same in an exchange. -/
def Agree (server : Text) (x : Ntp.Exchange) : Prop :=
  ∃ r s, querySync server x = .ok r ∧ sntpProbe x = .ok s ∧ r.ok = s.ok ∧
    r.offset_s = s.offset_s ∧ r.rtt_s = s.rtt_s ∧ r.severity = s.severity

/-- Only the severities can differ. -/
theorem agree_iff_severity (server : Text) {datagram : Bytes} (hlen : 48 ≤ datagram.length)
    (heq : Instant datagram) (t0 t3 : ℚ) :
    Agree server (.reply t0 datagram t3) ↔
      severityOf |lead t0 datagram t3| = sntpSeverity |lead t0 datagram t3| := by
  have hquery := querySync_reply server t0 t3 hlen
  dsimp only at hquery
  rw [heq.receiveTime_eq, offsetOf_self, rttOf_self, ← lead] at hquery
  constructor
  · rintro ⟨r, s, hr, hs, -, -, -, hseverity⟩
    rw [hquery, Except.ok.injEq] at hr
    rw [sntpProbe_reply t0 t3 hlen, Except.ok.injEq] at hs
    rwa [← hr, ← hs] at hseverity
  · intro hseverity
    exact ⟨_, _, hquery, sntpProbe_reply t0 t3 hlen, rfl, rfl, rfl, hseverity⟩

/-- Of a reply with equal timestamps, the probes find the same exactly when the transmit time
is not at a threshold from the middle of the exchange. -/
theorem agree_iff (server : Text) {datagram : Bytes} (hlen : 48 ≤ datagram.length)
    (heq : Instant datagram) (t0 t3 : ℚ) :
    Agree server (.reply t0 datagram t3) ↔
      |lead t0 datagram t3| ≠ 1 / 2 ∧ |lead t0 datagram t3| ≠ 2 :=
  (agree_iff_severity server hlen heq t0 t3).trans (severities_eq_iff _)

/-- A reply of half a second past the epoch of Unix. -/
def halfPast : Bytes := List.replicate 32 0 ++ stamp (1 / 2) ++ stamp (1 / 2)

theorem agree_iff_halfPast : Agree ['a'] (.reply (1 / 4) halfPast (1 / 4)) := by
  have hlead : lead (1 / 4) halfPast (1 / 4) = 1 / 4 := by decide +kernel
  refine (agree_iff ['a'] (by decide +kernel) (by decide +kernel) _ _).mpr ?_
  rw [hlead]
  decide +kernel

/-- Half a second ahead, the ntp service warns and the panel does not. -/
theorem halfPast_disagrees : ¬ Agree ['a'] (.reply 0 halfPast 0) := by
  have hlead : lead 0 halfPast 0 = 1 / 2 := by decide +kernel
  rw [agree_iff_severity ['a'] (by decide +kernel) (by decide +kernel), hlead]
  decide +kernel

end SensorFusion.Ui
