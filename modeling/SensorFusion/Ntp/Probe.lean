import Mathlib.Data.Rat.Defs
import SensorFusion.Python.Text
import SensorFusion.Wire.Codec

/-!
# The probe of one NTP server

`_query_sync` sends one client packet and reads one reply (`probe.py`).  `Exchange` is what
the socket and the clock give it.  Times are rationals; a rounded time would change numbers,
and nothing that is said about them.
-/

namespace SensorFusion.Ntp

open Wire (Bytes)

inductive Severity where
  | ok
  | warn
  | fail
deriving DecidableEq, Repr

/-- `severity_rank`. -/
def Severity.rank : Severity → ℕ
  | .ok => 0
  | .warn => 1
  | .fail => 2

/-- `_NTP_TO_UNIX`: the NTP epoch is 1900-01-01. -/
def NTP_TO_UNIX : ℚ := 2208988800

def WARN_THRESHOLD_S : ℚ := 1 / 2

def FAIL_THRESHOLD_S : ℚ := 2

/-- The severity that an offset alone would have. -/
def severityOf (abs_offset : ℚ) : Severity :=
  if FAIL_THRESHOLD_S ≤ abs_offset then .fail
  else if WARN_THRESHOLD_S ≤ abs_offset then .warn
  else .ok

structure NtpResult where
  server : Text
  ok : Bool
  offset_s : Option ℚ
  rtt_s : Option ℚ
  error : Option String
  severity : Severity
deriving DecidableEq

/-- The result of a probe that failed. -/
def NtpResult.failed (server : Text) (error : String) : NtpResult :=
  ⟨server, false, none, none, some error, .fail⟩

/-- What a probe runs into. -/
inductive Exchange where
  /-- `socket.timeout` or another `OSError`. -/
  | network (exc : String)
  /-- Another exception, such as that of a name that cannot be encoded. -/
  | raised (exc : String)
  /-- A datagram, with the readings of the clock before and after. -/
  | reply (t0 : ℚ) (datagram : Bytes) (t3 : ℚ)

/-- The number big-endian bytes spell. -/
def beValue (bs : Bytes) : ℕ := Wire.leValue bs.reverse

/-- An NTP timestamp as a Unix time. -/
def unixTime (int frac : ℕ) : ℚ := (int - NTP_TO_UNIX) + frac / 2 ^ 32

/-- `_query_sync`; `recvfrom` keeps 48 bytes of a datagram. -/
def querySync (server : Text) : Exchange → Except String NtpResult
  | .network exc => .ok (.failed server ("network: " ++ exc))
  | .raised exc => .error exc
  | .reply t0 datagram t3 =>
      let data := datagram.take 48
      if data.length < 48 then
        .ok (.failed server ("short reply: " ++ toString data.length ++ " bytes"))
      else
        let t1 := unixTime (beValue ((data.drop 32).take 4)) (beValue ((data.drop 36).take 4))
        let t2 := unixTime (beValue ((data.drop 40).take 4)) (beValue ((data.drop 44).take 4))
        let offset := ((t1 - t0) + (t2 - t3)) / 2
        let rtt := (t3 - t0) - (t2 - t1)
        .ok ⟨server, true, some offset, some rtt, none, severityOf |offset|⟩

/-- What is said of every result: an offset comes with a round trip and no error, and the
other way round. -/
structure NtpResult.Sound (r : NtpResult) : Prop where
  offset : r.offset_s.isSome = r.ok
  rtt : r.rtt_s.isSome = r.ok
  error : r.error.isSome = !r.ok

theorem querySync_spec {server : Text} {x : Exchange} {r : NtpResult}
    (h : querySync server x = .ok r) : r.server = server ∧ r.Sound := by
  cases x with
  | network exc =>
      cases h
      exact ⟨rfl, rfl, rfl, rfl⟩
  | raised exc => cases h
  | reply t0 datagram t3 =>
      simp only [querySync] at h
      split at h
      · cases h
        exact ⟨rfl, rfl, rfl, rfl⟩
      · cases h
        exact ⟨rfl, rfl, rfl, rfl⟩

end SensorFusion.Ntp
