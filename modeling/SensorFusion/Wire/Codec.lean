import SensorFusion.Lib.Framing
import Mathlib.Tactic.Ring

/-!
# The SAPIENT wire frame

Every SAPIENT TCP frame is a 4-byte little-endian length followed by the payload
(`sapient_encode_decode_msg.py`).  `header` is that `struct.Struct("<I")` as an
instance of the length-prefix library, and `encode` is the sender's half of the
module.  The receiver's half, `read_frames`, is in `Wire/Reader.lean`.
-/

namespace SensorFusion.Wire

/-- A Python `bytes` object. -/
abbrev Bytes := List UInt8

/-! ## `struct.Struct("<I")` -/

/-- The `k` low bytes of a number, least significant first. -/
def leBytes : ℕ → ℕ → Bytes
  | 0, _ => []
  | k + 1, n => UInt8.ofNat n :: leBytes k (n / 256)

/-- The number little-endian bytes spell. -/
def leValue : Bytes → ℕ
  | [] => 0
  | b :: bs => b.toNat + 256 * leValue bs

@[simp] theorem length_leBytes (k n : ℕ) : (leBytes k n).length = k := by
  induction k generalizing n with
  | zero => rfl
  | succ k ih => simp [leBytes, ih]

theorem leValue_leBytes (k n : ℕ) (h : n < 256 ^ k) : leValue (leBytes k n) = n := by
  induction k generalizing n with
  | zero => simp only [pow_zero, Nat.lt_one_iff] at h; simp [leBytes, leValue, h]
  | succ k ih =>
      have hdiv : n / 256 < 256 ^ k := by
        rw [Nat.div_lt_iff_lt_mul (by norm_num), ← pow_succ]
        exact h
      rw [leBytes, leValue, ih _ hdiv, UInt8.toNat_ofNat']
      omega

theorem leBytes_leValue (bs : Bytes) : leBytes bs.length (leValue bs) = bs := by
  induction bs with
  | nil => rfl
  | cons b bs ih =>
      have hb : b.toNat < 256 := b.toNat_lt
      have hdiv : (b.toNat + 256 * leValue bs) / 256 = leValue bs := by omega
      have hhead : UInt8.ofNat (b.toNat + 256 * leValue bs) = b := by
        apply UInt8.toNat_inj.mp
        rw [UInt8.toNat_ofNat']
        omega
      rw [List.length_cons, leBytes, leValue, hdiv, ih, hhead]

theorem leValue_lt (bs : Bytes) : leValue bs < 256 ^ bs.length := by
  induction bs with
  | nil => simp [leValue]
  | cons b bs ih =>
      have hb : b.toNat < 256 := b.toNat_lt
      rw [leValue, List.length_cons, pow_succ]
      omega

/-- `_HEADER = struct.Struct("<I")`: four bytes, least significant first. -/
def header : LengthPrefix UInt8 where
  size := 4
  limit := 2 ^ 32
  pack := leBytes 4
  unpack := leValue
  size_pos := Nat.succ_pos 3
  length_pack := length_leBytes 4
  unpack_pack n h := leValue_leBytes 4 n (by norm_num at h ⊢; exact h)
  pack_unpack h hlen := by rw [← hlen]; exact leBytes_leValue h
  unpack_lt h hlen := by
    have hlt := leValue_lt h
    rw [hlen] at hlt
    norm_num at hlt ⊢
    exact hlt

/-- `HEADER_LEN = _HEADER.size`. -/
def HEADER_LEN : ℕ := header.size

/-- `struct.error: 'I' format requires 0 <= number <= 4294967295`. -/
inductive StructError where
  | requiresUInt32 (number : ℕ)
deriving DecidableEq, Repr

/-- The text of the exception. -/
def StructError.text : StructError → String
  | .requiresUInt32 _ => "'I' format requires 0 <= number <= 4294967295"

/-- `_HEADER.pack`: refuses a number that does not fit in 32 bits. -/
def HEADER_pack (n : ℕ) : Except StructError Bytes :=
  if n < 2 ^ 32 then .ok (leBytes 4 n) else .error (.requiresUInt32 n)

/-- Prepend the 4-byte little-endian length header to a serialized message. -/
def encode (payload : Bytes) : Except StructError Bytes :=
  (HEADER_pack payload.length).map (· ++ payload)

/-- The bytes of several encoded payloads, back to back. -/
def encodeAll : List Bytes → Except StructError Bytes
  | [] => .ok []
  | p :: ps => do
      let b ← encode p
      let bs ← encodeAll ps
      pure (b ++ bs)

/-! ## Encoding is framing -/

theorem encode_of_fits {p : Bytes} (h : p.length < 2 ^ 32) : encode p = .ok (header.frame p) := by
  rw [encode, HEADER_pack, if_pos h]
  rfl

theorem encode_of_not_fits {p : Bytes} (h : 2 ^ 32 ≤ p.length) :
    encode p = .error (.requiresUInt32 p.length) := by
  rw [encode, HEADER_pack, if_neg (Nat.not_lt.mpr h)]
  rfl

/-- A list of payloads encodes exactly when each payload fits, and then to the
frames of the payloads. -/
theorem encodeAll_eq_ok_iff {ps : List Bytes} {bs : Bytes} :
    encodeAll ps = .ok bs ↔ (∀ p ∈ ps, header.Fits p) ∧ bs = header.frames ps := by
  induction ps generalizing bs with
  | nil => simp [encodeAll, eq_comm]
  | cons p ps ih =>
      by_cases hp : p.length < 2 ^ 32
      · have hfits : header.Fits p := hp
        cases hps : encodeAll ps with
        | error e =>
            have hno : ¬ ∀ q ∈ ps, header.Fits q := fun hall ↦ by
              have := ih.mpr ⟨hall, rfl⟩
              rw [hps] at this
              cases this
            simp [encodeAll, encode_of_fits hp, hps, bind, Except.bind, hfits, hno]
        | ok cs =>
            obtain ⟨hall, rfl⟩ := ih.mp hps
            have hcons : ∀ q ∈ p :: ps, header.Fits q := List.forall_mem_cons.mpr ⟨hfits, hall⟩
            have henc : encodeAll (p :: ps) = .ok (header.frames (p :: ps)) := by
              simp [encodeAll, encode_of_fits hp, hps, bind, Except.bind, pure, Except.pure]
            rw [henc]
            constructor
            · intro h
              cases h
              exact ⟨hcons, rfl⟩
            · rintro ⟨_, rfl⟩
              rfl
      · have hno : ¬ header.Fits p := hp
        simp [encodeAll, encode_of_not_fits (Nat.not_lt.mp hp), bind, Except.bind, hno]

end SensorFusion.Wire
