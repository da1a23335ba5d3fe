import Mathlib.Data.Int.Log
import Mathlib.Data.Real.Basic
import SensorFusion.Python.Float

/-!
# Rounding to doubles

A finite float has 53 bits, the last of them not below `2 ^ -1074`.  An operation gives the
double next to the exact result, and of two that are as near the one whose last bit is zero.
`PyFloat` leaves the rounding out; this is it, for where the last bits are what is asked about.
The numbers here are far from where an operation overflows.
-/

namespace SensorFusion.Double

/-- The exponent of the last bit of a double of this magnitude. -/
def lastBit (q : ℚ) : ℤ := max (Int.log 2 |q| - 52) (-1074)

/-- The double next to a number. -/
def round (q : ℚ) : ℚ := roundHalfEven (q / 2 ^ lastBit q) * 2 ^ lastBit q

example : round (1 / 10) = 3602879701896397 / 2 ^ 55 := by decide +kernel

theorem roundHalfEven_intCast (n : ℤ) : roundHalfEven n = n := by
  rw [roundHalfEven, Int.floor_intCast, sub_self, if_pos (by norm_num)]

section Round

variable {q : ℚ} {k : ℤ}

/-- A small number has its last bit far down. -/
theorem lastBit_le (hk : -1074 ≤ k) (hq : q ≠ 0) (h : |q| < 2 ^ (53 + k)) : lastBit q ≤ k := by
  have hlog : Int.log 2 |q| < 53 + k := by
    rw [← Int.lt_zpow_iff_log_lt (by decide) (abs_pos.mpr hq)]
    exact_mod_cast h
  exact max_le (by omega) hk

/-- A multiple of `2 ^ k` by a number of at most 53 bits is a double. -/
theorem round_mul_zpow {n : ℤ} (hk : -1074 ≤ k) (hn : |n| < 2 ^ 53) :
    round (n * 2 ^ k) = n * 2 ^ k := by
  by_cases hzero : n = 0
  · subst hzero
    rw [Int.cast_zero, zero_mul, round, zero_div]
    exact mul_eq_zero_of_left (by rw [← Int.cast_zero, roundHalfEven_intCast, Int.cast_zero]) _
  have hpow (i : ℤ) : (2 : ℚ) ^ i ≠ 0 := zpow_ne_zero i two_ne_zero
  have hle : lastBit (n * 2 ^ k) ≤ k := by
    refine lastBit_le hk (mul_ne_zero (Int.cast_ne_zero.mpr hzero) (hpow k)) ?_
    have hpos : (0 : ℚ) < 2 ^ k := zpow_pos two_pos k
    rw [abs_mul, abs_of_pos hpos, zpow_add₀ two_ne_zero]
    exact mul_lt_mul_of_pos_right (by exact_mod_cast hn) (zpow_pos two_pos k)
  obtain ⟨j, hj⟩ := Int.eq_ofNat_of_zero_le (sub_nonneg.mpr hle)
  rw [round]
  generalize lastBit (n * 2 ^ k) = e at hj ⊢
  have hsplit : (n * 2 ^ k : ℚ) = (n * 2 ^ j : ℤ) * 2 ^ e := by
    rw [← sub_add_cancel k e, hj, zpow_add₀ two_ne_zero, zpow_natCast]
    push_cast
    ring
  rw [hsplit, mul_div_cancel_right₀ _ (hpow e), roundHalfEven_intCast]

/-- Rounding moves a number by at most half of the last bit. -/
theorem abs_round_sub_le (hk : -1074 ≤ k) (h : |q| < 2 ^ (53 + k)) :
    |round q - q| ≤ 2 ^ k / 2 := by
  by_cases hq : q = 0
  · subst hq
    have hround : round 0 = 0 := by decide +kernel
    rw [hround, sub_zero, abs_zero]
    exact (div_pos (zpow_pos two_pos k) two_pos).le
  have hpos : (0 : ℚ) < 2 ^ lastBit q := zpow_pos two_pos _
  have hsplit : round q - q =
      (roundHalfEven (q / 2 ^ lastBit q) - q / 2 ^ lastBit q) * 2 ^ lastBit q := by
    rw [round, sub_mul, div_mul_cancel₀ _ hpos.ne']
  have hle : (2 : ℚ) ^ lastBit q ≤ 2 ^ k := zpow_le_zpow_right₀ one_le_two (lastBit_le hk hq h)
  calc |round q - q|
      = |(roundHalfEven (q / 2 ^ lastBit q) : ℚ) - q / 2 ^ lastBit q| * 2 ^ lastBit q := by
        rw [hsplit, abs_mul, abs_of_pos hpos]
    _ ≤ 1 / 2 * 2 ^ lastBit q := mul_le_mul_of_nonneg_right (abs_roundHalfEven_sub_le _) hpos.le
    _ ≤ 2 ^ k / 2 := by linarith

/-- The last bit of a natural number of units. -/
theorem lastBit_natCast_mul {n : ℕ} (hn : n ≠ 0) (hk : -1074 ≤ (Nat.log 2 n : ℤ) - 52 + k) :
    lastBit (n * 2 ^ k) = Nat.log 2 n - 52 + k := by
  have hpos : (0 : ℚ) < 2 ^ k := zpow_pos two_pos k
  have hnpos : (0 : ℚ) < n := Nat.cast_pos.mpr (Nat.pos_of_ne_zero hn)
  have hlow : (2 : ℚ) ^ (Nat.log 2 n : ℤ) ≤ n := by
    rw [zpow_natCast]
    exact_mod_cast Nat.pow_log_le_self 2 hn
  have hhigh : (n : ℚ) < 2 ^ ((Nat.log 2 n : ℤ) + 1) := by
    have hlt := Nat.lt_pow_succ_log_self (b := 2) (by decide) n
    exact_mod_cast hlt
  have hlog : Int.log 2 |(n * 2 ^ k : ℚ)| = Nat.log 2 n + k := by
    rw [abs_of_pos (mul_pos hnpos hpos)]
    refine le_antisymm (Int.lt_add_one_iff.mp ?_) ?_
    · rw [← Int.lt_zpow_iff_log_lt (by decide) (mul_pos hnpos hpos)]
      push_cast
      rw [add_right_comm, zpow_add₀ two_ne_zero]
      exact mul_lt_mul_of_pos_right hhigh hpos
    · rw [← Int.zpow_le_iff_le_log (by decide) (mul_pos hnpos hpos)]
      push_cast
      rw [zpow_add₀ two_ne_zero]
      exact mul_le_mul_of_nonneg_right hlow hpos.le
  rw [lastBit, hlog, max_eq_left (by omega)]
  ring

/-- How far a double of `n` units is from the next, if a unit is small enough. -/
def spacing (n : ℕ) : ℕ := 2 ^ (Nat.log 2 n - 52)

theorem round_natCast_mul (hk : -1074 ≤ k) (n : ℕ) :
    round (n * 2 ^ k) = roundHalfEven (n / spacing n) * spacing n * 2 ^ k := by
  by_cases hn : n < 2 ^ 53
  · have hlog : Nat.log 2 n - 52 = 0 := by
      have hlt : Nat.log 2 n < 53 := Nat.log_lt_of_lt_pow' (by decide) hn
      omega
    have hround := round_mul_zpow (n := n) hk (by rw [Nat.abs_cast]; exact_mod_cast hn)
    rw [Int.cast_natCast] at hround
    rw [hround, spacing, hlog, pow_zero, Nat.cast_one, div_one, mul_one]
    exact congrArg (· * (2 : ℚ) ^ k) (congrArg Int.cast (roundHalfEven_intCast n)).symm
  · have hlog : 53 ≤ Nat.log 2 n := Nat.le_log_of_pow_le (by decide) (not_lt.mp hn)
    have hexp : (Nat.log 2 n : ℤ) - 52 = (Nat.log 2 n - 52 : ℕ) := by omega
    have hsplit : (2 : ℚ) ^ ((Nat.log 2 n : ℤ) - 52 + k) = spacing n * 2 ^ k := by
      rw [zpow_add₀ two_ne_zero, hexp, zpow_natCast, spacing, Nat.cast_pow, Nat.cast_ofNat]
    rw [round, lastBit_natCast_mul (by rintro rfl; exact absurd hlog (by decide)) (by omega),
      hsplit, mul_div_mul_right _ _ (zpow_ne_zero k two_ne_zero), mul_assoc]

end Round

/-! ## Units -/

/-- Rounding a quotient of natural numbers looks at the remainder. -/
theorem roundHalfEven_div (n : ℕ) {m : ℕ} (hm : 0 < m) :
    roundHalfEven (n / m) =
      if 2 * (n % m) < m then ((n / m : ℕ) : ℤ)
      else if m < 2 * (n % m) then ((n / m : ℕ) : ℤ) + 1
      else if n / m % 2 = 0 then ((n / m : ℕ) : ℤ) else ((n / m : ℕ) : ℤ) + 1 := by
  have hpos : (0 : ℚ) < m := Nat.cast_pos.mpr hm
  have hfloor : ⌊(n / m : ℚ)⌋ = (n / m : ℕ) := by
    rw [Rat.floor_natCast_div_natCast]
    rfl
  have hrest : (n / m : ℚ) - (n / m : ℕ) = (n % m : ℕ) / m := by
    have hdiv : (m * (n / m : ℕ) + (n % m : ℕ) : ℚ) = n := by exact_mod_cast Nat.div_add_mod n m
    rw [eq_div_iff hpos.ne', sub_mul, div_mul_cancel₀ _ hpos.ne']
    linarith
  have hlow : (n % m : ℕ) / (m : ℚ) < 1 / 2 ↔ 2 * (n % m) < m := by
    rw [div_lt_div_iff₀ hpos two_pos, one_mul, mul_comm]
    exact_mod_cast Iff.rfl
  have hhigh : 1 / 2 < (n % m : ℕ) / (m : ℚ) ↔ m < 2 * (n % m) := by
    rw [div_lt_div_iff₀ two_pos hpos, one_mul, mul_comm]
    exact_mod_cast Iff.rfl
  have heven : ((n / m : ℕ) : ℤ) % 2 = 0 ↔ n / m % 2 = 0 := by omega
  rw [roundHalfEven, hfloor, Int.cast_natCast, hrest]
  simp only [hlow, hhigh, heven]

/-- How far a multiple below is from a number of less than a unit more than `n`. -/
theorem abs_below_sub_le_iff {n a m r : ℕ} {x : ℝ} (hn : (m * a + r : ℝ) = n) (hle : n ≤ x)
    (hlt : x < n + 1) : |(((a : ℤ) * m : ℚ) : ℝ) - x| ≤ 1 ↔ r = 0 ∨ r = 1 ∧ x = n := by
  have hdist : |(((a : ℤ) * m : ℚ) : ℝ) - x| = x - n + r := by
    push_cast
    rw [abs_sub_comm, abs_of_nonneg (by linarith [(Nat.cast_nonneg r : (0 : ℝ) ≤ r)])]
    linarith
  rw [hdist]
  rcases r with _ | _ | r
  · simp only [Nat.cast_zero]
    exact iff_of_true (by linarith) (.inl trivial)
  · simp only [zero_add, Nat.cast_one]
    constructor
    · intro h
      exact .inr ⟨trivial, by linarith⟩
    · rintro (h | ⟨-, rfl⟩)
      · cases h
      · linarith
  · push_cast
    refine iff_of_false (by linarith [(Nat.cast_nonneg r : (0 : ℝ) ≤ r)]) ?_
    rintro (h | ⟨h, -⟩) <;> omega

/-- How far the multiple above is from it. -/
theorem abs_above_sub_le_iff {n a m r : ℕ} {x : ℝ} (hn : (m * a + r : ℝ) = n) (hmod : r < m)
    (hle : n ≤ x) (hlt : x < n + 1) :
    |((((a : ℤ) + 1 : ℤ) * m : ℚ) : ℝ) - x| ≤ 1 ↔ r + 1 = m := by
  obtain ⟨d, rfl⟩ := Nat.exists_eq_add_of_lt hmod
  have hdist : |((((a : ℤ) + 1 : ℤ) * (r + d + 1 : ℕ) : ℚ) : ℝ) - x| = n + d + 1 - x := by
    push_cast at hn ⊢
    rw [abs_of_nonneg (by linarith [(Nat.cast_nonneg d : (0 : ℝ) ≤ d)])]
    linarith
  rw [hdist]
  rcases d with _ | d
  · exact iff_of_true (by rw [Nat.cast_zero]; linarith) rfl
  · push_cast
    exact iff_of_false (by linarith [(Nat.cast_nonneg d : (0 : ℝ) ≤ d)]) (by omega)

/-- A number of less than a unit more than `n` is within a unit of the double next to `n`: if
`n` is a double, or one before a double that is taken for it, or one behind a double and the
number has nothing left. -/
theorem abs_rounded_sub_le_iff {n : ℕ} {x : ℝ} (hle : n ≤ x) (hlt : x < n + 1) :
    |((roundHalfEven (n / spacing n) * spacing n : ℚ) : ℝ) - x| ≤ 1 ↔
      n % spacing n = 0 ∨ n % spacing n = 1 ∧ x = n ∨
        n % spacing n + 1 = spacing n ∧ (spacing n = 2 → n % 4 = 3) := by
  have hpos : 0 < spacing n := Nat.two_pow_pos _
  have hdiv := Nat.div_add_mod n (spacing n)
  have hmod := Nat.mod_lt n hpos
  rw [roundHalfEven_div n hpos]
  generalize n % spacing n = r at *
  generalize n / spacing n = a at *
  generalize spacing n = m at *
  have hn : (m * a + r : ℝ) = n := by exact_mod_cast hdiv
  have hdown := abs_below_sub_le_iff hn hle hlt
  have hup := abs_above_sub_le_iff hn hmod hle hlt
  split_ifs with hlow hhigh heven
  · rw [hdown]
    constructor
    · exact fun h ↦ h.imp_right .inl
    · rintro (h | h | ⟨h, -⟩)
      · exact .inl h
      · exact .inr h
      · exact .inl (by omega)
  · rw [hup]
    constructor
    · exact fun h ↦ .inr (.inr ⟨h, by omega⟩)
    · rintro (h | ⟨h, -⟩ | ⟨h, -⟩) <;> omega
  · -- a tie, and the multiple below is even
    rw [hdown]
    constructor
    · exact fun h ↦ h.imp_right .inl
    · rintro (h | h | ⟨h, hodd⟩)
      · exact .inl h
      · exact .inr h
      · have := hodd (by omega)
        obtain rfl : r = 1 := by omega
        obtain rfl : m = 2 := by omega
        omega
  · rw [hup]
    constructor
    · intro h
      refine .inr (.inr ⟨h, fun htwo ↦ ?_⟩)
      subst htwo
      omega
    · rintro (h | ⟨h, -⟩ | ⟨h, -⟩) <;> omega

end SensorFusion.Double
