import Mathlib.Data.Rat.Defs
import Mathlib.Data.Rat.Floor
import Mathlib.Tactic.Linarith

/-!
# Python floats

A float is a finite number, an infinity or a NaN.  Finite floats are taken as
exact rationals: rounding to the 53-bit grid is left out, overflow to infinity
and the special values are kept, since the services branch on them.
-/

namespace SensorFusion

/-- A Python float, finite ones as exact rationals. -/
inductive PyFloat where
  | fin (q : ℚ)
  | posInf
  | negInf
  | nan
deriving DecidableEq, Repr

/-- `round(q)`: to the nearest integer, a tie to the even one. -/
def roundHalfEven (q : ℚ) : ℤ :=
  let n := ⌊q⌋
  let r := q - n
  if r < 1 / 2 then n
  else if 1 / 2 < r then n + 1
  else if n % 2 = 0 then n else n + 1

/-- `round(q, digits)`. -/
def roundTo (digits : ℕ) (q : ℚ) : ℚ := roundHalfEven (q * 10 ^ digits) / 10 ^ digits

/-- Rounding stays at or below an even number up to the tie above it. -/
theorem roundHalfEven_le_iff {q : ℚ} {m : ℤ} (hm : m % 2 = 0) :
    roundHalfEven q ≤ m ↔ q ≤ m + 1 / 2 := by
  have hfloor : (⌊q⌋ : ℚ) ≤ q := Int.floor_le q
  have hlt : q < ⌊q⌋ + 1 := Int.lt_floor_add_one q
  unfold roundHalfEven
  dsimp only
  generalize ⌊q⌋ = n at *
  split
  · -- rounding down
    rename_i hr
    constructor
    · intro h
      have : (n : ℚ) ≤ m := Int.cast_le.mpr h
      linarith
    · intro h
      have : (n : ℚ) < (m + 1 : ℤ) := by push_cast; linarith
      exact Int.lt_add_one_iff.mp (Int.cast_lt.mp this)
  · split
    · -- rounding up
      rename_i hr
      constructor
      · intro h
        have : ((n + 1 : ℤ) : ℚ) ≤ m := Int.cast_le.mpr h
        push_cast at this
        linarith
      · intro h
        have : (n : ℚ) < m := by linarith
        exact Int.add_one_le_iff.mpr (Int.cast_lt.mp this)
    · -- a tie
      have hq : q = n + 1 / 2 := by linarith
      rw [hq, add_le_add_iff_right, Int.cast_le]
      split <;> omega

/-- Rounding moves a number by at most a half. -/
theorem abs_roundHalfEven_sub_le (q : ℚ) : |(roundHalfEven q : ℚ) - q| ≤ 1 / 2 := by
  have hfloor : (⌊q⌋ : ℚ) ≤ q := Int.floor_le q
  have hlt : q < ⌊q⌋ + 1 := Int.lt_floor_add_one q
  unfold roundHalfEven
  dsimp only
  generalize ⌊q⌋ = n at *
  split
  · rw [abs_le]
    constructor <;> linarith
  · split
    · push_cast
      rw [abs_le]
      constructor <;> linarith
    · -- a tie is as far from one neighbour as from the other
      split
      · rw [abs_le]
        constructor <;> linarith
      · push_cast
        rw [abs_le]
        constructor <;> linarith

theorem roundHalfEven_nonneg {q : ℚ} (hq : 0 ≤ q) : 0 ≤ roundHalfEven q := by
  have hfloor : 0 ≤ ⌊q⌋ := Int.floor_nonneg.mpr hq
  unfold roundHalfEven
  dsimp only
  split
  · exact hfloor
  · split
    · omega
    · split <;> omega

namespace PyFloat

/-- `x > y`; every comparison with a NaN is false. -/
def gt : PyFloat → PyFloat → Bool
  | .fin p, .fin q => decide (q < p)
  | .posInf, .fin _ | .posInf, .negInf | .fin _, .negInf => true
  | _, _ => false

/-- `x >= y`. -/
def ge (x y : PyFloat) : Bool := gt x y || decide (x = y ∧ x ≠ .nan)

/-- The largest finite magnitude. -/
def MAX : ℕ := 2 ^ 1024 - 2 ^ 971

/-- A finite float is in the range of the format. -/
def Representable : PyFloat → Prop
  | .fin q => |q| ≤ MAX
  | _ => True

/-- A finite float of at most some magnitude. -/
def Within (bound : ℕ) : PyFloat → Prop
  | .fin q => |q| ≤ bound
  | _ => False

instance (bound : ℕ) : (x : PyFloat) → Decidable (x.Within bound)
  | .fin q => inferInstanceAs (Decidable (|q| ≤ bound))
  | .posInf | .negInf | .nan => .isFalse id

/-- Equal to so many decimals. -/
def Near (digits : ℕ) : PyFloat → PyFloat → Prop
  | .fin p, .fin q => |p - q| ≤ 1 / 2 / 10 ^ digits
  | x, y => x = y

theorem Within.representable {bound : ℕ} (hbound : bound ≤ MAX) {x : PyFloat}
    (h : x.Within bound) : x.Representable := by
  cases x with
  | fin q => exact le_trans h (Nat.cast_le.mpr hbound)
  | posInf => trivial
  | negInf => trivial
  | nan => trivial

end PyFloat

end SensorFusion
