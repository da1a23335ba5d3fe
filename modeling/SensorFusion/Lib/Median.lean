import Mathlib.Algebra.Order.Field.Basic
import Mathlib.Data.List.Sort

/-!
# Order statistics and majorities

In a sorted list the elements under a bound come first, so the place of an element tells how
many there are.  An element in the middle lies between any two bounds that more than half of
the elements lie between, wherever the others are.
-/

namespace SensorFusion

universe u

variable {α : Type u} [LinearOrder α] {l l' : List α} {a b : α}

/-! ## The elements under and over a bound -/

theorem getElem_le_of_lt_countP (h : l.SortedLE) {k : ℕ} (hk : k < l.length)
    (hcount : k < l.countP (· ≤ b)) : l[k] ≤ b := by
  by_contra hlt
  -- the elements from the place on are all above the bound
  have hdrop : (l.drop k).countP (· ≤ b) = 0 := by
    rw [List.countP_eq_zero]
    intro x hx
    obtain ⟨i, hi, rfl⟩ := List.getElem_of_mem hx
    rw [List.getElem_drop, decide_eq_true_iff, not_le]
    exact (not_le.mp hlt).trans_le (h.getElem_le_getElem_of_le (Nat.le_add_right k i))
  have hsplit : (l.take k ++ l.drop k).countP (· ≤ b) =
      (l.take k).countP (· ≤ b) + (l.drop k).countP (· ≤ b) := List.countP_append
  rw [List.take_append_drop, hdrop] at hsplit
  have hle := List.countP_le_length (p := fun x ↦ decide (x ≤ b)) (l := l.take k)
  rw [List.length_take] at hle
  omega

theorem le_getElem_of_length_le (h : l.SortedLE) {k : ℕ} (hk : k < l.length)
    (hcount : l.length ≤ k + l.countP (a ≤ ·)) : a ≤ l[k] := by
  by_contra hlt
  have htake : (l.take (k + 1)).countP (a ≤ ·) = 0 := by
    rw [List.countP_eq_zero]
    intro x hx
    obtain ⟨i, hi, rfl⟩ := List.getElem_of_mem hx
    rw [List.length_take] at hi
    rw [List.getElem_take, decide_eq_true_iff, not_le]
    exact (h.getElem_le_getElem_of_le (by omega)).trans_lt (not_le.mp hlt)
  have hsplit : (l.take (k + 1) ++ l.drop (k + 1)).countP (a ≤ ·) =
      (l.take (k + 1)).countP (a ≤ ·) + (l.drop (k + 1)).countP (a ≤ ·) := List.countP_append
  rw [List.take_append_drop, htake] at hsplit
  have hle := List.countP_le_length (p := fun x ↦ decide (a ≤ x)) (l := l.drop (k + 1))
  rw [List.length_drop] at hle
  omega

/-! ## The median -/

/-- More than half of a list lies between two bounds. -/
def Majority (a b : α) (l : List α) : Prop := l.length < 2 * l.countP fun x ↦ a ≤ x ∧ x ≤ b

instance : Decidable (Majority a b l) := inferInstanceAs (Decidable (_ < _))

theorem Majority.perm (h : Majority a b l) (hl : l.Perm l') : Majority a b l' := by
  rw [Majority, ← hl.length_eq, ← hl.countP_eq]
  exact h

theorem Majority.ne_nil (h : Majority a b l) : l ≠ [] := by
  rintro rfl
  rw [Majority, List.countP_nil] at h
  exact absurd h (Nat.lt_irrefl 0)

/-- A list that is not empty, all of it between two bounds. -/
theorem majority_of_forall (hne : l ≠ []) (h : ∀ x ∈ l, a ≤ x ∧ x ≤ b) : Majority a b l := by
  have hcount : (l.countP fun x ↦ a ≤ x ∧ x ≤ b) = l.length := by
    rw [List.countP_eq_length]
    exact fun x hx ↦ decide_eq_true (h x hx)
  have hpos := List.length_pos_iff.mpr hne
  rw [Majority, hcount]
  omega

/-- Every place next to the middle of a sorted list is between the bounds. -/
theorem Majority.getElem_mem_Icc (h : Majority a b l) (hsorted : l.SortedLE) {k : ℕ}
    (hk : k < l.length) (hlow : l.length ≤ 2 * k + 2) (hhigh : 2 * k ≤ l.length) :
    l[k] ∈ Set.Icc a b := by
  have hbelow : (l.countP fun x ↦ a ≤ x ∧ x ≤ b) ≤ l.countP (· ≤ b) :=
    List.countP_mono_left fun x _ hx ↦ decide_eq_true (of_decide_eq_true hx).2
  have habove : (l.countP fun x ↦ a ≤ x ∧ x ≤ b) ≤ l.countP (a ≤ ·) :=
    List.countP_mono_left fun x _ hx ↦ decide_eq_true (of_decide_eq_true hx).1
  rw [Majority] at h
  exact ⟨le_getElem_of_length_le hsorted hk (by omega),
    getElem_le_of_lt_countP hsorted hk (by omega)⟩

/-- The mean of two elements is between their bounds. -/
theorem mean_mem_Icc {K : Type u} [Field K] [LinearOrder K] [IsStrictOrderedRing K] {a b x y : K}
    (hx : x ∈ Set.Icc a b) (hy : y ∈ Set.Icc a b) : (x + y) / 2 ∈ Set.Icc a b := by
  rw [Set.mem_Icc, le_div_iff₀ two_pos, div_le_iff₀ two_pos, mul_two, mul_two]
  exact ⟨add_le_add hx.1 hy.1, add_le_add hx.2 hy.2⟩

end SensorFusion
