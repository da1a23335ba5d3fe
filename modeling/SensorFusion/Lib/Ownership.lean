import Mathlib.Data.List.Basic

/-!
# Ownership by the last taker

Parties take keys, one after the other, and a key that is taken again changes its owner.  A
party owns a key as long as it was the last to take it and is alive; when it dies, the key
does not go back to whoever had it before.
-/

namespace SensorFusion

variable {K C : Type*} [DecidableEq K]

/-- The party that took a key last. -/
def lastTaker (takes : List (K × C)) (k : K) : Option C :=
  (takes.filter fun t ↦ t.1 = k).getLast?.map Prod.snd

theorem lastTaker_append_self (takes : List (K × C)) (k : K) (c : C) :
    lastTaker (takes ++ [(k, c)]) k = some c := by
  simp [lastTaker]

theorem lastTaker_append_ne (takes : List (K × C)) {k k' : K} (c : C) (h : k ≠ k') :
    lastTaker (takes ++ [(k, c)]) k' = lastTaker takes k' := by
  simp [lastTaker, h]

theorem mem_of_lastTaker {takes : List (K × C)} {k : K} {c : C} (h : lastTaker takes k = some c) :
    (k, c) ∈ takes := by
  obtain ⟨⟨k', c'⟩, hlast, rfl⟩ := Option.map_eq_some_iff.mp h
  have hmem := List.mem_filter.mp (List.mem_of_getLast? hlast)
  have hk : k' = k := of_decide_eq_true hmem.2
  rw [← hk]
  exact hmem.1

/-- `c` took `k` last, and is alive. -/
def Owns (Alive : C → Prop) (takes : List (K × C)) (k : K) (c : C) : Prop :=
  lastTaker takes k = some c ∧ Alive c

namespace Owns

variable {Alive Alive' : C → Prop} {takes : List (K × C)} {k k' : K} {c c' : C}

theorem take_self : Owns Alive (takes ++ [(k, c)]) k c' ↔ c' = c ∧ Alive c := by
  rw [Owns, lastTaker_append_self, Option.some_inj, eq_comm]
  constructor
  · rintro ⟨rfl, halive⟩
    exact ⟨rfl, halive⟩
  · rintro ⟨rfl, halive⟩
    exact ⟨rfl, halive⟩

theorem take_ne (h : k ≠ k') :
    Owns Alive (takes ++ [(k, c)]) k' c' ↔ Owns Alive takes k' c' := by
  rw [Owns, lastTaker_append_ne takes c h, Owns]

/-- Who is alive matters only for those who took something. -/
theorem congr_alive (h : ∀ t ∈ takes, Alive' t.2 ↔ Alive t.2) :
    Owns Alive' takes k c ↔ Owns Alive takes k c := by
  constructor
  · rintro ⟨hlast, halive⟩
    exact ⟨hlast, (h _ (mem_of_lastTaker hlast)).mp halive⟩
  · rintro ⟨hlast, halive⟩
    exact ⟨hlast, (h _ (mem_of_lastTaker hlast)).mpr halive⟩

end Owns

end SensorFusion
