import Mathlib.Data.List.Nodup
import SensorFusion.Lib.Dict

/-!
# A list of subscribers

Parties come and go, and some of them subscribe to something when they come and unsubscribe
when they go: each puts an entry of its own at the end of a list and removes it again.  So
the list always holds the entries of the parties that are there, each of them once, and
going through the list reaches every subscriber exactly once.
-/

namespace SensorFusion

variable {K V B : Type*} [DecidableEq K]

/-- The list holds the entries of the parties that are there and subscribe, each of them
once.  `entry` gives what a party subscribes with, and `key` whose entry it is. -/
structure Subscribed (key : B → K) (entry : V → Option B) (parties : Dict K V) (l : List B) :
    Prop where
  nodup : l.Nodup
  mem : ∀ b, b ∈ l ↔ ∃ v, parties.get? (key b) = some v ∧ entry v = some b
  key : ∀ k v b, parties.get? k = some v → entry v = some b → key b = k

/-- The list without the entry of a party that goes. -/
def unsubscribe [DecidableEq B] (l : List B) : Option B → List B
  | some b => l.erase b
  | none => l

namespace Subscribed

variable {key : B → K} {entry : V → Option B} {parties : Dict K V} {l : List B} {k : K} {v v' : V}

theorem empty : Subscribed key entry (∅ : Dict K V) [] where
  nodup := List.nodup_nil
  mem _ := iff_of_false List.not_mem_nil fun ⟨_, h, _⟩ ↦ nomatch h
  key _ _ _ h := nomatch h

/-- A party has at most one entry. -/
theorem nodup_keys (h : Subscribed key entry parties l) : (l.map key).Nodup := by
  refine h.nodup.map_on fun b hb b' hb' hkey ↦ ?_
  obtain ⟨v, hv, hentry⟩ := (h.mem b).mp hb
  obtain ⟨v', hv', hentry'⟩ := (h.mem b').mp hb'
  rw [hkey, hv'] at hv
  cases hv
  exact Option.some.inj (hentry.symm.trans hentry')

/-- The parties that are reached are those that subscribe. -/
theorem mem_keys (h : Subscribed key entry parties l) :
    k ∈ l.map key ↔ ∃ v, parties.get? k = some v ∧ (entry v).isSome := by
  rw [List.mem_map]
  constructor
  · rintro ⟨b, hb, rfl⟩
    obtain ⟨v, hv, hentry⟩ := (h.mem b).mp hb
    exact ⟨v, hv, hentry ▸ rfl⟩
  · rintro ⟨v, hv, hentry⟩
    obtain ⟨b, hb⟩ := Option.isSome_iff_exists.mp hentry
    have hkey := h.key k v b hv hb
    exact ⟨b, (h.mem b).mpr ⟨v, hkey ▸ hv, hb⟩, hkey⟩

/-- A party that is not there yet comes. -/
theorem join (h : Subscribed key entry parties l) (hk : parties.get? k = none)
    (hkey : ∀ b, entry v = some b → key b = k) :
    Subscribed key entry (parties.set k v) (l ++ (entry v).toList) where
  nodup := by
    cases hentry : entry v with
    | none =>
        rw [Option.toList_none, List.append_nil]
        exact h.nodup
    | some b =>
        refine List.nodup_append'.mpr ⟨h.nodup, List.nodup_singleton b, ?_⟩
        rintro b' hb' hb
        rw [Option.toList_some, List.mem_singleton] at hb
        obtain ⟨v', hv', -⟩ := (h.mem b').mp hb'
        rw [hb, hkey b hentry, hk] at hv'
        exact nomatch hv'
  mem b := by
    rw [List.mem_append, h.mem b, Option.mem_toList]
    by_cases hb : key b = k
    · rw [hb, hk, Dict.get?_set_self]
      constructor
      · rintro (⟨_, hnone, -⟩ | hentry)
        · exact nomatch hnone
        · exact ⟨v, rfl, hentry⟩
      · rintro ⟨_, ⟨⟩, hentry⟩
        exact Or.inr hentry
    · rw [Dict.get?_set_ne _ _ hb]
      exact or_iff_left fun hentry ↦ hb (hkey b hentry)
  key k' v' b hv' hentry := by
    rw [Dict.get?_set] at hv'
    split at hv'
    · rename_i hk'
      cases hv'
      rw [hk']
      exact hkey b hentry
    · exact h.key k' v' b hv' hentry

/-- A party changes, but not its subscription. -/
theorem change (h : Subscribed key entry parties l) (hv : parties.get? k = some v)
    (hentry : entry v' = entry v) : Subscribed key entry (parties.set k v') l where
  nodup := h.nodup
  mem b := by
    rw [h.mem b]
    by_cases hb : key b = k
    · rw [hb, hv, Dict.get?_set_self]
      simp only [Option.some.injEq, exists_eq_left', hentry]
    · rw [Dict.get?_set_ne _ _ hb]
  key k' w b hw hb := by
    rw [Dict.get?_set] at hw
    split at hw
    · rename_i hk'
      cases hw
      rw [hk']
      exact h.key k v b hv (hentry ▸ hb)
    · exact h.key k' w b hw hb

/-- A party goes, and removes its entry if it has one. -/
theorem leave [DecidableEq B] (h : Subscribed key entry parties l)
    (hv : parties.get? k = some v) :
    Subscribed key entry (parties.erase k) (unsubscribe l (entry v)) where
  nodup := by
    unfold unsubscribe
    split
    · exact h.nodup.erase _
    · exact h.nodup
  mem b := by
    have hleft : (∃ w, (parties.erase k).get? (key b) = some w ∧ entry w = some b) ↔
        key b ≠ k ∧ b ∈ l := by
      rw [h.mem b, ← exists_and_left]
      refine exists_congr fun w ↦ ?_
      rw [Dict.get?_erase_eq_some_iff, and_assoc]
    rw [hleft]
    unfold unsubscribe
    split
    · rename_i b' hb'
      rw [h.nodup.mem_erase_iff]
      refine and_congr_left fun hb ↦ not_congr ?_
      constructor
      · rintro rfl
        exact h.key k v b hv hb'
      · intro hkey
        obtain ⟨w, hw, hentry⟩ := (h.mem b).mp hb
        rw [hkey, hv] at hw
        cases hw
        exact Option.some.inj (hentry.symm.trans hb')
    · rename_i hnone
      refine (and_iff_right_of_imp fun hb hkey ↦ ?_).symm
      obtain ⟨w, hw, hentry⟩ := (h.mem b).mp hb
      rw [hkey, hv] at hw
      cases hw
      rw [hnone] at hentry
      exact nomatch hentry
  key k' w b hw hb := h.key k' w b (Dict.get?_erase_eq_some_iff.mp hw).2 hb

end Subscribed

end SensorFusion
