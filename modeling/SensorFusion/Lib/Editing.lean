import Mathlib.Data.List.Forall2
import Mathlib.Data.List.InsertIdx

/-!
# Editing a list through a reading of it

A list of stored items is read item by item with `f`, edited in the form it was read in, and
written back item by item with `g`, both of which can fail.  The edit leaves the other items
alone just in case each of them comes back from its reading, and a removal by a test does so
when the test picks one item only.
-/

namespace SensorFusion

universe u v

variable {α : Type u} {β : Type v}

theorem mapM_eq_some_iff {f : α → Option β} {l : List α} {l' : List β} :
    l.mapM f = some l' ↔ l.map f = l'.map some := by
  induction l generalizing l' with
  | nil => cases l' <;> simp
  | cons a l ih =>
      rw [List.mapM_cons, Option.bind_eq_bind, Option.bind_eq_some_iff]
      cases l' with
      | nil =>
          refine iff_of_false ?_ (List.cons_ne_nil _ _)
          rintro ⟨b, -, h⟩
          obtain ⟨bs, -, h⟩ := Option.bind_eq_some_iff.mp h
          cases h
      | cons b l' =>
          rw [List.map_cons, List.map_cons, List.cons.injEq, ← ih]
          constructor
          · rintro ⟨b', hb, h⟩
            obtain ⟨bs, hbs, h⟩ := Option.bind_eq_some_iff.mp h
            cases h
            exact ⟨hb, hbs⟩
          · rintro ⟨hb, hbs⟩
            exact ⟨b, hb, Option.bind_eq_some_iff.mpr ⟨l', hbs, rfl⟩⟩

theorem mapM_eq_some_iff_forall₂ {f : α → Option β} {l : List α} {l' : List β} :
    l.mapM f = some l' ↔ List.Forall₂ (fun a b ↦ f a = some b) l l' := by
  rw [mapM_eq_some_iff, ← List.forall₂_eq_eq_eq, List.forall₂_map_left_iff,
    List.forall₂_map_right_iff]

theorem mapM_map {γ : Type*} (f : α → Option β) (g : β → γ) (l : List α) :
    l.mapM (fun a ↦ (f a).map g) = (l.mapM f).map (List.map g) := by
  induction l with
  | nil => rfl
  | cons a l ih =>
      rw [List.mapM_cons, List.mapM_cons, ih]
      cases f a with
      | none => rfl
      | some b =>
          cases l.mapM f with
          | none => rfl
          | some bs => rfl

/-- A list whose items can all be read can be read. -/
theorem exists_mapM {f : α → Option β} {l : List α} (h : ∀ a ∈ l, ∃ b, f a = some b) :
    ∃ l', l.mapM f = some l' := by
  induction l with
  | nil => exact ⟨[], rfl⟩
  | cons a l ih =>
      obtain ⟨⟨b, hb⟩, hl⟩ := List.forall_mem_cons.mp h
      obtain ⟨l', hl'⟩ := ih hl
      exact ⟨b :: l', by rw [List.mapM_cons, hb, hl']; rfl⟩

/-- What is read at an index is read of the item there. -/
theorem getElem?_of_mapM {f : α → Option β} {l : List α} {l' : List β} (h : l.mapM f = some l')
    (j : ℕ) : l[j]?.map f = l'[j]?.map some := by
  rw [← List.getElem?_map, ← List.getElem?_map, mapM_eq_some_iff.mp h]

/-- An item is read to what stands at its index. -/
theorem exists_read_of_mapM {f : α → Option β} {l : List α} {l' : List β}
    (h : l.mapM f = some l') {j : ℕ} {a : α} (ha : l[j]? = some a) :
    ∃ b, f a = some b ∧ l'[j]? = some b := by
  have hget := getElem?_of_mapM h j
  rw [ha] at hget
  cases hb : l'[j]? with
  | none =>
      rw [hb] at hget
      cases hget
  | some b =>
      rw [hb] at hget
      exact ⟨b, Option.some.inj hget, rfl⟩

/-- What stands at an index was read of an item. -/
theorem exists_item_of_mapM {f : α → Option β} {l : List α} {l' : List β}
    (h : l.mapM f = some l') {j : ℕ} {b : β} (hb : l'[j]? = some b) :
    ∃ a, l[j]? = some a ∧ f a = some b := by
  have hget := getElem?_of_mapM h j
  rw [hb] at hget
  exact Option.map_eq_some_iff.mp hget

/-- What is read is read of an item. -/
theorem mem_of_mapM {f : α → Option β} {l : List α} {l' : List β} (h : l.mapM f = some l') {b : β} :
    b ∈ l' ↔ ∃ a ∈ l, f a = some b := by
  have hmem : some b ∈ l.map f ↔ b ∈ l' := by
    rw [mapM_eq_some_iff.mp h, List.mem_map]
    simp
  rw [← hmem, List.mem_map]

theorem length_of_mapM {f : α → Option β} {l : List α} {l' : List β} (h : l.mapM f = some l') :
    l.length = l'.length := by
  have hmap := congrArg List.length (mapM_eq_some_iff.mp h)
  rwa [List.length_map, List.length_map] at hmap

/-- Two lists of one length are equal but for an index when they agree elsewhere. -/
theorem eraseIdx_eq_eraseIdx_iff {l l' : List α} {i : ℕ} :
    l.eraseIdx i = l'.eraseIdx i ↔ ∀ j, j ≠ i → l[j]? = l'[j]? := by
  constructor
  · intro h j hj
    rcases Nat.lt_or_gt_of_ne hj with hlt | hgt
    · rw [← List.getElem?_eraseIdx_of_lt hlt, h, List.getElem?_eraseIdx_of_lt hlt]
    · have hle : i ≤ j - 1 := by omega
      have hsucc : j - 1 + 1 = j := by omega
      have hget := congrArg (·[j - 1]?) h
      simp only [List.getElem?_eraseIdx_of_ge hle, hsucc] at hget
      exact hget
  · intro h
    apply List.ext_getElem?
    intro j
    rw [List.getElem?_eraseIdx, List.getElem?_eraseIdx]
    split
    · exact h j (by omega)
    · exact h (j + 1) (by omega)

/-- A list is written but for an index when every other item is. -/
theorem mapM_eraseIdx_iff {g : β → Option α} {l : List α} {l' : List β} {i : ℕ} :
    (l'.eraseIdx i).mapM g = some (l.eraseIdx i) ↔
      ∀ j, j ≠ i → l'[j]?.map g = l[j]?.map some := by
  rw [mapM_eq_some_iff, ← List.eraseIdx_map, ← List.eraseIdx_map, eraseIdx_eq_eraseIdx_iff]
  simp only [List.getElem?_map]

/-- A test that fails at one index only removes that one. -/
theorem filter_eq_eraseIdx {p : β → Bool} {l : List β} {i : ℕ}
    (hdrop : ∀ a, l[i]? = some a → p a = false)
    (hkeep : ∀ j a, j ≠ i → l[j]? = some a → p a = true) : l.filter p = l.eraseIdx i := by
  induction l generalizing i with
  | nil => rfl
  | cons b l ih =>
      cases i with
      | zero =>
          rw [List.filter_cons, hdrop b rfl, if_neg Bool.false_ne_true, List.eraseIdx_cons_zero,
            List.filter_eq_self]
          intro a ha
          obtain ⟨j, hj⟩ := List.mem_iff_getElem?.mp ha
          exact hkeep (j + 1) a (Nat.succ_ne_zero j) hj
      | succ i =>
          rw [List.filter_cons, hkeep 0 b (Nat.succ_ne_zero i).symm rfl, if_pos rfl,
            List.eraseIdx_cons_succ, ih hdrop fun j a hj ↦ hkeep (j + 1) a (by omega)]

/-- A test that fails at an index, and removes one item in all, removes that one. -/
theorem keeps_of_length_filter {p : β → Bool} {l : List β} {i : ℕ} {a : β} (ha : l[i]? = some a)
    (hdrop : p a = false) (hlength : (l.filter p).length + 1 = l.length) {j : ℕ} {b : β}
    (hj : j ≠ i) (hb : l[j]? = some b) : p b = true := by
  by_contra hp
  have hi : i < l.length := (List.getElem?_eq_some_iff.mp ha).1
  have hfilter : l.filter p = (l.eraseIdx i).filter p := by
    have hsplit : l = l.take i ++ a :: l.drop (i + 1) := by
      rw [← (List.getElem?_eq_some_iff.mp ha).2, ← List.drop_eq_getElem_cons hi,
        List.take_append_drop]
    have hsplit' : l.eraseIdx i = l.take i ++ l.drop (i + 1) := List.eraseIdx_eq_take_drop_succ ..
    rw [hsplit', List.filter_append]
    conv_lhs => rw [hsplit, List.filter_append, List.filter_cons, hdrop]
    rw [if_neg Bool.false_ne_true]
  have hmem : b ∈ l.eraseIdx i := by
    refine List.mem_iff_getElem?.mpr ?_
    rcases Nat.lt_or_gt_of_ne hj with hlt | hgt
    · exact ⟨j, by rw [List.getElem?_eraseIdx_of_lt hlt, hb]⟩
    · refine ⟨j - 1, ?_⟩
      rw [List.getElem?_eraseIdx_of_ge (by omega), Nat.sub_add_cancel (by omega), hb]
  have hall : ((l.eraseIdx i).filter p).length = (l.eraseIdx i).length := by
    rw [← hfilter, List.length_eraseIdx_of_lt hi]
    omega
  exact hp (List.length_filter_eq_length_iff.mp hall b hmem)

/-- Removing by a test writes the list without one item just in case the test picks that
item only and every other one comes back from its reading. -/
theorem mapM_filter_eq_eraseIdx_iff {f : α → Option β} {g : β → Option α} {l : List α}
    {l' : List β} (hf : l.mapM f = some l') {i : ℕ} {a : β} (ha : l'[i]? = some a) {p : β → Bool}
    (hnone : p a = true → ∀ b ∈ l', p b = true) :
    (l'.filter p).mapM g = some (l.eraseIdx i) ↔
      p a = false ∧ ∀ j x, j ≠ i → l[j]? = some x → ∃ b, f x = some b ∧ p b = true ∧
        g b = some x := by
  have hlength := length_of_mapM hf
  have hi : i < l'.length := (List.getElem?_eq_some_iff.mp ha).1
  -- a test that picks the item only removes it
  have hfilter : p a = false → (∀ j b, j ≠ i → l'[j]? = some b → p b = true) →
      l'.filter p = l'.eraseIdx i := fun hdrop hkeep ↦
    filter_eq_eraseIdx (fun b hb ↦ by rw [ha] at hb; cases hb; exact hdrop) hkeep
  constructor
  · intro h
    have hcount := length_of_mapM h
    rw [List.length_eraseIdx_of_lt (hlength ▸ hi)] at hcount
    have hdrop : p a = false := by
      by_contra hp
      have hall := hnone (Bool.not_eq_false _ ▸ hp)
      rw [List.filter_eq_self.mpr hall] at hcount
      omega
    have hkeep : ∀ j b, j ≠ i → l'[j]? = some b → p b = true := fun j b hj hb ↦
      keeps_of_length_filter ha hdrop (by omega) hj hb
    rw [hfilter hdrop hkeep, mapM_eraseIdx_iff] at h
    refine ⟨hdrop, fun j x hj hx ↦ ?_⟩
    obtain ⟨b, hb, hget⟩ := exists_read_of_mapM hf hx
    have hg := h j hj
    rw [hget, hx] at hg
    exact ⟨b, hb, hkeep j b hj hget, Option.some.inj hg⟩
  · rintro ⟨hdrop, hothers⟩
    have hother : ∀ j b, j ≠ i → l'[j]? = some b → ∃ x, l[j]? = some x ∧ p b = true ∧
        g b = some x := by
      intro j b hj hb
      obtain ⟨x, hx, hfx⟩ := exists_item_of_mapM hf hb
      obtain ⟨b', hfx', hp, hg⟩ := hothers j x hj hx
      rw [hfx] at hfx'
      cases hfx'
      exact ⟨x, hx, hp, hg⟩
    have hkeep : ∀ j b, j ≠ i → l'[j]? = some b → p b = true := by
      intro j b hj hb
      obtain ⟨_, -, hp, -⟩ := hother j b hj hb
      exact hp
    rw [hfilter hdrop hkeep, mapM_eraseIdx_iff]
    intro j hj
    cases hb : l'[j]? with
    | none =>
        have hend : l[j]? = none := by
          rw [List.getElem?_eq_none_iff] at hb ⊢
          omega
        rw [hend]
        rfl
    | some b =>
        obtain ⟨x, hx, -, hg⟩ := hother j b hj hb
        rw [hx, Option.map_some, Option.map_some, hg]

/-- A list is related item by item to what is read of it just in case each item is. -/
theorem forall₂_mapM_iff {f : α → Option β} {R : β → α → Prop} {l : List α} {l' : List β}
    (hf : l.mapM f = some l') :
    List.Forall₂ R l' l ↔ ∀ a ∈ l, ∃ b, f a = some b ∧ R b a := by
  induction mapM_eq_some_iff_forall₂.mp hf with
  | nil => exact iff_of_true .nil fun _ h ↦ absurd h List.not_mem_nil
  | @cons a b l l' hab hrest ih =>
      rw [List.forall₂_cons, List.forall_mem_cons, ih (mapM_eq_some_iff_forall₂.mpr hrest)]
      refine and_congr_left fun _ ↦ ?_
      constructor
      · intro h
        exact ⟨b, hab, h⟩
      · rintro ⟨b', hb', h⟩
        rw [hab] at hb'
        cases hb'
        exact h

theorem forall₂_concat_iff {R : α → β → Prop} {l : List α} {l' : List β} {a : α} {b : β} :
    List.Forall₂ R (l ++ [a]) (l' ++ [b]) ↔ List.Forall₂ R l l' ∧ R a b := by
  rw [← List.forall₂_reverse_iff, List.reverse_concat, List.reverse_concat, List.forall₂_cons,
    List.forall₂_reverse_iff, and_comm]

end SensorFusion
