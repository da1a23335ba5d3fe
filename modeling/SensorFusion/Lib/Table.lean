import SensorFusion.Lib.Dict

/-!
# Tables of rows

A table is a dictionary of rows by their primary keys.  Rows are inserted under keys that
are not in use, changed in place, selected by a condition and merged into another table.  A
table is part of another one if every row of it is a row there; inserting and changing rows
in both keeps it so.
-/

namespace SensorFusion

namespace Dict

universe u v

variable {α : Type u} {β : Type v} [DecidableEq α]

/-! ## Selecting -/

/-- The rows that satisfy a condition. -/
def select (P : α → β → Prop) [∀ k v, Decidable (P k v)] (d : Dict α β) : Dict α β where
  items := d.items.filter fun a ↦ P a.1 a.2
  nodup := d.nodup.sublist ((List.filter_sublist).map Prod.fst)

theorem get?_select_eq_some_iff {P : α → β → Prop} [∀ k v, Decidable (P k v)] {d : Dict α β}
    {k : α} {v : β} : (d.select P).get? k = some v ↔ d.get? k = some v ∧ P k v := by
  rw [get?_eq_some_iff, get?_eq_some_iff, select, List.mem_filter]
  exact and_congr_right fun _ ↦ decide_eq_true_iff

theorem get?_update_empty (d : Dict α β) (k : α) : ((∅ : Dict α β).update d).get? k = d.get? k := by
  rw [get?_update, get?_empty]
  cases d.get? k <;> rfl

/-! ## Inserting -/

/-- A row is inserted under a key that is not in use. -/
def insertNew (d : Dict α β) (row : α × β) : Option (Dict α β) :=
  if row.1 ∈ d then none else some (d.set row.1 row.2)

theorem insertNew_eq_some {d d' : Dict α β} {row : α × β} :
    d.insertNew row = some d' ↔ row.1 ∉ d ∧ d' = d.set row.1 row.2 := by
  rw [insertNew]
  split
  · rename_i hmem
    exact iff_of_false nofun fun h ↦ h.1 hmem
  · rename_i hmem
    rw [Option.some_inj, eq_comm]
    exact (and_iff_right hmem).symm

/-- Rows are inserted one after the other, all of them or none. -/
def insertAll (rows : List (α × β)) (d : Dict α β) : Option (Dict α β) := rows.foldlM insertNew d

theorem insertAll_cons (row : α × β) (rows : List (α × β)) (d : Dict α β) :
    d.insertAll (row :: rows) = (d.insertNew row).bind (insertAll rows) := rfl

/-- What is in the table after an insertion. -/
theorem get?_insertAll {rows : List (α × β)} {d d' : Dict α β} (h : d.insertAll rows = some d')
    (k : α) (v : β) : d'.get? k = some v ↔ d.get? k = some v ∨ (k, v) ∈ rows := by
  induction rows generalizing d with
  | nil =>
      cases h
      exact (or_iff_left List.not_mem_nil).symm
  | cons row rows ih =>
      obtain ⟨d₁, hnew, hrest⟩ := Option.bind_eq_some_iff.mp h
      obtain ⟨hfresh, rfl⟩ := insertNew_eq_some.mp hnew
      rw [ih hrest, get?_set, List.mem_cons, ← or_assoc]
      refine or_congr_left ?_
      by_cases hk : k = row.1
      · rw [if_pos hk, hk, get?_eq_none_iff.mpr hfresh, Option.some_inj]
        constructor
        · rintro rfl
          exact Or.inr rfl
        · rintro (hnone | heq)
          · exact nomatch hnone
          · exact congrArg Prod.snd heq.symm
      · rw [if_neg hk]
        exact (or_iff_left fun heq ↦ hk (congrArg Prod.fst heq)).symm

/-- Rows can be inserted if their keys are distinct and not in use. -/
theorem insertAll_of_fresh {rows : List (α × β)} {d : Dict α β}
    (hnodup : (rows.map Prod.fst).Nodup) (hfresh : ∀ row ∈ rows, row.1 ∉ d) :
    ∃ d', d.insertAll rows = some d' := by
  induction rows generalizing d with
  | nil => exact ⟨d, rfl⟩
  | cons row rows ih =>
      rw [List.map_cons, List.nodup_cons] at hnodup
      have hnew : d.insertNew row = some (d.set row.1 row.2) :=
        insertNew_eq_some.mpr ⟨hfresh row List.mem_cons_self, rfl⟩
      rw [insertAll_cons, hnew, Option.bind_some]
      refine ih hnodup.2 fun row' hrow' ↦ ?_
      rw [mem_set, not_or]
      refine ⟨fun heq ↦ hnodup.1 ?_, hfresh row' (List.mem_cons_of_mem row hrow')⟩
      exact heq ▸ List.mem_map_of_mem hrow'

/-! ## Changing a row in place -/

/-- The row at a key is changed, if there is one. -/
def updateRow (k : α) (f : β → β) (d : Dict α β) : Dict α β :=
  match d.get? k with
  | none => d
  | some v => d.set k (f v)

theorem get?_updateRow (k k' : α) (f : β → β) (d : Dict α β) :
    (d.updateRow k f).get? k' = if k' = k then (d.get? k').map f else d.get? k' := by
  unfold updateRow
  split
  · rename_i hnone
    split
    · rename_i hk
      rw [hk, hnone]
      rfl
    · rfl
  · rename_i v hv
    rw [get?_set]
    split
    · rename_i hk
      rw [hk, hv]
      rfl
    · rfl

/-! ## Parts of a table -/

/-- Every row of the one is a row of the other. -/
def Part (d d' : Dict α β) : Prop := ∀ k v, d.get? k = some v → d'.get? k = some v

theorem Part.refl (d : Dict α β) : Part d d := fun _ _ h ↦ h

theorem Part.notMem {d d' : Dict α β} (h : Part d d') {k : α} (hk : k ∉ d') : k ∉ d := by
  intro hmem
  obtain ⟨v, hv⟩ := mem_iff_get?.mp hmem
  exact hk (mem_iff_get?.mpr ⟨v, h k v hv⟩)

theorem Part.set {d d' : Dict α β} (h : Part d d') (k : α) (v : β) :
    Part (d.set k v) (d'.set k v) := by
  intro k' v' hv'
  rw [get?_set] at hv' ⊢
  split
  · rename_i hk
    rwa [if_pos hk] at hv'
  · rename_i hk
    rw [if_neg hk] at hv'
    exact h k' v' hv'

theorem Part.updateRow {d d' : Dict α β} (h : Part d d') (k : α) (f : β → β) :
    Part (d.updateRow k f) (d'.updateRow k f) := by
  intro k' v' hv'
  rw [get?_updateRow] at hv' ⊢
  split
  · rename_i hk
    rw [if_pos hk] at hv'
    obtain ⟨v, hv, rfl⟩ := Option.map_eq_some_iff.mp hv'
    rw [h k' v hv]
    rfl
  · rename_i hk
    rw [if_neg hk] at hv'
    exact h k' v' hv'

/-- What can be inserted into a table can be inserted into a part of it, which is a part of it
still. -/
theorem Part.insertAll {d d' e' : Dict α β} (h : Part d d') {rows : List (α × β)}
    (hrows : d'.insertAll rows = some e') : ∃ e, d.insertAll rows = some e ∧ Part e e' := by
  induction rows generalizing d d' with
  | nil =>
      cases hrows
      exact ⟨d, rfl, h⟩
  | cons row rows ih =>
      obtain ⟨d₁, hnew, hrest⟩ := Option.bind_eq_some_iff.mp hrows
      obtain ⟨hfresh, rfl⟩ := insertNew_eq_some.mp hnew
      obtain ⟨e, he, hpart⟩ := ih (h.set row.1 row.2) hrest
      refine ⟨e, ?_, hpart⟩
      rw [insertAll_cons, insertNew_eq_some.mpr ⟨h.notMem hfresh, rfl⟩, Option.bind_some, he]

end Dict

end SensorFusion
