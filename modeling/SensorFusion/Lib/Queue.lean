import Mathlib.Data.List.Basic

/-!
# A queue seen from a mark

The elements of a queue are numbered as they are put in, and a mark separates the
numbers below it from those to come.  `Window` follows the queue from the moment the
mark was set: the elements that were in it then are taken first, those that come later
follow them.  So an element that is taken is a later one exactly when it does not look
like any that was there at the mark, as long as those taken before it did not look
like it either.
-/

namespace SensorFusion

variable {α : Type*}

/-- Of the elements `pending` at the mark some were taken, all of them skipped, and the
rest is at the front of the queue; the others in the queue are later than the mark. -/
def Window (mark : ℕ) (pending : List α) (Skipped : α → Prop) (queue : List (ℕ × α)) : Prop :=
  ∃ taken rest later, pending = taken ++ rest.map Prod.snd ∧ queue = rest ++ later ∧
    (∀ a ∈ taken, Skipped a) ∧ (∀ x ∈ rest, x.1 < mark) ∧ ∀ x ∈ later, mark ≤ x.1

namespace Window

variable {mark : ℕ} {pending : List α} {Skipped : α → Prop} {queue : List (ℕ × α)}

/-- Set the mark above everything that is in the queue. -/
theorem set_mark (h : ∀ x ∈ queue, x.1 < mark) :
    Window mark (queue.map Prod.snd) Skipped queue :=
  ⟨[], queue, [], rfl, (List.append_nil _).symm, fun _ ha ↦ (nomatch ha), h,
    fun _ hx ↦ (nomatch hx)⟩

/-- Put later elements in. -/
theorem put (h : Window mark pending Skipped queue) {xs : List (ℕ × α)}
    (hxs : ∀ x ∈ xs, mark ≤ x.1) : Window mark pending Skipped (queue ++ xs) := by
  obtain ⟨taken, rest, later, hpending, rfl, htaken, hrest, hlater⟩ := h
  refine ⟨taken, rest, later ++ xs, hpending, List.append_assoc .., htaken, hrest, ?_⟩
  intro x hx
  rcases List.mem_append.mp hx with hx | hx
  · exact hlater x hx
  · exact hxs x hx

/-- Take an element that is skipped. -/
theorem skip {x : ℕ × α} (h : Window mark pending Skipped (x :: queue)) (hx : Skipped x.2) :
    Window mark pending Skipped queue := by
  obtain ⟨taken, rest, later, hpending, hqueue, htaken, hrest, hlater⟩ := h
  cases rest with
  | nil =>
      rw [List.nil_append] at hqueue
      subst hqueue
      exact ⟨taken, [], queue, hpending, rfl, htaken, hrest,
        fun y hy ↦ hlater y (List.mem_cons_of_mem _ hy)⟩
  | cons y rest =>
      obtain ⟨rfl, rfl⟩ := List.cons.inj hqueue
      refine ⟨taken ++ [x.2], rest, later, by simp [hpending], rfl, ?_,
        fun z hz ↦ hrest z (List.mem_cons_of_mem _ hz), hlater⟩
      intro a ha
      rcases List.mem_append.mp ha with ha | ha
      · exact htaken a ha
      · rw [List.mem_singleton.mp ha]
        exact hx

/-- An element that is taken, unlike all that were skipped, is later than the mark if
and only if there was none like it at the mark. -/
theorem mark_le_iff {x : ℕ × α} (h : Window mark pending Skipped (x :: queue))
    (hx : ∀ a, Skipped a → a ≠ x.2) : mark ≤ x.1 ↔ x.2 ∉ pending := by
  obtain ⟨taken, rest, later, rfl, hqueue, htaken, hrest, hlater⟩ := h
  cases rest with
  | nil =>
      rw [List.nil_append] at hqueue
      subst hqueue
      refine iff_of_true (hlater x List.mem_cons_self) fun hmem ↦ ?_
      rw [List.map_nil, List.append_nil] at hmem
      exact hx _ (htaken _ hmem) rfl
  | cons y rest =>
      obtain ⟨rfl, rfl⟩ := List.cons.inj hqueue
      refine iff_of_false (Nat.not_le.mpr (hrest x List.mem_cons_self)) fun hno ↦ hno ?_
      exact List.mem_append_right _ (List.mem_map_of_mem List.mem_cons_self)

end Window

end SensorFusion
