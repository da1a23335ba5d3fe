import Mathlib.Data.List.Infix

/-!
# Marks in a text

A text is cut into marks and single letters, from left to right, the way a global replacement
by a regular expression goes through it.  When no mark can begin inside another one, the marks
that are found are those that occur.
-/

namespace SensorFusion

universe u v

variable {K : Type u} {α : Type v}

/-- A text may begin with either of two parts. -/
def Compatible (l₁ l₂ : List α) : Prop := l₁ <+: l₂ ∨ l₂ <+: l₁

instance [DecidableEq α] (l₁ l₂ : List α) : Decidable (Compatible l₁ l₂) :=
  inferInstanceAs (Decidable (_ ∨ _))

theorem prefixes_compatible {l₁ l₂ s : List α} (h₁ : l₁ <+: s) (h₂ : l₂ <+: s) :
    Compatible l₁ l₂ := List.prefix_or_prefix_of_prefix h₁ h₂

/-- Marks, by their kinds.  No two begin at the same place, and none begins inside another. -/
structure Marks (K : Type u) (α : Type v) where
  kinds : List K
  mark : K → List α
  nonempty : ∀ k ∈ kinds, mark k ≠ []
  distinct : ∀ k ∈ kinds, ∀ k' ∈ kinds, Compatible (mark k) (mark k') → k = k'
  no_overlap : ∀ k ∈ kinds, ∀ k' ∈ kinds, ∀ i < (mark k').length, 0 < i →
    ¬ Compatible (mark k) ((mark k').drop i)

/-- A part of a text. -/
inductive Piece (K : Type u) (α : Type v) where
  | letter (c : α)
  | hole (k : K)

/-- Where a mark occurs in a text with an insertion of which it can have letters at either end
only: there it ends with the first ones, or begins with the last ones. -/
theorem infix_insert_iff {m v first last : List α} (hfirst : first <+: v) (hlast : last <:+ v)
    (hin : ¬ m <:+: v) (hover : ¬ v <:+: m)
    (hends : ∀ m₁ m₂, m₁ ≠ [] → m₂ ≠ [] → m = m₁ ++ m₂ → m₂ <+: v → m₂ <+: first)
    (hbegins : ∀ m₁ m₂, m₁ ≠ [] → m₂ ≠ [] → m = m₁ ++ m₂ → m₁ <:+ v → m₁ <:+ last)
    (before after : List α) :
    m <:+: before ++ (v ++ after) ↔ m <:+: before ++ first ∨ m <:+: last ++ after := by
  constructor
  · intro h
    rcases List.infix_append_iff_ne_nil.mp h with h | h | ⟨m₁, m₂, h₁, h₂, hm, hbefore, hrest⟩
    · exact .inl (h.trans (List.prefix_append _ _).isInfix)
    · rcases List.infix_append_iff_ne_nil.mp h with h | h | ⟨m₁, m₂, h₁, h₂, hm, hv, hafter⟩
      · exact absurd h hin
      · exact .inr (h.trans (List.suffix_append _ _).isInfix)
      · right
        rw [List.infix_append_iff]
        exact .inr (.inr ⟨m₁, m₂, hm, hbegins m₁ m₂ h₁ h₂ hm hv, hafter⟩)
    · rcases List.prefix_or_prefix_of_prefix hrest (List.prefix_append v after) with hm₂ | hv
      · left
        rw [List.infix_append_iff]
        exact .inr (.inr ⟨m₁, m₂, hm, hbefore, hends m₁ m₂ h₁ h₂ hm hm₂⟩)
      · exact absurd (hv.isInfix.trans (hm ▸ (List.suffix_append _ _).isInfix)) hover
  · rintro (h | h)
    · obtain ⟨rest, rfl⟩ := hfirst
      refine h.trans ?_
      rw [List.append_assoc, ← List.append_assoc before]
      exact (List.prefix_append _ _).isInfix
    · obtain ⟨rest, rfl⟩ := hlast
      refine h.trans ?_
      rw [List.append_assoc, ← List.append_assoc before]
      exact (List.suffix_append _ _).isInfix

namespace Marks

variable [DecidableEq α] (M : Marks K α)

/-- The mark at the beginning of a text. -/
def hole? (s : List α) : Option K := M.kinds.find? fun k ↦ M.mark k <+: s

/-- The parts of a text, where so many letters are still to be passed over. -/
def piecesFrom : ℕ → List α → List (Piece K α)
  | _, [] => []
  | skip + 1, _ :: s => piecesFrom skip s
  | 0, c :: s =>
      match M.hole? (c :: s) with
      | some k => .hole k :: piecesFrom ((M.mark k).length - 1) s
      | none => .letter c :: piecesFrom 0 s

def pieces (s : List α) : List (Piece K α) := M.piecesFrom 0 s

/-- What a part is in the text. -/
def source : Piece K α → List α
  | .letter c => [c]
  | .hole k => M.mark k

variable {M} {k : K} {c : α} {s : List α}

theorem piecesFrom_eq_pieces_drop (n : ℕ) (s : List α) :
    M.piecesFrom n s = M.pieces (s.drop n) := by
  induction n generalizing s with
  | zero => rfl
  | succ n ih =>
      cases s with
      | nil => rfl
      | cons c s => exact ih s

theorem hole?_eq_some (h : M.hole? s = some k) : k ∈ M.kinds ∧ M.mark k <+: s := by
  rw [hole?] at h
  have hpre := List.find?_some h
  exact ⟨List.mem_of_find?_eq_some h, of_decide_eq_true hpre⟩

theorem hole?_eq_none (h : M.hole? s = none) (hk : k ∈ M.kinds) : ¬ M.mark k <+: s :=
  fun hpre ↦ List.find?_eq_none.mp h k hk (decide_eq_true hpre)

theorem pieces_of_hole (h : M.hole? (c :: s) = some k) :
    M.pieces (c :: s) = .hole k :: M.pieces ((c :: s).drop (M.mark k).length) := by
  obtain ⟨n, hn⟩ : ∃ n, (M.mark k).length = n + 1 :=
    Nat.exists_eq_add_one.mpr (List.length_pos_iff.mpr (M.nonempty k (hole?_eq_some h).1))
  rw [pieces, piecesFrom, h]
  dsimp only
  rw [hn, piecesFrom_eq_pieces_drop, List.drop_succ_cons, Nat.add_sub_cancel]

theorem pieces_of_letter (h : M.hole? (c :: s) = none) :
    M.pieces (c :: s) = .letter c :: M.pieces s := by
  rw [pieces, piecesFrom, h]
  rfl

/-- The parts are the whole text. -/
theorem flatMap_pieces (s : List α) :
    (M.pieces s).flatMap M.source = s := by
  induction hn : s.length using Nat.strong_induction_on generalizing s with
  | _ n ih =>
    cases s with
    | nil => rfl
    | cons c s =>
        cases hhole : M.hole? (c :: s) with
        | none =>
            have hrest := ih s.length (by rw [← hn]; exact Nat.lt_succ_self _) s rfl
            rw [pieces_of_letter hhole, List.flatMap_cons, hrest]
            rfl
        | some k =>
            obtain ⟨hk, hpre⟩ := hole?_eq_some hhole
            have hpos := List.length_pos_iff.mpr (M.nonempty k hk)
            have hlt : ((c :: s).drop (M.mark k).length).length < n := by
              rw [List.length_drop, hn]
              rw [List.length_cons] at hn
              omega
            obtain ⟨rest, hrest⟩ := hpre
            rw [pieces_of_hole hhole, List.flatMap_cons, ih _ hlt _ rfl, ← hrest, List.drop_left,
              source]

omit [DecidableEq α] in
/-- A mark that occurs is at the beginning or behind the one that is there. -/
theorem infix_drop {k' : K} (hk : k ∈ M.kinds) (hk' : k' ∈ M.kinds) (hpre : M.mark k' <+: s)
    (h : M.mark k <:+: s) (hne : k ≠ k') : M.mark k <:+: s.drop (M.mark k').length := by
  obtain ⟨before, after, rfl⟩ := h
  rw [List.append_assoc] at hpre ⊢
  have hat : M.mark k <+: M.mark k ++ after := List.prefix_append _ _
  by_cases hlen : (M.mark k').length ≤ before.length
  · rw [List.drop_append_of_le_length hlen]
    exact hat.isInfix.trans (List.suffix_append _ _).isInfix
  · exfalso
    have hdrop : (M.mark k').drop before.length <+: M.mark k ++ after := by
      have h := hpre.drop before.length
      rwa [List.drop_left] at h
    rcases Nat.eq_zero_or_pos before.length with hzero | hpos
    · rw [hzero, List.drop_zero] at hdrop
      exact hne (M.distinct k hk k' hk' (prefixes_compatible hat hdrop))
    · exact M.no_overlap k hk k' hk' _ (not_le.mp hlen) hpos (prefixes_compatible hat hdrop)

/-- A mark is found where it occurs. -/
theorem hole_mem_pieces (hk : k ∈ M.kinds) : .hole k ∈ M.pieces s ↔ M.mark k <:+: s := by
  induction hn : s.length using Nat.strong_induction_on generalizing s with
  | _ n ih =>
    cases s with
    | nil =>
        refine iff_of_false List.not_mem_nil fun h ↦ ?_
        exact M.nonempty k hk (List.infix_nil.mp h)
    | cons c s =>
        cases hhole : M.hole? (c :: s) with
        | none =>
            have hrest := ih s.length (by rw [← hn]; exact Nat.lt_succ_self _) rfl
            rw [pieces_of_letter hhole, List.mem_cons, or_iff_right nofun, hrest,
              List.infix_cons_iff, or_iff_right (hole?_eq_none hhole hk)]
        | some k' =>
            obtain ⟨hk', hpre⟩ := hole?_eq_some hhole
            have hpos := List.length_pos_iff.mpr (M.nonempty k' hk')
            have hlt : ((c :: s).drop (M.mark k').length).length < n := by
              rw [List.length_drop, hn]
              rw [List.length_cons] at hn
              omega
            rw [pieces_of_hole hhole, List.mem_cons, ih _ hlt rfl, Piece.hole.injEq]
            constructor
            · rintro (rfl | h)
              · exact hpre.isInfix
              · exact h.trans (List.drop_suffix _ _).isInfix
            · intro h
              by_cases hkk : k = k'
              · exact .inl hkk
              · exact .inr (infix_drop hk hk' hpre h hkk)

end Marks

end SensorFusion
