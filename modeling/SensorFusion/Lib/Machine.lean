import Mathlib.Data.List.Basic

/-!
# Deterministic labelled machines

A concurrent program whose scheduler, clock and environment are all made visible
as *labels* is deterministic: the label says which task resumes and what the
outside world answers, and the machine either moves to one next state or is not
able to take that label at all.  `Machine.run` replays a list of labels, so that
a statement about every list of labels is a statement about every interleaving.

The induction rules at the end are the only inductions over runs that the rest of
the development needs.  `Machine.invariant` is the usual rule for a predicate which
every step preserves.  `Machine.Meets.invariant` is the rule for a predicate which
only the steps meeting some condition preserve, which is the shape of a statement
about every run *whose steps all meet a condition*.  `Machine.spoiled` is its other
half: what a step that does not meet the condition brings about, and every step after
it preserves.  `Machine.outputs_invariant` is the rule for what a run has put out, which
is not part of the state.
-/

namespace SensorFusion

universe u v

variable {S : Type u} {L : Type v}

/-- A machine over states `S` and labels `L`: `none` when the label cannot be
taken in this state. -/
abbrev Machine (S : Type u) (L : Type v) := S → L → Option S

namespace Machine

/-- Replay a list of labels. -/
def run (m : Machine S L) : S → List L → Option S
  | s, [] => some s
  | s, l :: ls => (m s l).bind fun s' ↦ run m s' ls

theorem run_cons (m : Machine S L) (s : S) (l : L) (ls : List L) :
    m.run s (l :: ls) = (m s l).bind fun s' ↦ m.run s' ls := rfl

/-- A run of `l :: ls` is a step with `l` followed by a run of `ls`. -/
theorem run_cons_eq_some {m : Machine S L} {s s' : S} {l : L} {ls : List L} :
    m.run s (l :: ls) = some s' ↔ ∃ t, m s l = some t ∧ m.run t ls = some s' := by
  rw [run_cons, Option.bind_eq_some_iff]

theorem run_append (m : Machine S L) (s : S) (ls ls' : List L) :
    m.run s (ls ++ ls') = (m.run s ls).bind fun s' ↦ m.run s' ls' := by
  induction ls generalizing s with
  | nil => rfl
  | cons l ls ih =>
      rw [List.cons_append, run_cons, run_cons, Option.bind_assoc]
      exact Option.bind_congr fun t _ ↦ ih t

/-- `Meets m G s ls` holds when every step of the run of `ls` from `s` satisfies
`G` in the state before it. -/
def Meets (m : Machine S L) (G : S → L → Prop) : S → List L → Prop
  | _, [] => True
  | s, l :: ls => G s l ∧ ∀ s', m s l = some s' → Meets m G s' ls

theorem meets_cons {m : Machine S L} {G : S → L → Prop} {s t : S} {l : L} {ls : List L}
    (h : m s l = some t) : m.Meets G s (l :: ls) ↔ G s l ∧ m.Meets G t ls := by
  constructor
  · rintro ⟨hG, hls⟩
    exact ⟨hG, hls t h⟩
  · rintro ⟨hG, hls⟩
    exact ⟨hG, fun s' hs' ↦ by rw [h] at hs'; cases hs'; exact hls⟩

instance decidableMeets (m : Machine S L) (G : S → L → Prop) [∀ s l, Decidable (G s l)] :
    ∀ s ls, Decidable (m.Meets G s ls)
  | _, [] => isTrue trivial
  | s, l :: ls =>
      match h : m s l with
      | none => decidable_of_iff (G s l)
          ⟨fun hG ↦ ⟨hG, fun s' hs' ↦ by rw [h] at hs'; cases hs'⟩, And.left⟩
      | some t =>
          have := decidableMeets m G t ls
          decidable_of_iff (G s l ∧ m.Meets G t ls) (meets_cons h).symm

/-- A predicate that every step preserves holds at the end of every run. -/
theorem invariant {m : Machine S L} {I : S → Prop}
    (hstep : ∀ s l s', I s → m s l = some s' → I s')
    {s s' : S} {ls : List L} (hI : I s) (h : m.run s ls = some s') : I s' := by
  induction ls generalizing s with
  | nil => cases h; exact hI
  | cons l ls ih =>
      obtain ⟨t, ht, hrun⟩ := run_cons_eq_some.mp h
      exact ih (hstep s l t hI ht) hrun

/-- A predicate that every step meeting `G` preserves holds at the end of every
run whose steps all meet `G`. -/
theorem Meets.invariant {m : Machine S L} {G : S → L → Prop} {I : S → Prop}
    (hstep : ∀ s l s', I s → G s l → m s l = some s' → I s')
    {s s' : S} {ls : List L} (hG : m.Meets G s ls) (hI : I s) (h : m.run s ls = some s') :
    I s' := by
  induction ls generalizing s with
  | nil => cases h; exact hI
  | cons l ls ih =>
      obtain ⟨t, ht, hrun⟩ := run_cons_eq_some.mp h
      exact ih ((meets_cons ht).mp hG).2 (hstep s l t hI hG.1 ht) hrun

/-- A condition may be weakened along a run with what the steps meeting it preserve. -/
theorem Meets.imp_of_invariant {m : Machine S L} {G G' : S → L → Prop} {I : S → Prop}
    (himp : ∀ s l, I s → G s l → G' s l)
    (hstep : ∀ s l s', I s → G s l → m s l = some s' → I s')
    {s : S} {ls : List L} (hG : m.Meets G s ls) (hI : I s) : m.Meets G' s ls := by
  induction ls generalizing s with
  | nil => trivial
  | cons l ls ih =>
      refine ⟨himp s l hI hG.1, fun t ht ↦ ?_⟩
      exact ih (hG.2 t ht) (hstep s l t hI hG.1 ht)

/-- Two conditions are met together. -/
theorem Meets.and {m : Machine S L} {G G' : S → L → Prop} {s : S} {ls : List L}
    (hG : m.Meets G s ls) (hG' : m.Meets G' s ls) : m.Meets (fun s l ↦ G s l ∧ G' s l) s ls := by
  induction ls generalizing s with
  | nil => trivial
  | cons l ls ih => exact ⟨⟨hG.1, hG'.1⟩, fun t ht ↦ ih (hG.2 t ht) (hG'.2 t ht)⟩

/-- What a run meets, each part of it meets. -/
theorem meets_append {m : Machine S L} {G : S → L → Prop} {s t : S} {ls ls' : List L}
    (h : m.run s ls = some t) :
    m.Meets G s (ls ++ ls') ↔ m.Meets G s ls ∧ m.Meets G t ls' := by
  induction ls generalizing s with
  | nil =>
      cases h
      exact (and_iff_right trivial).symm
  | cons l ls ih =>
      obtain ⟨u, hu, hrun⟩ := run_cons_eq_some.mp h
      rw [List.cons_append, meets_cons hu, meets_cons hu, ih hrun, and_assoc]

/-- If every step that meets `G` leads to a related state, then so does every run whose
steps all meet `G`. -/
theorem Meets.related {m : Machine S L} {G : S → L → Prop} {I : S → Prop} {R : S → S → Prop}
    (hrefl : ∀ s, R s s) (htrans : ∀ {s t u}, R s t → R t u → R s u)
    (hstep : ∀ s l s', I s → G s l → m s l = some s' → I s' ∧ R s s')
    {s s' : S} {ls : List L} (hG : m.Meets G s ls) (hI : I s) (h : m.run s ls = some s') :
    R s s' := by
  induction ls generalizing s with
  | nil =>
      cases h
      exact hrefl _
  | cons l ls ih =>
      obtain ⟨t, ht, hrun⟩ := run_cons_eq_some.mp h
      obtain ⟨hIt, hR⟩ := hstep s l t hI hG.1 ht
      exact htrans hR (ih (hG.2 t ht) hIt hrun)

/-- If the first step that does not meet `G` spoils the state, and a spoiled state stays
spoiled, then a run some step of which does not meet `G` ends in a spoiled state. -/
theorem spoiled {m : Machine S L} {G : S → L → Prop} {I B : S → Prop}
    (hstep : ∀ s l s', I s → G s l → m s l = some s' → I s')
    (hspoil : ∀ s l s', I s → ¬ G s l → m s l = some s' → B s')
    (hstays : ∀ s l s', B s → m s l = some s' → B s')
    {s s' : S} {ls : List L} (hG : ¬ m.Meets G s ls) (hI : I s) (h : m.run s ls = some s') :
    B s' := by
  induction ls generalizing s with
  | nil => exact absurd trivial hG
  | cons l ls ih =>
      obtain ⟨t, ht, hrun⟩ := run_cons_eq_some.mp h
      by_cases hl : G s l
      · exact ih (fun hls ↦ hG ((meets_cons ht).mpr ⟨hl, hls⟩)) (hstep s l t hI hl ht) hrun
      · exact invariant hstays (hspoil s l t hI hl ht) hrun

/-- What the steps of a run put out, in order; `out` is read in the state before a step. -/
def outputs {O : Type*} (m : Machine S L) (out : S → L → List O) : S → List L → List O
  | _, [] => []
  | s, l :: ls => out s l ++ ((m s l).map fun s' ↦ outputs m out s' ls).getD []

theorem outputs_cons {O : Type*} {m : Machine S L} {out : S → L → List O} {s t : S} {l : L}
    {ls : List L} (h : m s l = some t) :
    m.outputs out s (l :: ls) = out s l ++ m.outputs out t ls := by
  rw [outputs, h]
  rfl

/-- A relation between the state and what has been put out, preserved by every step, holds
at the end of every run. -/
theorem outputs_invariant {O : Type*} {m : Machine S L} {out : S → L → List O}
    {I : S → List O → Prop}
    (hstep : ∀ s l s' os, I s os → m s l = some s' → I s' (os ++ out s l))
    {s s' : S} {ls : List L} {os : List O} (hI : I s os) (h : m.run s ls = some s') :
    I s' (os ++ m.outputs out s ls) := by
  induction ls generalizing s os with
  | nil =>
      cases h
      rwa [outputs, List.append_nil]
  | cons l ls ih =>
      obtain ⟨t, ht, hrun⟩ := run_cons_eq_some.mp h
      rw [outputs_cons ht, ← List.append_assoc]
      exact ih (hstep s l t os hI ht) hrun

/-- A relation between the state and what has been put out, preserved by every step whose
label satisfies `P`. -/
theorem outputs_invariant_of_forall {O : Type*} {m : Machine S L} {out : S → L → List O}
    {I : S → List O → Prop} {P : L → Prop}
    (hstep : ∀ s l s' os, I s os → P l → m s l = some s' → I s' (os ++ out s l))
    {s s' : S} {ls : List L} (hP : ∀ l ∈ ls, P l) {os : List O} (hI : I s os)
    (h : m.run s ls = some s') : I s' (os ++ m.outputs out s ls) := by
  induction ls generalizing s os with
  | nil =>
      cases h
      rwa [outputs, List.append_nil]
  | cons l ls ih =>
      obtain ⟨t, ht, hrun⟩ := run_cons_eq_some.mp h
      rw [outputs_cons ht, ← List.append_assoc]
      exact ih (fun l' hl' ↦ hP l' (List.mem_cons_of_mem l hl'))
        (hstep s l t os hI (hP l List.mem_cons_self) ht) hrun

/-- What the labels alone decide is put out label by label. -/
theorem outputs_of_label {O : Type*} {m : Machine S L} {out : L → List O} {s s' : S} {ls : List L}
    (h : m.run s ls = some s') : m.outputs (fun _ ↦ out) s ls = ls.flatMap out := by
  induction ls generalizing s with
  | nil => rfl
  | cons l ls ih =>
      obtain ⟨t, ht, hrun⟩ := run_cons_eq_some.mp h
      rw [outputs_cons ht, ih hrun, List.flatMap_cons]

/-- Every state that a run passes through, the first and the last one included, satisfies
`I`. -/
def Always (m : Machine S L) (I : S → Prop) (s : S) (ls : List L) : Prop :=
  ∀ ls' t, ls' <+: ls → m.run s ls' = some t → I t

theorem always_nil {m : Machine S L} {I : S → Prop} {s : S} : m.Always I s [] ↔ I s := by
  constructor
  · intro h
    exact h [] s List.prefix_rfl rfl
  · intro h ls' t hls' hrun
    rw [List.prefix_nil] at hls'
    subst hls'
    cases hrun
    exact h

theorem always_cons {m : Machine S L} {I : S → Prop} {s t : S} {l : L} {ls : List L}
    (h : m s l = some t) : m.Always I s (l :: ls) ↔ I s ∧ m.Always I t ls := by
  constructor
  · intro ha
    refine ⟨ha [] s List.nil_prefix rfl, fun ls' t' hls' hrun ↦ ?_⟩
    exact ha (l :: ls') t' (List.cons_prefix_cons.mpr ⟨rfl, hls'⟩)
      (run_cons_eq_some.mpr ⟨t, h, hrun⟩)
  · rintro ⟨hI, ha⟩ ls' t' hls' hrun
    cases ls' with
    | nil =>
        cases hrun
        exact hI
    | cons l' ls' =>
        obtain ⟨rfl, htail⟩ := List.cons_prefix_cons.mp hls'
        obtain ⟨u, hu, hrun⟩ := run_cons_eq_some.mp hrun
        rw [h] at hu
        cases hu
        exact ha ls' t' htail hrun

/-- What holds always holds before every step. -/
theorem Always.meets {m : Machine S L} {I : S → Prop} {s : S} {ls : List L}
    (h : m.Always I s ls) : m.Meets (fun s _ ↦ I s) s ls := by
  induction ls generalizing s with
  | nil => trivial
  | cons l ls ih =>
      refine ⟨h [] s List.nil_prefix rfl, fun t ht ↦ ih ?_⟩
      exact ((always_cons ht).mp h).2

/-- If a step from a good state meets `G` exactly when the state after it and all it puts
out are good, then a run meets `G` exactly when all its states and all it puts out are. -/
theorem always_iff_meets {O : Type*} {m : Machine S L} {G : S → L → Prop} {I : S → Prop}
    {R : O → Prop} {out : S → L → List O}
    (hstep : ∀ s l s', I s → m s l = some s' → (G s l ↔ I s' ∧ ∀ o ∈ out s l, R o))
    {s s' : S} {ls : List L} (hI : I s) (h : m.run s ls = some s') :
    m.Always I s ls ∧ (∀ o ∈ m.outputs out s ls, R o) ↔ m.Meets G s ls := by
  induction ls generalizing s with
  | nil =>
      rw [always_nil]
      exact iff_of_true ⟨hI, fun _ ho ↦ nomatch ho⟩ trivial
  | cons l ls ih =>
      obtain ⟨t, ht, hrun⟩ := run_cons_eq_some.mp h
      rw [always_cons ht, outputs_cons ht, meets_cons ht, hstep s l t hI ht]
      simp only [List.mem_append, or_imp, forall_and]
      constructor
      · rintro ⟨⟨-, ha⟩, ho, hos⟩
        have hIt : I t := ha [] t List.nil_prefix rfl
        exact ⟨⟨hIt, ho⟩, (ih hIt hrun).mp ⟨ha, hos⟩⟩
      · rintro ⟨⟨hIt, ho⟩, hG⟩
        obtain ⟨ha, hos⟩ := (ih hIt hrun).mpr hG
        exact ⟨⟨hI, ha⟩, ho, hos⟩

/-- The same where nothing is put out, for states that satisfy an invariant `J`. -/
theorem always_iff_meets_of_invariant {m : Machine S L} {G : S → L → Prop} {I J : S → Prop}
    (hinv : ∀ s l s', J s → m s l = some s' → J s')
    (hstep : ∀ s l s', J s → I s → m s l = some s' → (G s l ↔ I s'))
    {s s' : S} {ls : List L} (hJ : J s) (hI : I s) (h : m.run s ls = some s') :
    m.Always I s ls ↔ m.Meets G s ls := by
  induction ls generalizing s with
  | nil => exact iff_of_true (always_nil.mpr hI) trivial
  | cons l ls ih =>
      obtain ⟨t, ht, hrun⟩ := run_cons_eq_some.mp h
      have hJt := hinv s l t hJ ht
      rw [always_cons ht, meets_cons ht, hstep s l t hJ hI ht, and_iff_right hI]
      constructor
      · intro ha
        have hIt : I t := ha [] t List.nil_prefix rfl
        exact ⟨hIt, (ih hJt hIt hrun).mp ha⟩
      · rintro ⟨hIt, hG⟩
        exact (ih hJt hIt hrun).mpr hG

/-- A condition on the labels alone is met when every label satisfies it. -/
theorem meets_iff_forall {m : Machine S L} {P : L → Prop} {s s' : S} {ls : List L}
    (h : m.run s ls = some s') : m.Meets (fun _ l ↦ P l) s ls ↔ ∀ l ∈ ls, P l := by
  induction ls generalizing s with
  | nil => exact iff_of_true trivial fun _ hl ↦ nomatch hl
  | cons l ls ih =>
      obtain ⟨t, ht, hrun⟩ := run_cons_eq_some.mp h
      rw [meets_cons ht, List.forall_mem_cons, ih hrun]

end Machine

end SensorFusion
