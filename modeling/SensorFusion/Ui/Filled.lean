import SensorFusion.Ui.Template

/-!
# Which templates are filled

A singular submessage is not created by going into it, but by something being set inside.
`Touched` says of a type whether anything is, and `Fills` which fields a message has in the
end.  The message is filled throughout when every type that is reached has its mandatory
fields and oneofs among them.
-/

namespace SensorFusion.Ui

open Proto

universe u

variable {T : Type u}

namespace Descriptors

/-! ## What is set inside -/

/-- Something is set in a message of a type that is populated with so many levels left. -/
inductive Touched (D : Descriptors T) : ℕ → T → Prop where
  | scalar {left : ℕ} {t : T} {c : FieldDesc T × Option Value} (hc : c ∈ D.chosen t)
      (hk : ¬ IsMessage c.1) : Touched D (left + 1) t
  | repeated {left : ℕ} {t : T} {c : FieldDesc T × Option Value} (hc : c ∈ D.chosen t)
      (hl : c.1.label = .repeated) : Touched D (left + 1) t
  | message {left : ℕ} {t t' : T} {c : FieldDesc T × Option Value} (hc : c ∈ D.chosen t)
      (hk : c.1.kind = .message t') (h : Touched D left t') : Touched D (left + 1) t

/-- Setting a field creates a submessage, which is populated with so many levels left. -/
def Creates (D : Descriptors T) (left : ℕ) (fd : FieldDesc T) (t : T) : Prop :=
  fd.kind = .message t ∧ (fd.label = .repeated ∨ Touched D left t)

/-- A field is there when a message of type `t` was populated with so many levels left. -/
inductive Fills (D : Descriptors T) (t : T) (fd : FieldDesc T) : ℕ → Prop where
  | message {left : ℕ} {ov : Option Value} {t' : T} (hc : (fd, ov) ∈ D.chosen t)
      (h : Creates D left fd t') : Fills D t fd (left + 1)
  | scalar {left : ℕ} {ov : Option Value} {v : Value} (hc : (fd, ov) ∈ D.chosen t)
      (hk : ¬ IsMessage fd) (hv : D.assign t fd (D.value t (fd, ov)) = some v)
      (hd : fd.label = .implicit → v.isDefault = false) : Fills D t fd (left + 1)

/-- What is asked of a type that is populated with so many levels left: its mandatory
fields and a member of each of its mandatory oneofs are there, and no field refuses the
value that it is assigned. -/
structure Covers (D : Descriptors T) (left : ℕ) (t : T) : Prop where
  fields : ∀ fd ∈ (D.schema t).fields, .is_mandatory ∈ fd.options → Fills D t fd left
  oneofs : ∀ o ∈ (D.schema t).oneofs, .is_mandatory ∈ o.options →
    ∃ fd ∈ (D.schema t).fields, fd.label = .member o.name ∧ Fills D t fd left
  assigned : ∀ k c, left = k + 1 → c ∈ D.chosen t → ¬ IsMessage c.1 →
    ∃ v, D.assign t c.1 (D.value t c) = some v

/-- The types of the submessages that populating a type creates, at any depth. -/
inductive Reached (D : Descriptors T) : ℕ → T → ℕ → T → Prop where
  | self {left : ℕ} {t : T} : Reached D left t left t
  | sub {left left' : ℕ} {t t₁ t' : T} {c : FieldDesc T × Option Value} (hc : c ∈ D.chosen t)
      (h : Creates D left c.1 t₁) (hr : Reached D left t₁ left' t') :
      Reached D (left + 1) t left' t'

section Populate

variable {D : Descriptors T} {t : T} {left : ℕ} {b : Built}
  {c : FieldDesc T × Option Value} {p : Built}

theorem reached_zero {P : ℕ → T → Prop} :
    (∀ left' t', Reached D 0 t left' t' → P left' t') ↔ P 0 t := by
  constructor
  · intro h
    exact h 0 t .self
  · rintro h left' t' hr
    cases hr with
    | self => exact h

theorem reached_succ {P : ℕ → T → Prop} :
    (∀ left' t', Reached D (left + 1) t left' t' → P left' t') ↔
      P (left + 1) t ∧ ∀ c ∈ D.chosen t, ∀ t₁, Creates D left c.1 t₁ →
        ∀ left' t', Reached D left t₁ left' t' → P left' t' := by
  constructor
  · intro h
    exact ⟨h _ _ .self, fun c hc t₁ hcr left' t' hr ↦ h _ _ (.sub hc hcr hr)⟩
  · rintro ⟨hself, hsub⟩ left' t' hr
    cases hr with
    | self => exact hself
    | sub hc hcr hr => exact hsub _ hc _ hcr _ _ hr

/-! ### One field -/

theorem setField_repeated {populate : T → Option Built} {t' : T} (hk : c.1.kind = .message t')
    (hl : c.1.label = .repeated) :
    D.setField populate t c =
      (populate t').map fun sub ↦ ⟨true, [(c.1.name, .msg sub.fields)]⟩ := by
  rw [setField, hk, hl]

theorem setField_message {populate : T → Option Built} {t' : T} (hk : c.1.kind = .message t')
    (hl : c.1.label ≠ .repeated) :
    D.setField populate t c = (populate t').map fun sub ↦
      if sub.touched then ⟨true, [(c.1.name, .msg sub.fields)]⟩ else ⟨false, []⟩ := by
  rw [setField, hk]
  cases hlabel : c.1.label with
  | repeated => exact absurd hlabel hl
  | _ => rfl

/-- What is on the wire of an assigned field. -/
def onWire (fd : FieldDesc T) (v : Value) : Message :=
  if fd.label = .implicit ∧ v.isDefault = true then [] else [(fd.name, v)]

theorem setField_scalar {populate : T → Option Built} (hk : ¬ IsMessage c.1) :
    D.setField populate t c =
      (D.assign t c.1 (D.value t c)).map fun v ↦ ⟨true, onWire c.1 v⟩ := by
  rw [setField]
  cases hkind : c.1.kind with
  | message t' => exact absurd ⟨t', hkind⟩ hk
  | _ =>
      cases hlabel : c.1.label with
      | implicit =>
          refine congrArg (Option.map · _) (funext fun v ↦ ?_)
          simp [onWire, hlabel]
      | _ =>
          refine congrArg (Option.map · _) (funext fun v ↦ ?_)
          simp [onWire, hlabel]

/-- A field occurs under its own name, and once at most. -/
theorem setField_names {populate : T → Option Built} (h : D.setField populate t c = some p) :
    (p.fields.map Prod.fst).Sublist [c.1.name] := by
  by_cases hk : IsMessage c.1
  · obtain ⟨t', hk⟩ := hk
    by_cases hl : c.1.label = .repeated
    · rw [setField_repeated hk hl] at h
      obtain ⟨sub, -, rfl⟩ := Option.map_eq_some_iff.mp h
      exact List.Sublist.refl _
    · rw [setField_message hk hl] at h
      obtain ⟨sub, -, rfl⟩ := Option.map_eq_some_iff.mp h
      split
      · exact List.Sublist.refl _
      · exact List.nil_sublist _
  · rw [setField_scalar hk] at h
    obtain ⟨v, -, rfl⟩ := Option.map_eq_some_iff.mp h
    dsimp only
    rw [onWire]
    split
    · exact List.nil_sublist _
    · exact List.Sublist.refl _

/-! ### One message -/

theorem populate_succ (D : Descriptors T) (left : ℕ) (t : T) :
    D.populate (left + 1) t =
      ((D.chosen t).mapM (D.setField (D.populate left) t)).map Built.join := rfl

/-- A message is built when all its fields are set. -/
theorem exists_populate_iff :
    (∃ b, D.populate (left + 1) t = some b) ↔
      ∀ c ∈ D.chosen t, ∃ p, D.setField (D.populate left) t c = some p := by
  rw [populate_succ]
  constructor
  · rintro ⟨b, hb⟩ c hc
    obtain ⟨parts, hparts, -⟩ := Option.map_eq_some_iff.mp hb
    have hmem : D.setField (D.populate left) t c ∈
        (D.chosen t).map (D.setField (D.populate left) t) := List.mem_map.mpr ⟨c, hc, rfl⟩
    rw [mapM_eq_some_iff.mp hparts, List.mem_map] at hmem
    obtain ⟨p, -, hp⟩ := hmem
    exact ⟨p, hp.symm⟩
  · intro h
    obtain ⟨parts, hparts⟩ := exists_mapM h
    exact ⟨Built.join parts, by rw [hparts, Option.map_some]⟩

/-- An occurrence is of one of the fields that are set. -/
theorem mem_populate_iff (h : D.populate (left + 1) t = some b) {f : String} {v : Value} :
    (f, v) ∈ b.fields ↔
      ∃ c ∈ D.chosen t, ∃ p, D.setField (D.populate left) t c = some p ∧ (f, v) ∈ p.fields := by
  rw [populate_succ] at h
  obtain ⟨parts, hparts, rfl⟩ := Option.map_eq_some_iff.mp h
  rw [Built.join, List.mem_flatMap]
  constructor
  · rintro ⟨p, hp, hmem⟩
    obtain ⟨c, hc, hset⟩ := (mem_of_mapM hparts).mp hp
    exact ⟨c, hc, p, hset, hmem⟩
  · rintro ⟨c, hc, p, hset, hmem⟩
    exact ⟨p, (mem_of_mapM hparts).mpr ⟨c, hc, hset⟩, hmem⟩

/-- No field occurs twice. -/
theorem nodup_populate (h : D.populate left t = some b) : (b.fields.map Prod.fst).Nodup := by
  cases left with
  | zero =>
      cases h
      exact List.nodup_nil
  | succ left =>
      rw [populate_succ] at h
      obtain ⟨parts, hparts, rfl⟩ := Option.map_eq_some_iff.mp h
      have hsub : ∀ (cs : List (FieldDesc T × Option Value)) (parts : List Built),
          cs.mapM (D.setField (D.populate left) t) = some parts →
          ((parts.flatMap Built.fields).map Prod.fst).Sublist (cs.map fun c ↦ c.1.name) := by
        intro cs
        induction cs with
        | nil =>
            intro parts hparts
            cases hparts
            exact List.Sublist.refl _
        | cons c cs ih =>
            intro parts hparts
            rw [mapM_eq_some_iff] at hparts
            cases parts with
            | nil => cases hparts
            | cons p parts =>
                obtain ⟨hp, hrest⟩ := List.cons.inj hparts
                rw [List.flatMap_cons, List.map_append, List.map_cons]
                exact (setField_names hp).append (ih parts (mapM_eq_some_iff.mpr hrest))
      exact (nodup_chosen D t).sublist (hsub _ _ hparts)

/-- A type in which nothing is set is built without any effect. -/
theorem populate_of_not_touched (h : ¬ Touched D left t) :
    D.populate left t = some ⟨false, []⟩ := by
  induction left generalizing t with
  | zero => rfl
  | succ left ih =>
      have hnone : ∀ c ∈ D.chosen t, D.setField (D.populate left) t c = some ⟨false, []⟩ := by
        intro c hc
        have hk : IsMessage c.1 := by
          by_contra hk
          exact h (.scalar hc hk)
        obtain ⟨t', hk⟩ := hk
        have hl : c.1.label ≠ .repeated := fun hl ↦ h (.repeated hc hl)
        rw [setField_message hk hl, ih fun ht ↦ h (.message hc hk ht), Option.map_some]
        rfl
      have hparts : (D.chosen t).mapM (D.setField (D.populate left) t) =
          some ((D.chosen t).map fun _ ↦ ⟨false, []⟩) := by
        rw [mapM_eq_some_iff, List.map_map]
        exact List.map_congr_left hnone
      rw [populate_succ, hparts, Option.map_some, Built.join]
      refine congrArg some (congrArg₂ Built.mk ?_ ?_)
      · rw [List.any_map]
        exact List.any_eq_false.mpr fun _ _ h ↦ nomatch h
      · rw [List.flatMap_map]
        exact List.flatMap_eq_nil_iff.mpr fun _ _ ↦ rfl

/-- A message is touched when something is set in it. -/
theorem touched_populate_iff (h : D.populate left t = some b) :
    b.touched = true ↔ Touched D left t := by
  constructor
  · intro hb
    by_contra hnot
    rw [populate_of_not_touched hnot] at h
    cases h
    cases hb
  · intro ht
    induction ht generalizing b with
    | @scalar left t c hc hk =>
        rw [populate_succ] at h
        obtain ⟨parts, hparts, rfl⟩ := Option.map_eq_some_iff.mp h
        obtain ⟨p, hp⟩ := exists_populate_iff.mp ⟨_, h⟩ c hc
        refine List.any_eq_true.mpr ⟨p, (mem_of_mapM hparts).mpr ⟨c, hc, hp⟩, ?_⟩
        rw [setField_scalar hk] at hp
        obtain ⟨v, -, rfl⟩ := Option.map_eq_some_iff.mp hp
        rfl
    | @repeated left t c hc hl =>
        rw [populate_succ] at h
        obtain ⟨parts, hparts, rfl⟩ := Option.map_eq_some_iff.mp h
        obtain ⟨p, hp⟩ := exists_populate_iff.mp ⟨_, h⟩ c hc
        refine List.any_eq_true.mpr ⟨p, (mem_of_mapM hparts).mpr ⟨c, hc, hp⟩, ?_⟩
        by_cases hk : IsMessage c.1
        · obtain ⟨t', hk⟩ := hk
          rw [setField_repeated hk hl] at hp
          obtain ⟨sub, -, rfl⟩ := Option.map_eq_some_iff.mp hp
          rfl
        · rw [setField_scalar hk] at hp
          obtain ⟨v, -, rfl⟩ := Option.map_eq_some_iff.mp hp
          rfl
    | @message left t t' c hc hk ht ih =>
        rw [populate_succ] at h
        obtain ⟨parts, hparts, rfl⟩ := Option.map_eq_some_iff.mp h
        obtain ⟨p, hp⟩ := exists_populate_iff.mp ⟨_, h⟩ c hc
        refine List.any_eq_true.mpr ⟨p, (mem_of_mapM hparts).mpr ⟨c, hc, hp⟩, ?_⟩
        by_cases hl : c.1.label = .repeated
        · rw [setField_repeated hk hl] at hp
          obtain ⟨sub, -, rfl⟩ := Option.map_eq_some_iff.mp hp
          rfl
        · rw [setField_message hk hl] at hp
          obtain ⟨sub, hsub, rfl⟩ := Option.map_eq_some_iff.mp hp
          rw [ih hsub, if_pos rfl]

/-- A submessage that is created holds what its type was populated with. -/
theorem setField_of_creates {t' : T} (h : Creates D left c.1 t')
    (hb : D.populate left t' = some b) :
    D.setField (D.populate left) t c = some ⟨true, [(c.1.name, .msg b.fields)]⟩ := by
  obtain ⟨hk, hor⟩ := h
  by_cases hl : c.1.label = .repeated
  · rw [setField_repeated hk hl, hb, Option.map_some]
  · have ht := hor.resolve_left hl
    rw [setField_message hk hl, hb, Option.map_some, (touched_populate_iff hb).mpr ht, if_pos rfl]

/-- A submessage that occurs was created. -/
theorem creates_of_mem {t' : T} (hk : c.1.kind = .message t')
    (hset : D.setField (D.populate left) t c = some p) {v : Value}
    (hv : (c.1.name, v) ∈ p.fields) :
    Creates D left c.1 t' ∧ ∃ b, D.populate left t' = some b ∧ v = .msg b.fields := by
  by_cases hl : c.1.label = .repeated
  · rw [setField_repeated hk hl] at hset
    obtain ⟨b, hb, rfl⟩ := Option.map_eq_some_iff.mp hset
    rw [List.mem_singleton, Prod.mk.injEq] at hv
    exact ⟨⟨hk, Or.inl hl⟩, b, hb, hv.2⟩
  · rw [setField_message hk hl] at hset
    obtain ⟨b, hb, rfl⟩ := Option.map_eq_some_iff.mp hset
    cases htouched : b.touched with
    | true =>
        rw [htouched, if_pos rfl, List.mem_singleton, Prod.mk.injEq] at hv
        exact ⟨⟨hk, Or.inr ((touched_populate_iff hb).mp htouched)⟩, b, hb, hv.2⟩
    | false =>
        rw [htouched] at hv
        exact absurd hv List.not_mem_nil

/-- The field under whose name something occurs was set. -/
theorem exists_chosen_of_mem {fd : FieldDesc T} (h : D.populate (left + 1) t = some b)
    (hfd : fd ∈ (D.schema t).fields) {v : Value} (hv : (fd.name, v) ∈ b.fields) :
    ∃ ov p, (fd, ov) ∈ D.chosen t ∧ D.setField (D.populate left) t (fd, ov) = some p ∧
      (fd.name, v) ∈ p.fields := by
  obtain ⟨⟨fd', ov⟩, hc, p, hset, hmem⟩ := (mem_populate_iff h).mp hv
  have hname : fd.name ∈ p.fields.map Prod.fst := List.mem_map.mpr ⟨_, hmem, rfl⟩
  have heq : fd = fd' := eq_of_name_eq hfd (mem_fields_of_mem_chosen hc)
    (List.mem_singleton.mp ((setField_names hset).subset hname))
  subst heq
  exact ⟨ov, p, hc, hset, hmem⟩

/-- The fields that are present are those that `Fills` names. -/
theorem present_iff_fills {fd : FieldDesc T} (h : D.populate left t = some b)
    (hfd : fd ∈ (D.schema t).fields) : fd.Present b.fields ↔ Fills D t fd left := by
  cases left with
  | zero =>
      cases h
      refine iff_of_false ?_ (fun hf ↦ nomatch hf)
      rintro ⟨v, hv, -⟩
      exact absurd hv List.not_mem_nil
  | succ left =>
      constructor
      · rintro ⟨v, hv, hd⟩
        obtain ⟨ov, p, hc, hset, hmem⟩ := exists_chosen_of_mem h hfd hv
        by_cases hk : IsMessage fd
        · obtain ⟨t', hk⟩ := hk
          exact .message hc (creates_of_mem (c := (fd, ov)) hk hset hmem).1
        · rw [setField_scalar (c := (fd, ov)) hk] at hset
          obtain ⟨w, hw, rfl⟩ := Option.map_eq_some_iff.mp hset
          dsimp only [onWire] at hmem
          split at hmem
          · exact absurd hmem List.not_mem_nil
          · rw [List.mem_singleton, Prod.mk.injEq] at hmem
            rw [hmem.2] at hd
            exact .scalar hc hk hw hd
      · intro hf
        cases hf with
        | @message _ ov t' hc hcr =>
            obtain ⟨p, hp⟩ := exists_populate_iff.mp ⟨b, h⟩ _ hc
            have hb : ∃ b', D.populate left t' = some b' := by
              by_cases hl : fd.label = .repeated
              · rw [setField_repeated (c := (fd, ov)) hcr.1 hl] at hp
                obtain ⟨b', hb', -⟩ := Option.map_eq_some_iff.mp hp
                exact ⟨b', hb'⟩
              · rw [setField_message (c := (fd, ov)) hcr.1 hl] at hp
                obtain ⟨b', hb', -⟩ := Option.map_eq_some_iff.mp hp
                exact ⟨b', hb'⟩
            obtain ⟨b', hb'⟩ := hb
            refine ⟨.msg b'.fields, (mem_populate_iff h).mpr ⟨_, hc, _,
              setField_of_creates (c := (fd, ov)) hcr hb', List.mem_singleton.mpr rfl⟩,
              fun _ ↦ rfl⟩
        | @scalar _ ov v hc hk hv hd =>
            refine ⟨v, (mem_populate_iff h).mpr ⟨_, hc, ⟨true, onWire fd v⟩, ?_, ?_⟩, hd⟩
            · rw [setField_scalar (c := (fd, ov)) hk, hv, Option.map_some]
            · dsimp only [onWire]
              rw [if_neg]
              · exact List.mem_singleton.mpr rfl
              · rintro ⟨himp, hdef⟩
                rw [hd himp] at hdef
                cases hdef

/-! ### The whole message -/

/-- Of a mandatory oneof, at most one member is set. -/
theorem countP_isMember_le_one (h : D.populate left t = some b) {o : OneofDesc}
    (ho : o ∈ (D.schema t).oneofs) :
    b.fields.countP (fun a ↦ (D.schema t).isMember o.name a.1) ≤ 1 := by
  cases left with
  | zero =>
      cases h
      exact Nat.zero_le 1
  | succ left =>
      -- An occurrence of a member is one of the first member.
      have hhead : ∀ a ∈ b.fields, (D.schema t).isMember o.name a.1 = true →
          ((members D.schema t o.name).head?.map FieldDesc.name) = some a.1 := by
        rintro ⟨f, v⟩ ha hmember
        obtain ⟨fd, hfd, heq⟩ := List.any_eq_true.mp hmember
        rw [Bool.and_eq_true, beq_iff_eq, beq_iff_eq] at heq
        obtain ⟨rfl, hl⟩ := heq
        obtain ⟨ov, p, hc, -, -⟩ := exists_chosen_of_mem h hfd ha
        rw [head_of_mem_chosen hc ho hl, Option.map_some]
      have hnodup := nodup_populate h
      rw [List.countP_eq_length_filter]
      rcases hfilter : b.fields.filter (fun a ↦ (D.schema t).isMember o.name a.1) with
        _ | ⟨a, _ | ⟨a', rest⟩⟩
      · rw [hfilter]
        exact Nat.zero_le 1
      · rw [hfilter]
        exact le_rfl
      · have hmem : ∀ x ∈ [a, a'], x ∈ b.fields ∧ (D.schema t).isMember o.name x.1 = true := by
          intro x hx
          have hx' : x ∈ b.fields.filter fun a ↦ (D.schema t).isMember o.name a.1 := by
            rw [hfilter]
            exact List.mem_append_left rest hx
          exact List.mem_filter.mp hx'
        obtain ⟨ha, hma⟩ := hmem a (by simp)
        obtain ⟨ha', hma'⟩ := hmem a' (by simp)
        have hname := (hhead a ha hma).symm.trans (hhead a' ha' hma')
        have hsub : ([a.1, a'.1] : List String).Sublist (b.fields.map Prod.fst) := by
          have hsub := (List.filter_sublist
            (p := fun a ↦ (D.schema t).isMember o.name a.1) (l := b.fields)).map Prod.fst
          rw [hfilter] at hsub
          exact (List.sublist_append_left [a.1, a'.1] (rest.map Prod.fst)).trans hsub
        have hne := hnodup.sublist hsub
        rw [List.nodup_cons, List.mem_singleton] at hne
        exact absurd (Option.some.inj hname) hne.1

end Populate

end Descriptors

/-- Of each mandatory oneof, exactly one member is set. -/
def ExactlyOne (S : Schema T) (t : T) (m : Message) : Prop :=
  ∀ o ∈ (S t).oneofs, .is_mandatory ∈ o.options →
    m.countP (fun a ↦ (S t).isMember o.name a.1) = 1

/-- A message has its mandatory fields and one member of each of its mandatory oneofs, and
so has everything nested in it. -/
def Filled (S : Schema T) (t : T) (m : Message) : Prop :=
  ∀ t' m', Inside S t m t' m' → Complete S t' m' ∧ ExactlyOne S t' m'

namespace Descriptors

section Filled

variable {D : Descriptors T} {t : T} {left : ℕ} {b : Built}

/-- One message is complete, and one member of each mandatory oneof set, when the type is
covered. -/
theorem complete_iff (h : D.populate left t = some b) :
    (Complete D.schema t b.fields ∧ ExactlyOne D.schema t b.fields) ↔ Covers D left t := by
  constructor
  · rintro ⟨hc, -⟩
    refine ⟨fun fd hfd hm ↦ (present_iff_fills h hfd).mp (hc.fields fd hfd hm), ?_, ?_⟩
    · intro o ho hm
      obtain ⟨fd, hfd, hl, hp⟩ := hc.oneofs o ho hm
      exact ⟨fd, hfd, hl, (present_iff_fills h hfd).mp hp⟩
    · rintro k c rfl hchosen hk
      obtain ⟨p, hp⟩ := exists_populate_iff.mp ⟨b, h⟩ c hchosen
      rw [setField_scalar hk] at hp
      obtain ⟨v, hv, -⟩ := Option.map_eq_some_iff.mp hp
      exact ⟨v, hv⟩
  · intro hcov
    have hone : ∀ o ∈ (D.schema t).oneofs, .is_mandatory ∈ o.options →
        ∃ fd ∈ (D.schema t).fields, fd.label = .member o.name ∧ fd.Present b.fields := by
      intro o ho hm
      obtain ⟨fd, hfd, hl, hf⟩ := hcov.oneofs o ho hm
      exact ⟨fd, hfd, hl, (present_iff_fills h hfd).mpr hf⟩
    refine ⟨⟨fun fd hfd hm ↦ (present_iff_fills h hfd).mpr (hcov.fields fd hfd hm), hone⟩, ?_⟩
    intro o ho hm
    obtain ⟨fd, hfd, hl, v, hv, -⟩ := hone o ho hm
    have hmember : (D.schema t).isMember o.name fd.name = true :=
      List.any_eq_true.mpr ⟨fd, hfd, by rw [hl]; simp⟩
    have hpos : 0 < b.fields.countP fun a ↦ (D.schema t).isMember o.name a.1 :=
      List.countP_pos_iff.mpr ⟨_, hv, hmember⟩
    have hle := countP_isMember_le_one h ho
    omega

/-- The submessages that are built are those that are created. -/
theorem sub_iff (h : D.populate (left + 1) t = some b) {t₁ : T} {m₁ : Message} :
    Sub D.schema t b.fields t₁ m₁ ↔ ∃ c ∈ D.chosen t, Creates D left c.1 t₁ ∧
      ∃ b₁, D.populate left t₁ = some b₁ ∧ m₁ = b₁.fields := by
  constructor
  · rintro ⟨fd, hfd, hk, hmem⟩
    obtain ⟨ov, p, hc, hset, hmem'⟩ := exists_chosen_of_mem h hfd hmem
    obtain ⟨hcr, b₁, hb₁, heq⟩ := creates_of_mem (c := (fd, ov)) hk hset hmem'
    exact ⟨_, hc, hcr, b₁, hb₁, Value.msg.inj heq⟩
  · rintro ⟨⟨fd, ov⟩, hc, hcr, b₁, hb₁, rfl⟩
    refine ⟨fd, mem_fields_of_mem_chosen hc, hcr.1, ?_⟩
    exact (mem_populate_iff h).mpr ⟨_, hc, _, setField_of_creates (c := (fd, ov)) hcr hb₁,
      List.mem_singleton.mpr rfl⟩

/-- A message field that can be set is given a message that can be built. -/
theorem exists_populate_of_setField {c : FieldDesc T × Option Value} {t₁ : T} {p : Built}
    (hk : c.1.kind = .message t₁) (hp : D.setField (D.populate left) t c = some p) :
    ∃ b₁, D.populate left t₁ = some b₁ := by
  by_cases hl : c.1.label = .repeated
  · rw [setField_repeated hk hl] at hp
    obtain ⟨b₁, hb₁, -⟩ := Option.map_eq_some_iff.mp hp
    exact ⟨b₁, hb₁⟩
  · rw [setField_message hk hl] at hp
    obtain ⟨b₁, hb₁, -⟩ := Option.map_eq_some_iff.mp hp
    exact ⟨b₁, hb₁⟩

/-- A field of a covered type can be set, if the message that it creates can be built. -/
theorem exists_setField {c : FieldDesc T × Option Value} (hcov : Covers D (left + 1) t)
    (hc : c ∈ D.chosen t)
    (hsub : ∀ t₁, Creates D left c.1 t₁ → ∃ b₁, D.populate left t₁ = some b₁) :
    ∃ p, D.setField (D.populate left) t c = some p := by
  by_cases hk : IsMessage c.1
  · obtain ⟨t₁, hk⟩ := hk
    by_cases hcr : c.1.label = .repeated ∨ Touched D left t₁
    · obtain ⟨b₁, hb₁⟩ := hsub t₁ ⟨hk, hcr⟩
      exact ⟨_, setField_of_creates ⟨hk, hcr⟩ hb₁⟩
    · rw [not_or] at hcr
      rw [setField_message hk hcr.1, populate_of_not_touched hcr.2]
      exact ⟨_, rfl⟩
  · obtain ⟨v, hv⟩ := hcov.assigned left c rfl hc hk
    rw [setField_scalar hk, hv]
    exact ⟨_, rfl⟩

/-- The message that is built is filled throughout when every type that is reached is
covered. -/
theorem filled_populate_iff (D : Descriptors T) (left : ℕ) (t : T) :
    (∃ b, D.populate left t = some b ∧ Filled D.schema t b.fields) ↔
      ∀ left' t', Reached D left t left' t' → Covers D left' t' := by
  induction left generalizing t with
  | zero =>
      rw [reached_zero]
      have hzero : D.populate 0 t = some ⟨false, []⟩ := rfl
      rw [← complete_iff hzero]
      constructor
      · rintro ⟨b, hb, hf⟩
        cases hb
        exact hf t [] .self
      · intro hc
        refine ⟨_, hzero, forall_inside_iff.mpr ⟨hc, ?_⟩⟩
        rintro t₁ m₁ ⟨fd, -, -, hmem⟩
        exact absurd hmem List.not_mem_nil
  | succ left ih =>
      rw [reached_succ]
      constructor
      · rintro ⟨b, hb, hf⟩
        obtain ⟨hself, hsub⟩ := forall_inside_iff.mp hf
        refine ⟨(complete_iff hb).mp hself, fun c hc t₁ hcr ↦ (ih t₁).mp ?_⟩
        obtain ⟨p, hp⟩ := exists_populate_iff.mp ⟨b, hb⟩ c hc
        obtain ⟨b₁, hb₁⟩ := exists_populate_of_setField hcr.1 hp
        exact ⟨b₁, hb₁, hsub t₁ _ ((sub_iff hb).mpr ⟨c, hc, hcr, b₁, hb₁, rfl⟩)⟩
      · rintro ⟨hcov, hsub⟩
        have hset : ∀ c ∈ D.chosen t, ∃ p, D.setField (D.populate left) t c = some p := by
          intro c hc
          refine exists_setField hcov hc fun t₁ hcr ↦ ?_
          obtain ⟨b₁, hb₁, -⟩ := (ih t₁).mpr (hsub c hc t₁ hcr)
          exact ⟨b₁, hb₁⟩
        obtain ⟨b, hb⟩ := exists_populate_iff.mpr hset
        refine ⟨b, hb, forall_inside_iff.mpr ⟨(complete_iff hb).mpr hcov, ?_⟩⟩
        intro t₁ m₁ hsub₁
        obtain ⟨c, hc, hcr, b₁, hb₁, rfl⟩ := (sub_iff hb).mp hsub₁
        obtain ⟨b₂, hb₂, hf⟩ := (ih t₁).mpr (hsub c hc t₁ hcr)
        rw [hb₁] at hb₂
        cases hb₂
        exact hf

/-- The content message of a template is filled throughout in exactly these cases. -/
theorem populateMessage_filled_iff (D : Descriptors T) (t : T) :
    (∃ m, D.populateMessage 1 t = some m ∧ Filled D.schema t m) ↔
      ∀ left t', Reached D MAX_DEPTH t left t' → Covers D left t' := by
  rw [← filled_populate_iff, populateMessage]
  constructor
  · rintro ⟨m, hm, hf⟩
    obtain ⟨b, hb, rfl⟩ := Option.map_eq_some_iff.mp hm
    exact ⟨b, hb, hf⟩
  · rintro ⟨b, hb, hf⟩
    exact ⟨b.fields, Option.map_eq_some_iff.mpr ⟨b, hb, rfl⟩, hf⟩

end Filled

/-! ## A submessage without mandatory fields -/

/-- A type with a mandatory submessage, in which nothing is mandatory. -/
def hollow : Descriptors Bool where
  schema
    | true => ⟨[⟨"location", .message false, .implicit, [.is_mandatory]⟩], []⟩
    | false => ⟨[⟨"x", .double, .implicit, []⟩], []⟩
  synthetic _ f := "_" ++ f
  enumValues _ _ := []
  quirk _ _ := none
  assign _ _ v := some v
  fields_nodup := by decide
  oneofs_nodup := by decide
  assign_default _ _ _ _ := rfl

/-- The generator goes into the submessage and leaves it unset. -/
theorem hollow_unset :
    hollow.populateMessage 1 true = some [] ∧ ¬ Filled hollow.schema true [] := by
  refine ⟨rfl, fun h ↦ ?_⟩
  obtain ⟨⟨hfields, -⟩, -⟩ := h true [] .self
  obtain ⟨v, hv, -⟩ := hfields _ List.mem_cons_self List.mem_cons_self
  exact absurd hv List.not_mem_nil

end Descriptors

end SensorFusion.Ui
