import SensorFusion.Lib.Except
import SensorFusion.Lib.Proto

/-!
# Walking through a message

A walk stops at a message and at each of the fields that its type declares, and after a field
at the messages that are its values and everything in them.  Each stop is a `Site`; `Below` says
which messages are reached, under which path.  What is collected at all sites together, if it
can be collected everywhere, is what is collected at one of them.
-/

namespace SensorFusion

universe u v

/-! ## Collecting -/

section Collect

variable {ε : Type u} {α : Type*} {β : Type v}

/-- What a computation gives for each element, in order, unless it fails for one. -/
def collect (f : α → Except ε (List β)) : List α → Except ε (List β)
  | [] => .ok []
  | a :: l => do
      let first ← f a
      let others ← collect f l
      return first ++ others

variable {f : α → Except ε (List β)} {l : List α} {bs : List β}

theorem collect_cons_eq_ok {a : α} : collect f (a :: l) = .ok bs ↔
    ∃ first others, f a = .ok first ∧ collect f l = .ok others ∧ bs = first ++ others := by
  rw [collect, bind_eq_ok]
  constructor
  · rintro ⟨first, hfirst, h⟩
    obtain ⟨others, hothers, h⟩ := bind_eq_ok.mp h
    cases h
    exact ⟨first, others, hfirst, hothers, rfl⟩
  · rintro ⟨first, others, hfirst, hothers, rfl⟩
    exact ⟨first, hfirst, bind_ok_of hothers rfl⟩

theorem collect_append (l l' : List α) : collect f (l ++ l') = (do
    let first ← collect f l
    let others ← collect f l'
    return first ++ others) := by
  induction l with
  | nil =>
      rw [List.nil_append]
      cases collect f l' <;> rfl
  | cons a l ih =>
      rw [List.cons_append, collect, collect, ih]
      cases f a with
      | error e => rfl
      | ok first =>
          cases collect f l with
          | error e => rfl
          | ok others =>
              cases collect f l' with
              | error e => rfl
              | ok rest => exact congrArg Except.ok (List.append_assoc _ _ _).symm

theorem collect_flatMap {γ : Type*} (g : γ → List α) (l : List γ) :
    collect f (l.flatMap g) = collect (fun c ↦ collect f (g c)) l := by
  induction l with
  | nil => rfl
  | cons c l ih => rw [List.flatMap_cons, collect_append, collect, ih]

theorem collect_congr {g : α → Except ε (List β)} (h : ∀ a ∈ l, f a = g a) :
    collect f l = collect g l := by
  induction l with
  | nil => rfl
  | cons a l ih =>
      rw [collect, collect, h a List.mem_cons_self,
        ih fun a' ha' ↦ h a' (List.mem_cons_of_mem a ha')]

/-- What is collected was given for some element. -/
theorem mem_of_collect (h : collect f l = .ok bs) (b : β) :
    b ∈ bs ↔ ∃ a ∈ l, ∃ given, f a = .ok given ∧ b ∈ given := by
  induction l generalizing bs with
  | nil =>
      cases h
      simp
  | cons a l ih =>
      obtain ⟨first, others, hfirst, hothers, rfl⟩ := collect_cons_eq_ok.mp h
      simp only [List.mem_cons, exists_eq_or_imp, List.mem_append, ih hothers, hfirst]
      refine or_congr_left ⟨fun hb ↦ ⟨first, rfl, hb⟩, ?_⟩
      rintro ⟨given, hgiven, hb⟩
      cases hgiven
      exact hb

/-- Collecting fails exactly when it fails for some element. -/
theorem collect_fails_iff : (∃ e, collect f l = .error e) ↔ ∃ a ∈ l, ∃ e, f a = .error e := by
  induction l with
  | nil => simp [collect]
  | cons a l ih =>
      simp only [List.mem_cons, exists_eq_or_imp]
      rw [← ih, collect]
      cases f a with
      | error e => exact iff_of_true ⟨e, rfl⟩ (Or.inl ⟨e, rfl⟩)
      | ok first =>
          cases collect f l with
          | error e => exact iff_of_true ⟨e, rfl⟩ (Or.inr ⟨e, rfl⟩)
          | ok others =>
              refine iff_of_false (fun ⟨e, he⟩ ↦ nomatch he) ?_
              rintro (⟨e, he⟩ | ⟨e, he⟩) <;> cases he

/-- Where a computation gives a part of what another one gives, so does collecting. -/
theorem collect_filter {g : α → Except ε (List β)} {p : β → Bool}
    (hpart : ∀ a ∈ l, ∀ given, f a = .ok given → g a = .ok (given.filter p))
    (h : collect f l = .ok bs) : collect g l = .ok (bs.filter p) := by
  induction l generalizing bs with
  | nil =>
      cases h
      rfl
  | cons a l ih =>
      obtain ⟨first, others, hfirst, hothers, rfl⟩ := collect_cons_eq_ok.mp h
      rw [List.filter_append]
      exact collect_cons_eq_ok.mpr ⟨_, _, hpart a List.mem_cons_self first hfirst,
        ih (fun a' ha' ↦ hpart a' (List.mem_cons_of_mem a ha')) hothers, rfl⟩

end Collect

namespace Proto

variable {T : Type u}

/-! ## The values of a field -/

/-- A place in a message: names of fields, and the numbers of elements of repeated ones. -/
abbrev FieldPath := List String

/-- What `ListFields` gives of a field: its value if it is present, and the elements of a
repeated field. -/
def FieldDesc.values (fd : FieldDesc T) (m : Message) : List Value :=
  (m.filter fun a ↦ a.1 == fd.name && !(fd.label == .implicit && a.2.isDefault)).map Prod.snd

theorem FieldDesc.mem_values {fd : FieldDesc T} {m : Message} {v : Value} : v ∈ fd.values m ↔
    (fd.name, v) ∈ m ∧ (fd.label = .implicit → v.isDefault = false) := by
  rw [values, List.mem_map]
  constructor
  · rintro ⟨⟨f, v⟩, hmem, rfl⟩
    obtain ⟨hmem, h⟩ := List.mem_filter.mp hmem
    rw [Bool.and_eq_true, beq_iff_eq] at h
    obtain ⟨rfl, h⟩ := h
    refine ⟨hmem, fun himplicit ↦ ?_⟩
    rw [himplicit] at h
    simpa using h
  · rintro ⟨hmem, h⟩
    refine ⟨(fd.name, v), List.mem_filter.mpr ⟨hmem, ?_⟩, rfl⟩
    rw [Bool.and_eq_true, beq_self_eq_true, Bool.not_eq_true', Bool.and_eq_false_iff]
    by_cases himplicit : fd.label = .implicit
    · exact ⟨rfl, Or.inr (h himplicit)⟩
    · exact ⟨rfl, Or.inl (beq_eq_false_iff_ne.mpr himplicit)⟩

theorem FieldDesc.present_iff {fd : FieldDesc T} {m : Message} :
    fd.Present m ↔ fd.values m ≠ [] := by
  constructor
  · rintro ⟨v, hv⟩
    exact List.ne_nil_of_mem (mem_values.mpr hv)
  · intro h
    obtain ⟨v, hv⟩ := List.exists_mem_of_ne_nil _ h
    exact ⟨v, mem_values.mp hv⟩

/-- What a field is read as: nothing, a value, or the elements of a repeated field. -/
inductive FieldValue where
  | none
  | one (v : Value)
  | many (vs : List Value)

/-- `dict(m.ListFields()).get(fd)`. -/
def FieldDesc.get (fd : FieldDesc T) (m : Message) : FieldValue :=
  match fd.values m with
  | [] => .none
  | v :: vs => if fd.label = .repeated then .many (v :: vs) else .one v

theorem FieldDesc.get_eq_none_iff {fd : FieldDesc T} {m : Message} :
    fd.get m = .none ↔ ¬ fd.Present m := by
  rw [present_iff, not_not, get]
  cases fd.values m with
  | nil => exact iff_of_true rfl rfl
  | cons v vs =>
      refine iff_of_false ?_ (List.cons_ne_nil v vs)
      dsimp only
      split <;> nofun

theorem sizeOf_lt_of_mem {m m' : Message} {f : String} (h : (f, .msg m') ∈ m) :
    sizeOf m' < sizeOf m := by
  have hlt := List.sizeOf_lt_of_mem h
  simp only [Prod.mk.sizeOf_spec, Value.msg.sizeOf_spec] at hlt
  omega

/-- The messages among the values of a field: each of them is smaller. -/
def FieldDesc.nested (fd : FieldDesc T) (m : Message) :
    List {m' : Message // sizeOf m' < sizeOf m} :=
  (fd.values m).attach.filterMap fun v ↦
    match v with
    | ⟨.msg m', h⟩ => some ⟨m', sizeOf_lt_of_mem (mem_values.mp h).1⟩
    | _ => none

/-- The same with the path from the field to each: the number of the element if the field is
repeated. -/
def FieldDesc.entries (fd : FieldDesc T) (m : Message) :
    List (FieldPath × {m' : Message // sizeOf m' < sizeOf m}) :=
  if fd.label = .repeated then
    (fd.nested m).zipIdx.map fun entry ↦ ([toString entry.2], entry.1)
  else (fd.nested m).head?.toList.map fun m' ↦ ([], m')

theorem FieldDesc.mem_nested {fd : FieldDesc T} {m : Message}
    {m' : {m' : Message // sizeOf m' < sizeOf m}} :
    m' ∈ fd.nested m ↔ .msg m'.1 ∈ fd.values m := by
  rw [nested, List.mem_filterMap]
  constructor
  · rintro ⟨⟨v, hv⟩, -, h⟩
    cases v with
    | msg m₁ =>
        cases h
        exact hv
    | _ => cases h
  · intro h
    exact ⟨⟨.msg m'.1, h⟩, List.mem_attach _ _, rfl⟩

theorem FieldDesc.mem_of_entries {fd : FieldDesc T} {m : Message} {p : FieldPath}
    {m' : {m' : Message // sizeOf m' < sizeOf m}} (h : (p, m') ∈ fd.entries m) :
    .msg m'.1 ∈ fd.values m := by
  rw [entries] at h
  rw [← mem_nested]
  split at h
  · obtain ⟨⟨m₁, i⟩, hmem, heq⟩ := List.mem_map.mp h
    cases heq
    exact List.fst_mem_of_mem_zipIdx hmem
  · obtain ⟨m₁, hmem, heq⟩ := List.mem_map.mp h
    cases heq
    exact List.mem_of_mem_head? (Option.mem_toList.mp hmem)

/-- The messages of a repeated field are all entries. -/
theorem FieldDesc.exists_entry_of_repeated {fd : FieldDesc T} {m m' : Message}
    (hlabel : fd.label = .repeated) (h : .msg m' ∈ fd.values m) :
    ∃ p hm', (p, ⟨m', hm'⟩) ∈ fd.entries m := by
  have hm' := sizeOf_lt_of_mem (mem_values.mp h).1
  have hmem : (⟨m', hm'⟩ : {m' : Message // sizeOf m' < sizeOf m}) ∈ fd.nested m := mem_nested.mpr h
  obtain ⟨i, hi, hget⟩ := List.mem_iff_getElem.mp hmem
  refine ⟨[toString i], hm', ?_⟩
  rw [entries, if_pos hlabel]
  exact List.mem_map.mpr ⟨(⟨m', hm'⟩, i), List.mk_mem_zipIdx_iff_getElem?.mpr
    (by rw [List.getElem?_eq_getElem hi, hget]), rfl⟩

/-- The only message of a field is an entry. -/
theorem FieldDesc.exists_entry_of_forall {fd : FieldDesc T} {m m' : Message}
    (honly : ∀ v ∈ fd.values m, v = .msg m') (h : .msg m' ∈ fd.values m) :
    ∃ p hm', (p, ⟨m', hm'⟩) ∈ fd.entries m := by
  by_cases hlabel : fd.label = .repeated
  · exact exists_entry_of_repeated hlabel h
  · have hm' := sizeOf_lt_of_mem (mem_values.mp h).1
    have hmem : (⟨m', hm'⟩ : {m' : Message // sizeOf m' < sizeOf m}) ∈ fd.nested m :=
      mem_nested.mpr h
    refine ⟨[], hm', ?_⟩
    rw [entries, if_neg hlabel]
    refine List.mem_map.mpr ⟨⟨m', hm'⟩, Option.mem_toList.mpr ?_, rfl⟩
    cases hnested : fd.nested m with
    | nil => rw [hnested] at hmem; exact absurd hmem List.not_mem_nil
    | cons m₁ others =>
        have hfirst : Value.msg m₁.1 = .msg m' :=
          honly _ (mem_nested.mp (hnested ▸ List.mem_cons_self))
        exact congrArg some (Subtype.ext (Value.msg.inj hfirst))

/-! ## Sites -/

/-- A stop of a walk: a message of type `type` at `path`, or one of the fields of the message,
which then is what `path` leads to. -/
structure Site (T : Type u) where
  path : FieldPath
  type : T
  message : Message
  field : Option (FieldDesc T)

/-- The stops of a walk through `m`, in order; `enters` says which types are gone into. -/
def sites (S : Schema T) (enters : T → Bool) (t : T) (m : Message) (path : FieldPath) :
    List (Site T) :=
  ⟨path, t, m, none⟩ :: (S t).fields.flatMap fun fd ↦
    ⟨path ++ [fd.name], t, m, some fd⟩ ::
      match fd.kind with
      | .message t' =>
          if enters t' then
            (fd.entries m).flatMap fun entry ↦
              sites S enters t' entry.2.1 (path ++ [fd.name] ++ entry.1)
          else []
      | _ => []
termination_by sizeOf m
decreasing_by exact entry.2.2

/-- `Below S enters t m p t' m'`: going from `m` along `p` leads to the message `m'` of
type `t'`. -/
inductive Below (S : Schema T) (enters : T → Bool) :
    T → Message → FieldPath → T → Message → Prop where
  | self {t : T} {m : Message} : Below S enters t m [] t m
  | sub {t t₁ t' : T} {m m' : Message} {fd : FieldDesc T} {p p' : FieldPath}
      {m₁ : {m₁ : Message // sizeOf m₁ < sizeOf m}} (hfd : fd ∈ (S t).fields)
      (hkind : fd.kind = .message t₁) (henters : enters t₁ = true)
      (hentry : (p, m₁) ∈ fd.entries m) (hbelow : Below S enters t₁ m₁.1 p' t' m') :
      Below S enters t m (fd.name :: p ++ p') t' m'

variable {S : Schema T} {enters : T → Bool}

/-- The site is at a message or at a field of it, `path` being that of the message. -/
def Site.At (S : Schema T) (site : Site T) (path : FieldPath) : Prop :=
  site.field = none ∧ site.path = path ∨
    ∃ fd ∈ (S site.type).fields, site.field = some fd ∧ site.path = path ++ [fd.name]

/-- A walk stops at the messages that are below the first one, and at their fields. -/
theorem mem_sites_iff {t : T} {m : Message} {path : FieldPath} {site : Site T} :
    site ∈ sites S enters t m path ↔
      ∃ p, Below S enters t m p site.type site.message ∧ site.At S (path ++ p) := by
  constructor
  · intro h
    induction hsize : sizeOf m using Nat.strong_induction_on generalizing t m path with
    | _ n ih =>
        rw [sites] at h
        rcases List.mem_cons.mp h with rfl | h
        · exact ⟨[], .self, Or.inl ⟨rfl, (List.append_nil path).symm⟩⟩
        · obtain ⟨fd, hfd, h⟩ := List.mem_flatMap.mp h
          rcases List.mem_cons.mp h with rfl | h
          · exact ⟨[], .self, Or.inr ⟨fd, hfd, rfl, by rw [List.append_nil]⟩⟩
          · split at h
            · rename_i t₁ hkind
              split at h
              · rename_i henters
                obtain ⟨⟨p, m₁⟩, hentry, h⟩ := List.mem_flatMap.mp h
                obtain ⟨p', hbelow, hat⟩ := ih (sizeOf m₁.1) (hsize ▸ m₁.2) h rfl
                refine ⟨fd.name :: p ++ p', .sub hfd hkind henters hentry hbelow, ?_⟩
                simpa only [List.append_assoc, List.cons_append, List.nil_append] using hat
              · exact absurd h List.not_mem_nil
            · exact absurd h List.not_mem_nil
  · rintro ⟨p, hbelow, hat⟩
    generalize htype : site.type = t', hmessage : site.message = m' at hbelow
    induction hbelow generalizing path with
    | @self t m =>
        rw [List.append_nil] at hat
        obtain ⟨path', type, message, field⟩ := site
        cases htype
        cases hmessage
        rw [sites]
        rcases hat with ⟨rfl, rfl⟩ | ⟨fd, hfd, rfl, rfl⟩
        · exact List.mem_cons_self
        · exact List.mem_cons_of_mem _ (List.mem_flatMap.mpr ⟨fd, hfd, List.mem_cons_self⟩)
    | @sub t t₁ t' m m' fd p p' m₁ hfd hkind henters hentry hbelow ih =>
        rw [sites]
        refine List.mem_cons_of_mem _ (List.mem_flatMap.mpr ⟨fd, hfd, List.mem_cons_of_mem _ ?_⟩)
        rw [hkind]
        dsimp only
        rw [if_pos henters]
        refine List.mem_flatMap.mpr ⟨(p, m₁), hentry, ih ?_ htype hmessage⟩
        simpa only [List.append_assoc, List.cons_append, List.nil_append] using hat

end Proto

end SensorFusion
