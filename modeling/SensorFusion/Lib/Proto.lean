import SensorFusion.Python.Float

/-!
# Protocol buffer messages

Messages are kept as they go over the wire: a list of occurrences of fields, each
with its value.  A singular field occurs at most once and a repeated field once for
each of its elements.  A schema gives the fields and oneofs of every message type;
`Conforms` is what a parsed message satisfies, `Inside` ranges over a message and
everything nested in it, and `Complete` is what the `is_mandatory` option asks of one
message by itself.
-/

namespace SensorFusion.Proto

universe u

/-- The value of one occurrence of a field. -/
inductive Value where
  | str (s : String)
  | bytes (b : List UInt8)
  | bool (b : Bool)
  | int (n : ℤ)
  | enum (n : ℤ)
  | float (x : PyFloat)
  | msg (fields : List (String × Value))

/-- A message: its field occurrences in order. -/
abbrev Message := List (String × Value)

/-! ## Reading a message -/

namespace Message

/-- `m.HasField(f)`. -/
def has (m : Message) (f : String) : Bool := m.any fun a ↦ a.1 == f

/-- `len(m.f)` of a repeated field. -/
def count (m : Message) (f : String) : ℕ := m.countP fun a ↦ a.1 == f

/-- `m.f` of a string field; an absent one reads as empty. -/
def str (m : Message) (f : String) : String :=
  match m.lookup f with
  | some (.str s) => s
  | _ => ""

/-- `m.f` of a bytes field. -/
def bytes (m : Message) (f : String) : List UInt8 :=
  match m.lookup f with
  | some (.bytes b) => b
  | _ => []

/-- `m.f` of an integer or enumeration field; an absent one reads as zero. -/
def num (m : Message) (f : String) : ℤ :=
  match m.lookup f with
  | some (.int n) => n
  | some (.enum n) => n
  | _ => 0

/-- `m.f` of a floating-point field. -/
def float (m : Message) (f : String) : PyFloat :=
  match m.lookup f with
  | some (.float x) => x
  | _ => .fin 0

/-- `m.f` of a message field; an absent one reads as the empty message. -/
def sub (m : Message) (f : String) : Message :=
  match m.lookup f with
  | some (.msg m') => m'
  | _ => []

/-- `m.f` of a repeated message field. -/
def subs (m : Message) (f : String) : List Message :=
  m.filterMap fun a ↦
    if a.1 = f then
      match a.2 with
      | .msg m' => some m'
      | _ => none
    else none

theorem has_iff {m : Message} {f : String} : m.has f = true ↔ ∃ v, (f, v) ∈ m := by
  rw [has, List.any_eq_true]
  constructor
  · rintro ⟨⟨f', v⟩, hmem, heq⟩
    exact ⟨v, beq_iff_eq.mp heq ▸ hmem⟩
  · rintro ⟨v, hmem⟩
    exact ⟨_, hmem, beq_self_eq_true f⟩

theorem mem_of_lookup {m : Message} {f : String} {v : Value} (h : m.lookup f = some v) :
    (f, v) ∈ m := by
  obtain ⟨before, after, rfl, -⟩ := List.lookup_eq_some_iff.mp h
  exact List.mem_append_right before List.mem_cons_self

/-- A string that reads as non-empty is there. -/
theorem exists_of_str_ne {m : Message} {f : String} (h : m.str f ≠ "") :
    ∃ s, s ≠ "" ∧ (f, .str s) ∈ m := by
  rw [str] at h
  split at h
  · rename_i s hs
    exact ⟨s, h, mem_of_lookup hs⟩
  · exact absurd rfl h

/-- A number that reads as non-zero is there. -/
theorem exists_of_num_ne {m : Message} {f : String} (h : m.num f ≠ 0) : ∃ v, (f, v) ∈ m := by
  rw [num] at h
  split at h
  · rename_i n hn
    exact ⟨_, mem_of_lookup hn⟩
  · rename_i n hn
    exact ⟨_, mem_of_lookup hn⟩
  · exact absurd rfl h

/-- Bytes that read as non-empty are there. -/
theorem exists_of_bytes_ne {m : Message} {f : String} (h : m.bytes f ≠ []) :
    ∃ v, (f, v) ∈ m := by
  rw [bytes] at h
  split at h
  · rename_i b hb
    exact ⟨_, mem_of_lookup hb⟩
  · exact absurd rfl h

/-- A repeated field with an element occurs. -/
theorem exists_of_count_pos {m : Message} {f : String} (h : 0 < m.count f) :
    ∃ v, (f, v) ∈ m := by
  obtain ⟨⟨f', v⟩, hmem, heq⟩ := List.countP_pos_iff.mp h
  exact ⟨v, beq_iff_eq.mp heq ▸ hmem⟩

end Message

/-! ## Schemas -/

/-- The type of a field's values, over message types `T`. -/
inductive Kind (T : Type u) where
  | string
  | bytes
  | bool
  | int32
  | int64
  | float
  | double
  | enum
  | message (t : T)
deriving DecidableEq, Repr

/-- How a field is declared: `optional`, without a label, `repeated`, or as a member
of a oneof. -/
inductive Label where
  | optional
  | implicit
  | repeated
  | member (oneof : String)
deriving DecidableEq, Repr

/-- The validation options that a declaration can carry. -/
inductive FieldOption where
  | is_mandatory
  | is_uuid
  | is_ulid
deriving DecidableEq, Repr

/-- The declaration of a field. -/
structure FieldDesc (T : Type u) where
  name : String
  kind : Kind T
  label : Label
  options : List FieldOption
deriving DecidableEq, Repr

/-- The declaration of a oneof. -/
structure OneofDesc where
  name : String
  options : List FieldOption
deriving DecidableEq, Repr

/-- The declaration of a message type. -/
structure MessageDesc (T : Type u) where
  fields : List (FieldDesc T)
  oneofs : List OneofDesc
deriving DecidableEq, Repr

/-- The declarations of all message types. -/
abbrev Schema (T : Type u) := T → MessageDesc T

variable {T : Type u}

/-- Whether a field belongs to a oneof of the message type. -/
def MessageDesc.isMember (d : MessageDesc T) (oneof f : String) : Bool :=
  d.fields.any fun fd ↦ fd.name == f && fd.label == .member oneof

/-- `m.WhichOneof(o)`. -/
def MessageDesc.whichOneof (d : MessageDesc T) (oneof : String) (m : Message) : Option String :=
  (m.find? fun a ↦ d.isMember oneof a.1).map Prod.fst

/-- The bound on 32-bit numbers. -/
def isInt32 (n : ℤ) : Bool := decide (-2 ^ 31 ≤ n ∧ n < 2 ^ 31)

/-- The bound on 64-bit numbers. -/
def isInt64 (n : ℤ) : Bool := decide (-2 ^ 63 ≤ n ∧ n < 2 ^ 63)

/-- Singular fields occur at most once, and so do the members of each oneof. -/
def MessageDesc.singular (d : MessageDesc T) (m : Message) : Bool :=
  (d.fields.all fun fd ↦ fd.label == .repeated || decide (m.count fd.name ≤ 1)) &&
    d.oneofs.all fun o ↦ decide (m.countP (fun a ↦ d.isMember o.name a.1) ≤ 1)

mutual

/-- A value is of a kind. -/
def conformsValue (S : Schema T) : Value → Kind T → Bool
  | .str _, .string => true
  | .bytes _, .bytes => true
  | .bool _, .bool => true
  | .int n, .int32 => isInt32 n
  | .int n, .int64 => isInt64 n
  | .float _, .float => true
  | .float _, .double => true
  | .enum n, .enum => isInt32 n
  | .msg m, .message t => (S t).singular m && conformsFields S m (S t)
  | _, _ => false

/-- Every occurrence is of a declared field and of its kind. -/
def conformsFields (S : Schema T) : List (String × Value) → MessageDesc T → Bool
  | [], _ => true
  | (f, v) :: m, d =>
      (match d.fields.find? fun fd ↦ fd.name == f with
        | some fd => conformsValue S v fd.kind
        | none => false) && conformsFields S m d

end

/-- A message of type `t`, as parsing gives it. -/
def Conforms (S : Schema T) (t : T) (m : Message) : Prop :=
  ((S t).singular m && conformsFields S m (S t)) = true

instance (S : Schema T) (t : T) (m : Message) : Decidable (Conforms S t m) :=
  inferInstanceAs (Decidable (_ = true))

theorem Conforms.singular {S : Schema T} {t : T} {m : Message} (h : Conforms S t m) :
    (S t).singular m = true := by
  rw [Conforms, Bool.and_eq_true] at h
  exact h.1

/-- What occurs is of the kind that its field is declared with. -/
theorem conformsValue_of_mem {S : Schema T} {d : MessageDesc T} {m : Message}
    (h : conformsFields S m d = true) {f : String} {v : Value} (hmem : (f, v) ∈ m) :
    ∃ fd, (d.fields.find? fun fd ↦ fd.name == f) = some fd ∧ conformsValue S v fd.kind = true := by
  induction m with
  | nil => exact absurd hmem List.not_mem_nil
  | cons a m ih =>
      obtain ⟨f', v'⟩ := a
      rw [conformsFields, Bool.and_eq_true] at h
      rcases List.mem_cons.mp hmem with heq | hmem
      · cases heq
        cases hfind : d.fields.find? fun fd ↦ fd.name == f with
        | none =>
            rw [hfind] at h
            exact absurd h.1 Bool.false_ne_true
        | some fd =>
            rw [hfind] at h
            exact ⟨fd, rfl, h.1⟩
      · exact ih h.2 hmem

/-- A submessage is a message of its field's type. -/
theorem conforms_of_mem {S : Schema T} {t t' : T} {m m' : Message} (h : Conforms S t m)
    {f : String} (hmem : (f, .msg m') ∈ m)
    (hf : ((S t).fields.find? fun fd ↦ fd.name == f).map FieldDesc.kind = some (.message t')) :
    Conforms S t' m' := by
  rw [Conforms, Bool.and_eq_true] at h
  obtain ⟨fd, hfd, hkind⟩ := conformsValue_of_mem h.2 hmem
  rw [hfd, Option.map_some, Option.some_inj] at hf
  rw [hf, conformsValue] at hkind
  exact hkind

theorem eq_of_countP_le_one {α : Type*} {l : List α} {p : α → Bool} {a b : α}
    (h : l.countP p ≤ 1) (ha : a ∈ l) (hb : b ∈ l) (hpa : p a = true) (hpb : p b = true) :
    a = b := by
  rw [List.countP_eq_length_filter] at h
  have ha' := List.mem_filter.mpr ⟨ha, hpa⟩
  have hb' := List.mem_filter.mpr ⟨hb, hpb⟩
  match hl : l.filter p, h with
  | [], _ => rw [hl] at ha'; exact absurd ha' List.not_mem_nil
  | [c], _ =>
      rw [hl] at ha' hb'
      rw [List.mem_singleton.mp ha', List.mem_singleton.mp hb']

/-- Of a oneof, at most one member occurs, so the one that does is the one that is
set, and its occurrence the one that is read. -/
theorem whichOneof_of_mem {d : MessageDesc T} {m : Message} {o : OneofDesc} {f : String} {v : Value}
    (hs : d.singular m = true) (ho : o ∈ d.oneofs) (hmem : (f, v) ∈ m)
    (hf : d.isMember o.name f = true) :
    d.whichOneof o.name m = some f ∧ m.lookup f = some v := by
  rw [MessageDesc.singular, Bool.and_eq_true, List.all_eq_true, List.all_eq_true] at hs
  have hcount := of_decide_eq_true (hs.2 o ho)
  constructor
  · rw [MessageDesc.whichOneof]
    cases hfind : m.find? fun a ↦ d.isMember o.name a.1 with
    | none => exact absurd hf (List.find?_eq_none.mp hfind _ hmem)
    | some a =>
        have ha := List.mem_of_find?_eq_some hfind
        have hpa := List.find?_some (p := fun a : String × Value ↦ d.isMember o.name a.1) hfind
        rw [eq_of_countP_le_one hcount ha hmem hpa hf]
        rfl
  · cases hlookup : m.lookup f with
    | none =>
        rw [List.lookup_eq_none_iff] at hlookup
        simpa using hlookup _ hmem
    | some w =>
        have hw := Message.mem_of_lookup hlookup
        have heq := eq_of_countP_le_one hcount hw hmem hf hf
        rw [Prod.mk.injEq] at heq
        rw [heq.2]

/-- The member that is set occurs. -/
theorem mem_of_whichOneof {d : MessageDesc T} {m : Message} {oneof f : String}
    (h : d.whichOneof oneof m = some f) : d.isMember oneof f = true ∧ m.has f = true := by
  obtain ⟨⟨f', v⟩, hfind, rfl⟩ := Option.map_eq_some_iff.mp h
  have hp := List.find?_some (p := fun a : String × Value ↦ d.isMember oneof a.1) hfind
  exact ⟨hp, Message.has_iff.mpr ⟨v, List.mem_of_find?_eq_some hfind⟩⟩

/-! ## Mandatory fields -/

/-- The default of a field without a label, which is never on the wire. -/
def Value.isDefault : Value → Bool
  | .str s => s == ""
  | .bytes b => b.isEmpty
  | .bool b => !b
  | .int n => n == 0
  | .enum n => n == 0
  | .float x => x == .fin 0
  | .msg _ => false

/-- A field is present in a message; a repeated one is non-empty, and one without a
label is present when it is not its default. -/
def FieldDesc.Present (fd : FieldDesc T) (m : Message) : Prop :=
  ∃ v, (fd.name, v) ∈ m ∧ (fd.label = .implicit → v.isDefault = false)

/-- What `is_mandatory` asks of one message by itself. -/
structure Complete (S : Schema T) (t : T) (m : Message) : Prop where
  fields : ∀ fd ∈ (S t).fields, .is_mandatory ∈ fd.options → fd.Present m
  oneofs : ∀ o ∈ (S t).oneofs, .is_mandatory ∈ o.options →
    ∃ fd ∈ (S t).fields, fd.label = .member o.name ∧ fd.Present m

/-- `Sub S t m t' m'`: the message `m'` of type `t'` is the value of a field of `m`. -/
def Sub (S : Schema T) (t : T) (m : Message) (t' : T) (m' : Message) : Prop :=
  ∃ fd ∈ (S t).fields, fd.kind = .message t' ∧ (fd.name, .msg m') ∈ m

/-- A message and everything nested in it. -/
inductive Inside (S : Schema T) : T → Message → T → Message → Prop where
  | self {t : T} {m : Message} : Inside S t m t m
  | sub {t t₁ t' : T} {m m₁ m' : Message} (h : Sub S t m t₁ m₁) (hi : Inside S t₁ m₁ t' m') :
      Inside S t m t' m'

/-- A message and everything nested in it keeps to `is_mandatory`. -/
def Mandatory (S : Schema T) (t : T) (m : Message) : Prop :=
  ∀ t' m', Inside S t m t' m' → Complete S t' m'

/-- A property holds throughout a message when it holds of the message by itself and
throughout each of its submessages. -/
theorem forall_inside_iff {S : Schema T} {t : T} {m : Message} {P : T → Message → Prop} :
    (∀ t' m', Inside S t m t' m' → P t' m') ↔
      P t m ∧ ∀ t₁ m₁, Sub S t m t₁ m₁ → ∀ t' m', Inside S t₁ m₁ t' m' → P t' m' := by
  constructor
  · intro h
    exact ⟨h t m .self, fun t₁ m₁ hsub t' m' hi ↦ h t' m' (.sub hsub hi)⟩
  · rintro ⟨hc, hsub⟩ t' m' hi
    cases hi with
    | self => exact hc
    | sub h hi => exact hsub _ _ h _ _ hi

/-- A message keeps to `is_mandatory` throughout when it does by itself and each of
its submessages does throughout. -/
theorem mandatory_iff {S : Schema T} {t : T} {m : Message} :
    Mandatory S t m ↔ Complete S t m ∧ ∀ t₁ m₁, Sub S t m t₁ m₁ → Mandatory S t₁ m₁ :=
  forall_inside_iff

/-- A field that occurs is present unless it has no label. -/
theorem present_of_mem {fd : FieldDesc T} {m : Message} {v : Value} (h : (fd.name, v) ∈ m)
    (hl : fd.label ≠ .implicit) : fd.Present m :=
  ⟨v, h, fun himp ↦ absurd himp hl⟩

/-- The names of the fields that are declared mandatory. -/
def MessageDesc.mandatory (d : MessageDesc T) : List String :=
  (d.fields.filter fun fd ↦ decide (.is_mandatory ∈ fd.options)).map FieldDesc.name

/-- A message is complete when its mandatory fields occur and each of its mandatory
oneofs has a member that occurs, if none of these fields is without a label. -/
theorem complete_of {S : Schema T} {t : T} {m : Message}
    (hlabel : ∀ fd ∈ (S t).fields, .is_mandatory ∈ fd.options → fd.label ≠ .implicit)
    (hfields : ∀ f ∈ (S t).mandatory, ∃ v, (f, v) ∈ m)
    (honeofs : ∀ o ∈ (S t).oneofs, .is_mandatory ∈ o.options →
      ∃ f, (S t).isMember o.name f = true ∧ m.has f = true) : Complete S t m where
  fields fd hfd hopt := by
    obtain ⟨v, hv⟩ := hfields fd.name
      (List.mem_map.mpr ⟨fd, List.mem_filter.mpr ⟨hfd, decide_eq_true hopt⟩, rfl⟩)
    exact present_of_mem hv (hlabel fd hfd hopt)
  oneofs o ho hopt := by
    obtain ⟨f, hmember, hhas⟩ := honeofs o ho hopt
    obtain ⟨fd, hfd, heq⟩ := List.any_eq_true.mp hmember
    rw [Bool.and_eq_true, beq_iff_eq, beq_iff_eq] at heq
    obtain ⟨v, hv⟩ := Message.has_iff.mp hhas
    rw [← heq.1] at hv
    exact ⟨fd, hfd, heq.2, present_of_mem hv (by rw [heq.2]; intro h; cases h)⟩

/-- The same for a type without mandatory oneofs. -/
theorem complete_of_fields {S : Schema T} {t : T} {m : Message}
    (hlabel : ∀ fd ∈ (S t).fields, .is_mandatory ∈ fd.options → fd.label ≠ .implicit)
    (honeofs : ∀ o ∈ (S t).oneofs, .is_mandatory ∉ o.options)
    (hfields : ∀ f ∈ (S t).mandatory, ∃ v, (f, v) ∈ m) : Complete S t m :=
  complete_of hlabel hfields fun o ho hopt ↦ absurd hopt (honeofs o ho)

end SensorFusion.Proto
