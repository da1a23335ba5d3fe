import Mathlib.Data.List.Nodup
import SensorFusion.Lib.Editing
import SensorFusion.Lib.Proto

/-!
# The template generator

`_populate_message` sets the mandatory fields of a fresh message and goes on in its
submessages, down to a fixed depth.  It never asks which message it is in, so everything here
is over an arbitrary set of descriptors.  The second half says which fields are set: no field
twice, and of a oneof only the first member.
-/

namespace SensorFusion.Ui

open Proto

universe u

variable {T : Type u}

/-! ## Descriptors -/

/-- A oneof as a descriptor lists it, with its fields. -/
structure Oneof (T : Type u) where
  name : String
  fields : List (FieldDesc T)
  options : List FieldOption

/-- `_is_mandatory`. -/
def isMandatory (fd : FieldDesc T) : Bool := decide (.is_mandatory ∈ fd.options)

/-- `_is_synthetic_oneof`. -/
def isSyntheticOneof (o : Oneof T) : Bool := o.name.startsWith "_" && o.fields.length == 1

/-- `oneof_mandatory`. -/
def Oneof.mandatory (o : Oneof T) : Bool :=
  decide (.is_mandatory ∈ o.options) || o.fields.any isMandatory

/-- `_first_non_zero_enum_value`, of the numbers of the values. -/
def firstNonZeroEnumValue (values : List ℤ) : ℤ := (values.find? (· ≠ 0)).getD 0

/-- `_placeholder_for_string`. -/
def placeholderForString (fd : FieldDesc T) : String :=
  if .is_ulid ∈ fd.options then "{{ULID}}"
  else if .is_uuid ∈ fd.options then "{{NODE_ID}}"
  else "sample-" ++ fd.name

/-- `_scalar_default`, with the numbers of the values of an enumeration.  The other integer
types get a zero, too. -/
def scalarDefault (values : List ℤ) (fd : FieldDesc T) : Value :=
  match fd.kind with
  | .string => .str (placeholderForString fd)
  | .bytes => .bytes [1, 2, 3, 4]
  | .bool => .bool true
  | .enum => .enum (firstNonZeroEnumValue values)
  | .float | .double => .float (.fin 0)
  | .int32 | .int64 => .int 0
  | .message _ => .msg []

/-- A field whose values are messages. -/
def IsMessage (fd : FieldDesc T) : Prop := ∃ t, fd.kind = .message t

/-- The fields of a oneof. -/
def members (S : Schema T) (t : T) (oneof : String) : List (FieldDesc T) :=
  (S t).fields.filter fun fd ↦ fd.label == .member oneof

/-- A set of message descriptors, with what else the generator asks of them. -/
structure Descriptors (T : Type u) where
  schema : Schema T
  /-- The name of the oneof that `optional` makes for a field. -/
  synthetic : T → String → String
  /-- The numbers of the values of an enumeration field. -/
  enumValues : T → String → List ℤ
  /-- `_quirk_value`. -/
  quirk : T → String → Option Value
  /-- The value that a field holds after it was assigned one; `none` when that raises. -/
  assign : T → FieldDesc T → Value → Option Value
  fields_nodup : ∀ t, ((schema t).fields.map FieldDesc.name).Nodup
  oneofs_nodup : ∀ t, ((schema t).oneofs.map OneofDesc.name).Nodup
  /-- A value of the field's own type is held as it is. -/
  assign_default : ∀ t fd, fd ∈ (schema t).fields → ¬ IsMessage fd →
    assign t fd (scalarDefault (enumValues t fd.name) fd) =
      some (scalarDefault (enumValues t fd.name) fd)

namespace Descriptors

variable (D : Descriptors T)

/-- `desc.oneofs`. -/
def oneofs (t : T) : List (Oneof T) :=
  ((D.schema t).oneofs.map fun o ↦ ⟨o.name, members D.schema t o.name, o.options⟩) ++
    ((D.schema t).fields.filter fun fd ↦ fd.label == .optional).map fun fd ↦
      ⟨D.synthetic t fd.name, [fd], []⟩

/-- The field is contained in a oneof that is not synthetic. -/
def inRealOneof (t : T) (fd : FieldDesc T) : Bool :=
  (D.oneofs t).any fun o ↦ !isSyntheticOneof o && o.fields.any fun fd' ↦ fd'.name == fd.name

/-! ## `_populate_message` -/

/-- The fields that the loop over the oneofs sets: the first of each mandatory one. -/
def picked (t : T) : List (FieldDesc T) :=
  ((D.oneofs t).filter fun o ↦ !isSyntheticOneof o && o.mandatory).filterMap fun o ↦
    o.fields.head?

/-- The fields that the loop over the fields sets, with their overrides. -/
def direct (t : T) : List (FieldDesc T × Option Value) :=
  ((D.schema t).fields.filter fun fd ↦
      !D.inRealOneof t fd && (isMandatory fd || (D.quirk t fd.name).isSome)).map fun fd ↦
    (fd, D.quirk t fd.name)

/-- All fields that are set, with their overrides. -/
def chosen (t : T) : List (FieldDesc T × Option Value) :=
  ((D.picked t).map fun fd ↦ (fd, none)) ++ D.direct t

/-- A fresh message after some fields of it were set: whether anything was, which makes it
present in its parent, and what it is on the wire. -/
structure Built where
  touched : Bool
  fields : Message

/-- One field after another. -/
def Built.join (parts : List Built) : Built :=
  ⟨parts.any Built.touched, parts.flatMap Built.fields⟩

/-- The value that is assigned to a field. -/
def value (t : T) (c : FieldDesc T × Option Value) : Value :=
  c.2.getD (scalarDefault (D.enumValues t c.1.name) c.1)

/-- `_set_field`, in a fresh message of type `t`.  A field without a label that is assigned
its default is not on the wire. -/
def setField (populate : T → Option Built) (t : T) (c : FieldDesc T × Option Value) :
    Option Built :=
  match c.1.kind, c.1.label with
  | .message t', .repeated => (populate t').map fun sub ↦ ⟨true, [(c.1.name, .msg sub.fields)]⟩
  | .message t', _ => (populate t').map fun sub ↦
      if sub.touched then ⟨true, [(c.1.name, .msg sub.fields)]⟩ else ⟨false, []⟩
  | _, .implicit => (D.assign t c.1 (D.value t c)).map fun v ↦
      ⟨true, if v.isDefault then [] else [(c.1.name, v)]⟩
  | _, _ => (D.assign t c.1 (D.value t c)).map fun v ↦ ⟨true, [(c.1.name, v)]⟩

/-- `_populate_message` on a fresh message, with the number of levels that are left before
the cut-off; `none` is an exception. -/
def populate : ℕ → T → Option Built
  | 0, _ => some ⟨false, []⟩
  | left + 1, t => ((D.chosen t).mapM (D.setField (populate left) t)).map Built.join

/-- `max_depth`. -/
def MAX_DEPTH : ℕ := 8

/-- `_populate_message`, by the depth that it is called with. -/
def populateMessage (depth : ℕ) (t : T) : Option Message :=
  (D.populate (MAX_DEPTH + 1 - depth) t).map Built.fields

/-! ## Which fields are set -/

section Chosen

variable {D : Descriptors T} {t : T} {fd fd' : FieldDesc T} {ov : Option Value}

/-- A field is decided by its name. -/
theorem eq_of_name_eq (h : fd ∈ (D.schema t).fields) (h' : fd' ∈ (D.schema t).fields)
    (hname : fd.name = fd'.name) : fd = fd' :=
  List.inj_on_of_nodup_map (D.fields_nodup t) h h' hname

theorem mem_members {oneof : String} :
    fd ∈ members D.schema t oneof ↔ fd ∈ (D.schema t).fields ∧ fd.label = .member oneof := by
  rw [members, List.mem_filter, beq_iff_eq]

/-- A oneof is declared, or it is that of an optional field. -/
theorem mem_oneofs {o : Oneof T} : o ∈ D.oneofs t ↔
    (∃ o' ∈ (D.schema t).oneofs, o = ⟨o'.name, members D.schema t o'.name, o'.options⟩) ∨
      ∃ fd ∈ (D.schema t).fields, fd.label = .optional ∧ o = ⟨D.synthetic t fd.name, [fd], []⟩ := by
  rw [oneofs, List.mem_append, List.mem_map, List.mem_map]
  simp only [List.mem_filter, beq_iff_eq, and_assoc]
  constructor
  · rintro (⟨o', ho', rfl⟩ | ⟨fd, hfd, hl, rfl⟩)
    exacts [Or.inl ⟨o', ho', rfl⟩, Or.inr ⟨fd, hfd, hl, rfl⟩]
  · rintro (⟨o', ho', rfl⟩ | ⟨fd, hfd, hl, rfl⟩)
    exacts [Or.inl ⟨o', ho', rfl⟩, Or.inr ⟨fd, hfd, hl, rfl⟩]

theorem mem_fields_of_mem_oneof {o : Oneof T} (ho : o ∈ D.oneofs t) (hfd : fd ∈ o.fields) :
    fd ∈ (D.schema t).fields := by
  rcases mem_oneofs.mp ho with ⟨o', -, rfl⟩ | ⟨fd', hfd', -, rfl⟩
  · exact (mem_members.mp hfd).1
  · rw [List.mem_singleton.mp hfd]
    exact hfd'

/-- A field is in one oneof only. -/
theorem pairwise_oneofs (D : Descriptors T) (t : T) :
    (D.oneofs t).Pairwise fun o o' ↦ ∀ fd ∈ o.fields, ∀ fd' ∈ o'.fields, fd.name ≠ fd'.name := by
  rw [oneofs, List.pairwise_append]
  refine ⟨?_, ?_, ?_⟩
  · refine List.pairwise_map.mpr ((List.pairwise_map.mp (D.oneofs_nodup t)).imp ?_)
    intro o o' hne fd hfd fd' hfd' hname
    obtain ⟨hmem, hlabel⟩ := mem_members.mp hfd
    obtain ⟨hmem', hlabel'⟩ := mem_members.mp hfd'
    rw [eq_of_name_eq hmem hmem' hname, hlabel'] at hlabel
    exact hne (Label.member.inj hlabel).symm
  · refine List.pairwise_map.mpr
      (((List.pairwise_map.mp (D.fields_nodup t)).filter _).imp ?_)
    intro a b hne fd hfd fd' hfd' hname
    rw [List.mem_singleton.mp hfd, List.mem_singleton.mp hfd'] at hname
    exact hne hname
  · intro o ho o' ho' fd hfd fd' hfd' hname
    obtain ⟨o, -, rfl⟩ := List.mem_map.mp ho
    obtain ⟨b, hb, rfl⟩ := List.mem_map.mp ho'
    obtain ⟨hmem, hlabel⟩ := mem_members.mp hfd
    rw [List.mem_filter, beq_iff_eq] at hb
    rw [List.mem_singleton.mp hfd'] at hname
    rw [eq_of_name_eq hmem hb.1 hname, hb.2] at hlabel
    cases hlabel

theorem mem_picked : fd ∈ D.picked t ↔
    ∃ o ∈ D.oneofs t, isSyntheticOneof o = false ∧ o.mandatory = true ∧
      o.fields.head? = some fd := by
  rw [picked, List.mem_filterMap]
  simp only [List.mem_filter, Bool.and_eq_true, Bool.not_eq_true', and_assoc]

theorem mem_direct : (fd, ov) ∈ D.direct t ↔
    fd ∈ (D.schema t).fields ∧ D.inRealOneof t fd = false ∧
      (isMandatory fd || (D.quirk t fd.name).isSome) = true ∧ ov = D.quirk t fd.name := by
  rw [direct, List.mem_map]
  simp only [List.mem_filter, Bool.and_eq_true, Bool.not_eq_true', Prod.mk.injEq]
  constructor
  · rintro ⟨a, ⟨hmem, hreal, hset⟩, rfl, rfl⟩
    exact ⟨hmem, hreal, hset, rfl⟩
  · rintro ⟨hmem, hreal, hset, rfl⟩
    exact ⟨fd, ⟨hmem, hreal, hset⟩, rfl, rfl⟩

theorem mem_chosen : (fd, ov) ∈ D.chosen t ↔
    (fd ∈ D.picked t ∧ ov = none) ∨ (fd, ov) ∈ D.direct t := by
  rw [chosen, List.mem_append, List.mem_map]
  refine or_congr_left ?_
  constructor
  · rintro ⟨fd, hfd, h⟩
    cases h
    exact ⟨hfd, rfl⟩
  · rintro ⟨hfd, rfl⟩
    exact ⟨fd, hfd, rfl⟩

/-- Every field that is set is declared. -/
theorem mem_fields_of_mem_chosen (h : (fd, ov) ∈ D.chosen t) : fd ∈ (D.schema t).fields := by
  rcases mem_chosen.mp h with ⟨hpick, -⟩ | hdirect
  · obtain ⟨o, ho, -, -, hhead⟩ := mem_picked.mp hpick
    exact mem_fields_of_mem_oneof ho (List.mem_of_mem_head? hhead)
  · exact (mem_direct.mp hdirect).1

theorem inRealOneof_of_mem_picked (h : fd ∈ D.picked t) : D.inRealOneof t fd = true := by
  obtain ⟨o, ho, hsynth, -, hhead⟩ := mem_picked.mp h
  refine List.any_eq_true.mpr ⟨o, ho, ?_⟩
  rw [hsynth, Bool.not_false, Bool.true_and, List.any_eq_true]
  exact ⟨fd, List.mem_of_mem_head? hhead, beq_self_eq_true _⟩

theorem inRealOneof_congr (h : fd.name = fd'.name) :
    D.inRealOneof t fd = D.inRealOneof t fd' := by
  rw [inRealOneof, inRealOneof, h]

/-- No field is set twice. -/
theorem nodup_chosen (D : Descriptors T) (t : T) :
    ((D.chosen t).map fun c ↦ c.1.name).Nodup := by
  rw [chosen, List.map_append, List.map_map, List.nodup_append]
  refine ⟨?_, ?_, ?_⟩
  · refine List.pairwise_map.mpr ?_
    refine List.pairwise_filterMap.mpr (((pairwise_oneofs D t).filter _).imp ?_)
    intro o o' hdisj fd hfd fd' hfd'
    exact hdisj fd (List.mem_of_mem_head? hfd) fd' (List.mem_of_mem_head? hfd')
  · rw [direct, List.map_map]
    exact (D.fields_nodup t).sublist ((List.filter_sublist).map _)
  · intro a ha b hb hab
    obtain ⟨fd, hfd, rfl⟩ := List.mem_map.mp ha
    obtain ⟨⟨fd', ov⟩, hdirect, rfl⟩ := List.mem_map.mp hb
    have hreal := inRealOneof_of_mem_picked hfd
    rw [inRealOneof_congr hab, (mem_direct.mp hdirect).2.1] at hreal
    cases hreal

/-- A member of a oneof that is set is its first. -/
theorem head_of_mem_chosen (h : (fd, ov) ∈ D.chosen t) {o : OneofDesc}
    (ho : o ∈ (D.schema t).oneofs) (hl : fd.label = .member o.name) :
    (members D.schema t o.name).head? = some fd := by
  have hmem : fd ∈ members D.schema t o.name := mem_members.mpr ⟨mem_fields_of_mem_chosen h, hl⟩
  rcases mem_chosen.mp h with ⟨hpick, -⟩ | hdirect
  · obtain ⟨o₁, ho₁, -, -, hhead⟩ := mem_picked.mp hpick
    rcases mem_oneofs.mp ho₁ with ⟨o', ho', rfl⟩ | ⟨fd', -, hlabel, rfl⟩
    · have hl' := (mem_members.mp (List.mem_of_mem_head? hhead)).2
      rw [hl] at hl'
      rw [Label.member.inj hl']
      exact hhead
    · cases hhead
      rw [hlabel] at hl
      cases hl
  · -- Outside of the real oneofs there are only oneofs of one field.
    have hreal := (mem_direct.mp hdirect).2.1
    have hdecl : (⟨o.name, members D.schema t o.name, o.options⟩ : Oneof T) ∈ D.oneofs t :=
      mem_oneofs.mpr (Or.inl ⟨o, ho, rfl⟩)
    have hnot := List.any_eq_false.mp hreal _ hdecl
    have hany : ((members D.schema t o.name).any fun fd' ↦ fd'.name == fd.name) = true :=
      List.any_eq_true.mpr ⟨fd, hmem, beq_self_eq_true _⟩
    dsimp only at hnot
    rw [hany, Bool.and_true, Bool.not_eq_true, Bool.not_eq_false', isSyntheticOneof,
      Bool.and_eq_true, beq_iff_eq] at hnot
    obtain ⟨fd', hfd'⟩ := List.length_eq_one_iff.mp hnot.2
    dsimp only at hfd'
    rw [hfd'] at hmem ⊢
    rw [List.mem_singleton.mp hmem]
    rfl

end Chosen

end Descriptors

end SensorFusion.Ui
