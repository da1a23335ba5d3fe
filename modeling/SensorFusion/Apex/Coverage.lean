import Mathlib.Data.List.Nodup
import SensorFusion.Apex.Validator
import SensorFusion.Sapient.Coverage

/-!
# What the validator of the middleware covers

The validator goes into everything that is nested in a message, except for types that are not of
the SAPIENT packages.  So, of a message as parsing gives it, it finds that something mandatory is
missing exactly if the message does not keep to `is_mandatory` throughout; and of one that has
passed the validators on the client's side, it finds this inside the content alone.
-/

namespace SensorFusion

universe u

namespace Apex

open Proto

namespace Validator

variable {T : Type u}

/-! ## What is walked through -/

section Walk

variable {S : Schema T} {enters : T → Bool}

theorem sub_of_entry {t t₁ : T} {m : Message} {fd : FieldDesc T} {p : FieldPath}
    {m₁ : {m₁ : Message // sizeOf m₁ < sizeOf m}} (hfd : fd ∈ (S t).fields)
    (hkind : fd.kind = .message t₁) (hentry : (p, m₁) ∈ fd.entries m) : Sub S t m t₁ m₁.1 :=
  ⟨fd, hfd, hkind, (FieldDesc.mem_values.mp (FieldDesc.mem_of_entries hentry)).1⟩

theorem inside_of_below {t t' : T} {m m' : Message} {p : FieldPath}
    (h : Below S enters t m p t' m') : Inside S t m t' m' := by
  induction h with
  | self => exact .self
  | sub hfd hkind _ hentry _ ih => exact .sub (sub_of_entry hfd hkind hentry) ih

/-- No type declares two fields of one name. -/
def DistinctNames (S : Schema T) : Prop := ∀ t, ((S t).fields.map FieldDesc.name).Nodup

theorem find?_of_mem (hnames : DistinctNames S) {t : T} {fd : FieldDesc T}
    (hfd : fd ∈ (S t).fields) : ((S t).fields.find? fun fd' ↦ fd'.name == fd.name) = some fd := by
  cases hfind : (S t).fields.find? fun fd' ↦ fd'.name == fd.name with
  | none => exact absurd (beq_self_eq_true fd.name) (List.find?_eq_none.mp hfind fd hfd)
  | some fd' =>
      have hname := List.find?_some (p := fun fd' : FieldDesc T ↦ fd'.name == fd.name) hfind
      exact congrArg some (List.inj_on_of_nodup_map (hnames t) (List.mem_of_find?_eq_some hfind) hfd
        (beq_iff_eq.mp hname))

/-- A value of a field that is not repeated is the only one. -/
theorem only_value {t : T} {m : Message} (hm : Conforms S t m) {fd : FieldDesc T}
    (hfd : fd ∈ (S t).fields) (hlabel : fd.label ≠ .repeated) {v v' : Value}
    (hv : v ∈ fd.values m) (hv' : v' ∈ fd.values m) : v = v' := by
  have hsingular := hm.singular
  rw [MessageDesc.singular, Bool.and_eq_true, List.all_eq_true] at hsingular
  have hcount := hsingular.1 fd hfd
  rw [Bool.or_eq_true, beq_iff_eq, decide_eq_true_iff, or_iff_right hlabel] at hcount
  have heq := eq_of_countP_le_one hcount (FieldDesc.mem_values.mp hv).1
    (FieldDesc.mem_values.mp hv').1 (beq_self_eq_true _) (beq_self_eq_true _)
  exact (Prod.mk.inj heq).2

/-- What holds throughout the types that are not gone into holds everywhere as soon as it holds
of all that a walk comes to. -/
theorem forall_inside_of_below (hnames : DistinctNames S) {P : T → Message → Prop}
    (hskip : ∀ t, enters t = false → ∀ m t' m', Inside S t m t' m' → P t' m') {t : T}
    {m : Message} (hm : Conforms S t m) (h : ∀ p t' m', Below S enters t m p t' m' → P t' m') :
    ∀ t' m', Inside S t m t' m' → P t' m' := by
  intro t' m' hinside
  induction hinside with
  | self => exact h [] _ _ .self
  | @sub t t₁ t' m m₁ m' hsub hinside ih =>
      obtain ⟨fd, hfd, hkind, hmem⟩ := hsub
      by_cases henters : enters t₁ = true
      · have hvalue : .msg m₁ ∈ fd.values m := FieldDesc.mem_values.mpr ⟨hmem, fun _ ↦ rfl⟩
        obtain ⟨p, hm₁, hentry⟩ : ∃ p hm₁, (p, ⟨m₁, hm₁⟩) ∈ fd.entries m := by
          by_cases hlabel : fd.label = .repeated
          · exact FieldDesc.exists_entry_of_repeated hlabel hvalue
          · exact FieldDesc.exists_entry_of_forall
              (fun v hv ↦ only_value hm hfd hlabel hv hvalue) hvalue
        refine ih (conforms_of_mem hm hmem ?_) fun p' t'' m'' hbelow ↦
          h _ _ _ (.sub hfd hkind henters hentry hbelow)
        rw [find?_of_mem hnames hfd, Option.map_some, hkind]
      · exact hskip t₁ (Bool.not_eq_true _ ▸ henters) m₁ _ _ hinside

end Walk

/-! ## What is mandatory -/

section Mandatory

variable {lib : Library T} {options : ValidationOptions}

/-- The types of validation that are about what is mandatory. -/
def mandatoryTypes : List ValidationType :=
  [.MANDATORY_FIELDS_PRESENT, .MANDATORY_ONEOF_PRESENT, .MANDATORY_REPEATED_PRESENT]

/-- A member of a oneof is there. -/
theorem exists_member_iff {t : T} {m : Message} {o : OneofDesc} :
    (∃ f v, (f, v) ∈ m ∧ (lib.schema t).isMember o.name f = true) ↔
      ∃ fd ∈ (lib.schema t).fields, fd.label = .member o.name ∧ fd.Present m := by
  constructor
  · rintro ⟨f, v, hmem, hmember⟩
    obtain ⟨fd, hfd, heq⟩ := List.any_eq_true.mp hmember
    rw [Bool.and_eq_true, beq_iff_eq, beq_iff_eq] at heq
    obtain ⟨rfl, hlabel⟩ := heq
    exact ⟨fd, hfd, hlabel, present_of_mem hmem (by rw [hlabel]; nofun)⟩
  · rintro ⟨fd, hfd, hlabel, v, hmem, -⟩
    refine ⟨fd.name, v, hmem, List.any_eq_true.mpr ⟨fd, hfd, ?_⟩⟩
    rw [Bool.and_eq_true, beq_iff_eq, beq_iff_eq]
    exact ⟨rfl, hlabel⟩

/-- Of a complete message, nothing is found to be missing. -/
theorem not_missing_of_complete {t : T} {m : Message} {path : FieldPath}
    (hm : Complete lib.schema t m) {e : ValidationError}
    (hfault : Fault lib options t m path e) : e.type ∉ mandatoryTypes := by
  rcases hfault with hfault | ⟨fd, hfd, hfault⟩
  · cases hfault with
    | unknown_field => simp [mandatoryTypes]
    | missing_oneof _ ho hmandatory hmissing =>
        obtain ⟨f, v, hmem, hmember⟩ := exists_member_iff.mpr (hm.oneofs _ ho hmandatory)
        rw [hmissing f v hmem] at hmember
        cases hmember
  · cases hfault with
    | missing_field _ hmandatory _ hmissing => exact absurd (hm.fields fd hfd hmandatory) hmissing
    | missing_repeated _ hmandatory _ hmissing =>
        exact absurd (hm.fields fd hfd hmandatory) hmissing
    | _ => simp [mandatoryTypes]

/-- A message of which nothing is found to be missing is complete. -/
theorem complete_of_not_missing (hon : mandatoryTypes ⊆ options.types) {t : T} {m : Message}
    {path : FieldPath} (h : ∀ e, Fault lib options t m path e → e.type ∉ mandatoryTypes) :
    Complete lib.schema t m := by
  have hfield : .MANDATORY_FIELDS_PRESENT ∈ mandatoryTypes := by decide
  have honeof : .MANDATORY_ONEOF_PRESENT ∈ mandatoryTypes := by decide
  have hrepeated : .MANDATORY_REPEATED_PRESENT ∈ mandatoryTypes := by decide
  refine ⟨fun fd hfd hmandatory ↦ ?_, fun o ho hmandatory ↦ ?_⟩
  · by_contra hmissing
    by_cases hlabel : fd.label = .repeated
    · exact h _ (Or.inr ⟨fd, hfd, .missing_repeated (hon hrepeated) hmandatory hlabel hmissing⟩)
        hrepeated
    · exact h _ (Or.inr ⟨fd, hfd, .missing_field (hon hfield) hmandatory hlabel hmissing⟩) hfield
  · rw [← exists_member_iff]
    by_contra hmissing
    refine h _ (Or.inl (.missing_oneof (hon honeof) ho hmandatory fun f v hmem ↦ ?_)) honeof
    rw [← Bool.not_eq_true]
    exact fun hmember ↦ hmissing ⟨f, v, hmem, hmember⟩

variable [DecidableEq T] {self : Validator}

/-- Of a message as parsing gives it, a validator that performs the types for it finds that
something mandatory is missing exactly if the message, with everything that is nested in it,
does not keep to `is_mandatory`. -/
theorem mandatory_iff (hnames : DistinctNames lib.schema)
    (hskip : ∀ t, enters lib t = false → ∀ m, Mandatory lib.schema t m)
    (hon : mandatoryTypes ⊆ self.options.types) {t : T} {m : Message}
    (hm : Conforms lib.schema t m) {errors : List ValidationError}
    (h : self.validate_message lib t m [] = .ok errors) :
    Mandatory lib.schema t m ↔ ∀ e ∈ errors, e.type ∉ mandatoryTypes := by
  constructor
  · intro hmandatory e he
    obtain ⟨p, t', m', hbelow, hfault⟩ := (validate_message_faults h e).mp he
    exact not_missing_of_complete (hmandatory t' m' (inside_of_below hbelow)) hfault
  · intro hnone
    refine forall_inside_of_below hnames hskip hm fun p t' m' hbelow ↦ ?_
    exact complete_of_not_missing hon fun e hfault ↦
      hnone e ((validate_message_faults h e).mpr ⟨p, t', m', hbelow, hfault⟩)

end Mandatory

/-! ## SAPIENT messages -/

section Sapient

open SensorFusion.Sapient (MessageType SapientMessage)

variable {lib : Library MessageType} {self : Validator} {errors : List ValidationError}

theorem distinctNames_schema : DistinctNames Sapient.schema := by
  intro t
  cases t <;> decide

/-- Nothing is mandatory in a timestamp. -/
theorem mandatory_timestamp (m : Message) : Mandatory Sapient.schema .Timestamp m := by
  rw [Proto.mandatory_iff]
  refine ⟨complete_of_fields (by decide) (by decide) ?_, fun t₁ m₁ hsub ↦ ?_⟩
  · change ∀ f ∈ [], _
    simp
  · obtain ⟨fd, hfd, hkind, -⟩ := hsub
    simp only [Sapient.schema, List.mem_cons, List.not_mem_nil, or_false] at hfd
    rcases hfd with rfl | rfl <;> cases hkind

/-- Of a SAPIENT message that can be parsed, a validator that performs the types for it finds
that something mandatory is missing exactly if the message, with everything that is nested in
it, does not keep to `is_mandatory`. -/
theorem mandatory_iff_found (hschema : lib.schema = Sapient.schema)
    (henters : ∀ t, enters lib t = false → t = .Timestamp)
    (hon : mandatoryTypes ⊆ self.options.types) (m : SapientMessage)
    (h : self.validate_message lib .SapientMessage m.fields [] = .ok errors) :
    Mandatory Sapient.schema .SapientMessage m.fields ↔ ∀ e ∈ errors, e.type ∉ mandatoryTypes := by
  rw [← hschema]
  refine mandatory_iff (hschema ▸ distinctNames_schema) (fun t ht m ↦ ?_) hon
    (hschema ▸ m.conforms) h
  rw [henters t ht, hschema]
  exact mandatory_timestamp m

theorem timestamp_of_not_enters (t : MessageType) (h : enters flexLibrary t = false) :
    t = .Timestamp := by
  by_contra ht
  have hname : flexLibrary.full_name t = "sapient_msg.bsi_flex_335_v2_0" := if_neg ht
  rw [enters, hname] at h
  exact absurd h (by decide +kernel)

/-- An alert with a file that has no address. -/
def lostFile : SapientMessage := ⟨Sapient.fileAlert [("type", .str "image")], by decide⟩

theorem mandatory_iff_found_lostFile :
    Mandatory Sapient.schema .SapientMessage lostFile.fields ↔
      ∀ e ∈ [(⟨.MANDATORY_FIELDS_PRESENT, "Missing mandatory field: url",
        ["alert", "associated_file", "0", "url"]⟩ : ValidationError)], e.type ∉ mandatoryTypes :=
  @mandatory_iff_found flexLibrary strict _ rfl timestamp_of_not_enters (by decide) lostFile
    (by decide +kernel)

/-- Of a message that has passed the validators on the client's side, the middleware finds that
something is missing only in what is nested inside the content. -/
theorem missing_inside_content (hschema : lib.schema = Sapient.schema) (m : SapientMessage)
    (hpass : Sapient.validate m.fields = [])
    (h : self.validate_message lib .SapientMessage m.fields [] = .ok errors) :
    ∀ e ∈ errors, e.type ∈ mandatoryTypes → ∃ p t' m',
      Below lib.schema (enters lib) .SapientMessage m.fields p t' m' ∧ 2 ≤ p.length ∧
        Fault lib self.options t' m' p e := by
  intro e he htype
  obtain ⟨p, t', m', hbelow, hfault⟩ := (validate_message_faults h e).mp he
  refine ⟨p, t', m', hbelow, ?_, hfault⟩
  have hincomplete : ¬ Complete lib.schema t' m' := fun hm ↦ not_missing_of_complete hm hfault htype
  cases hbelow with
  | self => exact absurd (hschema ▸ Sapient.complete_message hpass) hincomplete
  | @sub t t₁ t' m₀ m' fd p p' m₁ hfd hkind henters hentry hbelow =>
      cases hbelow with
      | self =>
          refine absurd ?_ hincomplete
          rw [hschema] at hfd ⊢
          exact Sapient.complete_sub m.conforms hpass (sub_of_entry hfd hkind hentry)
      | sub =>
          simp only [List.cons_append, List.length_cons, List.length_append]
          omega

theorem missing_inside_content_lostFile :
    ∃ p t' m', Below flexLibrary.schema (enters flexLibrary) .SapientMessage lostFile.fields
      p t' m' ∧ 2 ≤ p.length ∧ Fault flexLibrary strict.options t' m' p
        ⟨.MANDATORY_FIELDS_PRESENT, "Missing mandatory field: url",
          ["alert", "associated_file", "0", "url"]⟩ :=
  missing_inside_content rfl lostFile (by decide) (by decide +kernel) _
    (List.mem_singleton_self _) (by decide)

end Sapient

end Validator

end Apex

end SensorFusion
