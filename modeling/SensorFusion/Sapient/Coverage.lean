import SensorFusion.Sapient.Validators

/-!
# What the validators cover

The module docstring promises a strict superset of the `is_mandatory` options.  The
validators look at a message and at its content and go no further, so a message that
passes them keeps to the options at these two levels, and throughout exactly when
everything nested inside its content does.
-/

namespace SensorFusion.Sapient

open Proto

theorem ne_empty_of_isValidUlid {s : String} (h : isValidUlid s = true) : s ≠ "" := by
  rintro rfl
  cases h

/-! ## One kind of content at a time -/

theorem complete_registration {r : Message} (h : validateRegistration r = []) :
    Complete schema .Registration r := by
  simp only [validateRegistration, List.append_eq_nil_iff, err_eq_nil_iff, decide_eq_true_iff,
    beq_iff_eq] at h
  obtain ⟨⟨⟨⟨⟨⟨hnode, hicd⟩, hcap⟩, hstatus⟩, hmode⟩, hconfig⟩, -⟩ := h
  refine complete_of_fields (by decide) (by decide) ?_
  change ∀ f ∈ ["node_definition", "icd_version", "capabilities", "status_definition",
    "mode_definition", "config_data"], _
  simp only [List.forall_mem_cons, List.not_mem_nil, false_imp_iff, implies_true, and_true]
  refine ⟨Message.exists_of_count_pos hnode, ?_, Message.exists_of_count_pos hcap,
    Message.has_iff.mp hstatus, Message.exists_of_count_pos hmode,
    Message.exists_of_count_pos hconfig⟩
  obtain ⟨s, -, hs⟩ := Message.exists_of_str_ne (m := r) (f := "icd_version") (by rw [hicd]; decide)
  exact ⟨_, hs⟩

/-- An identifier that passes for a ULID is there. -/
theorem exists_of_ulid {m : Message} {f : String} (h : isValidUlid (m.str f) = true) :
    ∃ v, (f, v) ∈ m := by
  obtain ⟨s, -, hs⟩ := Message.exists_of_str_ne (ne_empty_of_isValidUlid h)
  exact ⟨_, hs⟩

theorem complete_registration_ack {ra : Message} (h : validateRegistrationAck ra = []) :
    Complete schema .RegistrationAck ra := by
  rw [validateRegistrationAck, err_eq_nil_iff] at h
  refine complete_of_fields (by decide) (by decide) ?_
  change ∀ f ∈ ["acceptance"], _
  simp only [List.forall_mem_cons, List.not_mem_nil, false_imp_iff, implies_true, and_true]
  exact Message.has_iff.mp h

theorem complete_status_report {s : Message} (h : validateStatusReport s = []) :
    Complete schema .StatusReport s := by
  simp only [validateStatusReport, List.append_eq_nil_iff, err_eq_nil_iff, bne_iff_ne] at h
  obtain ⟨⟨⟨⟨hreport, hsystem⟩, hinfo⟩, hmode⟩, -⟩ := h
  refine complete_of_fields (by decide) (by decide) ?_
  change ∀ f ∈ ["report_id", "system", "info", "mode"], _
  simp only [List.forall_mem_cons, List.not_mem_nil, false_imp_iff, implies_true, and_true]
  obtain ⟨mode, -, hmode⟩ := Message.exists_of_str_ne hmode
  exact ⟨exists_of_ulid hreport, Message.exists_of_num_ne hsystem, Message.exists_of_num_ne hinfo,
    ⟨_, hmode⟩⟩

theorem complete_detection_report {d : Message} (h : validateDetectionReport d = []) :
    Complete schema .DetectionReport d := by
  simp only [validateDetectionReport, List.append_eq_nil_iff, err_eq_nil_iff] at h
  obtain ⟨⟨⟨⟨⟨hreport, hobject⟩, -⟩, hloc⟩, -⟩, -⟩ := h
  refine complete_of (by decide) ?_ ?_
  · change ∀ f ∈ ["report_id", "object_id"], _
    simp only [List.forall_mem_cons, List.not_mem_nil, false_imp_iff, implies_true, and_true]
    exact ⟨exists_of_ulid hreport, exists_of_ulid hobject⟩
  · change ∀ o ∈ [OneofDesc.mk "location_oneof" [.is_mandatory], ⟨"velocity_oneof", []⟩], _
    simp only [List.forall_mem_cons, List.not_mem_nil, false_imp_iff, implies_true, and_true]
    rw [Bool.or_eq_true] at hloc
    intro _
    rcases hloc with hloc | hloc
    · exact ⟨"location", by decide, hloc⟩
    · exact ⟨"range_bearing", by decide, hloc⟩

theorem complete_task {t : Message} (h : validateTask t = []) : Complete schema .Task t := by
  simp only [validateTask, List.append_eq_nil_iff, err_eq_nil_iff, bne_iff_ne] at h
  refine complete_of_fields (by decide) (by decide) ?_
  change ∀ f ∈ ["task_id", "control"], _
  simp only [List.forall_mem_cons, List.not_mem_nil, false_imp_iff, implies_true, and_true]
  exact ⟨exists_of_ulid h.1, Message.exists_of_num_ne h.2⟩

theorem complete_task_ack {ta : Message} (h : validateTaskAck ta = []) :
    Complete schema .TaskAck ta := by
  simp only [validateTaskAck, List.append_eq_nil_iff, err_eq_nil_iff, bne_iff_ne] at h
  refine complete_of_fields (by decide) (by decide) ?_
  change ∀ f ∈ ["task_id", "task_status"], _
  simp only [List.forall_mem_cons, List.not_mem_nil, false_imp_iff, implies_true, and_true]
  exact ⟨exists_of_ulid h.1, Message.exists_of_num_ne h.2⟩

theorem complete_alert {a : Message} (h : validateAlert a = []) : Complete schema .Alert a := by
  simp only [validateAlert, List.append_eq_nil_iff, err_eq_nil_iff] at h
  obtain ⟨⟨⟨halert, -⟩, -⟩, -⟩ := h
  refine complete_of_fields (by decide) (by decide) ?_
  change ∀ f ∈ ["alert_id"], _
  simp only [List.forall_mem_cons, List.not_mem_nil, false_imp_iff, implies_true, and_true]
  exact exists_of_ulid halert

theorem complete_alert_ack {aa : Message} (h : validateAlertAck aa = []) :
    Complete schema .AlertAck aa := by
  simp only [validateAlertAck, List.append_eq_nil_iff, err_eq_nil_iff, bne_iff_ne] at h
  refine complete_of_fields (by decide) (by decide) ?_
  change ∀ f ∈ ["alert_id", "alert_ack_status"], _
  simp only [List.forall_mem_cons, List.not_mem_nil, false_imp_iff, implies_true, and_true]
  exact ⟨exists_of_ulid h.1, Message.exists_of_num_ne h.2⟩

theorem complete_error {e : Message} (h : validateError e = []) : Complete schema .Error e := by
  simp only [validateError, List.append_eq_nil_iff, err_eq_nil_iff, decide_eq_true_iff] at h
  refine complete_of_fields (by decide) (by decide) ?_
  change ∀ f ∈ ["packet", "error_message"], _
  simp only [List.forall_mem_cons, List.not_mem_nil, false_imp_iff, implies_true, and_true]
  refine ⟨Message.exists_of_bytes_ne fun hnil ↦ ?_, Message.exists_of_count_pos h.2⟩
  have hpacket := h.1
  rw [hnil] at hpacket
  cases hpacket

/-! ## The whole message -/

/-- The kinds of content and their types. -/
def CONTENT : List (String × MessageType) :=
  [("registration", .Registration), ("registration_ack", .RegistrationAck),
   ("status_report", .StatusReport), ("detection_report", .DetectionReport), ("task", .Task),
   ("task_ack", .TaskAck), ("alert", .Alert), ("alert_ack", .AlertAck), ("error", .Error)]

/-- A submessage of a message is its timestamp or its content. -/
theorem sub_cases {m c : Message} {t : MessageType} (h : Sub schema .SapientMessage m t c) :
    t = .Timestamp ∨ ∃ f, (schema .SapientMessage).isMember "content" f = true ∧
      (f, .msg c) ∈ m ∧ (f, t) ∈ CONTENT := by
  obtain ⟨fd, hfd, hkind, hmem⟩ := h
  simp only [schema, List.mem_cons, List.not_mem_nil, or_false] at hfd
  rcases hfd with rfl | rfl | rfl | rfl | rfl | rfl | rfl | rfl | rfl | rfl | rfl | rfl | rfl | rfl
  · cases hkind; exact Or.inl rfl
  · cases hkind
  · cases hkind
  all_goals first
    | (cases hkind; exact Or.inr ⟨_, by decide, hmem, by simp [CONTENT]⟩)
    | cases hkind

/-- The validators look at the content. -/
theorem complete_content {m c : Message} {f : String} {t : MessageType}
    (ht : (f, t) ∈ CONTENT) (hsub : m.sub f = c) (h : validateContent m (some f) = []) :
    Complete schema t c := by
  subst hsub
  simp only [CONTENT, List.mem_cons, Prod.mk.injEq, List.not_mem_nil, or_false] at ht
  rcases ht with ⟨rfl, rfl⟩ | ⟨rfl, rfl⟩ | ⟨rfl, rfl⟩ | ⟨rfl, rfl⟩ | ⟨rfl, rfl⟩ | ⟨rfl, rfl⟩ |
    ⟨rfl, rfl⟩ | ⟨rfl, rfl⟩ | ⟨rfl, rfl⟩
  · exact complete_registration h
  · exact complete_registration_ack h
  · exact complete_status_report h
  · exact complete_detection_report h
  · exact complete_task h
  · exact complete_task_ack h
  · exact complete_alert h
  · exact complete_alert_ack h
  · exact complete_error h

/-- A message that passes is complete at its own level. -/
theorem complete_message {m : Message} (h : validate m = []) :
    Complete schema .SapientMessage m := by
  simp only [validate, List.append_eq_nil_iff, err_eq_nil_iff, Bool.and_eq_true, bne_iff_ne] at h
  obtain ⟨⟨⟨⟨htime, hnode, -⟩, -⟩, hcontent⟩, -⟩ := h
  refine complete_of (by decide) ?_ ?_
  · change ∀ f ∈ ["timestamp", "node_id"], _
    simp only [List.forall_mem_cons, List.not_mem_nil, false_imp_iff, implies_true, and_true]
    obtain ⟨s, -, hs⟩ := Message.exists_of_str_ne hnode
    exact ⟨Message.has_iff.mp htime, ⟨_, hs⟩⟩
  · change ∀ o ∈ [OneofDesc.mk "content" [.is_mandatory]], _
    simp only [List.forall_mem_cons, List.not_mem_nil, false_imp_iff, implies_true, and_true]
    intro _
    obtain ⟨f, hf⟩ := Option.isSome_iff_exists.mp hcontent
    exact ⟨f, mem_of_whichOneof hf⟩

/-- A message that passes is complete at the level of its submessages. -/
theorem complete_sub {m c : Message} {t : MessageType} (hs : Conforms schema .SapientMessage m)
    (h : validate m = []) (hsub : Sub schema .SapientMessage m t c) : Complete schema t c := by
  rcases sub_cases hsub with rfl | ⟨f, hmember, hmem, ht⟩
  · refine complete_of_fields (by decide) (by decide) ?_
    change ∀ f ∈ [], _
    simp
  · obtain ⟨hcontent, hlookup⟩ := whichOneof_of_mem hs.singular
      (o := ⟨"content", [.is_mandatory]⟩) List.mem_cons_self hmem hmember
    refine complete_content ht (by rw [Message.sub, hlookup]) ?_
    rw [← hcontent]
    exact (List.append_eq_nil_iff.mp h).2

/-- A message that passes the validators keeps to `is_mandatory` throughout exactly
when everything nested inside its content does. -/
theorem validate_covers (m : SapientMessage) (h : validate m.fields = []) :
    Mandatory schema .SapientMessage m.fields ↔
      ∀ t c, Sub schema .SapientMessage m.fields t c →
        ∀ t' c', Sub schema t c t' c' → Mandatory schema t' c' := by
  rw [mandatory_iff]
  constructor
  · rintro ⟨-, hm⟩ t c hsub
    exact (mandatory_iff.mp (hm t c hsub)).2
  · intro hdeep
    refine ⟨complete_message h, fun t c hsub ↦ mandatory_iff.mpr ⟨?_, hdeep t c hsub⟩⟩
    exact complete_sub m.conforms h hsub

/-- An alert with one associated file. -/
def fileAlert (file : Message) : Message :=
  [("timestamp", .msg []), ("node_id", .str "6f1c2e0a-3b7d-4c55-9a21-0d8e4f6b7a90"),
   ("alert", .msg [("alert_id", .str "01ARZ3NDEKTSV4RRFFQ69G5FAV"),
     ("associated_file", .msg file)])]

theorem validate_covers_file :
    ∃ m : SapientMessage, Mandatory schema .SapientMessage m.fields ↔
      ∀ t c, Sub schema .SapientMessage m.fields t c →
        ∀ t' c', Sub schema t c t' c' → Mandatory schema t' c' :=
  ⟨⟨fileAlert [("type", .str "image"), ("url", .str "http://10.0.0.1/a.png")], by decide⟩,
    validate_covers _ (by decide)⟩

/-- An alert whose associated file has neither a type nor an address passes. -/
theorem validate_misses_file :
    ∃ m : SapientMessage, validate m.fields = [] ∧
      ¬ Mandatory schema .SapientMessage m.fields := by
  refine ⟨⟨fileAlert [], by decide⟩, by decide, fun h ↦ ?_⟩
  have halert : Sub schema .SapientMessage (fileAlert []) .Alert
      [("alert_id", .str "01ARZ3NDEKTSV4RRFFQ69G5FAV"), ("associated_file", .msg [])] :=
    ⟨⟨"alert", .message .Alert, .member "content", []⟩, by decide, rfl,
      List.mem_cons_of_mem _ (List.mem_cons_of_mem _ List.mem_cons_self)⟩
  have hsub : Sub schema .Alert
      [("alert_id", .str "01ARZ3NDEKTSV4RRFFQ69G5FAV"), ("associated_file", .msg [])]
      .AssociatedFile [] :=
    ⟨⟨"associated_file", .message .AssociatedFile, .repeated, []⟩, by decide, rfl,
      List.mem_cons_of_mem _ List.mem_cons_self⟩
  have hfile : Inside schema .SapientMessage (fileAlert []) .AssociatedFile [] :=
    .sub halert (.sub hsub .self)
  obtain ⟨v, hv, -⟩ := (h _ _ hfile).fields ⟨"type", .string, .optional, [.is_mandatory]⟩
    (by decide) (by decide)
  exact List.not_mem_nil hv

end SensorFusion.Sapient
