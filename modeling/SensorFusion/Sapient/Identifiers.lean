import SensorFusion.Python.Hex
import SensorFusion.Python.Lines
import SensorFusion.Sapient.Coverage

/-!
# Identifiers

`_is_valid_uuid` takes what `uuid.UUID` takes, and `_is_valid_ulid` what a pattern ending in a
dollar matches; both let through more than the textual forms of a UUID and a ULID.  `validate`
asks them about the flagged fields of a message and of its content, unless these are empty, and
about none that is nested further inside.
-/

namespace SensorFusion.Sapient

open Proto Text

/-! ## The textual forms -/

/-- Five groups of characters with hyphens between them. -/
def Hyphenated (s : Text) : Prop := (split '-' s).map List.length = [8, 4, 4, 4, 12]

/-- The textual form of a UUID. -/
def IsUuid (s : String) : Prop :=
  Hyphenated s.toList ∧ ∀ c ∈ s.toList, c = '-' ∨ digit? 16 c ≠ none

/-- The textual form of a ULID. -/
def IsUlid (s : String) : Prop :=
  s.toList.length = 26 ∧ (∀ c ∈ s.toList.head?, '0' ≤ c ∧ c ≤ '7') ∧
    ∀ c ∈ s.toList, isCrockford c = true

theorem length_filter_of_hyphenated {s : Text} (h : Hyphenated s) :
    (s.filter (· ≠ '-')).length = 32 := by
  rw [← sum_length_split, h]
  rfl

/-- What `uuid.UUID` hands to `int`. -/
def uuidHex (s : Text) : Text :=
  remove ['-'] (stripBy (fun c ↦ c == '{' || c == '}') (remove "uuid:".toList
    (remove "urn:".toList s)))

theorem isValidUuid_iff (s : String) : isValidUuid s = true ↔
    (uuidHex s.toList).length = 32 ∧ ∃ n, int16? (uuidHex s.toList) = some n ∧
      0 ≤ n ∧ n < 2 ^ 128 := by
  have hdash : "-".toList = ['-'] := rfl
  unfold isValidUuid uuidHex
  dsimp only
  rw [hdash, Bool.and_eq_true, decide_eq_true_iff]
  refine and_congr_right fun _ ↦ ?_
  generalize int16? _ = o
  cases o with
  | none => exact iff_of_false Bool.false_ne_true fun ⟨n, hn, _⟩ ↦ (Option.some_ne_none n) hn.symm
  | some n =>
      rw [decide_eq_true_iff]
      exact ⟨fun h ↦ ⟨n, rfl, h⟩, fun ⟨m, hm, h⟩ ↦ Option.some.inj hm ▸ h⟩

/-- Nothing but hyphens is taken out of a text with five groups that leaves 32 characters. -/
theorem uuidHex_of_hyphenated {s : Text} (hs : Hyphenated s) (hlen : (uuidHex s).length = 32) :
    uuidHex s = s.filter (· ≠ '-') := by
  have hsub : List.Sublist (uuidHex s) (s.filter (· ≠ '-')) := by
    rw [uuidHex, remove_singleton]
    exact List.Sublist.filter _ ((stripBy_sublist _ _).trans
      ((remove_sublist _ _).trans (remove_sublist _ _)))
  exact hsub.eq_of_length (hlen.trans (length_filter_of_hyphenated hs).symm)

/-- Nothing but hyphens is taken out of hexadecimal digits and hyphens. -/
theorem uuidHex_of_hexDigits {s : Text} (hs : ∀ c ∈ s, c = '-' ∨ digit? 16 c ≠ none) :
    uuidHex s = s.filter (· ≠ '-') := by
  have hno {c : Char} (hdash : c ≠ '-') (hc : digit? 16 c = none) : c ∉ s :=
    fun hmem ↦ (hs c hmem).elim hdash fun h ↦ h hc
  have hurn : remove "urn:".toList s = s := remove_of_notMem (hno (by decide) (by decide))
  have huuid : remove "uuid:".toList s = s := remove_of_notMem (hno (by decide) (by decide))
  have hbraces : stripBy (fun c ↦ c == '{' || c == '}') s = s := by
    refine stripBy_eq_self fun c hc ↦ ?_
    rw [Bool.or_eq_false_iff, beq_eq_false_iff_ne, beq_eq_false_iff_ne]
    constructor
    · rintro rfl
      exact hno (by decide) (by decide) hc
    · rintro rfl
      exact hno (by decide) (by decide) hc
  rw [uuidHex, hurn, huuid, hbraces, remove_singleton]

/-- A text is a UUID if and only if it passes, has its hyphens in their places, and has nothing
in it that only `int` makes something of. -/
theorem isUuid_iff (s : String) : IsUuid s ↔ isValidUuid s = true ∧ Hyphenated s.toList ∧
    ∀ c ∈ s.toList, IsPlain c := by
  rw [isValidUuid_iff]
  constructor
  · rintro ⟨hhyphens, hdigits⟩
    have hhex := uuidHex_of_hexDigits hdigits
    have hlen := length_filter_of_hyphenated hhyphens
    have hall : ∀ c ∈ s.toList.filter (· ≠ '-'), digit? 16 c ≠ none := by
      intro c hc
      obtain ⟨hmem, hdash⟩ := List.mem_filter.mp hc
      exact (hdigits c hmem).resolve_left (of_decide_eq_true hdash)
    obtain ⟨v, hv, hlt⟩ := nat?_of_hexDigits (List.ne_nil_of_length_pos (by omega)) hall
    rw [hlen] at hlt
    refine ⟨⟨by rw [hhex, hlen], v, ?_, by positivity, by exact_mod_cast hlt⟩, hhyphens, ?_⟩
    · rw [hhex, int16?_of_hexDigits hall, hv]
      rfl
    · intro c hc
      rcases hdigits c hc with rfl | hdigit
      · decide
      · exact isPlain_of_hexDigit hdigit
  · rintro ⟨⟨hlen, n, hn, -⟩, hhyphens, hplain⟩
    rw [uuidHex_of_hyphenated hhyphens hlen] at hn
    refine ⟨hhyphens, fun c hc ↦ or_iff_not_imp_left.mpr fun hdash ↦ ?_⟩
    refine hexDigits_of_int16? (fun d hd ↦ hplain d (List.mem_of_mem_filter hd)) ?_ hn c ?_
    · exact fun hmem ↦ absurd (List.of_mem_filter hmem) (by decide)
    · exact List.mem_filter.mpr ⟨hc, decide_eq_true hdash⟩

/-! ## What passes for a UUID -/

section Uuid

variable {s : Text}

theorem length_of_uuid (h : isValidUuid (String.ofList s) = true) : 32 ≤ s.length := by
  rw [isValidUuid_iff, String.toList_ofList] at h
  rw [← h.1, uuidHex, remove_singleton]
  exact ((List.filter_sublist.trans (stripBy_sublist _ _)).trans
    ((remove_sublist _ _).trans (remove_sublist _ _))).length_le

/-- What `int` is given has no character that it cannot read. -/
theorem isHexLiteral_of_uuidHex (h : isValidUuid (String.ofList s) = true) {c : Char}
    (hc : c ∈ uuidHex s) : isCSpace (toAscii c) = true ∨ IsHexLiteral (toAscii c) := by
  rw [isValidUuid_iff, String.toList_ofList] at h
  obtain ⟨-, n, hn, -⟩ := h
  exact isHexLiteral_of_int16? hn hc

/-- The characters of what passes for a UUID. -/
theorem mem_of_uuid (h : isValidUuid (String.ofList s) = true) {c : Char} (hc : c ∈ s) :
    (isCSpace (toAscii c) = true ∨ IsHexLiteral (toAscii c)) ∨ c ∈ "urn:id\x7b\x7d-".toList := by
  by_contra hno
  rw [not_or] at hno
  have hne {d : Char} (hd : d ∈ "urn:id\x7b\x7d-".toList) : c ≠ d := fun heq ↦ hno.2 (heq ▸ hd)
  have hurn : c ∈ remove "urn:".toList s := by
    refine (mem_remove hc).resolve_left fun hmem ↦ hno.2 ?_
    have hsub : "urn:".toList ⊆ "urn:id\x7b\x7d-".toList := by decide
    exact hsub hmem
  have huuid : c ∈ remove "uuid:".toList (remove "urn:".toList s) := by
    refine (mem_remove hurn).resolve_left fun hmem ↦ hno.2 ?_
    have hsub : "uuid:".toList ⊆ "urn:id\x7b\x7d-".toList := by decide
    exact hsub hmem
  refine hno.1 (isHexLiteral_of_uuidHex h ?_)
  rw [uuidHex, remove_singleton, List.mem_filter]
  refine ⟨mem_stripBy huuid ?_, decide_eq_true (hne (by decide))⟩
  rw [Bool.or_eq_false_iff, beq_eq_false_iff_ne, beq_eq_false_iff_ne]
  exact ⟨hne (by decide), hne (by decide)⟩

/-- Two characters that are neither taken out nor braces stay in front. -/
theorem uuidHex_cons {c d : Char} (hc : ¬ (c = 'u' ∧ (d = 'r' ∨ d = 'u'))) (hd : d ≠ 'u')
    (hbrace : c ≠ '{' ∧ c ≠ '}') :
    ∃ t, uuidHex (c :: d :: s) =
      remove ['-'] (rstripBy (fun c ↦ c == '{' || c == '}') (c :: d :: t)) := by
  have hkeep {e f : Char} {sub s : Text} (he : ¬ (c = e ∧ d = f)) (hde : d ≠ e) :
      remove (e :: f :: sub) (c :: d :: s) = c :: d :: remove (e :: f :: sub) s := by
    rw [remove_cons, remove_cons_of_ne hde]
    rw [List.cons_prefix_cons, List.cons_prefix_cons]
    exact fun hpre ↦ he ⟨hpre.1.symm, hpre.2.1.symm⟩
  have hurn : remove "urn:".toList (c :: d :: s) = c :: d :: remove "urn:".toList s :=
    hkeep (fun h ↦ hc ⟨h.1, .inl h.2⟩) hd
  have huuid (s : Text) : remove "uuid:".toList (c :: d :: s) = c :: d :: remove "uuid:".toList s :=
    hkeep (fun h ↦ hc ⟨h.1, .inr h.2⟩) hd
  refine ⟨remove "uuid:".toList (remove "urn:".toList s), ?_⟩
  have hdrop : ¬ (c == '{' || c == '}') = true := by simpa using hbrace
  rw [uuidHex, hurn, huuid, stripBy, List.dropWhile_cons, if_neg hdrop]

/-- A closing brace behind a digit stays in the digits. -/
theorem not_uuid_digit_brace : isValidUuid (String.ofList ('D' :: '}' :: s)) ≠ true := by
  intro h
  obtain ⟨t, ht⟩ := @uuidHex_cons s 'D' '}' (by decide) (by decide) (by decide)
  have hbrace : '}' ∉ uuidHex ('D' :: '}' :: s) := fun hmem ↦
    absurd (isHexLiteral_of_uuidHex h hmem) (by decide)
  have hlen := ((isValidUuid_iff _).mp h).1
  rw [String.toList_ofList] at hlen
  rw [ht, remove_singleton] at hbrace hlen
  rw [rstripBy] at hbrace hlen
  rcases hr : List.rdropWhile (fun c ↦ c == '{' || c == '}') ('D' :: '}' :: t) with
    _ | ⟨a, _ | ⟨b, r⟩⟩
  · rw [hr] at hlen
    cases hlen
  · rw [hr] at hlen
    have hle := List.length_filter_le (fun c ↦ decide (c ≠ '-')) [a]
    rw [hlen] at hle
    exact absurd (hle.trans_eq List.length_singleton) (by decide)
  · have hpre := List.rdropWhile_prefix (p := fun c ↦ c == '{' || c == '}') ('D' :: '}' :: t)
    rw [hr, List.cons_prefix_cons, List.cons_prefix_cons] at hpre
    rw [hr] at hbrace
    refine hbrace (List.mem_filter.mpr ⟨?_, by decide⟩)
    rw [hpre.2.1]
    exact List.mem_cons_of_mem _ List.mem_cons_self

/-- A `u` in front of a hexadecimal digit stays in the digits. -/
theorem not_uuid_u {d : Char} (hd : d ≠ 'r' ∧ d ≠ 'u') :
    isValidUuid (String.ofList ('u' :: d :: s)) ≠ true := by
  intro h
  obtain ⟨t, ht⟩ := @uuidHex_cons s 'u' d (fun h ↦ h.2.elim hd.1 hd.2) hd.2 (by decide)
  have hu : 'u' ∉ uuidHex ('u' :: d :: s) := fun hmem ↦
    absurd (isHexLiteral_of_uuidHex h hmem) (by decide)
  rw [ht, remove_singleton, List.mem_filter, not_and] at hu
  refine absurd (hu ?_) (by decide)
  have hmem := @mem_stripBy (fun c ↦ c == '{' || c == '}') ('u' :: d :: t) 'u'
    List.mem_cons_self rfl
  exact hmem

end Uuid

theorem isCrockford_of_le {c : Char} (h₀ : '0' ≤ c) (h₇ : c ≤ '7') : isCrockford c = true := by
  have h₉ : c ≤ '9' := Char.le_trans h₇ (by decide)
  unfold isCrockford
  rw [decide_eq_true h₀, decide_eq_true h₉]
  rfl

/-- The pattern of a ULID, without the dollar. -/
theorem ulid_pattern_iff (t : Text) :
    (match t with
      | [] => false
      | c :: rest => '0' ≤ c && c ≤ '7' && decide (rest.length = 25) && rest.all isCrockford) =
        true ↔ t.length = 26 ∧ (∀ c ∈ t.head?, '0' ≤ c ∧ c ≤ '7') ∧
          ∀ c ∈ t, isCrockford c = true := by
  cases t with
  | nil => exact iff_of_false Bool.false_ne_true fun h ↦ absurd h.1 (by decide)
  | cons c rest =>
      simp only [Bool.and_eq_true, decide_eq_true_iff, List.all_eq_true, List.length_cons,
        List.head?_cons, Option.mem_some_iff, forall_eq', List.forall_mem_cons]
      constructor
      · rintro ⟨⟨hhead, hlen⟩, hall⟩
        exact ⟨by omega, hhead, isCrockford_of_le hhead.1 hhead.2, hall⟩
      · rintro ⟨hlen, hhead, -, hall⟩
        exact ⟨⟨hhead, by omega⟩, hall⟩

/-- The texts that pass for a ULID are those that are one but for a final newline. -/
theorem isUlid_iff (s : String) :
    IsUlid s ↔ isValidUlid s = true ∧ s.toList.getLast? ≠ some '\n' := by
  have hplain (h : s.toList.getLast? ≠ some '\n') : isValidUlid s = true ↔ IsUlid s := by
    rw [isValidUlid, beforeDollar, if_neg h]
    exact ulid_pattern_iff s.toList
  constructor
  · intro hulid
    have hlast : s.toList.getLast? ≠ some '\n' := by
      intro hlast
      have hnewline := hulid.2.2 '\n' (List.mem_of_getLast? hlast)
      cases hnewline
    exact ⟨(hplain hlast).mpr hulid, hlast⟩
  · rintro ⟨hvalid, hlast⟩
    exact (hplain hlast).mp hvalid

/-! ## Flagged fields -/

/-- The fields of a type that carry an option. -/
def flagged (t : MessageType) (o : FieldOption) : List String :=
  ((schema t).fields.filter fun fd ↦ decide (o ∈ fd.options)).map FieldDesc.name

/-- What is set of the fields flagged as UUIDs satisfies `p`, and of those flagged as ULIDs `q`. -/
structure EachId (p q : String → Prop) (t : MessageType) (m : Message) : Prop where
  uuid : ∀ f ∈ flagged t .is_uuid, ∀ s, (f, .str s) ∈ m → p s
  ulid : ∀ f ∈ flagged t .is_ulid, ∀ s, (f, .str s) ∈ m → q s

/-- The validators' own verdict on each identifier. -/
abbrev Accepted : MessageType → Message → Prop :=
  EachId (isValidUuid · = true) (isValidUlid · = true)

/-- No identifier is set to the empty text. -/
abbrev Filled : MessageType → Message → Prop := EachId (· ≠ "") (· ≠ "")

/-- The hyphens of a UUID stand in their places and nothing in it is only made something of by
`int`, and a ULID does not end in a newline. -/
abbrev Written : MessageType → Message → Prop :=
  EachId (fun s ↦ Hyphenated s.toList ∧ ∀ c ∈ s.toList, IsPlain c)
    fun s ↦ s.toList.getLast? ≠ some '\n'

theorem eachId_sound_iff {t : MessageType} {m : Message} :
    EachId IsUuid IsUlid t m ↔ Written t m ∧ Accepted t m := by
  constructor
  · intro h
    exact ⟨⟨fun f hf s hs ↦ ((isUuid_iff s).mp (h.uuid f hf s hs)).2,
        fun f hf s hs ↦ ((isUlid_iff s).mp (h.ulid f hf s hs)).2⟩,
      ⟨fun f hf s hs ↦ ((isUuid_iff s).mp (h.uuid f hf s hs)).1,
        fun f hf s hs ↦ ((isUlid_iff s).mp (h.ulid f hf s hs)).1⟩⟩
  · rintro ⟨hwritten, haccepted⟩
    exact ⟨fun f hf s hs ↦ (isUuid_iff s).mpr ⟨haccepted.uuid f hf s hs, hwritten.uuid f hf s hs⟩,
      fun f hf s hs ↦ (isUlid_iff s).mpr ⟨haccepted.ulid f hf s hs, hwritten.ulid f hf s hs⟩⟩

/-- The validators are asked about the flagged fields of a message that are not empty. -/
structure Asked (t : MessageType) (m : Message) : Prop where
  uuid : ∀ f ∈ flagged t .is_uuid, m.str f ≠ "" → isValidUuid (m.str f) = true
  ulid : ∀ f ∈ flagged t .is_ulid, m.str f ≠ "" → isValidUlid (m.str f) = true

/-- A singular field reads as what it is set to. -/
theorem str_of_mem {d : MessageDesc MessageType} {m : Message} {f s : String}
    (hs : d.singular m = true)
    (hf : (d.fields.any fun fd ↦ fd.name == f && fd.label != .repeated) = true)
    (hmem : (f, .str s) ∈ m) : m.str f = s := by
  obtain ⟨fd, hfd, heq⟩ := List.any_eq_true.mp hf
  rw [Bool.and_eq_true, beq_iff_eq, bne_iff_ne] at heq
  rw [MessageDesc.singular, Bool.and_eq_true, List.all_eq_true] at hs
  have hone := hs.1 fd hfd
  rw [Bool.or_eq_true, beq_iff_eq, decide_eq_true_iff, or_iff_right heq.2, heq.1] at hone
  obtain ⟨v, hv⟩ : ∃ v, m.lookup f = some v := by
    rw [← Option.isSome_iff_exists, List.lookup_isSome_iff]
    exact ⟨_, hmem, beq_self_eq_true f⟩
  have hv' := Message.mem_of_lookup hv
  have heq := eq_of_countP_le_one hone hv' hmem (beq_self_eq_true f) (beq_self_eq_true f)
  cases heq
  rw [Message.str, hv]

/-- Of what the validators are asked about, they accept what is not empty. -/
theorem accepted_iff_filled {t : MessageType} {m : Message} (hs : (schema t).singular m = true)
    (hsingle : ∀ o ∈ [FieldOption.is_uuid, .is_ulid], ∀ f ∈ flagged t o,
      ((schema t).fields.any fun fd ↦ fd.name == f && fd.label != .repeated) = true)
    (ha : Asked t m) : Accepted t m ↔ Filled t m := by
  constructor
  · intro h
    refine ⟨fun f hf s hmem ↦ ?_, fun f hf s hmem ↦ ne_empty_of_isValidUlid (h.ulid f hf s hmem)⟩
    rintro rfl
    have hempty := h.uuid f hf "" hmem
    revert hempty
    decide
  · intro h
    refine ⟨fun f hf s hmem ↦ ?_, fun f hf s hmem ↦ ?_⟩
    · have hstr := str_of_mem hs (hsingle _ (by decide) f hf) hmem
      rw [← hstr]
      exact ha.uuid f hf (hstr ▸ h.uuid f hf s hmem)
    · have hstr := str_of_mem hs (hsingle _ (by decide) f hf) hmem
      rw [← hstr]
      exact ha.ulid f hf (hstr ▸ h.ulid f hf s hmem)

/-! ## What the validators are asked -/

theorem err_unless_empty_iff {s msg : String} {p : String → Bool} :
    (if s != "" then err (p s) msg else []) = [] ↔ (s ≠ "" → p s = true) := by
  by_cases hs : s = ""
  · rw [if_neg (by simpa using hs)]
    exact iff_of_true rfl fun h ↦ absurd hs h
  · rw [if_pos (by simpa using hs), err_eq_nil_iff]
    exact ⟨fun h _ ↦ h, fun h ↦ h hs⟩

/-- A type without flagged fields. -/
theorem asked_of_nil {t : MessageType} {m : Message}
    (h : flagged t .is_uuid = [] ∧ flagged t .is_ulid = []) : Asked t m where
  uuid := by
    rw [h.1]
    exact fun f hf ↦ absurd hf List.not_mem_nil
  ulid := by
    rw [h.2]
    exact fun f hf ↦ absurd hf List.not_mem_nil

/-- A type with ULIDs only. -/
theorem asked_of_ulid {t : MessageType} {m : Message} (h : flagged t .is_uuid = [])
    (hulid : ∀ f ∈ flagged t .is_ulid, m.str f ≠ "" → isValidUlid (m.str f) = true) :
    Asked t m where
  uuid := by
    rw [h]
    exact fun f hf ↦ absurd hf List.not_mem_nil
  ulid := hulid

theorem asked_status_report {s : Message} (h : validateStatusReport s = []) :
    Asked .StatusReport s := by
  simp only [validateStatusReport, List.append_eq_nil_iff, err_eq_nil_iff,
    err_unless_empty_iff] at h
  obtain ⟨⟨⟨⟨hreport, -⟩, -⟩, -⟩, htask⟩ := h
  refine asked_of_ulid rfl ?_
  show ∀ f ∈ ["report_id", "active_task_id"], _
  simp only [List.forall_mem_cons, List.not_mem_nil, false_imp_iff, implies_true, and_true]
  exact ⟨fun _ ↦ hreport, htask⟩

theorem asked_detection_report {d : Message} (h : validateDetectionReport d = []) :
    Asked .DetectionReport d := by
  simp only [validateDetectionReport, List.append_eq_nil_iff, err_eq_nil_iff,
    err_unless_empty_iff] at h
  obtain ⟨⟨⟨⟨⟨hreport, hobject⟩, htask⟩, -⟩, -⟩, -⟩ := h
  refine asked_of_ulid rfl ?_
  show ∀ f ∈ ["report_id", "object_id", "task_id"], _
  simp only [List.forall_mem_cons, List.not_mem_nil, false_imp_iff, implies_true, and_true]
  exact ⟨fun _ ↦ hreport, fun _ ↦ hobject, htask⟩

theorem asked_task {t : Message} (h : validateTask t = []) : Asked .Task t := by
  simp only [validateTask, List.append_eq_nil_iff, err_eq_nil_iff] at h
  exact asked_of_ulid rfl (List.forall_mem_singleton.mpr fun _ ↦ h.1)

theorem asked_task_ack {ta : Message} (h : validateTaskAck ta = []) : Asked .TaskAck ta := by
  simp only [validateTaskAck, List.append_eq_nil_iff, err_eq_nil_iff] at h
  exact asked_of_ulid rfl (List.forall_mem_singleton.mpr fun _ ↦ h.1)

theorem asked_alert {a : Message} (h : validateAlert a = []) : Asked .Alert a := by
  simp only [validateAlert, List.append_eq_nil_iff, err_eq_nil_iff, err_unless_empty_iff] at h
  obtain ⟨⟨⟨halert, -⟩, -⟩, hregion⟩ := h
  refine asked_of_ulid rfl ?_
  show ∀ f ∈ ["alert_id", "region_id"], _
  simp only [List.forall_mem_cons, List.not_mem_nil, false_imp_iff, implies_true, and_true]
  exact ⟨fun _ ↦ halert, hregion⟩

theorem asked_alert_ack {aa : Message} (h : validateAlertAck aa = []) : Asked .AlertAck aa := by
  simp only [validateAlertAck, List.append_eq_nil_iff, err_eq_nil_iff] at h
  exact asked_of_ulid rfl (List.forall_mem_singleton.mpr fun _ ↦ h.1)

theorem asked_content {m : Message} {f : String} {t : MessageType} (ht : (f, t) ∈ CONTENT)
    (h : validateContent m (some f) = []) : Asked t (m.sub f) := by
  simp only [CONTENT, List.mem_cons, Prod.mk.injEq, List.not_mem_nil, or_false] at ht
  rcases ht with ⟨rfl, rfl⟩ | ⟨rfl, rfl⟩ | ⟨rfl, rfl⟩ | ⟨rfl, rfl⟩ | ⟨rfl, rfl⟩ | ⟨rfl, rfl⟩ |
    ⟨rfl, rfl⟩ | ⟨rfl, rfl⟩ | ⟨rfl, rfl⟩
  · exact asked_of_nil ⟨rfl, rfl⟩
  · exact asked_of_nil ⟨rfl, rfl⟩
  · exact asked_status_report h
  · exact asked_detection_report h
  · exact asked_task h
  · exact asked_task_ack h
  · exact asked_alert h
  · exact asked_alert_ack h
  · exact asked_of_nil ⟨rfl, rfl⟩

theorem asked_message {m : Message} (h : validate m = []) : Asked .SapientMessage m := by
  simp only [validate, List.append_eq_nil_iff, err_eq_nil_iff, err_unless_empty_iff,
    Bool.and_eq_true] at h
  obtain ⟨⟨⟨⟨-, -, hnode⟩, hdestination⟩, -⟩, -⟩ := h
  refine ⟨?_, fun f hf ↦ absurd hf List.not_mem_nil⟩
  show ∀ f ∈ ["node_id", "destination_id"], _
  simp only [List.forall_mem_cons, List.not_mem_nil, false_imp_iff, implies_true, and_true]
  exact ⟨fun _ ↦ hnode, hdestination⟩

/-! ## Whole messages -/

theorem single_content : ∀ e ∈ CONTENT, ∀ o ∈ [FieldOption.is_uuid, .is_ulid], ∀ f ∈ flagged e.2 o,
    ((schema e.2).fields.any fun fd ↦ fd.name == f && fd.label != .repeated) = true := by
  decide

theorem kind_content : ∀ e ∈ CONTENT, ((schema .SapientMessage).fields.find? fun fd ↦
    fd.name == e.1).map FieldDesc.kind = some (.message e.2) := by
  decide

/-- Of a message that passes, the identifiers are accepted that are not empty. -/
theorem accepted_message {m : SapientMessage} (h : validate m.fields = []) :
    Accepted .SapientMessage m.fields ↔ Filled .SapientMessage m.fields :=
  accepted_iff_filled m.conforms.singular (by decide) (asked_message h)

/-- And so are those of its content. -/
theorem accepted_sub {m : SapientMessage} (h : validate m.fields = []) {t : MessageType}
    {c : Message} (hsub : Sub schema .SapientMessage m.fields t c) :
    Accepted t c ↔ Filled t c := by
  rcases sub_cases hsub with rfl | ⟨f, hmember, hmem, ht⟩
  · have hnone (p q : String → Prop) : EachId p q .Timestamp c :=
      ⟨fun f hf ↦ absurd hf List.not_mem_nil, fun f hf ↦ absurd hf List.not_mem_nil⟩
    exact iff_of_true (hnone _ _) (hnone _ _)
  · obtain ⟨hcontent, hlookup⟩ := whichOneof_of_mem m.conforms.singular
      (o := ⟨"content", [.is_mandatory]⟩) List.mem_cons_self hmem hmember
    have hvalid : validateContent m.fields (some f) = [] := by
      rw [← hcontent]
      exact (List.append_eq_nil_iff.mp h).2
    have hasked := asked_content ht hvalid
    rw [Message.sub, hlookup] at hasked
    have hconforms := conforms_of_mem m.conforms hmem (kind_content _ ht)
    exact accepted_iff_filled hconforms.singular (single_content _ ht) hasked

/-- In a message that passes, all flagged fields hold what their flags say if and only if none
is written in a way that only the validators make something of, none in the message and its
content is empty, and the validators would accept those that they do not look at. -/
theorem validate_ids_iff (m : SapientMessage) (h : validate m.fields = []) :
    (∀ t' m', Inside schema .SapientMessage m.fields t' m' → EachId IsUuid IsUlid t' m') ↔
      (∀ t' m', Inside schema .SapientMessage m.fields t' m' → Written t' m') ∧
      Filled .SapientMessage m.fields ∧
      ∀ t c, Sub schema .SapientMessage m.fields t c → Filled t c ∧
        ∀ t₁ c₁, Sub schema t c t₁ c₁ → ∀ t' c', Inside schema t₁ c₁ t' c' → Accepted t' c' := by
  have hlevels : (∀ t' m', Inside schema .SapientMessage m.fields t' m' → Accepted t' m') ↔
      Accepted .SapientMessage m.fields ∧
      ∀ t c, Sub schema .SapientMessage m.fields t c → Accepted t c ∧
        ∀ t₁ c₁, Sub schema t c t₁ c₁ → ∀ t' c', Inside schema t₁ c₁ t' c' → Accepted t' c' := by
    rw [forall_inside_iff]
    exact and_congr_right fun _ ↦ forall₃_congr fun t c _ ↦ forall_inside_iff
  have hfilled : (∀ t' m', Inside schema .SapientMessage m.fields t' m' → Accepted t' m') ↔
      Filled .SapientMessage m.fields ∧
      ∀ t c, Sub schema .SapientMessage m.fields t c → Filled t c ∧
        ∀ t₁ c₁, Sub schema t c t₁ c₁ → ∀ t' c', Inside schema t₁ c₁ t' c' → Accepted t' c' := by
    rw [hlevels, accepted_message h]
    exact and_congr_right fun _ ↦ forall₃_congr fun t c hsub ↦
      and_congr_left fun _ ↦ accepted_sub h hsub
  rw [← hfilled]
  constructor
  · intro hsound
    exact ⟨fun t' m' hi ↦ (eachId_sound_iff.mp (hsound t' m' hi)).1,
      fun t' m' hi ↦ (eachId_sound_iff.mp (hsound t' m' hi)).2⟩
  · rintro ⟨hwritten, haccepted⟩ t' m' hi
    exact eachId_sound_iff.mpr ⟨hwritten t' m' hi, haccepted t' m' hi⟩

/-- An alert with an identifier. -/
def alertWith (alert_id : String) : Message :=
  [("timestamp", .msg []), ("node_id", .str "6f1c2e0a-3b7d-4c55-9a21-0d8e4f6b7a90"),
   ("alert", .msg [("alert_id", .str alert_id)])]

theorem validate_ids_iff_alert : ∃ m : SapientMessage, validate m.fields = [] ∧
    ((∀ t' m', Inside schema .SapientMessage m.fields t' m' → EachId IsUuid IsUlid t' m') ↔
      (∀ t' m', Inside schema .SapientMessage m.fields t' m' → Written t' m') ∧
      Filled .SapientMessage m.fields ∧
      ∀ t c, Sub schema .SapientMessage m.fields t c → Filled t c ∧
        ∀ t₁ c₁, Sub schema t c t₁ c₁ → ∀ t' c', Inside schema t₁ c₁ t' c' → Accepted t' c') :=
  ⟨⟨alertWith "01ARZ3NDEKTSV4RRFFQ69G5FAV", by decide⟩, by decide, validate_ids_iff _ (by decide)⟩

/-- A ULID that ends in a newline passes. -/
theorem newline_passes : ∃ m : SapientMessage, validate m.fields = [] ∧
    ¬ ∀ t' m', Inside schema .SapientMessage m.fields t' m' → EachId IsUuid IsUlid t' m' := by
  refine ⟨⟨alertWith "01ARZ3NDEKTSV4RRFFQ69G5FAV\n", by decide⟩, by decide, fun h ↦ ?_⟩
  have halert : Sub schema .SapientMessage (alertWith "01ARZ3NDEKTSV4RRFFQ69G5FAV\n") .Alert
      [("alert_id", .str "01ARZ3NDEKTSV4RRFFQ69G5FAV\n")] :=
    ⟨⟨"alert", .message .Alert, .member "content", []⟩, by decide, rfl,
      List.mem_cons_of_mem _ (List.mem_cons_of_mem _ List.mem_cons_self)⟩
  have hulid := (h _ _ (.sub halert .self)).ulid "alert_id" List.mem_cons_self _ List.mem_cons_self
  exact absurd hulid.1 (by decide)

/-! What else passes, and what does not. -/

example : isValidUuid "{urn:uuid:+6_F1C2E0A-3b7d4c559a210d8e4f6b70-}" = true := by decide +kernel

example : isValidUuid "6f1c2e0a-3b7d-4c55-9a21-0d8e4f6b7a9g" = false := by decide +kernel

end SensorFusion.Sapient
