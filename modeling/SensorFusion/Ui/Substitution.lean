import SensorFusion.Lib.JsonText
import SensorFusion.Sapient.Identifiers
import SensorFusion.Ui.Rendering

/-!
# What is put into a template

`_substitute` puts the values into the text as they are, without escapes.  `uuid.UUID` takes more
than UUIDs: blanks around the digits, a line break among them, and any number of braces in front
and behind.  A reader of templates takes a placeholder for a value of its kind; a text that is
JSON with sample values stays JSON just when the values that are put in fit where they are put.
-/

namespace SensorFusion.Ui

open JsonText Sapient Text

variable {M N : Type}

/-! ## Parts -/

/-- A letter of a template, or the value that is put in the place of a placeholder. -/
inductive Part where
  | letter (c : Char)
  | value (k : Kind) (v : Text)

namespace Part

/-- What the part is in the template. -/
def source : Part → Text
  | letter c => [c]
  | value k _ => placeholder k

/-- What the part is in the result. -/
def text : Part → Text
  | letter c => [c]
  | value _ v => v

end Part

/-- What a text is rendered with. -/
structure Filling (M : Type) where
  env : Env M
  node_id : Text
  gps : Coordinate → SignedFloat

namespace Filling

variable (f : Filling M)

/-- The value of a placeholder, when `n` ULIDs have been drawn. -/
def value (n : ℕ) (k : Kind) : Text := repl f.env f.node_id f.gps n k

def fill (n : ℕ) (ps : List (Piece Kind Char)) : Text := Ui.fill f.env f.node_id f.gps n ps

def substitute (text : Text) : Text := Ui.substitute f.env f.node_id f.gps text

/-- How many ULIDs are drawn behind some pieces. -/
def drawn : ℕ → List (Piece Kind Char) → ℕ
  | n, [] => n
  | n, .letter _ :: ps => drawn n ps
  | n, .hole k :: ps => drawn (if k = .ulid then n + 1 else n) ps

def parts : ℕ → List (Piece Kind Char) → List Part
  | _, [] => []
  | n, .letter c :: ps => .letter c :: parts n ps
  | n, .hole k :: ps => .value k (f.value n k) :: parts (if k = .ulid then n + 1 else n) ps

theorem fill_eq (n : ℕ) (ps : List (Piece Kind Char)) :
    f.fill n ps = (f.parts n ps).flatMap Part.text := by
  induction ps generalizing n with
  | nil => rfl
  | cons p ps ih =>
      cases p with
      | letter c => exact congrArg (c :: ·) (ih n)
      | hole k => exact congrArg (f.value n k ++ ·) (ih _)

theorem parts_append (n : ℕ) (ps qs : List (Piece Kind Char)) :
    f.parts n (ps ++ qs) = f.parts n ps ++ f.parts (drawn n ps) qs := by
  induction ps generalizing n with
  | nil => rfl
  | cons p ps ih =>
      cases p with
      | letter c => exact congrArg (_ :: ·) (ih n)
      | hole k => exact congrArg (_ :: ·) (ih _)

/-- The parts of a template are the whole template. -/
theorem source_parts (n : ℕ) (text : Text) :
    (f.parts n (placeholders.pieces text)).flatMap Part.source = text := by
  have hsource (ps : List (Piece Kind Char)) : (f.parts n ps).flatMap Part.source =
      ps.flatMap placeholders.source := by
    induction ps generalizing n with
    | nil => rfl
    | cons p ps ih =>
        cases p with
        | letter c => exact congrArg (c :: ·) (ih n)
        | hole k => exact congrArg (placeholder k ++ ·) (ih _)
  exact (hsource _).trans (Marks.flatMap_pieces text)

theorem value_of_mem {n : ℕ} {ps : List (Piece Kind Char)} {k : Kind} {v : Text}
    (h : .value k v ∈ f.parts n ps) : ∃ m, v = f.value m k := by
  induction ps generalizing n with
  | nil => exact absurd h List.not_mem_nil
  | cons p ps ih =>
      cases p with
      | letter c => exact ih ((List.mem_cons.mp h).resolve_left nofun)
      | hole k' =>
          rcases List.mem_cons.mp h with heq | h
          · cases heq
            exact ⟨n, rfl⟩
          · exact ih h

end Filling

/-! ## Kinds of values -/

/-- `strftime("%Y-%m-%dT%H:%M:%S.%fZ")` puts digits in the place of the zeros. -/
def IsNow (v : Text) : Prop :=
  List.Forall₂ (fun p c ↦ if p = '0' then c.isDigit = true else c = p)
    "0000-00-00T00:00:00.000000Z".toList v

/-- The values that the code puts in the place of a placeholder. -/
def IsValue : Kind → Text → Prop
  | .now, v => IsNow v
  | .ulid, v => IsUlid (String.ofList v)
  | .node_id, v => isValidUuid (String.ofList v) = true
  | .gps c, v => ∃ x : SignedFloat, x.IsFinite ∧ v = x.format c.digits

/-- The values that stand for a kind.  A sample ULID is not to be taken for a number. -/
def IsSample : Kind → Text → Prop
  | .now, v => IsNow v
  | .ulid, v => IsUlid (String.ofList v) ∧ ∃ c ∈ v, ¬ Reader.IsBare c
  | .node_id, v => IsUuid (String.ofList v)
  | .gps c, v => ∃ x : SignedFloat, x.IsFinite ∧ v = x.format c.digits

theorem IsSample.isValue {k : Kind} {v : Text} (h : IsSample k v) : IsValue k v := by
  cases k with
  | now => exact h
  | ulid => exact h.1
  | node_id => exact ((isUuid_iff _).mp h).1
  | gps c => exact h

/-! ## The characters of the values -/

/-- A value that ends no string, and begins no escape with its first letters. -/
structure IsInert (v : Text) : Prop where
  quote : '"' ∉ v
  slash : '\\' ∉ v
  length : 4 ≤ v.length
  u : ∀ c s, v = 'u' :: c :: s → c.isHexDigit = false

theorem exists_of_forall₂ {α β : Type} {R : α → β → Prop} {as : List α} {bs : List β}
    (h : List.Forall₂ R as bs) {b : β} (hb : b ∈ bs) : ∃ a ∈ as, R a b := by
  induction h with
  | nil => exact absurd hb List.not_mem_nil
  | @cons a b' as bs hab _ ih =>
      rcases List.mem_cons.mp hb with rfl | hb
      · exact ⟨a, List.mem_cons_self, hab⟩
      · obtain ⟨a', ha', hR⟩ := ih hb
        exact ⟨a', List.mem_cons_of_mem a ha', hR⟩

theorem mem_of_isNow {v : Text} (h : IsNow v) {c : Char} (hc : c ∈ v) :
    c.isDigit = true ∨ c ∈ "-T:.Z".toList := by
  obtain ⟨p, hp, hR⟩ := exists_of_forall₂ h hc
  by_cases hzero : p = '0'
  · rw [if_pos hzero] at hR
    exact .inl hR
  · rw [if_neg hzero] at hR
    have hall : "0000-00-00T00:00:00.000000Z".toList.all
        (fun p ↦ p == '0' || "-T:.Z".toList.contains p) = true := by decide
    have hmem := List.all_eq_true.mp hall p hp
    rw [Bool.or_eq_true, beq_iff_eq, List.contains_iff_mem] at hmem
    exact .inr (hR ▸ hmem.resolve_left hzero)

theorem notMem_of_isNow {v : Text} (h : IsNow v) {c : Char} (hdigit : c.isDigit = false)
    (hc : c ∉ "-T:.Z".toList) : c ∉ v := by
  intro hmem
  rcases mem_of_isNow h hmem with hd | hd
  · rw [hdigit] at hd
    cases hd
  · exact hc hd

theorem notMem_of_ulid {v : Text} (h : IsUlid (String.ofList v)) {c : Char}
    (hc : isCrockford c = false) : c ∉ v := by
  intro hmem
  obtain ⟨-, -, hall⟩ := h
  rw [String.toList_ofList] at hall
  rw [hall c hmem] at hc
  cases hc

theorem formatFixed_eq {digits : ℕ} (hdigits : 0 < digits) (q : ℚ) :
    ∃ whole fraction, IsDecimal whole fraction ∧ fraction.length = digits ∧
      formatFixed digits q =
        if q < 0 then '-' :: (whole ++ '.' :: fraction) else whole ++ '.' :: fraction := by
  have hlen := lt_length_fixedDigits digits (fixedUnits digits q)
  have hall := @isDigit_of_mem_fixedDigits digits (fixedUnits digits q)
  have hzero := @whole_fixedDigits digits (fixedUnits digits q)
  unfold formatFixed
  generalize fixedDigits digits (fixedUnits digits q) = ds at *
  refine ⟨ds.take (ds.length - digits), ds.drop (ds.length - digits), ⟨?_, ?_, hzero, ?_, ?_⟩,
    ?_, ?_⟩
  · intro h
    have := congrArg List.length h
    rw [List.length_take, List.length_nil] at this
    omega
  · exact fun c hc ↦ hall c (List.mem_of_mem_take hc)
  · intro h
    have := congrArg List.length h
    rw [List.length_drop, List.length_nil] at this
    omega
  · exact fun c hc ↦ hall c (List.mem_of_mem_drop hc)
  · rw [List.length_drop]
    omega
  · dsimp only
    rw [if_neg hdigits.ne']
    split_ifs <;> simp

/-- A coordinate is written with a point, and with a minus sign if it is negative or a negative
zero. -/
theorem format_eq {digits : ℕ} (hdigits : 0 < digits) {x : SignedFloat} (hx : x.IsFinite) :
    ∃ whole fraction, IsDecimal whole fraction ∧ fraction.length = digits ∧
      x.format digits =
        if x.minus then '-' :: (whole ++ '.' :: fraction) else whole ++ '.' :: fraction := by
  cases x with
  | float x =>
      cases x with
      | fin q =>
          simp only [SignedFloat.format, PyFloat.format, SignedFloat.minus, decide_eq_true_eq]
          exact formatFixed_eq hdigits q
      | _ => exact hx.elim
  | negZero =>
      obtain ⟨whole, fraction, h, hlen, hformat⟩ := formatFixed_eq hdigits 0
      rw [if_neg (lt_irrefl _)] at hformat
      refine ⟨whole, fraction, h, hlen, ?_⟩
      rw [SignedFloat.format, hformat]
      rfl

theorem three_le_digits (c : Coordinate) : 3 ≤ c.digits := by
  cases c <;> decide

theorem mem_of_format {digits : ℕ} (hdigits : 0 < digits) {x : SignedFloat} (hx : x.IsFinite)
    {c : Char} (hc : c ∈ x.format digits) : c.isDigit = true ∨ c = '.' ∨ c = '-' := by
  obtain ⟨whole, fraction, h, -, hformat⟩ := format_eq hdigits hx
  have hdecimal : c ∈ whole ++ '.' :: fraction → c.isDigit = true ∨ c = '.' ∨ c = '-' := by
    intro hc
    rcases List.mem_append.mp hc with hc | hc
    · exact .inl (h.isDigit c hc)
    · exact (List.mem_cons.mp hc).elim (fun hc ↦ .inr (.inl hc))
        fun hc ↦ .inl (h.fraction_isDigit c hc)
  rw [hformat] at hc
  split_ifs at hc
  · exact (List.mem_cons.mp hc).elim (fun hc ↦ .inr (.inr hc)) hdecimal
  · exact hdecimal hc

theorem notMem_format {digits : ℕ} (hdigits : 0 < digits) {x : SignedFloat} (hx : x.IsFinite)
    {c : Char} (hc : c.isDigit = false ∧ c ≠ '.' ∧ c ≠ '-') : c ∉ x.format digits := by
  intro hmem
  rcases mem_of_format hdigits hx hmem with hd | hd
  · rw [hc.1] at hd
    cases hd
  · exact hd.elim hc.2.1 hc.2.2

theorem notMem_of_uuid {v : Text} (h : isValidUuid (String.ofList v) = true) {c : Char}
    (hc : ¬ ((isCSpace (toAscii c) = true ∨ IsHexLiteral (toAscii c)) ∨
      c ∈ "urn:id\x7b\x7d-".toList)) : c ∉ v :=
  fun hmem ↦ hc (mem_of_uuid h hmem)

theorem IsValue.isInert {k : Kind} {v : Text} (h : IsValue k v) : IsInert v := by
  have hu (hno : 'u' ∉ v) : ∀ c s, v = 'u' :: c :: s → c.isHexDigit = false :=
    fun c s heq ↦ absurd (heq ▸ List.mem_cons_self) hno
  cases k with
  | now =>
      refine ⟨notMem_of_isNow h rfl (by decide), notMem_of_isNow h rfl (by decide), ?_,
        hu (notMem_of_isNow h rfl (by decide))⟩
      rw [← List.Forall₂.length_eq h]
      decide
  | ulid =>
      refine ⟨notMem_of_ulid h (by decide), notMem_of_ulid h (by decide), ?_,
        hu (notMem_of_ulid h (by decide))⟩
      have hlen := h.1
      rw [String.toList_ofList] at hlen
      omega
  | node_id =>
      refine ⟨notMem_of_uuid h (by decide), notMem_of_uuid h (by decide),
        le_trans (by decide) (length_of_uuid h), ?_⟩
      rintro c s rfl
      by_contra hhex
      rw [Bool.not_eq_false] at hhex
      refine not_uuid_u ⟨?_, ?_⟩ h
      · rintro rfl
        cases hhex
      · rintro rfl
        cases hhex
  | gps c =>
      obtain ⟨x, hx, rfl⟩ := h
      have hdigits : 0 < c.digits := le_trans (by decide) (three_le_digits c)
      refine ⟨notMem_format hdigits hx (by decide), notMem_format hdigits hx (by decide),
        ?_, hu (notMem_format hdigits hx (by decide))⟩
      obtain ⟨whole, fraction, hdecimal, hlen, hformat⟩ := format_eq hdigits hx
      have hwhole := List.length_pos_iff.mpr hdecimal.ne_nil
      have hthree := three_le_digits c
      rw [hformat]
      split_ifs <;> simp only [List.length_cons, List.length_append] <;> omega

/-! ## A reader of templates -/

/-- Where the reader is behind a value of a kind. -/
def passHole (k : Kind) : Reader → Option Reader
  | ⟨.string isName _, stack⟩ => some ⟨.string isName .plain, stack⟩
  | r =>
      match k with
      | .gps _ => r.passDecimal
      | _ => none

def readPart : Machine Reader Part
  | r, .letter c => r.step c
  | r, .value k _ => passHole k r

/-- A value fits where the reader is.  In a string it completes the escape that it is put into,
if any, and has no control characters; inside of a number it has no sign. -/
def Fits (r : Reader) : Part → Prop
  | .letter _ => True
  | .value _ v =>
      match r.mode with
      | .string _ q => q.Admits v
      | .number _ => v.head? ≠ some '-'
      | _ => True

section Read

variable {k : Kind} {v : Text} {r r' : Reader}

theorem run_inert (h : IsInert v) (isName : Bool) (q : Quoted) (stack : List Frame) :
    Reader.step.run ⟨.string isName q, stack⟩ v = some r' ↔
      r' = ⟨.string isName .plain, stack⟩ ∧ q.Admits v := by
  rw [Reader.run_string h.quote, Option.map_eq_some_iff]
  constructor
  · rintro ⟨q', hq, rfl⟩
    obtain ⟨rfl, hadmits⟩ := (Quoted.run_iff h.quote h.slash h.length h.u).mp hq
    exact ⟨rfl, hadmits⟩
  · rintro ⟨rfl, hadmits⟩
    exact ⟨.plain, (Quoted.run_iff h.quote h.slash h.length h.u).mpr ⟨rfl, hadmits⟩, rfl⟩

theorem passHole_of_isOutside (hr : r.IsOutside) :
    passHole k r = match k with | .gps _ => r.passDecimal | _ => none := by
  obtain ⟨mode, stack⟩ := r
  cases mode with
  | string isName q => exact absurd rfl (hr isName q)
  | _ => rfl

/-- A coordinate outside of strings. -/
theorem run_format {digits : ℕ} (hdigits : 0 < digits) {x : SignedFloat} (hx : x.IsFinite)
    (hr : r.IsOutside) : Reader.step.run r (x.format digits) =
      if r.inNumber = true ∧ x.minus = true then none else r.passDecimal := by
  obtain ⟨whole, fraction, h, -, hformat⟩ := format_eq hdigits hx
  rw [hformat]
  by_cases hq : x.minus = true
  · rw [if_pos hq, Reader.run_neg_decimal h hr]
    simp only [hq, and_true]
  · rw [if_neg hq, Reader.run_decimal h hr, if_neg fun h ↦ hq h.2]

theorem head?_format {digits : ℕ} (hdigits : 0 < digits) {x : SignedFloat} (hx : x.IsFinite) :
    (x.format digits).head? = some '-' ↔ x.minus = true := by
  obtain ⟨whole, fraction, h, -, hformat⟩ := format_eq hdigits hx
  rw [hformat]
  by_cases hq : x.minus = true
  · rw [if_pos hq]
    exact iff_of_true rfl hq
  · rw [if_neg hq]
    refine iff_of_false (fun hhead ↦ ?_) hq
    obtain ⟨c, ds, rfl⟩ := List.exists_cons_of_ne_nil h.ne_nil
    cases hhead
    exact absurd (h.isDigit '-' List.mem_cons_self) (by decide)

theorem fits_format {digits : ℕ} (hdigits : 0 < digits) {x : SignedFloat} (hx : x.IsFinite)
    (hr : r.IsOutside) :
    Fits r (.value k (x.format digits)) ↔ ¬ (r.inNumber = true ∧ x.minus = true) := by
  obtain ⟨mode, stack⟩ := r
  cases mode with
  | string isName q => exact absurd rfl (hr isName q)
  | number n =>
      show (x.format digits).head? ≠ some '-' ↔ ¬ (true = true ∧ x.minus = true)
      rw [Ne, head?_format hdigits hx, and_iff_right rfl]
  | _ => exact iff_of_true trivial fun h ↦ Bool.false_ne_true h.1

/-- Where the template can be read, a value is read just when it fits. -/
theorem run_value (h : IsValue k v) (hpass : passHole k r = some r') {r'' : Reader} :
    Reader.step.run r v = some r'' ↔ r'' = r' ∧ Fits r (.value k v) := by
  by_cases hr : r.IsOutside
  · rw [passHole_of_isOutside hr] at hpass
    cases k with
    | gps c =>
        obtain ⟨x, hx, rfl⟩ := h
        have hdigits : 0 < c.digits := le_trans (by decide) (three_le_digits c)
        rw [run_format hdigits hx hr, fits_format hdigits hx hr]
        dsimp only at hpass
        rw [hpass]
        by_cases hq : r.inNumber = true ∧ x.minus = true
        · rw [if_pos hq]
          exact iff_of_false nofun fun h ↦ h.2 hq
        · rw [if_neg hq, Option.some.injEq, and_iff_left hq, eq_comm]
    | _ => cases hpass
  · obtain ⟨mode, stack⟩ := r
    cases mode with
    | string isName q =>
        cases hpass
        exact run_inert h.isInert isName q stack
    | _ => exact absurd nofun hr

theorem isGroup_of_isUuid {v : Text} (h : IsUuid (String.ofList v)) :
    ∀ c ∈ v, Reader.IsGroup c := by
  intro c hc
  obtain ⟨-, hchars⟩ := h
  rw [String.toList_ofList] at hchars
  refine (hchars c hc).imp_right fun hdigit ↦ ?_
  obtain ⟨n, hn⟩ := Option.ne_none_iff_exists'.mp hdigit
  have hrange := toNat_of_hexDigit hn
  unfold Char.isHexDigit Char.isDigit
  simp only [Bool.or_eq_true, Bool.and_eq_true, decide_eq_true_eq, ge_iff_le,
    UInt32.le_iff_toNat_le]
  have h₀ : '0'.val.toNat = 48 := rfl
  have h₉ : '9'.val.toNat = 57 := rfl
  have ha : 'a'.val.toNat = 97 := rfl
  have hf : 'f'.val.toNat = 102 := rfl
  have hA : 'A'.val.toNat = 65 := rfl
  have hF : 'F'.val.toNat = 70 := rfl
  have hval : c.val.toNat = c.toNat := rfl
  omega

theorem count_of_isUuid {v : Text} (h : IsUuid (String.ofList v)) : v.count '-' = 4 := by
  have hlen := congrArg List.length h.1
  rw [String.toList_ofList, List.length_map, length_split] at hlen
  exact Nat.succ.inj hlen

/-- A sample is read in the places of its kind only. -/
theorem passHole_of_sample (h : IsSample k v) (hrun : Reader.step.run r v = some r') :
    passHole k r = some r' := by
  by_cases hr : r.IsOutside
  · rw [passHole_of_isOutside hr]
    have hforeign {c : Char} (hc : c ∈ v) (hbare : ¬ Reader.IsBare c) : False := by
      rw [Reader.run_eq_none h.isValue.isInert.quote hc hbare hr] at hrun
      cases hrun
    cases k with
    | gps c =>
        obtain ⟨x, hx, rfl⟩ := h
        rw [run_format (le_trans (by decide) (three_le_digits c)) hx hr] at hrun
        split_ifs at hrun
        exact hrun
    | ulid =>
        obtain ⟨-, c, hc, hbare⟩ := h
        exact (hforeign hc hbare).elim
    | now =>
        have hT : 'T' ∈ v := by
          obtain ⟨c, hc, hR⟩ := exists_of_forall₂
            (List.Forall₂.flip
              (R := fun c p : Char ↦ if p = '0' then c.isDigit = true else c = p) h)
            (by decide : 'T' ∈ "0000-00-00T00:00:00.000000Z".toList)
          rw [if_neg (by decide)] at hR
          exact hR ▸ hc
        exact (hforeign hT (by decide)).elim
    | node_id =>
        have hcount := Reader.count_le_two (isGroup_of_isUuid h) hr hrun
        rw [count_of_isUuid h] at hcount
        exact absurd hcount (by decide)
  · obtain ⟨mode, stack⟩ := r
    cases mode with
    | string isName q =>
        rw [((run_inert h.isValue.isInert isName q stack).mp hrun).1]
        rfl
    | _ => exact absurd nofun hr

end Read

/-! ### Whole templates -/

/-- What is read of a text with samples can be read of the template. -/
theorem readPart_of_samples {ps : List Part} (hps : ∀ k v, .value k v ∈ ps → IsSample k v)
    {r r' : Reader} (h : Reader.step.run r (ps.flatMap Part.text) = some r') :
    readPart.run r ps = some r' := by
  induction ps generalizing r with
  | nil => exact h
  | cons p ps ih =>
      rw [List.flatMap_cons, Machine.run_append, Option.bind_eq_some_iff] at h
      obtain ⟨t, ht, hrest⟩ := h
      rw [Machine.run_cons_eq_some]
      refine ⟨t, ?_, ih (fun k v hmem ↦ hps k v (List.mem_cons_of_mem p hmem)) hrest⟩
      cases p with
      | letter c =>
          obtain ⟨t', ht', heq⟩ := Machine.run_cons_eq_some.mp ht
          cases heq
          exact ht'
      | value k v => exact passHole_of_sample (hps k v List.mem_cons_self) ht

/-- Where the template can be read, its result can be read just when the values fit. -/
theorem run_text {ps : List Part} (hps : ∀ k v, .value k v ∈ ps → IsValue k v)
    {r r' : Reader} (h : readPart.run r ps = some r') {r'' : Reader} :
    Reader.step.run r (ps.flatMap Part.text) = some r'' ↔
      r'' = r' ∧ readPart.Meets Fits r ps := by
  induction ps generalizing r with
  | nil =>
      cases h
      exact ⟨fun h ↦ ⟨(Option.some.inj h).symm, trivial⟩, fun h ↦ congrArg some h.1.symm⟩
  | cons p ps ih =>
      obtain ⟨t, ht, hrest⟩ := Machine.run_cons_eq_some.mp h
      have hps' (k : Kind) (v : Text) (hmem : .value k v ∈ ps) :=
        hps k v (List.mem_cons_of_mem p hmem)
      have hp {t' : Reader} : Reader.step.run r p.text = some t' ↔ t' = t ∧ Fits r p := by
        cases p with
        | letter c =>
            have hstep : r.step c = some t := ht
            rw [Part.text, Machine.run_cons, hstep, Option.bind_some]
            exact ⟨fun h ↦ ⟨(Option.some.inj h).symm, trivial⟩, fun h ↦ congrArg some h.1.symm⟩
        | value k v => exact run_value (hps k v List.mem_cons_self) ht
      rw [List.flatMap_cons, Machine.run_append, Option.bind_eq_some_iff, Machine.meets_cons ht]
      constructor
      · rintro ⟨t', ht', hr⟩
        obtain ⟨rfl, hfits⟩ := hp.mp ht'
        obtain ⟨rfl, hmeets⟩ := (ih hps' hrest).mp hr
        exact ⟨rfl, hfits, hmeets⟩
      · rintro ⟨rfl, hfits, hmeets⟩
        exact ⟨t, hp.mpr ⟨rfl, hfits⟩, (ih hps' hrest).mpr ⟨rfl, hmeets⟩⟩

/-- How a template is read does not depend on the values. -/
theorem readPart_parts (f : Filling M) (g : Filling N) (m n : ℕ) (ps : List (Piece Kind Char))
    (r : Reader) : readPart.run r (f.parts m ps) = readPart.run r (g.parts n ps) := by
  induction ps generalizing m n r with
  | nil => rfl
  | cons p ps ih =>
      cases p with
      | letter c =>
          rw [Filling.parts, Filling.parts, Machine.run_cons, Machine.run_cons]
          exact Option.bind_congr fun t _ ↦ ih m n t
      | hole k =>
          rw [Filling.parts, Filling.parts, Machine.run_cons, Machine.run_cons]
          exact Option.bind_congr fun t _ ↦ ih _ _ t

/-! ## Braces -/

def isBrace (c : Char) : Bool := c == '{' || c == '}'

/-- The braces that a value begins with. -/
def leading (v : Text) : Text := v.takeWhile isBrace

/-- The braces that a value ends with. -/
def trailing (v : Text) : Text := v.rtakeWhile isBrace

/-- The letters between two placeholders form none with the braces of the values next to them;
`before` is what stands in front of the parts. -/
def Apart (before : Text) : List Part → Prop
  | [] => ∀ k, ¬ placeholder k <:+: before
  | .letter c :: ps => Apart (before ++ [c]) ps
  | .value _ v :: ps => (∀ k, ¬ placeholder k <:+: before ++ leading v) ∧ Apart (trailing v) ps

section Braces

variable {k : Kind} {v : Text}

theorem prefix_leading {m : Text} (hm : m.all isBrace = true) (h : m <+: v) : m <+: leading v := by
  obtain ⟨rest, rfl⟩ := h
  rw [leading, List.takeWhile_append_of_pos (List.all_eq_true.mp hm)]
  exact List.prefix_append _ _

theorem suffix_trailing {m : Text} (hm : m.all isBrace = true) (h : m <:+ v) :
    m <:+ trailing v := by
  obtain ⟨rest, rfl⟩ := h
  rw [trailing, List.rtakeWhile, List.reverse_append, List.takeWhile_append_of_pos,
    List.reverse_append, List.reverse_reverse]
  · exact List.suffix_append _ _
  · exact fun c hc ↦ List.all_eq_true.mp hm c (List.mem_reverse.mp hc)

/-- A placeholder goes into no value that begins with a digit or a sign and has no brace. -/
theorem placeholder_insert_closed (hbrace : '{' ∉ v)
    (hhead : ∃ c ∈ v.head?, c.isDigit = true ∨ c = '-') (before after : Text) :
    placeholder k <:+: before ++ (v ++ after) ↔
      placeholder k <:+: before ++ leading v ∨ placeholder k <:+: trailing v ++ after := by
  obtain ⟨c, hc, hdigit⟩ := hhead
  have hmem : c ∉ placeholder k := by
    have hall : (placeholder k).all (fun c ↦ !(c.isDigit || c == '-')) = true := by
      rcases k with _ | _ | _ | ⟨_ | _ | _⟩ <;> decide
    intro hmem
    have hno := List.all_eq_true.mp hall c hmem
    rcases hdigit with hdigit | rfl
    · rw [hdigit] at hno
      cases hno
    · cases hno
  have hfirst : c ∈ v := List.mem_of_mem_head? hc
  refine infix_insert_iff (List.takeWhile_prefix _) (List.rtakeWhile_suffix _ _) ?_ ?_ ?_ ?_
    before after
  · exact fun h ↦ hbrace (h.subset List.mem_cons_self)
  · exact fun h ↦ hmem (h.subset hfirst)
  · rintro m₁ m₂ - h₂ hm hpre
    obtain ⟨d, m, rfl⟩ := List.exists_cons_of_ne_nil h₂
    obtain ⟨rest, rfl⟩ := hpre
    obtain rfl : d = c := Option.some.inj hc
    exact absurd (hm ▸ List.mem_append_right m₁ List.mem_cons_self) hmem
  · rintro m₁ m₂ h₁ - hm hsuf
    obtain ⟨d, m, rfl⟩ := List.exists_cons_of_ne_nil h₁
    obtain rfl : '{' = d := (List.cons.inj hm).1
    exact absurd (hsuf.subset List.mem_cons_self) hbrace

/-- Letters of the placeholders that no accepted identifier has. -/
def FOREIGN : List Char := "NUGIOWTLSP".toList

theorem notMem_of_foreign (h : isValidUuid (String.ofList v) = true) {c : Char}
    (hc : c ∈ FOREIGN) : c ∉ v := by
  have hall : FOREIGN.all (fun c ↦ decide (¬ ((isCSpace (toAscii c) = true ∨
      IsHexLiteral (toAscii c)) ∨ c ∈ "urn:id\x7b\x7d-".toList))) = true := by
    decide
  exact notMem_of_uuid h (of_decide_eq_true (List.all_eq_true.mp hall c hc))

/-- What a placeholder can share with the front of an accepted identifier. -/
theorem isBrace_of_tail {m₁ m₂ : Text} (hm : placeholder k = m₁ ++ m₂)
    (hforeign : ∀ c ∈ m₂, c ∉ FOREIGN) : m₂.all isBrace = true ∨ ['D', '}'] <+: m₂ := by
  have hall : (placeholder k).tails.all (fun m ↦
      m.any (FOREIGN.contains ·) || m.all isBrace || ['D', '}'].isPrefixOf m) = true := by
    rcases k with _ | _ | _ | ⟨_ | _ | _⟩ <;> decide
  have hmem := List.all_eq_true.mp hall m₂ ((List.mem_tails _ _).mpr ⟨m₁, hm.symm⟩)
  rw [Bool.or_eq_true, Bool.or_eq_true, List.isPrefixOf_iff_prefix] at hmem
  rcases hmem with (hany | hbraces) | hpre
  · obtain ⟨c, hc, hcontains⟩ := List.any_eq_true.mp hany
    exact absurd (List.contains_iff_mem.mp hcontains) (hforeign c hc)
  · exact .inl hbraces
  · exact .inr hpre

/-- What it can share with the end. -/
theorem isBrace_of_init {m₁ m₂ : Text} (hm : placeholder k = m₁ ++ m₂)
    (hforeign : ∀ c ∈ m₁, c ∉ FOREIGN) : m₁.all isBrace = true := by
  have hall : (placeholder k).inits.all (fun m ↦
      m.any (FOREIGN.contains ·) || m.all isBrace) = true := by
    rcases k with _ | _ | _ | ⟨_ | _ | _⟩ <;> decide
  have hmem := List.all_eq_true.mp hall m₁ ((List.mem_inits _ _).mpr ⟨m₂, hm.symm⟩)
  rw [Bool.or_eq_true] at hmem
  refine hmem.resolve_left fun hany ↦ ?_
  obtain ⟨c, hc, hcontains⟩ := List.any_eq_true.mp hany
  exact hforeign c hc (List.contains_iff_mem.mp hcontains)

theorem placeholder_insert_uuid (h : isValidUuid (String.ofList v) = true) (before after : Text) :
    placeholder k <:+: before ++ (v ++ after) ↔
      placeholder k <:+: before ++ leading v ∨ placeholder k <:+: trailing v ++ after := by
  have hforeign {m : Text} (hm : ∀ c ∈ m, c ∈ v) : ∀ c ∈ m, c ∉ FOREIGN :=
    fun c hc hmem ↦ notMem_of_foreign h hmem (hm c hc)
  refine infix_insert_iff (List.takeWhile_prefix _) (List.rtakeWhile_suffix _ _) ?_ ?_ ?_ ?_
    before after
  · intro hin
    have hbraces := isBrace_of_init (List.append_nil _).symm (hforeign fun c hc ↦ hin.subset hc)
    rcases k with _ | _ | _ | ⟨_ | _ | _⟩ <;> exact absurd hbraces (by decide)
  · intro hover
    have hle := (length_of_uuid h).trans hover.length_le
    rcases k with _ | _ | _ | ⟨_ | _ | _⟩ <;> exact absurd hle (by decide)
  · rintro m₁ m₂ - - hm hpre
    rcases isBrace_of_tail hm (hforeign fun c hc ↦ hpre.subset hc) with hbraces | hD
    · exact prefix_leading hbraces hpre
    · obtain ⟨s, rfl⟩ := hD.trans hpre
      exact absurd h not_uuid_digit_brace
  · rintro m₁ m₂ - - hm hsuf
    exact suffix_trailing (isBrace_of_init hm (hforeign fun c hc ↦ hsuf.subset hc)) hsuf

theorem placeholder_insert {k' : Kind} (h : IsValue k' v) (before after : Text) :
    placeholder k <:+: before ++ (v ++ after) ↔
      placeholder k <:+: before ++ leading v ∨ placeholder k <:+: trailing v ++ after := by
  cases k' with
  | node_id => exact placeholder_insert_uuid h before after
  | now =>
      refine placeholder_insert_closed (notMem_of_isNow h rfl (by decide)) ?_ before after
      cases h with
      | cons hc _ => exact ⟨_, rfl, .inl hc⟩
  | ulid =>
      refine placeholder_insert_closed (notMem_of_ulid h (by decide)) ?_ before after
      obtain ⟨hlen, hhead, -⟩ := h
      rw [String.toList_ofList] at hlen hhead
      obtain ⟨c, s, rfl⟩ := List.exists_cons_of_length_pos (hlen ▸ (by decide : 0 < 26))
      obtain ⟨h₀, h₇⟩ := hhead c rfl
      refine ⟨c, rfl, .inl ?_⟩
      rw [Char.isDigit, Bool.and_eq_true, decide_eq_true_eq, decide_eq_true_eq]
      exact ⟨h₀, Char.le_trans h₇ (by decide)⟩
  | gps c =>
      obtain ⟨x, hx, rfl⟩ := h
      have hdigits : 0 < c.digits := le_trans (by decide) (three_le_digits c)
      refine placeholder_insert_closed (notMem_format hdigits hx (by decide)) ?_ before after
      obtain ⟨whole, fraction, hdecimal, -, hformat⟩ := format_eq hdigits hx
      obtain ⟨d, ds, rfl⟩ := List.exists_cons_of_ne_nil hdecimal.ne_nil
      rw [hformat]
      split_ifs
      · exact ⟨'-', rfl, .inr rfl⟩
      · exact ⟨d, rfl, .inl (hdecimal.isDigit d List.mem_cons_self)⟩

/-- No placeholder is in the result just when none is formed between two values. -/
theorem apart_iff {ps : List Part} (hps : ∀ k v, .value k v ∈ ps → IsValue k v) (before : Text) :
    (∀ k, ¬ placeholder k <:+: before ++ ps.flatMap Part.text) ↔ Apart before ps := by
  induction ps generalizing before with
  | nil => rw [List.flatMap_nil, List.append_nil, Apart]
  | cons p ps ih =>
      have hps' (k : Kind) (v : Text) (hmem : .value k v ∈ ps) :=
        hps k v (List.mem_cons_of_mem p hmem)
      cases p with
      | letter c =>
          rw [Apart, ← ih hps', List.flatMap_cons, Part.text, List.append_assoc]
      | value k' v =>
          have hv := hps k' v List.mem_cons_self
          rw [Apart, ← ih hps', List.flatMap_cons, Part.text, ← forall_and]
          exact forall_congr' fun k ↦ (not_congr (placeholder_insert hv _ _)).trans not_or

end Braces

/-! ## The result -/

/-- The clock, the ULIDs and `uuid.UUID` are what they are. -/
structure Env.Runs (env : Env M) : Prop where
  now : IsNow env.now
  ulid : ∀ n, IsUlid (String.ofList (env.ulid n))
  uuid : ∀ s, env.isValidUuid s = Sapient.isValidUuid (String.ofList s)

/-- What a template is rendered with are samples. -/
def Filling.IsSample (f : Filling M) : Prop := ∀ n k, Ui.IsSample k (f.value n k)

/-- A template keeps its structure.  Its letters stay where they are and its placeholders give way
to their values; no placeholder is left; the result is JSON; and a string that is a placeholder
for the identifier comes to stand for the identifier. -/
structure Preserves (sample : Filling N) (f : Filling M) (text : Text) : Prop where
  spliced : ∃ ps : List Part, ps.flatMap Part.source = text ∧
    ps.flatMap Part.text = f.substitute text ∧
      ∀ k v, .value k v ∈ ps → ∃ n, v = f.value n k
  replaced : ∀ k, ¬ placeholder k <:+: f.substitute text
  isJson : IsJson (f.substitute text)
  decodes : ∀ ps qs,
    placeholders.pieces text = ps ++ .letter '"' :: .hole .node_id :: .letter '"' :: qs →
    Outside (sample.fill 0 ps) → HasString (f.substitute text) (f.fill 0 ps) f.node_id

section Result

variable {sample : Filling N} {text : Text} {env : Env M} {node_id : Text}

theorem isValue_of_runs (henv : env.Runs) (haccepts : env.isValidUuid node_id = true)
    {gps : Coordinate → SignedFloat} (hgps : ∀ c, (gps c).IsFinite) (n : ℕ) (k : Kind) :
    IsValue k (Filling.value ⟨env, node_id, gps⟩ n k) := by
  cases k with
  | now => exact henv.now
  | ulid => exact henv.ulid n
  | node_id => exact (henv.uuid node_id).symm.trans haccepts
  | gps c => exact ⟨gps c, hgps c, rfl⟩

theorem readPart_template (f : Filling M) (hsample : sample.IsSample) {n : ℕ}
    {ps : List (Piece Kind Char)} {r r' : Reader}
    (h : Reader.step.run r (sample.fill n ps) = some r') :
    readPart.run r (f.parts 0 ps) = some r' := by
  rw [readPart_parts f sample 0 n]
  rw [Filling.fill_eq] at h
  refine readPart_of_samples (fun k v hmem ↦ ?_) h
  obtain ⟨m, rfl⟩ := sample.value_of_mem hmem
  exact hsample m k

/-- A string that is a placeholder for the identifier stands for the identifier in the result. -/
theorem hasString_of_meets {f : Filling M} (hvalues : ∀ n k, IsValue k (f.value n k))
    (hsample : sample.IsSample) (hjson : IsJson (sample.substitute text))
    (hmeets : readPart.Meets Fits .start (f.parts 0 (placeholders.pieces text)))
    {ps qs : List (Piece Kind Char)}
    (hpieces : placeholders.pieces text =
      ps ++ .letter '"' :: .hole .node_id :: .letter '"' :: qs)
    (houtside : Outside (sample.fill 0 ps)) :
    HasString (f.substitute text) (f.fill 0 ps) f.node_id := by
  obtain ⟨r', hrun, -⟩ := hjson
  obtain ⟨r, hr, hrout⟩ := houtside
  have hpart := readPart_template f hsample hr
  have hwhole := readPart_template f hsample hrun
  rw [hpieces, Filling.parts_append, Machine.run_append, hpart, Option.bind_some] at hwhole
  rw [hpieces, Filling.parts_append, Machine.meets_append hpart] at hmeets
  -- the quotation mark opens a string, and the identifier is put right behind it
  obtain ⟨r₁, hr₁, -⟩ := Machine.run_cons_eq_some.mp hwhole
  obtain ⟨isName, hmode⟩ := Reader.step_quote hrout hr₁
  have hfits := ((Machine.meets_cons hr₁).mp hmeets.2).2.1
  have hcontrol : ∀ c ∈ f.node_id, 0x20 ≤ c.toNat := by
    unfold Fits at hfits
    rw [hmode] at hfits
    exact hfits
  have hinert := (hvalues 0 .node_id).isInert
  have hps : ∀ k v, .value k v ∈ f.parts 0 ps → IsValue k v := by
    intro k v hmem
    obtain ⟨m, rfl⟩ := f.value_of_mem hmem
    exact hvalues m k
  refine ⟨f.node_id, f.fill (Filling.drawn 0 ps) qs, ?_, ⟨r, ?_, hrout⟩,
    spells_self hinert.quote hinert.slash hcontrol⟩
  · show f.fill 0 (placeholders.pieces text) = _
    rw [hpieces, Filling.fill_eq, Filling.parts_append, List.flatMap_append, ← Filling.fill_eq]
    simp [Filling.parts, Part.text, Filling.fill_eq, Filling.value, repl]
  · rw [Filling.fill_eq]
    exact (run_text hps hpart).mpr ⟨rfl, hmeets.1⟩

/-- Where a template is JSON with samples, its structure is kept just when every value fits and no
placeholder is formed of braces. -/
theorem preserves_iff (hsample : sample.IsSample) (hjson : IsJson (sample.substitute text))
    (henv : env.Runs) (haccepts : env.isValidUuid node_id = true)
    {gps : Coordinate → SignedFloat} (hgps : ∀ c, (gps c).IsFinite) :
    Preserves sample ⟨env, node_id, gps⟩ text ↔
      readPart.Meets Fits .start
        (Filling.parts ⟨env, node_id, gps⟩ 0 (placeholders.pieces text)) ∧
      Apart [] (Filling.parts ⟨env, node_id, gps⟩ 0 (placeholders.pieces text)) := by
  have hvalues := isValue_of_runs henv haccepts hgps
  generalize (⟨env, node_id, gps⟩ : Filling M) = f at hvalues ⊢
  have hps : ∀ k v, .value k v ∈ f.parts 0 (placeholders.pieces text) → IsValue k v := by
    intro k v hmem
    obtain ⟨m, rfl⟩ := f.value_of_mem hmem
    exact hvalues m k
  have htext : f.substitute text = (f.parts 0 (placeholders.pieces text)).flatMap Part.text :=
    f.fill_eq 0 _
  obtain ⟨r', hrun, hdone⟩ := id hjson
  have hread := readPart_template f hsample hrun
  constructor
  · rintro ⟨-, hreplaced, ⟨r'', hrun', -⟩, -⟩
    rw [htext] at hreplaced hrun'
    exact ⟨((run_text hps hread).mp hrun').2, (apart_iff hps []).mp hreplaced⟩
  · rintro ⟨hmeets, hapart⟩
    refine ⟨⟨_, f.source_parts 0 text, htext.symm, fun k v hmem ↦ f.value_of_mem hmem⟩, ?_, ?_, ?_⟩
    · rw [htext]
      exact (apart_iff hps []).mpr hapart
    · rw [htext]
      exact ⟨r', (run_text hps hread).mpr ⟨rfl, hmeets⟩, hdone⟩
    · intro ps qs hpieces houtside
      exact hasString_of_meets hvalues hsample hjson hmeets hpieces houtside

end Result

/-- The identifier of a node as the browser makes it. -/
def browserId : Text := "123e4567-e89b-12d3-a456-426614174000".toList

/-- The ULID of one rendering. -/
def drawnUlid : Text := "01ARZ3NDEKTSV4RRFFQ69G5FAV".toList

def recorded : Env Text where
  repr _ := ""
  now := "2026-05-03T12:34:56.000000Z".toList
  ulid _ := drawnUlid
  isValidUuid s := Sapient.isValidUuid (String.ofList s)
  parse := .ok

def brisbane : Filling Text := ⟨recorded, browserId, fun c ↦ .fin c.FALLBACK⟩

theorem isUlid_drawn : IsUlid (String.ofList drawnUlid) := by
  have hall : drawnUlid.all isCrockford = true := by decide
  rw [IsUlid, String.toList_ofList]
  refine ⟨rfl, fun c hc ↦ ?_, List.all_eq_true.mp hall⟩
  cases hc
  decide

theorem isUuid_browserId : IsUuid (String.ofList browserId) := by
  have hall : browserId.all (fun c ↦ c == '-' || digit? 16 c != none) = true := by decide
  rw [IsUuid, Hyphenated, String.toList_ofList]
  refine ⟨by decide, fun c hc ↦ ?_⟩
  have hchar := List.all_eq_true.mp hall c hc
  rwa [Bool.or_eq_true, beq_iff_eq, bne_iff_ne] at hchar

theorem runs_recorded : recorded.Runs where
  now := by
    unfold IsNow
    decide +kernel
  ulid _ := isUlid_drawn
  uuid s := by
    rw [recorded]

theorem isSample_recorded {gps : Coordinate → SignedFloat} (hgps : ∀ c, (gps c).IsFinite) :
    (⟨recorded, browserId, gps⟩ : Filling Text).IsSample := by
  intro n k
  cases k with
  | now => exact runs_recorded.now
  | ulid =>
      have hA : 'A' ∈ drawnUlid := by decide
      exact ⟨isUlid_drawn, 'A', hA, by decide⟩
  | node_id => exact isUuid_browserId
  | gps c => exact ⟨gps c, hgps c, rfl⟩

theorem isSample_brisbane : brisbane.IsSample := isSample_recorded fun _ ↦ trivial

theorem preserves_iff_list :
    Preserves brisbane brisbane "[\"{{NODE_ID}}\", {{GPS_LAT}}]".toList ↔
      readPart.Meets Fits .start
          (brisbane.parts 0 (placeholders.pieces "[\"{{NODE_ID}}\", {{GPS_LAT}}]".toList)) ∧
        Apart []
          (brisbane.parts 0 (placeholders.pieces "[\"{{NODE_ID}}\", {{GPS_LAT}}]".toList)) :=
  preserves_iff isSample_brisbane (by decide +kernel) runs_recorded (by decide +kernel)
    fun _ ↦ trivial

/-- A place on the equator, east of Greenwich. -/
def equatorial : Filling Text := ⟨recorded, browserId, fun _ ↦ .fin 0⟩

/-- The identifier with a line break instead of its last digit, and with two braces behind it; and
a negative zero behind a minus sign. -/
theorem line_break_and_braces :
    (brisbane.IsSample ∧ equatorial.IsSample ∧ recorded.Runs) ∧
      (IsJson (brisbane.substitute "[\"{{NODE_ID}}\"]".toList) ∧
        recorded.isValidUuid "123e4567-e89b-12d3-a456-42661417400\n".toList = true ∧
        ¬ Preserves brisbane
          ⟨recorded, "123e4567-e89b-12d3-a456-42661417400\n".toList, fun c ↦ .fin c.FALLBACK⟩
          "[\"{{NODE_ID}}\"]".toList) ∧
      (IsJson (brisbane.substitute "[\"{{NODE_ID}}NOW\x7d\x7d\"]".toList) ∧
        recorded.isValidUuid "123e4567-e89b-12d3-a456-426614174000\x7b\x7b".toList = true ∧
        ¬ Preserves brisbane
          ⟨recorded, "123e4567-e89b-12d3-a456-426614174000\x7b\x7b".toList,
            fun c ↦ .fin c.FALLBACK⟩
          "[\"{{NODE_ID}}NOW\x7d\x7d\"]".toList) ∧
      IsJson (equatorial.substitute "[-{{GPS_LAT}}]".toList) ∧
        ¬ Preserves equatorial ⟨recorded, browserId, fun _ ↦ .negZero⟩
          "[-{{GPS_LAT}}]".toList := by
  refine ⟨⟨isSample_brisbane, isSample_recorded fun _ ↦ trivial, runs_recorded⟩,
    ⟨by decide +kernel, by decide +kernel, fun h ↦ ?_⟩,
    ⟨by decide +kernel, by decide +kernel, fun h ↦ ?_⟩, by decide +kernel, fun h ↦ ?_⟩
  · exact absurd h.isJson (by decide +kernel)
  · exact h.replaced .now (by decide +kernel)
  · exact absurd h.isJson (by decide +kernel)

end SensorFusion.Ui
