import SensorFusion.Python.Number

/-!
# Hexadecimal integers

`int(s, 16)` reads hexadecimal digits, and more: blanks around them, a sign, a `0x`, underscores
and the decimal digits of other scripts.
-/

namespace SensorFusion.Text

/-! ## Digits -/

/-- A hexadecimal digit, in one of the three ranges. -/
theorem toNat_of_hexDigit {c : Char} {v : ℕ} (h : digit? 16 c = some v) :
    (48 ≤ c.toNat ∧ c.toNat ≤ 57) ∨ (65 ≤ c.toNat ∧ c.toNat ≤ 70) ∨
      (97 ≤ c.toNat ∧ c.toNat ≤ 102) := by
  have h₀ : '0'.toNat = 48 := rfl
  have h₉ : '9'.toNat = 57 := rfl
  have ha : 'a'.toNat = 97 := rfl
  have hf : 'f'.toNat = 102 := rfl
  have hA : 'A'.toNat = 65 := rfl
  have hF : 'F'.toNat = 70 := rfl
  unfold digit? at h
  dsimp only at h
  rw [h₀, h₉, ha, hf, hA, hF] at h
  by_contra hno
  rw [not_or, not_or] at hno
  rw [if_neg hno.1, if_neg hno.2.2, if_neg hno.2.1, if_neg (lt_irrefl 16)] at h
  cases h

theorem digit?_lt {base v : ℕ} {c : Char} (h : digit? base c = some v) : v < base := by
  by_contra hge
  unfold digit? at h
  dsimp only at h
  generalize (if '0'.toNat ≤ c.toNat ∧ c.toNat ≤ '9'.toNat then _ else _ : ℕ) = n at h
  by_cases hn : n < base
  · rw [if_pos hn, Option.some_inj] at h
    exact hge (h ▸ hn)
  · rw [if_neg hn] at h
    cases h

/-- A hexadecimal digit is no other character. -/
theorem ne_of_hexDigit {c d : Char} {v : ℕ} (h : digit? 16 c = some v) (hd : digit? 16 d = none) :
    c ≠ d := by
  rintro rfl
  rw [h] at hd
  cases hd

/-- A character in ASCII that is no blank and does nothing but stand for a digit or a minus sign,
if anything, in a hexadecimal literal. -/
def IsPlain (c : Char) : Prop := c.toNat < 128 ∧ isCSpace c = false ∧ c ∉ ['_', '+', 'x', 'X']

instance (c : Char) : Decidable (IsPlain c) := inferInstanceAs (Decidable (_ ∧ _))

theorem isPlain_of_hexDigit {c : Char} (h : digit? 16 c ≠ none) : IsPlain c := by
  obtain ⟨v, hv⟩ := Option.ne_none_iff_exists'.mp h
  have hrange := toNat_of_hexDigit hv
  refine ⟨by omega, ?_, ?_⟩
  · unfold isCSpace
    simp only [Bool.or_eq_false_iff, Bool.and_eq_false_iff, decide_eq_false_iff_not,
      beq_eq_false_iff_ne]
    omega
  · intro hmem
    have hnone : (['_', '+', 'x', 'X'].all fun d ↦ digit? 16 d == none) = true := by decide
    exact h (beq_iff_eq.mp (List.all_eq_true.mp hnone c hmem))

/-- What is left of a plain character in a literal. -/
theorem toAscii_of_isPlain {c : Char} (h : IsPlain c) : toAscii c = c ∨ toAscii c = '?' := by
  by_cases hlt : c.toNat < 127
  · exact .inl (if_pos hlt)
  · have hdel : c = Char.ofNat 127 := by
      have heq : c.toNat = 127 := by
        have := h.1
        omega
      rw [← heq, Char.ofNat_toNat]
    subst hdel
    exact .inr (by decide)

theorem literal_of_isPlain {s : Text} (h : ∀ c ∈ s, IsPlain c) : literal s = s.map toAscii := by
  refine stripBy_eq_self fun c hc ↦ ?_
  obtain ⟨d, hd, rfl⟩ := List.mem_map.mp hc
  rcases toAscii_of_isPlain (h d hd) with heq | heq
  · rw [heq]
    exact (h d hd).2.1
  · rw [heq]
    decide

theorem toAscii_of_hexDigit {c : Char} (h : digit? 16 c ≠ none) : toAscii c = c := by
  obtain ⟨v, hv⟩ := Option.ne_none_iff_exists'.mp h
  have hrange := toNat_of_hexDigit hv
  exact if_pos (by omega)

theorem literal_of_hexDigits {s : Text} (h : ∀ c ∈ s, digit? 16 c ≠ none) : literal s = s := by
  rw [literal_of_isPlain fun c hc ↦ isPlain_of_hexDigit (h c hc)]
  exact (List.map_congr_left fun c hc ↦ toAscii_of_hexDigit (h c hc)).trans (List.map_id' s)

/-! ## Reading digits -/

/-- Without a sign and a `0x`, a literal is its digits. -/
theorem signed?_hex? {s : Text} (h : ∀ c ∈ s, c ≠ '+' ∧ c ≠ '-' ∧ c ≠ 'x' ∧ c ≠ 'X') :
    signed? hex? s = (nat? 16 s).map fun n : ℕ ↦ (n : ℤ) := by
  have hhex : hex? s = nat? 16 s := by
    unfold hex?
    split
    · rename_i x s
      have hx := h x (List.mem_cons_of_mem _ List.mem_cons_self)
      rw [if_neg (not_or.mpr hx.2.2)]
    · rfl
  rw [signed?, hhex]
  · cases nat? 16 s <;> rfl
  · rintro _ rfl
    exact (h _ List.mem_cons_self).1 rfl
  · rintro _ rfl
    exact (h _ List.mem_cons_self).2.1 rfl

theorem digits?_of_hexDigits {s : Text} (h : ∀ c ∈ s, digit? 16 c ≠ none) (acc : ℕ) :
    ∃ v, digits? 16 acc s = some v ∧ v < (acc + 1) * 16 ^ s.length := by
  induction s generalizing acc with
  | nil => exact ⟨acc, rfl, by rw [List.length_nil, pow_zero]; omega⟩
  | cons c s ih =>
      obtain ⟨hc, hs⟩ := List.forall_mem_cons.mp h
      obtain ⟨d, hd⟩ := Option.ne_none_iff_exists'.mp hc
      obtain ⟨v, hv, hlt⟩ := ih hs (16 * acc + d)
      refine ⟨v, ?_, hlt.trans_le ?_⟩
      · rw [digits?, hd, Option.bind_some, hv]
        rintro _ _ rfl -
        exact hc rfl
      · have hdigit := digit?_lt hd
        rw [List.length_cons, pow_succ, ← Nat.mul_assoc, Nat.mul_right_comm]
        exact Nat.mul_le_mul_right _ (by omega)

theorem hexDigits_of_digits? {s : Text} (hunder : '_' ∉ s) {acc v : ℕ}
    (h : digits? 16 acc s = some v) : ∀ c ∈ s, digit? 16 c ≠ none := by
  induction s generalizing acc with
  | nil => exact fun c hc ↦ absurd hc List.not_mem_nil
  | cons c s ih =>
      rw [List.mem_cons, not_or] at hunder
      rw [digits?] at h
      · obtain ⟨d, hd, hrest⟩ := Option.bind_eq_some_iff.mp h
        exact List.forall_mem_cons.mpr ⟨hd ▸ Option.some_ne_none d, ih hunder.2 hrest⟩
      · rintro _ _ rfl -
        exact hunder.1 rfl

theorem nat?_of_hexDigits {s : Text} (hne : s ≠ []) (h : ∀ c ∈ s, digit? 16 c ≠ none) :
    ∃ v, nat? 16 s = some v ∧ v < 16 ^ s.length := by
  obtain ⟨c, s, rfl⟩ := List.exists_cons_of_ne_nil hne
  obtain ⟨hc, hs⟩ := List.forall_mem_cons.mp h
  obtain ⟨d, hd⟩ := Option.ne_none_iff_exists'.mp hc
  obtain ⟨v, hv, hlt⟩ := digits?_of_hexDigits hs d
  refine ⟨v, by rw [nat?, hd, Option.bind_some, hv], hlt.trans_le ?_⟩
  have hdigit := digit?_lt hd
  rw [List.length_cons, pow_succ, Nat.mul_comm]
  exact Nat.mul_le_mul_left _ hdigit

/-- Hexadecimal digits are read as the number that they spell. -/
theorem int16?_of_hexDigits {s : Text} (h : ∀ c ∈ s, digit? 16 c ≠ none) :
    int16? s = (nat? 16 s).map fun n : ℕ ↦ (n : ℤ) := by
  rw [int16?, literal_of_hexDigits h]
  refine signed?_hex? fun c hc ↦ ?_
  obtain ⟨v, hv⟩ := Option.ne_none_iff_exists'.mp (h c hc)
  exact ⟨ne_of_hexDigit hv rfl, ne_of_hexDigit hv rfl, ne_of_hexDigit hv rfl, ne_of_hexDigit hv rfl⟩

theorem int16?_pair {a b : Char} {x y : ℕ} (ha : digit? 16 a = some x)
    (hb : digit? 16 b = some y) : int16? [a, b] = some ((16 * x + y : ℕ) : ℤ) := by
  rw [int16?_of_hexDigits, nat?, ha, Option.bind_some, digits?, hb, Option.bind_some, digits?]
  · rfl
  · rintro _ _ - heq
    cases heq
  · refine List.forall_mem_cons.mpr ⟨?_, List.forall_mem_singleton.mpr ?_⟩
    · exact ha ▸ Option.some_ne_none x
    · exact hb ▸ Option.some_ne_none y

/-- In plain characters without a minus sign, `int` reads nothing but hexadecimal digits. -/
theorem hexDigits_of_int16? {s : Text} (hplain : ∀ c ∈ s, IsPlain c) (hminus : '-' ∉ s) {n : ℤ}
    (h : int16? s = some n) : ∀ c ∈ s, digit? 16 c ≠ none := by
  have hascii : ∀ c ∈ s.map toAscii, c = '?' ∨ IsPlain c ∧ c ≠ '-' := by
    intro c hc
    obtain ⟨d, hd, rfl⟩ := List.mem_map.mp hc
    rcases toAscii_of_isPlain (hplain d hd) with heq | heq
    · rw [heq]
      exact .inr ⟨hplain d hd, fun hdash ↦ hminus (hdash ▸ hd)⟩
    · exact .inl heq
  have hother {d : Char} (hd : d ∈ ['_', '+', 'x', 'X']) {c : Char} (hc : c ∈ s.map toAscii) :
      c ≠ d := by
    rintro rfl
    rcases hascii c hc with rfl | hplain
    · exact absurd hd (by decide)
    · exact hplain.1.2.2 hd
  rw [int16?, literal_of_isPlain hplain, signed?_hex?] at h
  · obtain ⟨v, hv, -⟩ := Option.map_eq_some_iff.mp h
    have hdigits : ∀ c ∈ s.map toAscii, digit? 16 c ≠ none := by
      cases hs : s.map toAscii with
      | nil => exact fun c hc ↦ absurd hc List.not_mem_nil
      | cons c t =>
          rw [hs, nat?] at hv
          obtain ⟨d, hd, hrest⟩ := Option.bind_eq_some_iff.mp hv
          refine List.forall_mem_cons.mpr ⟨hd ▸ Option.some_ne_none d, ?_⟩
          refine hexDigits_of_digits? (fun hmem ↦ ?_) hrest
          exact hother (by decide) (hs ▸ List.mem_cons_of_mem c hmem) rfl
    intro c hc
    have hdigit := hdigits (toAscii c) (List.mem_map_of_mem hc)
    rcases toAscii_of_isPlain (hplain c hc) with heq | heq
    · rwa [heq] at hdigit
    · rw [heq] at hdigit
      exact absurd (by decide) hdigit
  · intro c hc
    refine ⟨hother (by decide) hc, ?_, hother (by decide) hc, hother (by decide) hc⟩
    rcases hascii c hc with rfl | hplain
    · decide
    · exact hplain.2

/-! ## The characters of a literal -/

/-- What is not stripped remains. -/
theorem mem_stripBy {p : Char → Bool} {s : Text} {c : Char} (hc : c ∈ s) (hp : p c = false) :
    c ∈ stripBy p s := by
  have hdrop : c ∈ s.dropWhile p := by
    rw [← List.takeWhile_append_dropWhile (p := p) (l := s)] at hc
    refine (List.mem_append.mp hc).resolve_left fun htake ↦ ?_
    rw [List.mem_takeWhile_imp htake] at hp
    cases hp
  rw [← @List.rdropWhile_append_rtakeWhile _ p (s.dropWhile p)] at hdrop
  refine (List.mem_append.mp hdrop).resolve_right fun htake ↦ ?_
  rw [List.mem_rtakeWhile_imp htake] at hp
  cases hp

/-- A digit, or one of the other characters of a hexadecimal literal. -/
def IsHexLiteral (c : Char) : Prop := digit? 16 c ≠ none ∨ c ∈ ['_', '+', '-', 'x', 'X']

instance (c : Char) : Decidable (IsHexLiteral c) := inferInstanceAs (Decidable (_ ∨ _))

theorem isHexLiteral_of_digits? {s : Text} {acc v : ℕ} (h : digits? 16 acc s = some v) :
    ∀ c ∈ s, IsHexLiteral c := by
  fun_induction digits? 16 acc s with
  | case1 acc => exact fun c hc ↦ absurd hc List.not_mem_nil
  | case2 acc c s ih =>
      obtain ⟨d, hd, hrest⟩ := Option.bind_eq_some_iff.mp h
      refine List.forall_mem_cons.mpr ⟨.inr List.mem_cons_self, List.forall_mem_cons.mpr ⟨?_, ?_⟩⟩
      · exact .inl (hd ▸ Option.some_ne_none d)
      · exact ih d hrest
  | case3 acc c s hs ih =>
      obtain ⟨d, hd, hrest⟩ := Option.bind_eq_some_iff.mp h
      exact List.forall_mem_cons.mpr ⟨.inl (hd ▸ Option.some_ne_none d), ih d hrest⟩

theorem isHexLiteral_of_nat? {s : Text} {v : ℕ} (h : nat? 16 s = some v) :
    ∀ c ∈ s, IsHexLiteral c := by
  cases s with
  | nil => cases h
  | cons c s =>
      obtain ⟨d, hd, hrest⟩ := Option.bind_eq_some_iff.mp h
      exact List.forall_mem_cons.mpr
        ⟨.inl (hd ▸ Option.some_ne_none d), isHexLiteral_of_digits? hrest⟩

theorem isHexLiteral_of_hex? {s : Text} {v : ℕ} (h : hex? s = some v) :
    ∀ c ∈ s, IsHexLiteral c := by
  unfold hex? at h
  split at h
  · rename_i x s
    by_cases hx : x = 'x' ∨ x = 'X'
    · rw [if_pos hx] at h
      refine List.forall_mem_cons.mpr ⟨.inl (by decide), List.forall_mem_cons.mpr ⟨?_, ?_⟩⟩
      · rcases hx with rfl | rfl <;> exact .inr (by decide)
      · split at h
        · exact List.forall_mem_cons.mpr ⟨.inr (by decide), isHexLiteral_of_nat? h⟩
        · exact isHexLiteral_of_nat? h
    · rw [if_neg hx] at h
      exact isHexLiteral_of_nat? h
  · exact isHexLiteral_of_nat? h

theorem isHexLiteral_of_signed? {s : Text} {n : ℤ} (h : signed? hex? s = some n) :
    ∀ c ∈ s, IsHexLiteral c := by
  unfold signed? at h
  split at h
  · obtain ⟨_, hsome, -⟩ := Option.map_eq_some_iff.mp h
    obtain ⟨v, hv, -⟩ := Option.bind_eq_some_iff.mp hsome
    exact List.forall_mem_cons.mpr ⟨.inr (by decide), isHexLiteral_of_hex? hv⟩
  · obtain ⟨_, hsome, -⟩ := Option.map_eq_some_iff.mp h
    obtain ⟨v, hv, -⟩ := Option.bind_eq_some_iff.mp hsome
    exact List.forall_mem_cons.mpr ⟨.inr (by decide), isHexLiteral_of_hex? hv⟩
  · obtain ⟨_, hsome, -⟩ := Option.map_eq_some_iff.mp h
    obtain ⟨v, hv, -⟩ := Option.bind_eq_some_iff.mp hsome
    exact isHexLiteral_of_hex? hv

/-- What `int` reads, apart from blanks and the digits of other scripts. -/
theorem isHexLiteral_of_int16? {s : Text} {n : ℤ} (h : int16? s = some n) {c : Char} (hc : c ∈ s) :
    isCSpace (toAscii c) = true ∨ IsHexLiteral (toAscii c) := by
  cases hspace : isCSpace (toAscii c) with
  | true => exact .inl rfl
  | false =>
      exact .inr (isHexLiteral_of_signed? h _
        (mem_stripBy (List.mem_map_of_mem hc) hspace))

end SensorFusion.Text
