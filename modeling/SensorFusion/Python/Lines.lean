import Mathlib.Data.List.DropRight
import SensorFusion.Python.Number

/-!
# Lines and fields of a text

What `splitlines`, `strip` and `split` leave of a text, and the bytes that a line in ASCII was
decoded from.
-/

namespace SensorFusion.Text

/-! ## Lines -/

/-- A line holds no character that ends one. -/
theorem mem_of_mem_splitlines {s line : Text} (h : line ∈ splitlines s) :
    ∀ c ∈ line, c ∈ s ∧ isLineBreak c = false := by
  induction s using splitlines.induct generalizing line with
  | case1 => cases h
  | case2 s ih =>
      rcases List.mem_cons.mp h with rfl | h
      · exact fun c hc ↦ absurd hc List.not_mem_nil
      · exact fun c hc ↦ (ih h c hc).imp_left fun hmem ↦
          List.mem_cons_of_mem _ (List.mem_cons_of_mem _ hmem)
  | case3 c s hcr hbreak ih =>
      rw [splitlines, if_pos hbreak] at h
      · rcases List.mem_cons.mp h with rfl | h
        · exact fun c hc ↦ absurd hc List.not_mem_nil
        · exact fun c hc ↦ (ih h c hc).imp_left (List.mem_cons_of_mem _)
      · exact hcr
  | case4 c s hcr hplain hnil ih =>
      rw [splitlines, if_neg hplain, hnil] at h
      · rw [List.mem_singleton.mp h]
        intro c' hc'
        rw [List.mem_singleton.mp hc']
        exact ⟨List.mem_cons_self, Bool.eq_false_of_not_eq_true hplain⟩
      · exact hcr
  | case5 c s hcr hplain line' lines hlines ih =>
      rw [splitlines, if_neg hplain, hlines] at h
      · rw [hlines] at ih
        rcases List.mem_cons.mp h with rfl | h
        · intro c' hc'
          rcases List.mem_cons.mp hc' with rfl | hc'
          · exact ⟨List.mem_cons_self, Bool.eq_false_of_not_eq_true hplain⟩
          · exact (ih List.mem_cons_self c' hc').imp_left (List.mem_cons_of_mem _)
        · exact fun c' hc' ↦
            (ih (List.mem_cons_of_mem _ h) c' hc').imp_left (List.mem_cons_of_mem _)
      · exact hcr

/-- A line is its only line. -/
theorem splitlines_eq_singleton {line : Text} (hne : line ≠ [])
    (h : ∀ c ∈ line, isLineBreak c = false) : splitlines line = [line] := by
  induction line using splitlines.induct with
  | case1 => exact absurd rfl hne
  | case2 s ih => cases h '\r' List.mem_cons_self
  | case3 c s hcr hbreak ih =>
      rw [h c List.mem_cons_self] at hbreak
      cases hbreak
  | case4 c s hcr hplain hnil ih =>
      have hs : s = [] := by
        by_contra hs
        have hone := ih hs fun c' hc' ↦ h c' (List.mem_cons_of_mem c hc')
        rw [hnil] at hone
        cases hone
      subst hs
      rw [splitlines, if_neg hplain, hnil]
      exact hcr
  | case5 c s hcr hplain line lines hlines ih =>
      have hs : s ≠ [] := by
        rintro rfl
        cases hlines
      have hone := ih hs fun c' hc' ↦ h c' (List.mem_cons_of_mem c hc')
      rw [splitlines, if_neg hplain, hone]
      exact hcr

/-! ## Blanks -/

theorem mem_of_mem_strip {s : Text} {c : Char} (h : c ∈ strip s) : c ∈ s :=
  (List.dropWhile_sublist _).subset ((List.rdropWhile_prefix _ _).subset h)

/-- What begins a stripped text is not a blank. -/
theorem not_isSpace_of_dropWhile {s t : Text} {c : Char} (h : c :: t <+: s.dropWhile isSpace) :
    ¬ isSpace c = true := by
  obtain ⟨rest, hrest⟩ := h
  have hself : (s.dropWhile isSpace).dropWhile isSpace = s.dropWhile isSpace :=
    List.dropWhile_idempotent _ _
  rw [← hrest, List.dropWhile_eq_self_iff] at hself
  exact hself (Nat.succ_pos _)

theorem strip_strip (s : Text) : strip (strip s) = strip s := by
  have hpre : strip s <+: s.dropWhile isSpace := List.rdropWhile_prefix _ _
  have hfront : (strip s).dropWhile isSpace = strip s := by
    cases hs : strip s with
    | nil => rfl
    | cons c t =>
        rw [hs] at hpre
        rw [List.dropWhile_cons, if_neg (not_isSpace_of_dropWhile hpre)]
  rw [strip, stripBy, hfront]
  exact List.rdropWhile_idempotent _ _

/-- Blanks around a text that begins and ends with none are stripped. -/
theorem strip_of_blanks {before s after : Text} (hbefore : ∀ c ∈ before, isSpace c)
    (hafter : ∀ c ∈ after, isSpace c) (hne : s ≠ []) (hfirst : ¬ isSpace (s.head hne))
    (hlast : ¬ isSpace (s.getLast hne)) : strip (before ++ s ++ after) = s := by
  have hdrop : (s ++ after).dropWhile isSpace = s ++ after := by
    obtain ⟨c, s, rfl⟩ := List.exists_cons_of_ne_nil hne
    rw [List.head_cons] at hfirst
    rw [List.cons_append, List.dropWhile_cons, if_neg hfirst]
  have hrdrop : (s ++ after).rdropWhile isSpace = s.rdropWhile isSpace := by
    rw [List.rdropWhile, List.reverse_append, List.dropWhile_append_of_pos, List.rdropWhile]
    exact fun c hc ↦ hafter c (List.mem_reverse.mp hc)
  rw [strip, stripBy, List.append_assoc, List.dropWhile_append_of_pos hbefore, hdrop, rstripBy,
    hrdrop, List.rdropWhile_eq_self_iff]
  exact fun _ ↦ hlast

/-! ## Decoding ASCII -/

/-- A character that comes out of `decodeAscii`. -/
def IsDecoded (c : Char) : Prop := c.toNat < 128 ∨ c = Char.ofNat 0xFFFD

theorem isDecoded_of_mem {data : List UInt8} {c : Char} (h : c ∈ decodeAscii data) :
    IsDecoded c := by
  obtain ⟨b, -, rfl⟩ := List.mem_map.mp h
  split
  · rename_i hb
    have hlt : b.toNat < 128 := hb
    have hvalid : b.toNat.isValidChar := .inl (by omega)
    refine .inl ?_
    rw [Char.ofNat, dif_pos hvalid]
    exact hlt
  · exact .inr rfl

/-- Some bytes that a text was decoded from. -/
def asciiBytes (s : Text) : List UInt8 :=
  s.map fun c ↦ if c.toNat < 128 then .ofNat c.toNat else 255

theorem decodeAscii_asciiBytes {s : Text} (h : ∀ c ∈ s, IsDecoded c) :
    decodeAscii (asciiBytes s) = s := by
  rw [decodeAscii, asciiBytes, List.map_map]
  refine (List.map_congr_left fun c hc ↦ ?_).trans (List.map_id s)
  rcases h c hc with hlt | rfl
  · have hn : (UInt8.ofNat c.toNat).toNat = c.toNat :=
      UInt8.toNat_ofNat_of_lt' (hlt.trans (by decide))
    have hb : UInt8.ofNat c.toNat < 128 := by
      rw [UInt8.lt_iff_toNat_lt, hn]
      exact hlt
    rw [Function.comp_apply, if_pos hlt, if_pos hb, hn, Char.ofNat_toNat]
    rfl
  · rfl

/-! ## Splitting at a separator -/

theorem split_of_notMem {sep : Char} {s : Text} (h : sep ∉ s) : split sep s = [s] := by
  induction s with
  | nil => rfl
  | cons c s ih =>
      rw [List.mem_cons, not_or] at h
      rw [split, if_neg (Ne.symm h.1), ih h.2]

theorem split_append {sep : Char} {s : Text} (h : sep ∉ s) (t : Text) :
    split sep (s ++ sep :: t) = s :: split sep t := by
  induction s with
  | nil => rw [List.nil_append, split, if_pos rfl]
  | cons c s ih =>
      rw [List.mem_cons, not_or] at h
      rw [List.cons_append, split, if_neg (Ne.symm h.1), ih h.2]

/-- What stands behind a text and holds no separator belongs to its last part. -/
theorem split_append_of_notMem {sep : Char} {after : Text} (h : sep ∉ after) (s : Text) :
    ∃ parts part, split sep s = parts ++ [part] ∧
      split sep (s ++ after) = parts ++ [part ++ after] := by
  induction s with
  | nil => exact ⟨[], [], rfl, split_of_notMem h⟩
  | cons c s ih =>
      obtain ⟨parts, part, hs, hafter⟩ := ih
      by_cases hc : c = sep
      · refine ⟨[] :: parts, part, ?_, ?_⟩
        · rw [split, if_pos hc, hs, List.cons_append]
        · rw [List.cons_append, split, if_pos hc, hafter, List.cons_append]
      · rw [List.cons_append, split, split, if_neg hc, if_neg hc, hs, hafter]
        cases parts with
        | nil => exact ⟨[], c :: part, rfl, rfl⟩
        | cons head parts => exact ⟨(c :: head) :: parts, part, rfl, rfl⟩

/-- A text is split into the parts that it was joined from. -/
theorem split_intercalate {sep : Char} : ∀ {parts : List Text}, parts ≠ [] →
    (∀ part ∈ parts, sep ∉ part) → split sep ([sep].intercalate parts) = parts
  | [], hne, _ => absurd rfl hne
  | [part], _, h => by
      rw [List.intercalate_singleton]
      exact split_of_notMem (h part List.mem_cons_self)
  | part :: part' :: parts, _, h => by
      obtain ⟨hpart, hparts⟩ := List.forall_mem_cons.mp h
      rw [List.intercalate_cons_of_ne_nil (List.cons_ne_nil _ _), List.append_assoc,
        List.singleton_append, split_append hpart, split_intercalate (List.cons_ne_nil _ _) hparts]

theorem mem_of_mem_intercalate {sep c : Char} : ∀ {parts : List Text},
    c ∈ [sep].intercalate parts → c = sep ∨ ∃ part ∈ parts, c ∈ part
  | [], h => absurd h List.not_mem_nil
  | [part], h => by
      rw [List.intercalate_singleton] at h
      exact .inr ⟨part, List.mem_cons_self, h⟩
  | part :: part' :: parts, h => by
      rw [List.intercalate_cons_of_ne_nil (List.cons_ne_nil _ _), List.append_assoc,
        List.mem_append, List.singleton_append, List.mem_cons] at h
      rcases h with h | h | h
      · exact .inr ⟨part, List.mem_cons_self, h⟩
      · exact .inl h
      · refine (mem_of_mem_intercalate h).imp_right ?_
        rintro ⟨part'', hmem, hc⟩
        exact ⟨part'', List.mem_cons_of_mem _ hmem, hc⟩

/-- The separator is in no part. -/
theorem notMem_of_mem_split {sep : Char} {s part : Text} (h : part ∈ split sep s) :
    sep ∉ part := by
  induction s generalizing part with
  | nil =>
      rw [List.mem_singleton.mp h]
      exact List.not_mem_nil
  | cons c s ih =>
      rw [split] at h
      split at h
      · rcases List.mem_cons.mp h with rfl | h
        · exact List.not_mem_nil
        · exact ih h
      · rename_i hc
        split at h
        · rw [List.mem_singleton.mp h, List.mem_singleton]
          exact Ne.symm hc
        · rename_i part' parts heq
          rw [heq] at ih
          rcases List.mem_cons.mp h with rfl | h
          · rw [List.mem_cons, not_or]
            exact ⟨Ne.symm hc, ih List.mem_cons_self⟩
          · exact ih (List.mem_cons_of_mem _ h)

theorem mem_of_mem_split {sep : Char} {s part : Text} (h : part ∈ split sep s) :
    ∀ c ∈ part, c ∈ s := by
  induction s generalizing part with
  | nil =>
      rw [List.mem_singleton.mp h]
      exact fun c hc ↦ hc
  | cons c s ih =>
      rw [split] at h
      split at h
      · rcases List.mem_cons.mp h with rfl | h
        · exact fun c' hc' ↦ absurd hc' List.not_mem_nil
        · exact fun c' hc' ↦ List.mem_cons_of_mem _ (ih h c' hc')
      · split at h
        · rw [List.mem_singleton.mp h]
          exact fun c' hc' ↦ List.mem_singleton.mp hc' ▸ List.mem_cons_self
        · rename_i part' parts hparts
          rw [hparts] at ih
          rcases List.mem_cons.mp h with rfl | h
          · intro c' hc'
            rcases List.mem_cons.mp hc' with rfl | hc'
            · exact List.mem_cons_self
            · exact List.mem_cons_of_mem _ (ih List.mem_cons_self c' hc')
          · exact fun c' hc' ↦ List.mem_cons_of_mem _ (ih (List.mem_cons_of_mem _ h) c' hc')

theorem length_split (sep : Char) (s : Text) : (split sep s).length = s.count sep + 1 := by
  induction s with
  | nil => rfl
  | cons c s ih =>
      rw [split]
      by_cases hc : c = sep
      · rw [if_pos hc, hc, List.length_cons, ih, List.count_cons_self]
      · rw [if_neg hc, List.count_cons_of_ne hc, ← ih]
        cases hsplit : split sep s with
        | nil =>
            rw [hsplit] at ih
            cases ih
        | cons part parts => rfl

/-- What stands between the separators, counted. -/
theorem sum_length_split (sep : Char) (s : Text) :
    ((split sep s).map List.length).sum = (s.filter (· ≠ sep)).length := by
  induction s with
  | nil => rfl
  | cons c s ih =>
      rw [split]
      by_cases hc : c = sep
      · rw [if_pos hc, List.map_cons, List.sum_cons, List.length_nil, Nat.zero_add, ih,
          List.filter_cons_of_neg (by simpa using hc)]
      · rw [if_neg hc, List.filter_cons_of_pos (by simpa using hc), List.length_cons, ← ih]
        split
        · rename_i heq
          rw [heq]
          rfl
        · rename_i heq
          rw [heq, List.map_cons, List.sum_cons, List.map_cons, List.sum_cons, List.length_cons]
          omega

/-! ## Removing parts -/

theorem removeFrom_sublist (sub : Text) (skip : ℕ) (s : Text) :
    List.Sublist (removeFrom sub skip s) s := by
  induction s generalizing skip with
  | nil =>
      rw [removeFrom]
  | cons c s ih =>
      cases skip with
      | zero =>
          rw [removeFrom]
          split
          · exact (ih _).cons c
          · exact (ih 0).cons_cons c
      | succ skip =>
          rw [removeFrom]
          exact (ih skip).cons c

theorem remove_sublist (sub s : Text) : List.Sublist (remove sub s) s := removeFrom_sublist sub 0 s

theorem stripBy_sublist (p : Char → Bool) (s : Text) : List.Sublist (stripBy p s) s :=
  (List.rdropWhile_prefix _ _).sublist.trans (List.dropWhile_sublist _)

theorem remove_of_notMem {c : Char} {sub s : Text} (h : c ∉ s) : remove (c :: sub) s = s := by
  rw [remove]
  induction s with
  | nil => rfl
  | cons d s ih =>
      rw [List.mem_cons, not_or] at h
      have hno : ¬ (c :: sub).isPrefixOf (d :: s) = true := by
        rw [List.isPrefixOf_iff_prefix, List.cons_prefix_cons]
        exact fun hpre ↦ h.1 hpre.1
      rw [removeFrom, if_neg hno, ih h.2]

theorem remove_cons {sub s : Text} {c : Char} (h : ¬ sub <+: c :: s) :
    remove sub (c :: s) = c :: remove sub s := by
  rw [remove, removeFrom, if_neg (mt List.isPrefixOf_iff_prefix.mp h), remove]

theorem remove_cons_of_ne {sub s : Text} {c d : Char} (h : c ≠ d) :
    remove (d :: sub) (c :: s) = c :: remove (d :: sub) s :=
  remove_cons fun hpre ↦ h (List.cons_prefix_cons.mp hpre).1.symm

theorem mem_removeFrom {e : Char} {sub s : Text} {skip : ℕ} {c : Char} (hc : c ∈ s)
    (hskip : s.take skip ⊆ e :: sub) : c ∈ e :: sub ∨ c ∈ removeFrom (e :: sub) skip s := by
  induction s generalizing skip with
  | nil => exact absurd hc List.not_mem_nil
  | cons d s ih =>
      cases skip with
      | succ skip =>
          rw [List.take_succ_cons, List.cons_subset] at hskip
          rcases List.mem_cons.mp hc with rfl | hc
          · exact .inl hskip.1
          · exact ih hc hskip.2
      | zero =>
          rw [removeFrom]
          split
          · rename_i hpre
            obtain ⟨rfl, hsub⟩ := List.cons_prefix_cons.mp (List.isPrefixOf_iff_prefix.mp hpre)
            rcases List.mem_cons.mp hc with rfl | hc
            · exact .inl List.mem_cons_self
            · refine ih hc ?_
              rw [List.length_cons, Nat.add_sub_cancel, ← List.prefix_iff_eq_take.mp hsub]
              exact List.subset_cons_self _ _
          · rcases List.mem_cons.mp hc with rfl | hc
            · exact .inr List.mem_cons_self
            · exact (ih hc (List.nil_subset _)).imp_right (List.mem_cons_of_mem d)

/-- A character that is gone was in what was removed. -/
theorem mem_remove {e : Char} {sub s : Text} {c : Char} (hc : c ∈ s) :
    c ∈ e :: sub ∨ c ∈ remove (e :: sub) s := mem_removeFrom hc (List.nil_subset _)

theorem remove_singleton (c : Char) (s : Text) : remove [c] s = s.filter (· ≠ c) := by
  rw [remove]
  induction s with
  | nil => rfl
  | cons d s ih =>
      by_cases hd : d = c
      · subst hd
        have hpre : [d].isPrefixOf (d :: s) = true :=
          List.isPrefixOf_iff_prefix.mpr (List.cons_prefix_cons.mpr ⟨rfl, List.nil_prefix⟩)
        rw [removeFrom, if_pos hpre, List.filter_cons_of_neg (by simp)]
        exact ih
      · have hpre : ¬ [c].isPrefixOf (d :: s) = true := by
          rw [List.isPrefixOf_iff_prefix, List.cons_prefix_cons]
          exact fun h ↦ hd h.1.symm
        rw [removeFrom, if_neg hpre, List.filter_cons_of_pos (by simpa using hd), ih]

/-! ## Integers -/

/-- The digits of a text in ASCII are the ten. -/
theorem isDigit_of_isDigitChar {c : Char} (hc : IsDecoded c) (h : isDigitChar c = true) :
    c.isDigit := by
  rcases hc with hlt | rfl
  · have hascii : ∀ n < 128, ((DECIMAL_ZEROS.any fun z ↦ decide (z ≤ n ∧ n < z + 10)) ||
        OTHER_DIGITS.any fun r ↦ decide (r.1 ≤ n ∧ n ≤ r.2)) = true → 48 ≤ n ∧ n ≤ 57 := by
      decide +kernel
    exact Char.isDigit_iff_toNat.mpr (hascii c.toNat hlt h)
  · revert h
    decide +kernel

theorem isDigitChar_of_isDigit {c : Char} (h : c.isDigit) : isDigitChar c = true := by
  obtain ⟨h₁, h₂⟩ := Char.isDigit_iff_toNat.mp h
  have h₀ : '0'.toNat = 0x30 := rfl
  have h₉ : '9'.toNat = 0x39 := rfl
  rw [isDigitChar, Bool.or_eq_true, List.any_eq_true]
  exact Or.inl ⟨0x30, List.mem_cons_self, decide_eq_true ⟨by omega, by omega⟩⟩

theorem isdigit_of_digits {s : Text} (hne : s ≠ []) (h : ∀ c ∈ s, c.isDigit) :
    isdigit s = true :=
  (Bool.and_eq_true _ _).mpr ⟨decide_eq_true hne,
    List.all_eq_true.mpr fun c hc ↦ isDigitChar_of_isDigit (h c hc)⟩

/-- `int` refuses digits only if there are too many. -/
theorem int?_of_digits {s : Text} (hne : s ≠ []) (h : ∀ c ∈ s, c.isDigit) :
    int? s = if s.length ≤ MAX_STR_DIGITS then some (Nat.ofDigitChars 10 s 0 : ℤ) else none := by
  have hcount : s.countP (· ≠ '_') = s.length :=
    List.countP_eq_length.mpr fun c hc ↦ decide_eq_true (ne_of_isDigit (h c hc) rfl)
  have hsigned : signed? decimal? s = (decimal? s).map fun n ↦ (n : ℤ) := by
    cases s with
    | nil => exact absurd rfl hne
    | cons c s =>
        have hc := h c List.mem_cons_self
        rw [signed?]
        · intro _ heq
          cases heq
          cases hc
        · intro _ heq
          cases heq
          cases hc
  rw [int?, literal_eq_self fun c hc ↦ .inl (h c hc), hsigned, decimal?, hcount,
    nat?_of_digits hne h]
  split <;> rfl

end SensorFusion.Text
