import Mathlib.Data.Nat.Bitwise
import SensorFusion.Gps.Encoding

/-!
# The checksum gate

`parse_sentence` returns nothing for a sentence whose checksum is wrong.  What it takes for the
checksum is what `int` makes of at most two characters behind the first star, so that more than
two hexadecimal digits pass, and a body in which a character is changed to a star is summed up
to there.
-/

namespace SensorFusion.Gps

open Text

/-! ## The gate -/

/-- What `_checksum_ok` reads behind the star. -/
def readSum (csum : Text) : Option ℤ := int16? ((strip csum).take 2)

/-- `parse_sentence` returns a result. -/
def Accepted (s : Text) : Prop := ∃ r, parseSentence s = .ok (some r)

/-- A body can be decoded, whatever its checksum. -/
def DecodesBody (body : Text) : Prop := ∃ r, decodeBody body = .ok (some r)

/-! ## Sentences in parts -/

/-- `s'` is `s` with one character of the body changed; blanks may be around both. -/
def Alters (s s' : Text) : Prop :=
  ∃ before x c c' r csum after, (∀ c ∈ before, isSpace c) ∧ (∀ c ∈ after, isSpace c) ∧
    '*' ∉ x ++ c :: r ∧ c' ≠ c ∧ s = before ++ framed (x ++ c :: r) csum ++ after ∧
    s' = before ++ framed (x ++ c' :: r) csum ++ after

/-- A sentence is a dollar, a body without a star, a star and the checksum of the body in two
hexadecimal digits. -/
def WellFormed (s : Text) : Prop :=
  ∃ body csum, strip s = framed body csum ∧ '*' ∉ body ∧ IsChecksum body csum

/-- What stands behind the first star is two hexadecimal digits. -/
def TwoDigits (s : Text) : Prop :=
  ∀ body csum, strip s = framed body csum → '*' ∉ body →
    ∃ a b, csum = [a, b] ∧ digit? 16 a ≠ none ∧ digit? 16 b ≠ none

/-- No part of the body that can be decoded is followed, after one more character, by what is
read as its checksum. -/
def NoCut (s : Text) : Prop :=
  ∀ x c r csum, strip s = framed (x ++ c :: r) csum → '*' ∉ x ++ c :: r → DecodesBody x →
    readSum (r ++ '*' :: csum) ≠ some (checksum x : ℤ)

theorem dropWhile_framed {body : Text} (hstar : '*' ∉ body) (csum : Text) :
    (framed body csum).tail.dropWhile (· ≠ '*') = '*' :: csum := by
  rw [framed, List.tail_cons, List.dropWhile_append_of_pos]
  · rfl
  · exact fun c hc ↦ decide_eq_true fun heq ↦ hstar (heq ▸ hc)

theorem framed_inj {body body' csum csum' : Text} (hstar : '*' ∉ body) (hstar' : '*' ∉ body')
    (h : framed body csum = framed body' csum') : body = body' ∧ csum = csum' := by
  have htake := takeWhile_framed hstar csum
  have hdrop := dropWhile_framed hstar csum
  rw [h, takeWhile_framed hstar'] at htake
  rw [h, dropWhile_framed hstar'] at hdrop
  exact ⟨htake.symm, (List.cons.inj hdrop).2.symm⟩

/-- The gate in terms of the parts. -/
theorem checksumOk_framed_iff {body : Text} (hstar : '*' ∉ body) (csum : Text) :
    checksumOk (framed body csum) = true ↔ readSum csum = some (checksum body : ℤ) := by
  have hframe : (framed body csum).head? = some '$' ∧ '*' ∈ framed body csum :=
    ⟨rfl, List.mem_cons_of_mem _ (List.mem_append_right _ List.mem_cons_self)⟩
  rw [checksumOk, if_pos hframe]
  dsimp only
  rw [takeWhile_framed hstar, dropWhile_framed hstar, List.tail_cons, Bool.and_eq_true,
    decide_eq_true_iff, decide_eq_true_iff]
  refine and_iff_right_of_imp fun h hnil ↦ ?_
  rw [hnil] at h
  cases h

/-- What passes the gate has the parts. -/
theorem exists_framed {t : Text} (h : checksumOk t = true) :
    ∃ body csum, t = framed body csum ∧ '*' ∉ body := by
  rw [checksumOk] at h
  split at h
  · rename_i hframe
    obtain ⟨s, rfl⟩ := List.head?_eq_some_iff.mp hframe.1
    have hmem : '*' ∈ s := (List.mem_cons.mp hframe.2).resolve_left (by decide)
    obtain ⟨body, csum, rfl, hstar⟩ := List.eq_append_cons_of_mem hmem
    exact ⟨body, csum, rfl, hstar⟩
  · cases h

/-- A sentence is accepted for its checksum and for what is in its body. -/
theorem accepted_iff {s body csum : Text} (hs : strip s = framed body csum) (hstar : '*' ∉ body) :
    Accepted s ↔ readSum csum = some (checksum body : ℤ) ∧ DecodesBody body := by
  rw [Accepted, parseSentence, hs, takeWhile_framed hstar, ← checksumOk_framed_iff hstar]
  cases checksumOk (framed body csum) with
  | false =>
      refine iff_of_false ?_ fun h ↦ Bool.false_ne_true h.1
      rintro ⟨r, hr⟩
      cases hr
  | true => exact (and_iff_right rfl).symm

theorem Accepted.exists_framed {s : Text} (h : Accepted s) :
    ∃ body csum, strip s = framed body csum ∧ '*' ∉ body ∧
      readSum csum = some (checksum body : ℤ) ∧ DecodesBody body := by
  obtain ⟨r, hr⟩ := h
  obtain ⟨body, csum, hs, hstar⟩ := Gps.exists_framed (checksumOk_of_parseSentence hr)
  exact ⟨body, csum, hs, hstar, (accepted_iff hs hstar).mp ⟨r, hr⟩⟩

/-! ## Blanks around a sentence -/

theorem dropWhile_append_cons {p : Char → Bool} {c : Char} (hc : p c = false) (s t : Text) :
    (s ++ c :: t).dropWhile p = s.dropWhile p ++ c :: t := by
  rw [List.dropWhile_append, List.dropWhile_cons_of_neg (Bool.eq_false_iff.mp hc)]
  split
  · rename_i hempty
    rw [List.isEmpty_iff.mp hempty, List.nil_append]
  · rfl

/-- Neither the dollar nor the star is a blank, so that only the end of the checksum can be
stripped. -/
theorem strip_around {before after : Text} (hbefore : ∀ c ∈ before, isSpace c)
    (hafter : ∀ c ∈ after, isSpace c) (body csum : Text) :
    strip (before ++ framed body csum ++ after) = framed body (rstripBy isSpace csum) := by
  have hfront : (framed body csum ++ after).dropWhile isSpace = framed body csum ++ after :=
    List.dropWhile_cons_of_neg (by decide)
  have hback : (csum ++ after).reverse.dropWhile isSpace = csum.reverse.dropWhile isSpace := by
    rw [List.reverse_append, List.dropWhile_append_of_pos]
    exact fun c hc ↦ hafter c (List.mem_reverse.mp hc)
  have hsplit : framed body csum ++ after = ('$' :: body) ++ '*' :: (csum ++ after) := by
    rw [framed, ← List.cons_append, List.append_assoc]
    rfl
  rw [strip, stripBy, List.append_assoc, List.dropWhile_append_of_pos hbefore, hfront, rstripBy,
    hsplit, List.rdropWhile, List.reverse_append, List.reverse_cons, List.append_assoc,
    List.singleton_append, dropWhile_append_cons rfl, hback, List.reverse_append,
    List.reverse_cons, List.reverse_reverse, List.append_assoc, List.singleton_append]
  rfl

theorem exists_around (s : Text) :
    ∃ before after, (∀ c ∈ before, isSpace c) ∧ (∀ c ∈ after, isSpace c) ∧
      s = before ++ strip s ++ after := by
  refine ⟨s.takeWhile isSpace, (s.dropWhile isSpace).rtakeWhile isSpace,
    fun _ ↦ List.mem_takeWhile_imp, fun _ ↦ List.mem_rtakeWhile_imp, ?_⟩
  rw [strip, stripBy, rstripBy, List.append_assoc, List.rdropWhile_append_rtakeWhile,
    List.takeWhile_append_dropWhile]

/-! ## One character of the body -/

theorem checksum_from (n : ℕ) (s : Text) :
    s.foldl (fun (sum : ℕ) ch ↦ sum ^^^ ch.toNat) n = n ^^^ checksum s := by
  induction s generalizing n with
  | nil => exact (Nat.xor_zero n).symm
  | cons c s ih =>
      rw [checksum, List.foldl_cons, List.foldl_cons, ih, ih, Nat.zero_xor, Nat.xor_assoc]

theorem checksum_append (s t : Text) : checksum (s ++ t) = checksum s ^^^ checksum t := by
  rw [checksum, List.foldl_append, checksum_from]
  rfl

theorem checksum_cons (c : Char) (s : Text) : checksum (c :: s) = c.toNat ^^^ checksum s := by
  rw [checksum, List.foldl_cons, checksum_from, Nat.zero_xor]

/-- Another character gives another checksum. -/
theorem checksum_change {x r : Text} {c c' : Char}
    (h : checksum (x ++ c' :: r) = checksum (x ++ c :: r)) : c' = c := by
  rw [checksum_append, checksum_append, checksum_cons, checksum_cons] at h
  exact Char.toNat_inj.mp (Nat.xor_left_inj.mp (Nat.xor_right_inj.mp h))

/-! ## The form of what is accepted -/

theorem strip_hexDigits {s : Text} (h : ∀ c ∈ s, digit? 16 c ≠ none) : strip s = s := by
  refine stripBy_eq_self fun c hc ↦ ?_
  obtain ⟨v, hv⟩ := Option.ne_none_iff_exists'.mp (h c hc)
  exact Bool.eq_false_of_not_eq_true (not_isSpace_of_hexDigit hv)

theorem wellFormed_iff {s : Text} (h : Accepted s) : WellFormed s ↔ TwoDigits s := by
  constructor
  · rintro ⟨body, csum, hs, hstar, a, b, x, y, rfl, ha, hb, -⟩ body' csum' hs' hstar'
    obtain ⟨-, rfl⟩ := framed_inj hstar hstar' (hs.symm.trans hs')
    exact ⟨a, b, rfl, ha ▸ Option.some_ne_none x, hb ▸ Option.some_ne_none y⟩
  · intro hdigits
    obtain ⟨body, csum, hs, hstar, hsum, -⟩ := h.exists_framed
    obtain ⟨a, b, rfl, ha, hb⟩ := hdigits body csum hs hstar
    have hstrip : strip [a, b] = [a, b] :=
      strip_hexDigits (List.forall_mem_cons.mpr ⟨ha, List.forall_mem_singleton.mpr hb⟩)
    obtain ⟨x, hx⟩ := Option.ne_none_iff_exists'.mp ha
    obtain ⟨y, hy⟩ := Option.ne_none_iff_exists'.mp hb
    refine ⟨body, [a, b], hs, hstar, a, b, x, y, rfl, hx, hy, ?_⟩
    have hread : readSum [a, b] = some ((16 * x + y : ℕ) : ℤ) := by
      rw [readSum, hstrip]
      exact int16?_pair hx hy
    exact_mod_cast Option.some.inj (hread.symm.trans hsum)

/-! ## Changes of one character -/

/-- A body up to a character that is changed to a star. -/
theorem framed_star (x r csum : Text) :
    framed (x ++ '*' :: r) csum = framed x (r ++ '*' :: csum) := by
  rw [framed, framed, List.append_assoc, List.cons_append]

theorem notMem_of_notMem_append {x r : Text} {c : Char} (h : '*' ∉ x ++ c :: r) : '*' ∉ x :=
  fun hx ↦ h (List.mem_append_left _ hx)

/-- A changed sentence is accepted only if the change is to a star. -/
theorem rejected_of_noCut {s s' : Text} (h : Accepted s) (hcut : NoCut s) (ha : Alters s s') :
    ¬ Accepted s' := by
  obtain ⟨before, x, c, c', r, csum, after, hbefore, hafter, hstar, hne, rfl, rfl⟩ := ha
  have hs := strip_around hbefore hafter (x ++ c :: r) csum
  have hs' := strip_around hbefore hafter (x ++ c' :: r) csum
  intro haccepted
  by_cases hc' : c' = '*'
  · rw [hc'] at hs' haccepted
    obtain ⟨hsum, hdecodes⟩ := (accepted_iff (hs'.trans (framed_star x r _))
      (notMem_of_notMem_append hstar)).mp haccepted
    exact hcut x c r _ hs hstar hdecodes hsum
  · have hstar' : '*' ∉ x ++ c' :: r := by
      rw [List.mem_append, List.mem_cons, not_or, not_or] at hstar ⊢
      exact ⟨hstar.1, Ne.symm hc', hstar.2.2⟩
    have hsum := ((accepted_iff hs hstar).mp h).1
    have hsum' := ((accepted_iff hs' hstar').mp haccepted).1
    exact hne (checksum_change (by exact_mod_cast Option.some.inj (hsum'.symm.trans hsum)))

theorem noCut_of_rejected {s : Text} (h : ∀ s', Alters s s' → ¬ Accepted s') : NoCut s := by
  intro x c r csum hs hstar hdecodes hsum
  obtain ⟨before, after, hbefore, hafter, hsplit⟩ := exists_around s
  have hc : '*' ≠ c := fun heq ↦
    hstar (heq ▸ List.mem_append_right _ List.mem_cons_self)
  rw [hs] at hsplit
  refine h _ ⟨before, x, c, '*', r, csum, after, hbefore, hafter, hstar, hc, hsplit, rfl⟩ ?_
  -- Nothing of the checksum is stripped, since `s` has been.
  have hcsum : rstripBy isSpace csum = csum := by
    have hstrip := strip_around hbefore hafter (x ++ c :: r) csum
    rw [← hsplit, hs] at hstrip
    exact (framed_inj hstar hstar hstrip).2.symm
  have hs' := strip_around hbefore hafter (x ++ '*' :: r) csum
  rw [hcsum] at hs'
  exact (accepted_iff (hs'.trans (framed_star x r csum)) (notMem_of_notMem_append hstar)).mpr
    ⟨hsum, hdecodes⟩

/-- What is returned a result for has the standard form, and is turned away after any change to
one character of its body, exactly when two hexadecimal digits stand behind the first star and
no part of the body passes for a sentence of its own. -/
theorem gate_iff {s : Text} (h : Accepted s) :
    (WellFormed s ∧ ∀ s', Alters s s' → ¬ Accepted s') ↔ TwoDigits s ∧ NoCut s := by
  rw [wellFormed_iff h]
  exact and_congr_right fun _ ↦
    ⟨noCut_of_rejected, fun hcut s' ha ↦ rejected_of_noCut h hcut ha⟩

/-- No character before which a body ends is followed by the checksum up to there. -/
theorem noCut_of_forall {s body csum : Text} (hs : strip s = framed body csum) (hstar : '*' ∉ body)
    (h : ∀ i < body.length,
      readSum (body.drop (i + 1) ++ '*' :: csum) ≠ some (checksum (body.take i) : ℤ)) :
    NoCut s := by
  intro x c r csum' hs' hstar' _
  obtain ⟨rfl, rfl⟩ := framed_inj hstar hstar' (hs.symm.trans hs')
  have hlt : x.length < (x ++ c :: r).length := by
    rw [List.length_append]
    exact Nat.lt_add_of_pos_right (Nat.succ_pos _)
  have hcut := h x.length hlt
  rwa [List.take_left, ← List.drop_drop, List.drop_left] at hcut

/-- Eight satellites, none of which is described. -/
def eight : Text := "$GPGSV,1,1,08*71".toList

/-- It is well formed, and no change to one of its characters is accepted. -/
theorem gate_iff_eight : WellFormed eight ∧ ∀ s', Alters eight s' → ¬ Accepted s' := by
  have hs : strip eight = framed "GPGSV,1,1,08".toList "71".toList := by decide +kernel
  refine (gate_iff ⟨.gsv "GP".toList (some 8), by decide +kernel⟩).mpr ⟨?_, ?_⟩
  · intro body csum hs' hstar
    obtain ⟨-, rfl⟩ := framed_inj (by decide) hstar (hs.symm.trans hs')
    exact ⟨'7', '1', rfl, by decide, by decide⟩
  · exact noCut_of_forall hs (by decide) (by decide +kernel)

/-- Two satellites in view. -/
def inView : Text := "$GPGSV,1,1,02,05,17,308,41,12,01,049,55*79".toList

/-- The sentence passes with more behind its checksum, and with its last comma changed to a
star. -/
theorem accepted_altered :
    (Accepted (inView ++ "00".toList) ∧ ¬ WellFormed (inView ++ "00".toList)) ∧
      Accepted inView ∧ ∃ s', Alters inView s' ∧ Accepted s' := by
  have hlong : strip (inView ++ "00".toList) =
      framed "GPGSV,1,1,02,05,17,308,41,12,01,049,55".toList "7900".toList := by decide +kernel
  refine ⟨⟨⟨.gsv "GP".toList (some 2), by decide +kernel⟩, ?_⟩,
    ⟨.gsv "GP".toList (some 2), by decide +kernel⟩,
    "$GPGSV,1,1,02,05,17,308,41,12,01,049*55*79".toList,
    ⟨[], "GPGSV,1,1,02,05,17,308,41,12,01,049".toList, ',', '*', "55".toList, "79".toList, [],
      nofun, nofun, by decide, by decide, by decide +kernel, by decide +kernel⟩,
    .gsv "GP".toList (some 2), by decide +kernel⟩
  rintro ⟨body, csum, hs, hstar, a, b, x, y, rfl, -⟩
  obtain ⟨-, hcsum⟩ := framed_inj (by decide) hstar (hlong.symm.trans hs)
  cases hcsum

end SensorFusion.Gps
