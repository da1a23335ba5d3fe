import Mathlib.Algebra.Order.Ring.Rat
import Mathlib.Data.List.GetD
import Mathlib.Data.List.MinMax
import SensorFusion.Lib.Median
import SensorFusion.Ntp.Vote

/-!
# What the vote says of its results

The vote takes the median of the offsets and the worst of the severities.  A median is moved
by a majority only, and never lies outside its values.  So one skewed server does not move
the offset beyond the others, and the severity of the median is never worse than the worst.
-/

namespace SensorFusion.Ntp

/-! ## The median -/

theorem median_perm {l l' : List ℚ} (h : l.Perm l') : median l = median l' := by
  have hsort : l.insertionSort (· ≤ ·) = l'.insertionSort (· ≤ ·) := by
    refine List.Perm.eq_of_sortedLE List.sortedLE_insertionSort List.sortedLE_insertionSort ?_
    exact ((List.perm_insertionSort _ l).trans h).trans (List.perm_insertionSort _ l').symm
  rw [median, median, hsort]

/-- The median is where a majority is. -/
theorem median_mem_Icc {l : List ℚ} {a b : ℚ} (h : Majority a b l) : median l ∈ Set.Icc a b := by
  have hsorted := List.sortedLE_insertionSort (l := l)
  have hmajority : Majority a b (l.insertionSort (· ≤ ·)) :=
    h.perm (List.perm_insertionSort _ l).symm
  have hpos : 0 < l.length := by
    have hle := List.countP_le_length (p := fun x ↦ decide (a ≤ x ∧ x ≤ b)) (l := l)
    rw [Majority] at h
    omega
  have hlen := List.length_insertionSort (· ≤ ·) l
  have hmid {k : ℕ} (hk : k < l.length) (hlow : l.length ≤ 2 * k + 2) (hhigh : 2 * k ≤ l.length) :
      (l.insertionSort (· ≤ ·)).getD k 0 ∈ Set.Icc a b := by
    rw [List.getD_eq_getElem _ _ (hlen.symm ▸ hk)]
    exact hmajority.getElem_mem_Icc hsorted _ (by omega) (by omega)
  simp only [median, hlen]
  split
  · exact hmid (by omega) (by omega) (by omega)
  · exact mean_mem_Icc (hmid (by omega) (by omega) (by omega))
      (hmid (by omega) (by omega) (by omega))

/-! ## A majority -/

/-- The server was reached, and has said how far off the clock is. -/
def NtpResult.Reachable (r : NtpResult) : Prop := r.ok = true ∧ r.offset_s ≠ none

instance (r : NtpResult) : Decidable r.Reachable := inferInstanceAs (Decidable (_ ∧ _))

/-- A value is there and lies between `a` and `b`. -/
def Within (a b : ℚ) : Option ℚ → Prop
  | some x => a ≤ x ∧ x ≤ b
  | none => False

instance (a b : ℚ) : DecidablePred (Within a b)
  | some _ => inferInstanceAs (Decidable (_ ∧ _))
  | none => isFalse id

/-- The offsets that are voted on. -/
def offsets (results : List NtpResult) : List ℚ := (okResults results).filterMap NtpResult.offset_s

/-- The round trips that are voted on. -/
def rtts (results : List NtpResult) : List ℚ := (okResults results).filterMap NtpResult.rtt_s

/-- The results that are voted on are those of the servers that were reached. -/
theorem okResults_eq (results : List NtpResult) :
    okResults results = results.filter fun r ↦ r.Reachable := by
  refine List.filter_congr fun r _ ↦ ?_
  rw [Bool.eq_iff_iff, Bool.and_eq_true, decide_eq_true_iff, Option.isSome_iff_ne_none]
  rfl

theorem mem_okResults {results : List NtpResult} {r : NtpResult} :
    r ∈ okResults results ↔ r ∈ results ∧ r.Reachable := by
  rw [okResults_eq, List.mem_filter, decide_eq_true_iff]

theorem mem_offsets {results : List NtpResult} {x : ℚ} :
    x ∈ offsets results ↔ ∃ r ∈ okResults results, r.offset_s = some x := by
  rw [offsets, List.mem_filterMap]

theorem offsets_eq_nil {results : List NtpResult} :
    offsets results = [] ↔ okResults results = [] := by
  constructor
  · intro h
    refine List.eq_nil_iff_forall_not_mem.mpr fun r hr ↦ ?_
    obtain ⟨x, hx⟩ := Option.ne_none_iff_exists'.mp (mem_okResults.mp hr).2.2
    have hmem : x ∈ offsets results := mem_offsets.mpr ⟨r, hr, hx⟩
    rw [h] at hmem
    exact List.not_mem_nil hmem
  · intro h
    rw [offsets, h, List.filterMap_nil]

/-- The values of the results that are voted on, as they are counted among all results. -/
theorem countP_values (f : NtpResult → Option ℚ) (results : List NtpResult) (a b : ℚ) :
    ((okResults results).filterMap f).countP (fun x ↦ a ≤ x ∧ x ≤ b) =
      results.countP fun r ↦ r.Reachable ∧ Within a b (f r) := by
  rw [List.countP_filterMap, okResults_eq, List.countP_filter]
  refine List.countP_congr fun r _ ↦ ?_
  rw [Bool.and_eq_true, decide_eq_true_iff, decide_eq_true_iff, and_comm]
  refine and_congr_right fun _ ↦ ?_
  cases f r with
  | none => exact iff_of_false Bool.false_ne_true id
  | some x => exact decide_eq_true_iff

theorem length_values (f : NtpResult → Option ℚ) (results : List NtpResult) :
    ((okResults results).filterMap f).length =
      results.countP fun r ↦ r.Reachable ∧ f r ≠ none := by
  rw [← List.countP_true, List.countP_filterMap, okResults_eq, List.countP_filter]
  refine List.countP_congr fun r _ ↦ ?_
  rw [Bool.and_eq_true, decide_eq_true_iff, decide_eq_true_iff, and_comm]
  refine and_congr_right fun _ ↦ ?_
  cases f r with
  | none => exact iff_of_false Bool.false_ne_true fun h ↦ h rfl
  | some x => exact iff_of_true rfl (Option.some_ne_none x)

/-- Every server that was reached has an offset. -/
theorem length_offsets (results : List NtpResult) :
    (offsets results).length = results.countP fun r ↦ r.Reachable := by
  rw [offsets, length_values]
  refine List.countP_congr fun r _ ↦ ?_
  rw [decide_eq_true_iff, decide_eq_true_iff]
  exact and_iff_left_of_imp And.right

theorem offset_s_vote (results : List NtpResult) :
    (vote results).offset_s =
      if okResults results = [] then none else some (median (offsets results)) := by
  unfold vote
  dsimp only
  split <;> rfl

theorem rtt_s_vote (results : List NtpResult) :
    (vote results).rtt_s = if rtts results = [] then none else some (median (rtts results)) := by
  unfold vote rtts
  dsimp only
  split
  · rename_i h
    rw [h, List.filterMap_nil, if_pos rfl]
  · rfl

/-- The offset follows the majority of the servers that were reached, and the round trip that of
those of them which have one. -/
theorem vote_mem_Icc (results : List NtpResult) (a b : ℚ) :
    (results.countP (fun r ↦ r.Reachable) <
        2 * results.countP (fun r ↦ r.Reachable ∧ Within a b r.offset_s) →
      ∃ x, (vote results).offset_s = some x ∧ x ∈ Set.Icc a b) ∧
    (results.countP (fun r ↦ r.Reachable ∧ r.rtt_s ≠ none) <
        2 * results.countP (fun r ↦ r.Reachable ∧ Within a b r.rtt_s) →
      ∃ x, (vote results).rtt_s = some x ∧ x ∈ Set.Icc a b) := by
  constructor
  · intro h
    have hmajority : Majority a b (offsets results) := by
      rw [Majority, length_offsets, offsets, countP_values]
      exact h
    rw [offset_s_vote, if_neg (mt offsets_eq_nil.mpr hmajority.ne_nil)]
    exact ⟨_, rfl, median_mem_Icc hmajority⟩
  · intro h
    have hmajority : Majority a b (rtts results) := by
      rw [Majority, rtts, length_values, countP_values]
      exact h
    rw [rtt_s_vote, if_neg hmajority.ne_nil]
    exact ⟨_, rfl, median_mem_Icc hmajority⟩

theorem skewed_server :
    (∃ x, (vote [⟨['a'], true, some 0, some 1, none, .ok⟩, ⟨['b'], true, some 1, some 2, none, .ok⟩,
      ⟨['c'], true, some 99, some 3, none, .fail⟩]).offset_s = some x ∧ x ∈ Set.Icc 0 1) ∧
    ∃ x, (vote [⟨['a'], true, some 0, some 1, none, .ok⟩, ⟨['b'], true, some 1, some 2, none, .ok⟩,
      ⟨['c'], true, some 99, some 3, none, .fail⟩]).rtt_s = some x ∧ x ∈ Set.Icc 1 2 :=
  ⟨(vote_mem_Icc _ 0 1).1 (by decide +kernel), (vote_mem_Icc _ 1 2).2 (by decide +kernel)⟩

/-! ## The severity -/

/-- The severity is that of the offset. -/
def NtpResult.Assigned (r : NtpResult) : Prop :=
  ∀ x, r.offset_s = some x → r.severity = severityOf |x|

theorem querySync_assigned {server : Text} {x : Exchange} {r : NtpResult}
    (h : querySync server x = .ok r) : r.Assigned := by
  cases x with
  | network exc =>
      cases h
      exact fun _ hx ↦ absurd hx (Option.some_ne_none _).symm
  | raised exc => cases h
  | reply t0 datagram t3 =>
      simp only [querySync] at h
      split at h
      · cases h
        exact fun _ hx ↦ absurd hx (Option.some_ne_none _).symm
      · cases h
        intro x hx
        rw [← Option.some.inj hx]

theorem gather_assigned {servers : List Text} {answers : List Exchange} {results : List NtpResult}
    (h : gather servers answers = .ok results) : ∀ r ∈ results, r.Assigned := by
  induction servers generalizing answers results with
  | nil =>
      cases h
      exact fun r hr ↦ absurd hr List.not_mem_nil
  | cons server servers ih =>
      cases answers with
      | nil =>
          cases h
          exact fun r hr ↦ absurd hr List.not_mem_nil
      | cons answer answers =>
          rw [gather, List.zip_cons_cons, List.mapM_cons] at h
          obtain ⟨r, hr, h⟩ := bind_eq_ok.mp h
          obtain ⟨rs, hrs, h⟩ := bind_eq_ok.mp h
          cases h
          exact List.forall_mem_cons.mpr ⟨querySync_assigned hr, ih hrs⟩

theorem Severity.rank_injective : Function.Injective Severity.rank := by
  intro s s' h
  cases s <;> cases s' <;> first | rfl | exact absurd h (by decide)

theorem worse_eq_right {s s' : Severity} (h : s.rank ≤ s'.rank) : worse s s' = s' := by
  rw [worse]
  split
  · rfl
  · rename_i hlt
    exact Severity.rank_injective (h.antisymm (not_lt.mp hlt))

theorem left_le_worse (s s' : Severity) : s.rank ≤ (worse s s').rank := by
  rw [worse]
  split
  · rename_i h
    exact h.le
  · exact le_rfl

theorem right_le_worse (s s' : Severity) : s'.rank ≤ (worse s s').rank := by
  rw [worse]
  split
  · exact le_rfl
  · rename_i h
    exact not_lt.mp h

theorem worse_eq_or (s s' : Severity) : worse s s' = s ∨ worse s s' = s' := by
  rw [worse]
  split
  · exact .inr rfl
  · exact .inl rfl

theorem worse_right_comm (s s' s'' : Severity) :
    worse (worse s s') s'' = worse (worse s s'') s' := by
  cases s <;> cases s' <;> cases s'' <;> rfl

theorem le_foldl_worse {l : List Severity} {s s' : Severity} (h : s' = s ∨ s' ∈ l) :
    s'.rank ≤ (l.foldl worse s).rank := by
  induction l generalizing s s' with
  | nil =>
      cases h with
      | inl h => rw [h, List.foldl_nil]
      | inr h => cases h
  | cons a l ih =>
      rw [List.foldl_cons]
      rw [List.mem_cons] at h
      obtain rfl | rfl | h := h
      · exact (left_le_worse _ a).trans (ih (.inl rfl))
      · exact (right_le_worse s _).trans (ih (.inl rfl))
      · exact ih (.inr h)

theorem foldl_worse_eq_or_mem (l : List Severity) (s : Severity) :
    l.foldl worse s = s ∨ l.foldl worse s ∈ l := by
  induction l generalizing s with
  | nil => exact .inl rfl
  | cons a l ih =>
      rw [List.foldl_cons, List.mem_cons]
      cases ih (worse s a) with
      | inl h =>
          rw [h]
          exact (worse_eq_or s a).imp_right .inl
      | inr h => exact .inr (.inr h)

/-- The worst of severities that are some is one of them. -/
theorem foldl_worse_mem {l : List Severity} (hne : l ≠ []) : l.foldl worse .ok ∈ l := by
  cases foldl_worse_eq_or_mem l .ok with
  | inl h =>
      obtain ⟨s, hs⟩ := List.exists_mem_of_ne_nil l hne
      have hle := le_foldl_worse (s := .ok) (.inr hs)
      rw [h] at hle ⊢
      rwa [← Severity.rank_injective (hle.antisymm (Nat.zero_le _))]
  | inr h => exact h

/-- A larger offset is no less severe. -/
theorem rank_severityOf_mono {x y : ℚ} (h : x ≤ y) :
    (severityOf x).rank ≤ (severityOf y).rank := by
  have hrank (x : ℚ) : (severityOf x).rank =
      (if FAIL_THRESHOLD_S ≤ x then 2 else if WARN_THRESHOLD_S ≤ x then 1 else 0) := by
    rw [severityOf]
    split_ifs <;> rfl
  rw [hrank, hrank]
  by_cases hfail : FAIL_THRESHOLD_S ≤ y
  · rw [if_pos hfail]
    split_ifs <;> decide
  · rw [if_neg (fun hx ↦ hfail (hx.trans h)), if_neg hfail]
    by_cases hwarn : WARN_THRESHOLD_S ≤ y
    · rw [if_pos hwarn]
      split_ifs <;> decide
    · rw [if_neg (fun hx ↦ hwarn (hx.trans h)), if_neg hwarn]

theorem severity_vote {results : List NtpResult} (h : okResults results ≠ []) :
    (vote results).severity = worse (severityOf |median (offsets results)|)
      (((okResults results).map NtpResult.severity).foldl worse .ok) := by
  unfold vote
  dsimp only
  rw [if_neg h]
  rfl

/-- An offset is no further off than one of the worst severity. -/
theorem severity_median_le {results : List NtpResult} (hassigned : ∀ r ∈ results, r.Assigned)
    (h : okResults results ≠ []) : (severityOf |median (offsets results)|).rank ≤
      (((okResults results).map NtpResult.severity).foldl worse .ok).rank := by
  -- the offset of the largest magnitude bounds all of them, and so the median
  have hne : offsets results ≠ [] := mt offsets_eq_nil.mp h
  obtain ⟨x, hx⟩ := Option.ne_none_iff_exists'.mp (mt (List.argmax_eq_none (f := abs)).mp hne)
  have hmajority : Majority (-|x|) |x| (offsets results) :=
    majority_of_forall hne fun y hy ↦ abs_le.mp (List.le_of_mem_argmax hy hx)
  obtain ⟨r, hr, hoffset⟩ := mem_offsets.mp (List.argmax_mem hx)
  have hmedian : |median (offsets results)| ≤ |x| := abs_le.mpr (median_mem_Icc hmajority)
  calc (severityOf |median (offsets results)|).rank
      ≤ (severityOf |x|).rank := rank_severityOf_mono hmedian
    _ = r.severity.rank := by rw [hassigned r (mem_okResults.mp hr).1 x hoffset]
    _ ≤ _ := le_foldl_worse (.inr (List.mem_map_of_mem hr))

/-! ## The order of the results -/

theorem okResults_perm {results results' : List NtpResult} (h : results.Perm results') :
    (okResults results).Perm (okResults results') := h.filter _

theorem vote_perm {results results' : List NtpResult} (h : results.Perm results') :
    (vote results').offset_s = (vote results).offset_s ∧
    (vote results').rtt_s = (vote results).rtt_s ∧
    (vote results').severity = (vote results).severity ∧
    (vote results').voted_from = (vote results).voted_from := by
  have hok := okResults_perm h
  have hoffsets : (offsets results).Perm (offsets results') := hok.filterMap _
  have hrtts : (rtts results).Perm (rtts results') := hok.filterMap _
  have hnil : okResults results = [] ↔ okResults results' = [] := by
    rw [← List.length_eq_zero_iff, hok.length_eq, List.length_eq_zero_iff]
  have hnil' : rtts results = [] ↔ rtts results' = [] := by
    rw [← List.length_eq_zero_iff, hrtts.length_eq, List.length_eq_zero_iff]
  refine ⟨?_, ?_, ?_, ?_⟩
  · simp only [offset_s_vote, hnil, median_perm hoffsets]
  · simp only [rtt_s_vote, hnil', median_perm hrtts]
  · by_cases hne : okResults results = []
    · unfold vote
      dsimp only
      rw [if_pos hne, if_pos (hnil.mp hne)]
    · rw [severity_vote hne, severity_vote (mt hnil.mpr hne), median_perm hoffsets]
      exact congrArg _ ((hok.map _).foldl_eq' (fun s _ s' _ s'' ↦ worse_right_comm s'' s s') _).symm
  · rw [voted_from_vote, voted_from_vote, hok.length_eq]

/-- The severity is the worst among the servers that were reached; the order of the results does
not matter. -/
theorem vote_severity (results : List NtpResult) (hassigned : ∀ r ∈ results, r.Assigned)
    (hreachable : ∃ r ∈ results, r.Reachable) :
    (∃ r ∈ results, r.Reachable ∧ r.severity = (vote results).severity) ∧
    (∀ r ∈ results, r.Reachable → r.severity.rank ≤ (vote results).severity.rank) ∧
    ∀ results', results.Perm results' →
      (vote results').offset_s = (vote results).offset_s ∧
      (vote results').rtt_s = (vote results).rtt_s ∧
      (vote results').severity = (vote results).severity ∧
      (vote results').voted_from = (vote results).voted_from := by
  have hok : okResults results ≠ [] := by
    obtain ⟨r, hr, hreached⟩ := hreachable
    exact List.ne_nil_of_mem (mem_okResults.mpr ⟨hr, hreached⟩)
  have hseverity : (vote results).severity =
      ((okResults results).map NtpResult.severity).foldl worse .ok :=
    (severity_vote hok).trans (worse_eq_right (severity_median_le hassigned hok))
  refine ⟨?_, fun r hr hreached ↦ ?_, fun results' h ↦ vote_perm h⟩
  · obtain ⟨r, hr, hworst⟩ :=
      List.mem_map.mp (foldl_worse_mem (mt List.map_eq_nil_iff.mp hok))
    obtain ⟨hmem, hreached⟩ := mem_okResults.mp hr
    exact ⟨r, hmem, hreached, hworst.trans hseverity.symm⟩
  · rw [hseverity]
    exact le_foldl_worse (.inr (List.mem_map_of_mem (mem_okResults.mpr ⟨hr, hreached⟩)))

/-- Two servers that answer, the clock being a second ahead for one of them, and one that does
not. -/
theorem severity_three_servers : ∃ results,
    gather [['a'], ['b'], ['c']] [epoch, .reply 1 (List.replicate 32 0 ++
      [0x83, 0xAA, 0x7E, 0x80, 0, 0, 0, 0] ++ [0x83, 0xAA, 0x7E, 0x80, 0, 0, 0, 0]) 1,
      .network "timed out"] = .ok results ∧
    ∃ r ∈ results, r.Reachable ∧ r.severity = (vote results).severity := by
  have hgather : gather [['a'], ['b'], ['c']] [epoch, .reply 1 (List.replicate 32 0 ++
      [0x83, 0xAA, 0x7E, 0x80, 0, 0, 0, 0] ++ [0x83, 0xAA, 0x7E, 0x80, 0, 0, 0, 0]) 1,
      .network "timed out"] = .ok [⟨['a'], true, some 0, some 0, none, .ok⟩,
        ⟨['b'], true, some (-1), some 0, none, .warn⟩, .failed ['c'] "network: timed out"] := by
    decide +kernel
  exact ⟨_, hgather, (vote_severity _ (gather_assigned hgather) (by decide +kernel)).1⟩

end SensorFusion.Ntp
