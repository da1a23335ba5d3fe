import SensorFusion.Gps.Position

/-!
# How fresh a fix is

The age of a fix is counted from the last sentence of any kind.  It is the age of the
position as long as the last sentence that was heard carries one.
-/

namespace SensorFusion.Gps

/-- A position was heard within the window before `t`, up to the rounding of an age. -/
def Fresh (hist : List Heard) (t : ℚ) : Prop :=
  ∃ e ∈ hist, e.sentence.hasPosition = true ∧ roundTo 3 (t - e.time) ≤ STALE_AFTER_S

/-- An age of up to half a millisecond over the window is within it. -/
theorem roundTo_le_window {x : ℚ} : roundTo 3 x ≤ STALE_AFTER_S ↔ x ≤ 10.0005 := by
  unfold roundTo STALE_AFTER_S
  rw [div_le_iff₀ (by norm_num)]
  have hiff := roundHalfEven_le_iff (q := x * 10 ^ 3) (m := 10000) rfl
  rw [show (10 : ℚ) * 10 ^ 3 = ((10000 : ℤ) : ℚ) by norm_num, Int.cast_le, hiff]
  constructor
  · intro h
    norm_num at h ⊢
    linarith
  · intro h
    norm_num at h ⊢
    linarith

/-- A snapshot is ok when the fix is and the last sentence, if it has a time at all, is
within the window. -/
theorem snapshot_ok_iff (l : Listener) (t : ℚ) :
    (l.snapshot t).1.ok = true ↔
      l.fix.ok = true ∧ (l.last_update ≠ 0 → t - l.last_update ≤ 10.0005) := by
  rw [← roundTo_le_window]
  unfold Listener.snapshot
  split
  · rename_i hlast
    dsimp only
    split
    · rename_i hstale
      refine iff_of_false Bool.false_ne_true fun h ↦ ?_
      exact absurd (h.2 hlast) (not_le.mpr hstale.2)
    · rename_i hfresh
      refine ⟨fun h ↦ ⟨h, fun _ ↦ ?_⟩, fun h ↦ h.1⟩
      by_contra hage
      have hlt := not_le.mp hage
      refine hfresh ⟨?_, hlt⟩
      rintro hzero
      rw [hzero] at hlt
      exact absurd hlt (by decide +kernel)
  · rename_i hlast
    exact ⟨fun h ↦ ⟨h, fun hne ↦ absurd hne hlast⟩, fun h ↦ h.1⟩

/-- The last sentence is the latest. -/
theorem time_le_last {hist : List Heard} (hmono : hist.Pairwise fun e e' ↦ e.time ≤ e'.time)
    {last : Heard} (hlast : hist.getLast? = some last) : ∀ e ∈ hist, e.time ≤ last.time := by
  obtain ⟨front, rfl⟩ := List.getLast?_eq_some_iff.mp hlast
  intro e he
  rcases List.mem_append.mp he with he | he
  · exact (List.pairwise_append.mp hmono).2.2 e he last (List.mem_singleton.mpr rfl)
  · rw [List.mem_singleton.mp he]

/-- In every run whose clock does not go back: whenever a snapshot taken after it is ok a
position was heard within the window, if and only if, should what was heard make a fix,
a position was heard at the time of the last sentence, and not at time zero. -/
theorem fresh_iff_position_last {port : ℕ} {bind : Text} {ls : List Label} {l : Listener}
    (hrun : Listener.step.run (.init port bind) ls = some l)
    (hmono : (heard ls).Pairwise fun e e' ↦ e.time ≤ e'.time) :
    (∀ t, (∀ e ∈ heard ls, e.time ≤ t) → (l.snapshot t).1.ok = true → Fresh (heard ls) t) ↔
      (Fixed (heard ls) → ∃ e ∈ heard ls, e.sentence.hasPosition = true ∧ e.time ≠ 0 ∧
        ∀ e' ∈ heard ls, e'.time ≤ e.time) := by
  have htracks : Tracks l (heard ls) := (tracks_init port bind).run hrun
  constructor
  · intro hfresh hfixed
    have hok := htracks.ok.mpr hfixed
    obtain ⟨last, hlast⟩ : ∃ last, (heard ls).getLast? = some last := by
      obtain ⟨e, he⟩ := exists_lastCoordinate hfixed.1
      have hmem : e ∈ heard ls := (List.mem_filter.mp (List.mem_of_getLast? he)).1
      exact ⟨_, List.getLast?_eq_some_getLast (List.ne_nil_of_mem hmem)⟩
    have hle := time_le_last hmono hlast
    have hupdate : l.last_update = last.time := by
      rw [htracks.last_update, hlast]
      rfl
    by_cases hzero : last.time = 0
    · -- a fix last heard at time zero is never found stale
      obtain ⟨e, he, -, hage⟩ := hfresh 11
        (fun e he ↦ (hle e he).trans (by rw [hzero]; norm_num))
        ((snapshot_ok_iff l 11).mpr ⟨hok, fun hne ↦ absurd (hupdate.trans hzero) hne⟩)
      have := roundTo_le_window.mp hage
      have := hle e he
      linarith
    · -- at the end of the last sentence's window only its own time is within it
      obtain ⟨e, he, hpos, hage⟩ := hfresh (last.time + 10.0005)
        (fun e he ↦ (hle e he).trans (by norm_num))
        ((snapshot_ok_iff l _).mpr ⟨hok, fun _ ↦ by rw [hupdate]; linarith⟩)
      have hlate : last.time ≤ e.time := by
        have := roundTo_le_window.mp hage
        linarith
      refine ⟨e, he, hpos, ?_, fun e' he' ↦ (hle e' he').trans hlate⟩
      rintro hez
      exact hzero (le_antisymm (hez ▸ hlate) (hez ▸ hle e he))
  · intro hcond t _ hsnap
    obtain ⟨hok, hage⟩ := (snapshot_ok_iff l t).mp hsnap
    obtain ⟨e, he, hpos, hne, hmax⟩ := hcond (htracks.ok.mp hok)
    obtain ⟨last, hlast⟩ : ∃ last, (heard ls).getLast? = some last :=
      ⟨_, List.getLast?_eq_some_getLast (List.ne_nil_of_mem he)⟩
    have hupdate : l.last_update = e.time := by
      rw [htracks.last_update, hlast]
      exact le_antisymm (hmax last (List.mem_of_getLast? hlast)) (time_le_last hmono hlast e he)
    refine ⟨e, he, hpos, roundTo_le_window.mpr ?_⟩
    rw [← hupdate]
    exact hage (hupdate ▸ hne)

/-- After one valid RMC sentence every snapshot that is ok is fresh. -/
theorem fresh_iff_position_last_rmc : ∃ l,
    Listener.step.run (.init 8500 "0.0.0.0".toList) [rmcAt 1000] = some l ∧
    ∀ t, (∀ e ∈ heard [rmcAt 1000], e.time ≤ t) → (l.snapshot t).1.ok = true →
      Fresh (heard [rmcAt 1000]) t := by
  refine ⟨_, rfl, ?_⟩
  have hmono : (heard [rmcAt 1000]).Pairwise fun e e' ↦ e.time ≤ e'.time := by decide +kernel
  refine (fresh_iff_position_last rfl hmono).mpr fun _ ↦ ?_
  decide +kernel

/-- A GSV sentence. -/
def gsvAt (time : ℚ) : Label := .sentence "$GPGSV,1,1,08*71" time

/-- A GSV sentence keeps a fix ok whose position is fifteen seconds old. -/
theorem gsv_keeps_fix : ∃ l,
    Listener.step.run (.init 8500 "0.0.0.0".toList) [rmcAt 1000, gsvAt 1009] = some l ∧
    (l.snapshot 1015).1.ok = true ∧ ¬ Fresh (heard [rmcAt 1000, gsvAt 1009]) 1015 := by
  have hrun : (Listener.step.run (.init 8500 "0.0.0.0".toList) [rmcAt 1000, gsvAt 1009]).map
      (fun l ↦ (l.snapshot 1015).1.ok) = some true := by decide +kernel
  have hold : ∀ e ∈ heard [rmcAt 1000, gsvAt 1009], e.sentence.hasPosition = true →
      ¬ roundTo 3 (1015 - e.time) ≤ STALE_AFTER_S := by decide +kernel
  obtain ⟨l, hl, hok⟩ := Option.map_eq_some_iff.mp hrun
  refine ⟨l, hl, hok, ?_⟩
  rintro ⟨e, he, hpos, hage⟩
  exact hold e he hpos hage

end SensorFusion.Gps
