import SensorFusion.Gps.Listener

/-!
# The time of a fix

RMC sentences with a date and, as long as there is no timestamp, GGA and GNS sentences set the
timestamp of the fix.  So it shows the last of the RMC sentences, and if there was none the
first of the others, whatever came since.
-/

namespace SensorFusion.Gps

open Text

/-! ## Times -/

/-- The UTC time of a GGA or a GNS sentence, or of an RMC sentence with a date, if it has six
characters at least. -/
def Sentence.utc : Sentence → Option Text
  | .gga _ (some time_utc) .. | .gns _ (some time_utc) .. =>
      if 6 ≤ time_utc.length then some time_utc else none
  | .rmc _ (some time_utc) _ _ _ _ _ (some date) =>
      if 6 ≤ time_utc.length ∧ 6 ≤ date.length then some time_utc else none
  | _ => none

/-- The UTC time of an RMC sentence with a date. -/
def Sentence.datedUtc (s : Sentence) : Option Text :=
  match s with
  | .rmc .. => s.utc
  | _ => none

/-- A UTC time as a timestamp writes it. -/
def clockText (hhmmss : Text) : Text :=
  hhmmss.take 2 ++ ':' :: (hhmmss.drop 2).take 2 ++ ':' :: hhmmss.drop 4 ++ ['Z']

/-- The time of day in a timestamp, which is what follows the ten characters of the date and
the `T`. -/
def timeOfDay (timestamp : Text) : Text := timestamp.drop 11

/-- A date has ten characters, as `strftime("%Y-%m-%d")` gives it. -/
def IsDay (day : Text) : Prop := day.length = 10

/-- A timestamp of a day and a time. -/
def Stamped (timestamp : Option Text) (time : Text) : Prop :=
  ∃ day, IsDay day ∧ timestamp = some (day ++ 'T' :: clockText time)

theorem exists_cons_four {t : Text} (h : 6 ≤ t.length) :
    ∃ a b c d s, t = a :: b :: c :: d :: s := by
  rcases t with _ | ⟨a, _ | ⟨b, _ | ⟨c, _ | ⟨d, s⟩⟩⟩⟩
  · exact absurd h (by simp)
  · exact absurd h (by simp)
  · exact absurd h (by simp)
  · exact absurd h (by simp)
  · exact ⟨a, b, c, d, s, rfl⟩

theorem clockText_injective {t t' : Text} (ht : 6 ≤ t.length) (ht' : 6 ≤ t'.length)
    (h : clockText t = clockText t') : t = t' := by
  obtain ⟨a, b, c, d, s, rfl⟩ := exists_cons_four ht
  obtain ⟨a', b', c', d', s', rfl⟩ := exists_cons_four ht'
  simp only [clockText, List.take_succ_cons, List.take_zero, List.drop_succ_cons, List.drop_zero,
    List.cons_append, List.nil_append, List.cons.injEq, List.append_cancel_right_eq, true_and] at h
  obtain ⟨rfl, rfl, rfl, rfl, rfl⟩ := h
  rfl

theorem timeOfDay_of_stamped {timestamp : Option Text} {t : Text} (h : Stamped timestamp t) :
    timestamp.map timeOfDay = some (clockText t) := by
  obtain ⟨day, hday, rfl⟩ := h
  have hlen : (day ++ ['T']).length = 11 := by
    rw [List.length_append, hday]
    rfl
  rw [Option.map_some, timeOfDay, List.append_cons, List.drop_left' hlen]

theorem length_utc {s : Sentence} {t : Text} (h : s.utc = some t) : 6 ≤ t.length := by
  unfold Sentence.utc at h
  split at h
  · split at h
    · cases h
      assumption
    · cases h
  · split at h
    · cases h
      assumption
    · cases h
  · split at h
    · rename_i hlen
      cases h
      exact hlen.1
    · cases h
  · cases h

/-! ## What a sentence makes of the timestamp -/

theorem hmsDmyToIso_dated {t date : Text} (ht : 6 ≤ t.length) (hdate : 6 ≤ date.length) :
    ∃ day, IsDay day ∧ hmsDmyToIso t (some date) = some (day ++ 'T' :: clockText t) ∧
      (day ++ 'T' :: clockText t).head? = some '2' := by
  refine ⟨"20".toList ++ (date.drop 4).take 2 ++ '-' :: (date.drop 2).take 2 ++ '-' ::
    date.take 2, ?_, ?_, ?_⟩
  · simp only [IsDay, List.length_append, List.length_cons, List.length_take, List.length_drop]
    have : "20".toList.length = 2 := rfl
    omega
  · rw [hmsDmyToIso, if_neg (not_lt.mpr ht)]
    dsimp only
    rw [if_pos hdate, clockText]
    simp only [List.append_assoc, List.cons_append]
  · rfl

/-- Without a date there is no timestamp of its own. -/
theorem hmsDmyToIso_undated {t iso : Text} {date : Option Text}
    (hdate : ∀ d, date = some d → ¬ 6 ≤ d.length) (h : hmsDmyToIso t date = some iso) :
    iso.head? = some 'T' := by
  rw [hmsDmyToIso] at h
  split at h
  · cases h
  · dsimp only at h
    split at h
    · cases h
      rfl
    · rename_i d
      rw [if_neg (hdate d rfl)] at h
      cases h
      rfl

/-- A GGA or a GNS sentence with a time. -/
theorem stamped_today {t today : Text} (htoday : IsDay today) :
    Stamped (some (today ++ 'T' :: t.take 2 ++ ':' :: (t.drop 2).take 2 ++ ':' ::
      t.drop 4 ++ ['Z'])) t := by
  refine ⟨today, htoday, ?_⟩
  rw [clockText]
  simp only [List.append_assoc, List.cons_append]

/-- What a sentence without a date of its own makes of the timestamp. -/
def Listener.fillsIn (t today : Text) (cur : Option Text) : Option Text :=
  if 6 ≤ t.length ∧ cur.getD [] = [] then
    some (today ++ 'T' :: t.take 2 ++ ':' :: (t.drop 2).take 2 ++ ':' :: t.drop 4 ++ ['Z'])
  else cur

/-- The ways a sentence can change the timestamp. -/
inductive Sets (parsed : Sentence) (today : Text) (cur : Option Text) : Option Text → Prop where
  /-- An RMC sentence with a date. -/
  | dated {t : Text} {timestamp : Option Text} (hdated : parsed.datedUtc = some t)
      (hutc : parsed.utc = some t) (hstamped : Stamped timestamp t) :
      Sets parsed today cur timestamp
  /-- A GGA or a GNS sentence, when there is no timestamp. -/
  | filled {t : Text} {timestamp : Option Text} (hdated : parsed.datedUtc = none)
      (hutc : parsed.utc = some t) (hcur : cur.getD [] = []) (hstamped : Stamped timestamp t) :
      Sets parsed today cur timestamp
  /-- A GGA or a GNS sentence, when there is one. -/
  | passed {t : Text} (hdated : parsed.datedUtc = none) (hutc : parsed.utc = some t)
      (hcur : cur.getD [] ≠ []) : Sets parsed today cur cur
  | timeless (hdated : parsed.datedUtc = none) (hutc : parsed.utc = none) :
      Sets parsed today cur cur

theorem sets_fillsIn {parsed : Sentence} {t today : Text} (htoday : IsDay today)
    (cur : Option Text) (hdated : parsed.datedUtc = none)
    (hutc : parsed.utc = if 6 ≤ t.length then some t else none) :
    Sets parsed today cur (Listener.fillsIn t today cur) := by
  rw [Listener.fillsIn]
  by_cases hlen : 6 ≤ t.length
  · rw [if_pos hlen] at hutc
    by_cases hcur : cur.getD [] = []
    · rw [if_pos ⟨hlen, hcur⟩]
      exact .filled hdated hutc hcur (stamped_today htoday)
    · rw [if_neg fun h ↦ hcur h.2]
      exact .passed hdated hutc hcur
  · rw [if_neg hlen] at hutc
    rw [if_neg fun h ↦ hlen h.1]
    exact .timeless hdated hutc

/-- What an RMC sentence makes of the timestamp. -/
def Listener.takesIso (iso cur : Option Text) : Option Text :=
  match iso with
  | some iso => if iso ≠ [] ∧ iso.head? ≠ some 'T' then some iso else cur
  | none => cur

theorem stamped_takesIso {t date : Text} (ht : 6 ≤ t.length) (hdate : 6 ≤ date.length)
    (cur : Option Text) : Stamped (Listener.takesIso (hmsDmyToIso t (some date)) cur) t := by
  obtain ⟨day, hday, hiso, hhead⟩ := hmsDmyToIso_dated ht hdate
  refine ⟨day, hday, ?_⟩
  rw [hiso, Listener.takesIso, if_pos]
  refine ⟨List.append_ne_nil_of_right_ne_nil day (List.cons_ne_nil _ _), ?_⟩
  rw [hhead]
  decide

theorem takesIso_eq_self {iso cur : Option Text} (h : ∀ i, iso = some i → i.head? = some 'T') :
    Listener.takesIso iso cur = cur := by
  cases iso with
  | none => rfl
  | some i => exact if_neg fun hi ↦ hi.2 (h i rfl)

theorem sets_rmc {parsed : Sentence} {time_utc date : Option Text} (today : Text)
    (cur : Option Text) (hdated : parsed.datedUtc = parsed.utc)
    (hutc : ∀ t, parsed.utc = some t ↔
      time_utc = some t ∧ 6 ≤ t.length ∧ ∃ d, date = some d ∧ 6 ≤ d.length) :
    Sets parsed today cur (Listener.takesIso (hmsDmyToIso (time_utc.getD []) date) cur) := by
  cases h : parsed.utc with
  | some t =>
      obtain ⟨rfl, ht, d, rfl, hd⟩ := (hutc t).mp h
      exact .dated (hdated.trans h) h (stamped_takesIso ht hd cur)
  | none =>
      have hself : Listener.takesIso (hmsDmyToIso (time_utc.getD []) date) cur = cur := by
        refine takesIso_eq_self fun iso hiso ↦ ?_
        refine hmsDmyToIso_undated (fun d hd hlen ↦ ?_) hiso
        -- then the time is too short
        cases time_utc with
        | none => cases hiso
        | some t =>
            have hshort : ¬ 6 ≤ t.length := fun ht ↦ by
              rw [(hutc t).mpr ⟨rfl, ht, d, hd, hlen⟩] at h
              cases h
            rw [Option.getD_some, hmsDmyToIso, if_pos (not_le.mp hshort)] at hiso
            cases hiso
      rw [hself]
      exact .timeless (hdated.trans h) h

theorem utc_rmc_iff {talker status : Text} {time_utc date : Option Text}
    {latitude longitude : Option ℚ} {speed_knots track_deg : Option PyFloat} (t : Text) :
    (Sentence.rmc talker time_utc status latitude longitude speed_knots track_deg date).utc =
      some t ↔ time_utc = some t ∧ 6 ≤ t.length ∧ ∃ d, date = some d ∧ 6 ≤ d.length := by
  cases time_utc with
  | none => exact iff_of_false nofun fun h ↦ nomatch h.1
  | some t' =>
      cases date with
      | none =>
          refine iff_of_false nofun ?_
          rintro ⟨-, -, d, hd, -⟩
          cases hd
      | some d =>
          rw [Sentence.utc]
          split
          · rename_i hlen
            constructor
            · intro h
              cases h
              exact ⟨rfl, hlen.1, d, rfl, hlen.2⟩
            · rintro ⟨h, -⟩
              exact h
          · rename_i hlen
            refine iff_of_false nofun ?_
            rintro ⟨h, ht, d', hd, hd'⟩
            cases h
            cases hd
            exact hlen ⟨ht, hd'⟩

theorem sets_timestamp (parsed : Sentence) {today : Text} (htoday : IsDay today)
    (cur : Option Text) : Sets parsed today cur (Listener.timestamp parsed today cur) := by
  cases parsed with
  | gga talker time_utc =>
      cases time_utc with
      | none => exact .timeless rfl rfl
      | some t => exact sets_fillsIn htoday cur rfl rfl
  | gns talker time_utc =>
      cases time_utc with
      | none => exact .timeless rfl rfl
      | some t => exact sets_fillsIn htoday cur rfl rfl
  | rmc talker time_utc status latitude longitude speed_knots track_deg date =>
      exact sets_rmc today cur rfl utc_rmc_iff
  | gll => exact .timeless rfl rfl
  | vtg => exact .timeless rfl rfl
  | gsv => exact .timeless rfl rfl

/-! ## Runs -/

/-- The first value that what was heard gives a key. -/
def firstOf {α : Type} (key : Sentence → Option α) (hist : List Heard) : Option α :=
  (hist.filterMap fun e ↦ key e.sentence).head?

theorem firstOf_append {α : Type} (key : Sentence → Option α) (hist : List Heard) (e : Heard) :
    firstOf key (hist ++ [e]) = (firstOf key hist).or (key e.sentence) := by
  rw [firstOf, firstOf, List.filterMap_append, List.head?_append]
  cases h : key e.sentence with
  | none => simp [h]
  | some a => simp [h]

/-- The time that the fix shows: that of the last RMC sentence with a date, or that of the
first sentence with a time. -/
def shownUtc (hist : List Heard) : Option Text :=
  (lastOf Sentence.datedUtc hist).or (firstOf Sentence.utc hist)

theorem shownUtc_append (hist : List Heard) (e : Heard) : shownUtc (hist ++ [e]) =
    e.sentence.datedUtc.or ((shownUtc hist).or e.sentence.utc) := by
  rw [shownUtc, shownUtc, lastOf_append, firstOf_append, Option.or_assoc, Option.or_assoc]

/-- The timestamp of the fix against what was heard. -/
structure ShowsTime (l : Listener) (hist : List Heard) : Prop where
  fresh : shownUtc hist = none → l.fix.timestamp = none
  stamped : ∀ t, shownUtc hist = some t → Stamped l.fix.timestamp t

theorem showsTime_init (port : ℕ) (bind : Text) : ShowsTime (.init port bind) [] :=
  ⟨fun _ ↦ rfl, fun _ h ↦ nomatch h⟩

theorem Stamped.getD_ne_nil {timestamp : Option Text} {t : Text} (h : Stamped timestamp t) :
    timestamp.getD [] ≠ [] := by
  obtain ⟨day, -, rfl⟩ := h
  exact List.append_ne_nil_of_right_ne_nil day (List.cons_ne_nil _ _)

namespace ShowsTime

variable {l l' : Listener} {hist : List Heard}

theorem congr (h : ShowsTime l hist) (hfix : l'.fix.timestamp = l.fix.timestamp) :
    ShowsTime l' hist where
  fresh hno := by rw [hfix, h.fresh hno]
  stamped t ht := by rw [hfix]; exact h.stamped t ht

theorem of_stamped {t : Text} (ht : shownUtc hist = some t) (h : Stamped l.fix.timestamp t) :
    ShowsTime l hist where
  fresh hno := by
    rw [ht] at hno
    cases hno
  stamped t' ht' := by
    rw [ht] at ht'
    cases ht'
    exact h

/-- A listener shows a time exactly when it has a timestamp. -/
theorem getD_eq_nil_iff (h : ShowsTime l hist) :
    l.fix.timestamp.getD [] = [] ↔ shownUtc hist = none := by
  cases ht : shownUtc hist with
  | none => exact iff_of_true (by rw [h.fresh ht]; rfl) rfl
  | some t => exact iff_of_false (h.stamped t ht).getD_ne_nil (Option.some_ne_none t)

theorem consume (h : ShowsTime l hist) (parsed : Sentence) (addr : Addr) (now : ℚ) {today : Text}
    (htoday : IsDay today) :
    ShowsTime (l.consume parsed addr now today) (hist ++ [⟨parsed, addr, now⟩]) := by
  have hshown := shownUtc_append hist ⟨parsed, addr, now⟩
  have hts : (l.consume parsed addr now today).fix.timestamp =
      Listener.timestamp parsed today l.fix.timestamp := rfl
  have hsets := sets_timestamp parsed htoday l.fix.timestamp
  rw [← hts] at hsets
  generalize hcur : l.fix.timestamp = cur at hsets
  generalize hnew : (l.consume parsed addr now today).fix.timestamp = new at hsets
  cases hsets with
  | @dated t _ hdated hutc hstamped =>
      rw [hdated] at hshown
      exact .of_stamped hshown (hnew ▸ hstamped)
  | @filled t _ hdated hutc hempty hstamped =>
      have hno : shownUtc hist = none := h.getD_eq_nil_iff.mp (hcur ▸ hempty)
      rw [hdated, hutc, hno] at hshown
      exact .of_stamped hshown (hnew ▸ hstamped)
  | @passed t hdated hutc hfull =>
      cases ht : shownUtc hist with
      | none => exact absurd (h.getD_eq_nil_iff.mpr ht) (hcur ▸ hfull)
      | some t' =>
          rw [hdated, ht] at hshown
          exact .of_stamped hshown (hnew ▸ hcur ▸ h.stamped t' ht)
  | timeless hdated hutc =>
      rw [hdated, hutc, Option.none_or, Option.or_none] at hshown
      exact ⟨fun hno ↦ by rw [hnew, ← hcur]; exact h.fresh (hshown ▸ hno),
        fun t ht ↦ by rw [hnew, ← hcur]; exact h.stamped t (hshown ▸ ht)⟩

theorem keeps : Keeps IsDay ShowsTime where
  congr := fun _ _ _ h _ _ hfix _ ↦ h.congr (congrArg GpsFix.timestamp hfix)
  consume := fun _ _ parsed addr now _ htoday h ↦ h.consume parsed addr now htoday
  snapshot := fun l _ now h ↦ h.congr (by
    unfold Listener.snapshot
    split
    · dsimp only
      split <;> rfl
    · rfl)

end ShowsTime

theorem utc_of_datedUtc {s : Sentence} {t : Text} (h : s.datedUtc = some t) : s.utc = some t := by
  cases s with
  | rmc => exact h
  | _ => cases h

/-- A time that was heard of has six characters at least. -/
theorem length_of_mem {key : Sentence → Option Text} (hkey : ∀ s t, key s = some t → s.utc = some t)
    {hist : List Heard} {t : Text} (h : t ∈ hist.filterMap fun e ↦ key e.sentence) :
    6 ≤ t.length := by
  obtain ⟨e, -, he⟩ := List.mem_filterMap.mp h
  exact length_utc (hkey e.sentence t he)

theorem length_of_lastOf {hist : List Heard} {t : Text}
    (h : lastOf Sentence.utc hist = some t) : 6 ≤ t.length :=
  length_of_mem (fun _ _ h ↦ h) (List.mem_of_getLast? h)

theorem length_shownUtc {hist : List Heard} {t : Text} (h : shownUtc hist = some t) :
    6 ≤ t.length := by
  rcases Option.or_eq_some_iff.mp h with h | ⟨-, h⟩
  · exact length_of_mem (fun _ _ h ↦ utc_of_datedUtc h) (List.mem_of_getLast? h)
  · exact length_of_mem (fun _ _ h ↦ h) (List.mem_of_head? h)

theorem ShowsTime.timeOfDay_iff {l : Listener} {hist : List Heard} (h : ShowsTime l hist) {t : Text}
    (ht : 6 ≤ t.length) :
    l.fix.timestamp.map timeOfDay = some (clockText t) ↔ shownUtc hist = some t := by
  cases hshown : shownUtc hist with
  | none =>
      rw [h.fresh hshown]
      exact iff_of_false (Option.some_ne_none _).symm (Option.some_ne_none _).symm
  | some t' =>
      rw [timeOfDay_of_stamped (h.stamped t' hshown), Option.some_inj, Option.some_inj]
      exact ⟨clockText_injective (length_shownUtc hshown) ht, congrArg clockText⟩

/-- The time of the fix is the last that was heard of if and only if that is the time of the
last RMC sentence with a date or, when there was no such sentence, of the first with a time. -/
theorem timestamp_follows_iff {port : ℕ} {bind : Text} {ls : List Label} {l : Listener}
    (hrun : Listener.step.run (.init port bind) ls = some l)
    (hdays : ∀ label ∈ ls, label.Days IsDay) :
    (∀ t, lastOf Sentence.utc (heard ls) = some t →
      l.fix.timestamp.map timeOfDay = some (clockText t)) ↔
    ∀ t, lastOf Sentence.utc (heard ls) = some t →
      lastOf Sentence.datedUtc (heard ls) = some t ∨
      lastOf Sentence.datedUtc (heard ls) = none ∧ firstOf Sentence.utc (heard ls) = some t := by
  have hshows : ShowsTime l (heard ls) :=
    ShowsTime.keeps.run (showsTime_init port bind) hdays hrun
  refine forall₂_congr fun t ht ↦ ?_
  rw [← Option.or_eq_some_iff, ← shownUtc]
  exact hshows.timeOfDay_iff (length_of_lastOf ht)

/-- A GGA sentence of some time. -/
def ggaAt (hhmmss checksum : String) (time : ℚ) : Label :=
  .sentence
    ("$GPGGA," ++ hhmmss ++ ",4807.038,N,01131.000,E,1,08,0.9,545.4,M,46.9,M,,*" ++ checksum) time

theorem days_ggaAt (hhmmss checksum : String) (time : ℚ) :
    (ggaAt hhmmss checksum time).Days IsDay :=
  fun _ ↦ rfl

theorem timestamp_follows_gga : ∃ l,
    Listener.step.run (.init 8500 "0.0.0.0".toList) [ggaAt "123519" "47" 1000] = some l ∧
    l.fix.timestamp.map timeOfDay = some (clockText "123519".toList) := by
  have hlast : lastOf Sentence.utc (heard [ggaAt "123519" "47" 1000]) = some "123519".toList := by
    decide +kernel
  have hfirst : firstOf Sentence.utc (heard [ggaAt "123519" "47" 1000]) = some "123519".toList ∧
      lastOf Sentence.datedUtc (heard [ggaAt "123519" "47" 1000]) = none := by decide +kernel
  obtain ⟨l, hl⟩ : ∃ l, Listener.step.run (.init 8500 "0.0.0.0".toList)
      [ggaAt "123519" "47" 1000] = some l := ⟨_, rfl⟩
  refine ⟨l, hl, (timestamp_follows_iff hl ?_).mpr (fun t ht ↦ ?_) _ hlast⟩
  · exact List.forall_mem_singleton.mpr (days_ggaAt _ _ _)
  · rw [hlast] at ht
    cases ht
    exact .inr ⟨hfirst.2, hfirst.1⟩

/-- On a stream of GGA sentences the time stands still. -/
theorem timestamp_frozen : ∃ l,
    Listener.step.run (.init 8500 "0.0.0.0".toList)
      [ggaAt "123519" "47" 1000, ggaAt "123520" "4D" 1001] = some l ∧
    lastOf Sentence.utc (heard [ggaAt "123519" "47" 1000, ggaAt "123520" "4D" 1001]) =
      some "123520".toList ∧
    l.fix.timestamp.map timeOfDay = some (clockText "123519".toList) ∧
    l.fix.timestamp.map timeOfDay ≠ some (clockText "123520".toList) := by
  have hlast : lastOf Sentence.utc (heard [ggaAt "123519" "47" 1000, ggaAt "123520" "4D" 1001]) =
      some "123520".toList := by decide +kernel
  have hrun : (Listener.step.run (.init 8500 "0.0.0.0".toList)
      [ggaAt "123519" "47" 1000, ggaAt "123520" "4D" 1001]).map
      (fun l ↦ l.fix.timestamp.map timeOfDay) = some (some (clockText "123519".toList)) := by
    decide +kernel
  obtain ⟨l, hl, htime⟩ := Option.map_eq_some_iff.mp hrun
  refine ⟨l, hl, hlast, htime, ?_⟩
  rw [htime]
  decide

end SensorFusion.Gps
