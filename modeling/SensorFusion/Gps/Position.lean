import SensorFusion.Gps.Listener

/-!
# Where a fix's position comes from

`consume` takes a latitude and a longitude from any sentence that carries one, each by
itself, and the status only from sentences of three kinds.  So what is shown is decided
by the last sentence that carried a coordinate, and whether it is shown as a fix by the
last sentence with a status.  The two agree when `Attested` holds.
-/

namespace SensorFusion.Gps

open Text

namespace Sentence

/-- The sentence says of itself that its position is valid. -/
def declaresValid : Sentence → Bool
  | .rmc _ _ status .. | .gll _ _ _ _ status => status = ['A']
  | .gga _ _ _ _ fix_quality .. | .gns _ _ _ _ _ fix_quality .. => 0 < fix_quality
  | _ => false

def hasCoordinate (s : Sentence) : Bool := s.latitude.isSome || s.longitude.isSome

def hasPosition (s : Sentence) : Bool := s.latitude.isSome && s.longitude.isSome

end Sentence

/-- One sentence that was consumed, with a valid checksum, declares its position valid,
and the fix shows that position. -/
def Vouched (hist : List Heard) (fix : GpsFix) : Prop :=
  ∃ e ∈ hist, (∃ line, checksumOk (strip line) = true ∧
      parseSentence line = .ok (some e.sentence)) ∧
    e.sentence.declaresValid = true ∧ e.sentence.hasPosition = true ∧
      e.sentence.latitude = fix.latitude ∧ e.sentence.longitude = fix.longitude

/-- The last sentence that carried a coordinate. -/
def lastCoordinate (hist : List Heard) : Option Heard :=
  (hist.filter fun e ↦ e.sentence.hasCoordinate).getLast?

/-- When what was heard makes a fix, the last sentence that carried a coordinate carried
both and declared them valid. -/
def Attested (hist : List Heard) : Prop :=
  Fixed hist → ∀ e ∈ lastCoordinate hist,
    e.sentence.declaresValid = true ∧ e.sentence.hasPosition = true

/-- The coordinates of the last sentence that carried one are the last ones. -/
theorem lastOf_of_lastCoordinate {hist : List Heard} {e : Heard}
    (he : lastCoordinate hist = some e) :
    (∀ x, e.sentence.latitude = some x → lastOf Sentence.latitude hist = some x) ∧
      ∀ x, e.sentence.longitude = some x → lastOf Sentence.longitude hist = some x := by
  constructor
  · intro x hx
    exact lastOf_of_getLast?_filter (fun s hs ↦ by simp [Sentence.hasCoordinate, hs]) he hx
  · intro x hx
    exact lastOf_of_getLast?_filter (fun s hs ↦ by simp [Sentence.hasCoordinate, hs]) he hx

/-- If a latitude was heard then there is a last sentence with a coordinate. -/
theorem exists_lastCoordinate {hist : List Heard}
    (h : (lastOf Sentence.latitude hist).isSome) : ∃ e, lastCoordinate hist = some e := by
  obtain ⟨x, hx⟩ := Option.isSome_iff_exists.mp h
  obtain ⟨e, he, hlat⟩ := List.mem_filterMap.mp (List.mem_of_getLast? hx)
  have hmem : e ∈ hist.filter fun e ↦ e.sentence.hasCoordinate :=
    List.mem_filter.mpr ⟨he, by simp [Sentence.hasCoordinate, hlat]⟩
  exact ⟨_, List.getLast?_eq_some_getLast (List.ne_nil_of_mem hmem)⟩

/-- A snapshot keeps the coordinates, and is not ok unless the fix is. -/
theorem snapshot_keeps (l : Listener) (now : ℚ) :
    (l.snapshot now).1.latitude = l.fix.latitude ∧
      (l.snapshot now).1.longitude = l.fix.longitude ∧
      ((l.snapshot now).1.ok = true → l.fix.ok = true) := by
  unfold Listener.snapshot
  split
  · dsimp only
    split
    · exact ⟨rfl, rfl, fun h ↦ nomatch h⟩
    · exact ⟨rfl, rfl, fun h ↦ h⟩
  · exact ⟨rfl, rfl, fun h ↦ h⟩

/-- In every run whose sentences attest the position, a snapshot that is ok is vouched
for by one sentence.  In any other run the fix is ok although the last sentence that
carried a coordinate, of which it shows what there is, lacks the other coordinate or does
not declare them valid. -/
theorem ok_vouched {port : ℕ} {bind : Text} {ls : List Label} {l : Listener}
    (hrun : Listener.step.run (.init port bind) ls = some l) :
    (Attested (heard ls) → ∀ now, (l.snapshot now).1.ok = true →
      Vouched (heard ls) (l.snapshot now).1) ∧
    (¬ Attested (heard ls) → l.fix.ok = true ∧ ∃ e, lastCoordinate (heard ls) = some e ∧
      ¬ (e.sentence.declaresValid = true ∧ e.sentence.hasPosition = true) ∧
      (∀ x, e.sentence.latitude = some x → l.fix.latitude = some x) ∧
      ∀ x, e.sentence.longitude = some x → l.fix.longitude = some x) := by
  have htracks : Tracks l (heard ls) := (tracks_init port bind).run hrun
  constructor
  · intro hatt now hok
    obtain ⟨hlat, hlon, hfix⟩ := snapshot_keeps l now
    have hfixed := htracks.ok.mp (hfix hok)
    obtain ⟨e, he⟩ := exists_lastCoordinate hfixed.1
    obtain ⟨hvalid, hpos⟩ := hatt hfixed e he
    have hmem : e ∈ heard ls := (List.mem_filter.mp (List.mem_of_getLast? he)).1
    obtain ⟨line, hline⟩ := heard_parsed hmem
    obtain ⟨hx, hy⟩ := Bool.and_eq_true_iff.mp hpos
    obtain ⟨x, hx⟩ := Option.isSome_iff_exists.mp hx
    obtain ⟨y, hy⟩ := Option.isSome_iff_exists.mp hy
    refine ⟨e, hmem, ⟨line, checksumOk_of_parseSentence hline, hline⟩, hvalid, hpos, ?_, ?_⟩
    · rw [hlat, htracks.latitude, hx, (lastOf_of_lastCoordinate he).1 x hx]
    · rw [hlon, htracks.longitude, hy, (lastOf_of_lastCoordinate he).2 y hy]
  · intro hno
    unfold Attested at hno
    push Not at hno
    obtain ⟨hfixed, e, he, hbad⟩ := hno
    refine ⟨htracks.ok.mpr hfixed, e, he, fun h ↦ hbad h.1 h.2, ?_, ?_⟩
    · intro x hx
      rw [htracks.latitude, (lastOf_of_lastCoordinate he).1 x hx]
    · intro x hx
      rw [htracks.longitude, (lastOf_of_lastCoordinate he).2 x hx]

/-- An RMC sentence with a valid position. -/
def rmcAt (time : ℚ) : Label :=
  .sentence "$GPRMC,123519,A,4807.038,N,01131.000,E,022.4,084.4,230394,003.1,W*6A" time

/-- A GLL sentence with a position that it marks void. -/
def voidGllAt (time : ℚ) : Label := .sentence "$GPGLL,2730.222,S,15305.547,E,123520,V*27" time

/-- A valid RMC sentence vouches for itself. -/
theorem ok_vouched_rmc : ∃ l,
    Listener.step.run (.init 8500 "0.0.0.0".toList) [rmcAt 1000] = some l ∧
    (l.snapshot 1001).1.ok = true ∧ Vouched (heard [rmcAt 1000]) (l.snapshot 1001).1 := by
  have hrun : (Listener.step.run (.init 8500 "0.0.0.0".toList) [rmcAt 1000]).map
      (fun l ↦ (l.snapshot 1001).1.ok) = some true := by decide +kernel
  have hall : (lastCoordinate (heard [rmcAt 1000])).all
      (fun e ↦ e.sentence.declaresValid && e.sentence.hasPosition) = true := by decide +kernel
  obtain ⟨l, hl, hok⟩ := Option.map_eq_some_iff.mp hrun
  refine ⟨l, hl, hok, (ok_vouched hl).1 (fun _ e he ↦ ?_) 1001 hok⟩
  rw [Option.mem_def.mp he] at hall
  exact Bool.and_eq_true_iff.mp hall

/-- After a valid RMC sentence a GLL sentence marked void moves the position of a fix
that stays ok. -/
theorem void_gll_shown : ∃ l,
    Listener.step.run (.init 8500 "0.0.0.0".toList) [rmcAt 1000, voidGllAt 1001] = some l ∧
    (l.snapshot 1002).1.ok = true ∧
    (l.snapshot 1002).1.latitude = some (-(27 + 30222 / 60000)) ∧
    ¬ Vouched (heard [rmcAt 1000, voidGllAt 1001]) (l.snapshot 1002).1 := by
  have hrun : (Listener.step.run (.init 8500 "0.0.0.0".toList) [rmcAt 1000, voidGllAt 1001]).map
      (fun l ↦ ((l.snapshot 1002).1.ok, (l.snapshot 1002).1.latitude)) =
        some (true, some (-(27 + 30222 / 60000))) := by decide +kernel
  have hvoid : ∀ e ∈ heard [rmcAt 1000, voidGllAt 1001], e.sentence.declaresValid = true →
      e.sentence.latitude ≠ some (-(27 + 30222 / 60000)) := by decide +kernel
  obtain ⟨l, hl, hval⟩ := Option.map_eq_some_iff.mp hrun
  obtain ⟨hok, hlat⟩ := Prod.mk.inj hval
  refine ⟨l, hl, hok, hlat, ?_⟩
  rintro ⟨e, he, -, hvalid, -, hx, -⟩
  exact hvoid e he hvalid (hx.trans hlat)

end SensorFusion.Gps
