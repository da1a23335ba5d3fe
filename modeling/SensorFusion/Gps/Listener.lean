import SensorFusion.Gps.Nmea
import SensorFusion.Lib.Dict
import SensorFusion.Lib.Machine

/-!
# The NMEA listener

The listener owns the latest fix.  A datagram is taken line by line: a line that is
understood is consumed, another one that starts with a dollar is noted, and an exception
in a line ends the datagram there.  A snapshot reads the fix.

`Heard` is what the listener took in, sentence by sentence, and `Tracks` says what the
fix has kept of it: of each coordinate the last value that was heard, and the status that
the last sentence of a kind with a status of its own gave it.
-/

namespace SensorFusion.Gps

open Text

/-- `STALE_AFTER_S`. -/
def STALE_AFTER_S : ℚ := 10

inductive FixStatus where
  | valid
  | no_fix
deriving DecidableEq, Repr

/-- `GpsFix`. -/
structure GpsFix where
  ok : Bool
  error : Option Text
  source : Text
  fix_status : Option FixStatus
  latitude : Option ℚ
  longitude : Option ℚ
  altitude : Option PyFloat
  accuracy : Option PyFloat
  satellites : Option ℤ
  speed : Option PyFloat
  angle : Option PyFloat
  timestamp : Option Text
  last_sentence : Option Text
  age_s : Option ℚ
  raw : Option (Dict Text Sentence)
deriving DecidableEq

/-- A sender. -/
structure Addr where
  host : Text
  port : ℕ
deriving DecidableEq

/-- An item of `_raw_datagrams`. -/
structure RawDatagram where
  sender : Text
  bytes : ℕ
  hex_first_64 : Text
  ascii : Text
deriving DecidableEq

/-- `NmeaListener`. -/
structure Listener where
  port : ℕ
  bind : Text
  fix : GpsFix
  last_update : ℚ
  raw : Dict Text Sentence
  raw_datagrams : List RawDatagram
  unparsed : List Text
  prefix_seen : Option Text
  datagrams_total : ℕ
  sentences_parsed : ℕ
  sentences_unparsed : ℕ
deriving DecidableEq

/-- `f"udp/{bind}:{port}"`. -/
def udp (bind : Text) (port : ℕ) : Text := "udp/".toList ++ bind ++ ':' :: Nat.toDigits 10 port

namespace Listener

/-- `NmeaListener.__init__`. -/
def init (port : ℕ) (bind : Text) : Listener where
  port := port
  bind := bind
  fix := ⟨false, some "no NMEA received yet".toList, udp bind port, none, none, none, none, none,
    none, none, none, none, none, none, none⟩
  last_update := 0
  raw := ∅
  raw_datagrams := []
  unparsed := []
  prefix_seen := none
  datagrams_total := 0
  sentences_parsed := 0
  sentences_unparsed := 0

/-- `record_raw`: the last ten datagrams are kept. -/
def recordRaw (l : Listener) (data : List UInt8) (addr : Addr) : Listener :=
  let items := l.raw_datagrams ++ [⟨addr.host ++ ':' :: Nat.toDigits 10 addr.port, data.length,
    hex (data.take 64), decodeAscii (data.take 200)⟩]
  { l with
    datagrams_total := l.datagrams_total + 1
    raw_datagrams := if 10 < items.length then items.tail else items }

/-- `note_prefix`. -/
def notePrefix (l : Listener) (pre : Text) : Listener :=
  if pre ≠ [] ∧ some pre ≠ l.prefix_seen then { l with prefix_seen := some pre } else l

/-- `note_unparsed`: the last ten lines are kept. -/
def noteUnparsed (l : Listener) (line : Text) : Listener :=
  let lines := l.unparsed ++ [line]
  { l with
    sentences_unparsed := l.sentences_unparsed + 1
    unparsed := if 10 < lines.length then lines.tail else lines }

/-- The status that a sentence gives the fix. -/
def fixStatus (parsed : Sentence) (cur : Option FixStatus) : Option FixStatus :=
  match parsed with
  | .rmc _ _ status .. => some (if status = ['A'] then .valid else .no_fix)
  | .gga _ _ _ _ fix_quality .. | .gns _ _ _ _ _ fix_quality .. =>
      some (if 0 < fix_quality then .valid else .no_fix)
  | _ => cur

/-- The timestamp that a sentence gives the fix; `today` is the date in UTC. -/
def timestamp (parsed : Sentence) (today : Text) (cur : Option Text) : Option Text :=
  match parsed with
  | .rmc _ time_utc _ _ _ _ _ date =>
      match hmsDmyToIso (time_utc.getD []) date with
      | some iso => if iso ≠ [] ∧ iso.head? ≠ some 'T' then some iso else cur
      | none => cur
  | .gga _ (some iso_time) .. | .gns _ (some iso_time) .. =>
      if 6 ≤ iso_time.length ∧ cur.getD [] = [] then
        some (today ++ 'T' :: iso_time.take 2 ++ ':' :: (iso_time.drop 2).take 2 ++ ':' ::
          iso_time.drop 4 ++ ['Z'])
      else cur
  | _ => cur

/-- `consume`, at the time `now` and on the day `today`. -/
def consume (l : Listener) (parsed : Sentence) (addr : Addr) (now : ℚ) (today : Text) : Listener :=
  let cur := l.fix
  let latitude := parsed.latitude.or cur.latitude
  let longitude := parsed.longitude.or cur.longitude
  let fix_status := fixStatus parsed cur.fix_status
  let ok := latitude.isSome && longitude.isSome && fix_status = some .valid
  { l with
    raw := l.raw.set parsed.type parsed
    last_update := now
    sentences_parsed := l.sentences_parsed + 1
    fix := { cur with
      latitude := latitude
      longitude := longitude
      altitude := parsed.altitude.or cur.altitude
      accuracy := parsed.hdop.or cur.accuracy
      satellites := parsed.satellites.or cur.satellites
      speed := parsed.speed_knots.or cur.speed
      angle := parsed.track_deg.getD cur.angle
      fix_status := fix_status
      timestamp := timestamp parsed today cur.timestamp
      last_sentence := some (parsed.talker ++ parsed.type)
      source := udp l.bind l.port ++ " (from ".toList ++ addr.host ++ [')']
      ok := ok
      error := if ok then none
        else some (if fix_status = some .no_fix then "no_fix".toList
          else "incomplete fix".toList) } }

/-- One line of a datagram. -/
def line (l : Listener) (addr : Addr) (now : ℚ) (today : Text) (line : Text) :
    Except ParseError Listener :=
  let line := strip line
  if line.head? = some '$' then
    match parseSentence line with
    | .error exc => .error exc
    | .ok none => .ok (l.noteUnparsed line)
    | .ok (some parsed) => .ok (l.consume parsed addr now today)
  else .ok l

/-- The lines of a datagram from number `i` on; `clock` and `today` are read at each
line.  An exception leaves the loop, with what was done so far. -/
def lines (addr : Addr) (clock : ℕ → ℚ) (today : ℕ → Text) :
    ℕ → List Text → Listener → Listener × Option ParseError
  | _, [], l => (l, none)
  | i, text :: texts, l =>
      match l.line addr (clock i) (today i) text with
      | .error exc => (l, some exc)
      | .ok l => lines addr clock today (i + 1) texts l

/-- `datagram_received`; the event loop logs an exception and goes on. -/
def datagramReceived (l : Listener) (data : List UInt8) (addr : Addr) (clock : ℕ → ℚ)
    (today : ℕ → Text) : Listener × Option ParseError :=
  let l := l.recordRaw data addr
  let text := decodeAscii data
  if '$' ∈ text then
    let pre := text.takeWhile (· ≠ '$')
    let l := if pre ≠ [] then l.notePrefix pre else l
    lines addr clock today 0 (splitlines (text.dropWhile (· ≠ '$'))) l
  else (l, none)

/-- `snapshot` at the time `now`: what it returns, and the listener after it. -/
def snapshot (l : Listener) (now : ℚ) : GpsFix × Listener :=
  if l.last_update ≠ 0 then
    let age := roundTo 3 (now - l.last_update)
    let f := { l.fix with age_s := some age }
    if age ≠ 0 ∧ STALE_AFTER_S < age then
      ({ f with
        ok := false
        error := some ("stale fix (".toList ++ formatFixed 1 age ++ "s old)".toList)
        raw := some l.raw },
      { l with fix := f })
    else ({ f with raw := some l.raw }, { l with fix := { f with raw := some l.raw } })
  else ({ l.fix with raw := some l.raw }, { l with fix := { l.fix with raw := some l.raw } })

end Listener

/-! ## Runs -/

/-- What happens to a listener. -/
inductive Label where
  | datagram (data : List UInt8) (addr : Addr) (clock : ℕ → ℚ) (today : ℕ → Text)
  | snapshot (now : ℚ)

/-- The listener as a machine, which can always go on. -/
def Listener.step : Machine Listener Label
  | l, .datagram data addr clock today => some (l.datagramReceived data addr clock today).1
  | l, .snapshot now => some (l.snapshot now).2

/-- A sentence that was consumed, with its sender and the time. -/
structure Heard where
  sentence : Sentence
  addr : Addr
  time : ℚ

/-- `s.encode()`, of a string in ASCII. -/
def encodeAscii (s : String) : List UInt8 := s.toList.map fun c ↦ UInt8.ofNat c.toNat

/-- A datagram of one sentence. -/
def Label.sentence (s : String) (time : ℚ) : Label :=
  .datagram (encodeAscii s) ⟨"192.0.2.7".toList, 40000⟩ (fun _ ↦ time) fun _ ↦ "2026-01-01".toList

/-- What is consumed of the lines of a datagram, from number `i` on. -/
def heardLines (addr : Addr) (clock : ℕ → ℚ) : ℕ → List Text → List Heard
  | _, [] => []
  | i, text :: texts =>
      if (strip text).head? = some '$' then
        match parseSentence (strip text) with
        | .error _ => []
        | .ok none => heardLines addr clock (i + 1) texts
        | .ok (some parsed) => ⟨parsed, addr, clock i⟩ :: heardLines addr clock (i + 1) texts
      else heardLines addr clock (i + 1) texts

/-- What is consumed of a datagram: the sentences of its lines, from the first dollar
on. -/
def Label.heard : Label → List Heard
  | .datagram data addr clock _ =>
      heardLines addr clock 0 (splitlines ((decodeAscii data).dropWhile (· ≠ '$')))
  | .snapshot _ => []

/-- What is consumed in a run. -/
def heard (ls : List Label) : List Heard := ls.flatMap Label.heard

/-- Whatever is consumed was decoded. -/
theorem heardLines_parsed {addr : Addr} {clock : ℕ → ℚ} {i : ℕ} {texts : List Text} {e : Heard}
    (h : e ∈ heardLines addr clock i texts) :
    ∃ line, parseSentence line = .ok (some e.sentence) := by
  induction texts generalizing i with
  | nil => cases h
  | cons text texts ih =>
      rw [heardLines] at h
      split at h
      · split at h
        · cases h
        · exact ih h
        · rename_i parsed hparse
          rcases List.mem_cons.mp h with rfl | h
          · exact ⟨_, hparse⟩
          · exact ih h
      · exact ih h

theorem heard_parsed {ls : List Label} {e : Heard} (h : e ∈ heard ls) :
    ∃ line, parseSentence line = .ok (some e.sentence) := by
  obtain ⟨label, -, he⟩ := List.mem_flatMap.mp h
  cases label with
  | datagram data addr clock today => exact heardLines_parsed he
  | snapshot now => cases he

/-! ## What the fix keeps -/

/-- The last value that what was heard gives a key. -/
def lastOf {α : Type} (key : Sentence → Option α) (hist : List Heard) : Option α :=
  (hist.filterMap fun e ↦ key e.sentence).getLast?

/-- The status that a sentence declares, if it is of a kind that sets the fix status. -/
def Sentence.status (s : Sentence) : Option FixStatus := Listener.fixStatus s none

theorem lastOf_append {α : Type} (key : Sentence → Option α) (hist : List Heard) (e : Heard) :
    lastOf key (hist ++ [e]) = (key e.sentence).or (lastOf key hist) := by
  unfold lastOf
  rw [List.filterMap_append]
  cases h : key e.sentence with
  | none => simp [h]
  | some a => simp [h]

/-- When a sentence that gives a key is the last of those that may give it, its value is
the last one. -/
theorem lastOf_of_getLast?_filter {α : Type} {key : Sentence → Option α} {c : Sentence → Bool}
    (hc : ∀ s, (key s).isSome → c s = true) {hist : List Heard} {e : Heard}
    (he : (hist.filter fun e ↦ c e.sentence).getLast? = some e) {a : α}
    (ha : key e.sentence = some a) : lastOf key hist = some a := by
  have hfilter : lastOf key (hist.filter fun e ↦ c e.sentence) = lastOf key hist := by
    unfold lastOf
    rw [List.filterMap_filter]
    congr 1
    refine List.filterMap_congr fun x _ ↦ ?_
    cases hx : key x.sentence with
    | none => simp
    | some b => rw [hc x.sentence (by rw [hx]; rfl)]; rfl
  obtain ⟨front, hfront⟩ := List.getLast?_eq_some_iff.mp he
  rw [← hfilter, hfront, lastOf_append, ha]
  rfl

theorem fixStatus_eq (s : Sentence) (cur : Option FixStatus) :
    Listener.fixStatus s cur = s.status.or cur := by
  cases s <;> rfl

/-- What was heard makes a fix: both coordinates were heard, and the last status is
valid. -/
def Fixed (hist : List Heard) : Prop :=
  (lastOf Sentence.latitude hist).isSome ∧ (lastOf Sentence.longitude hist).isSome ∧
    lastOf Sentence.status hist = some .valid

/-! ### What a run does

Only `consume` changes more of a listener than its counters and its notes, except that a
snapshot stamps the fix with its age. -/

/-- A datagram without a dollar has no lines. -/
theorem heard_of_notMem {data : List UInt8} {addr : Addr} {clock : ℕ → ℚ} {today : ℕ → Text}
    (h : '$' ∉ decodeAscii data) : (Label.datagram data addr clock today).heard = [] := by
  have hdrop : (decodeAscii data).dropWhile (· ≠ '$') = [] :=
    List.dropWhile_eq_nil_iff.mpr fun c hc ↦ decide_eq_true fun heq ↦ h (heq ▸ hc)
  rw [Label.heard, hdrop]
  rfl

/-- A relation between a listener and what it heard that the listener keeps, as long as the days
that are read satisfy `D`: the notes and the counters do not matter, a snapshot does not either,
and a sentence is taken in. -/
structure Keeps (D : Text → Prop) (I : Listener → List Heard → Prop) : Prop where
  congr : ∀ (l l' : Listener) (hist : List Heard), I l hist → l'.port = l.port →
    l'.bind = l.bind → l'.fix = l.fix → l'.last_update = l.last_update → I l' hist
  consume : ∀ (l : Listener) (hist : List Heard) (parsed : Sentence) (addr : Addr) (now : ℚ)
    (today : Text), D today → I l hist →
      I (l.consume parsed addr now today) (hist ++ [⟨parsed, addr, now⟩])
  snapshot : ∀ (l : Listener) (hist : List Heard) (now : ℚ), I l hist → I (l.snapshot now).2 hist

/-- The days that are read in a step satisfy `D`. -/
def Label.Days (D : Text → Prop) : Label → Prop
  | .datagram _ _ _ today => ∀ i, D (today i)
  | .snapshot _ => True

namespace Keeps

variable {D : Text → Prop} {I : Listener → List Heard → Prop} {l : Listener} {hist : List Heard}

/-- The lines of a datagram. -/
theorem lines (hk : Keeps D I) (addr : Addr) (clock : ℕ → ℚ) {today : ℕ → Text}
    (hD : ∀ i, D (today i)) (texts : List Text) (i : ℕ) (h : I l hist) :
    I (Listener.lines addr clock today i texts l).1 (hist ++ heardLines addr clock i texts) := by
  induction texts generalizing i l hist with
  | nil => rwa [heardLines, List.append_nil]
  | cons text texts ih =>
      rw [Listener.lines, heardLines, Listener.line]
      by_cases hdollar : (strip text).head? = some '$'
      · rw [if_pos hdollar, if_pos hdollar]
        cases hparse : parseSentence (strip text) with
        | error exc => rwa [List.append_nil]
        | ok parsed =>
            cases parsed with
            | none => exact ih (i + 1) (hk.congr l _ hist h rfl rfl rfl rfl)
            | some parsed =>
                rw [List.append_cons]
                exact ih (i + 1) (hk.consume l hist parsed addr (clock i) (today i) (hD i) h)
      · rw [if_neg hdollar, if_neg hdollar]
        exact ih (i + 1) h

theorem notePrefix (hk : Keeps D I) (pre : Text) (h : I l hist) : I (l.notePrefix pre) hist := by
  unfold Listener.notePrefix
  split
  · exact hk.congr l _ hist h rfl rfl rfl rfl
  · exact h

theorem step (hk : Keeps D I) {l' : Listener} (label : Label) (hD : label.Days D) (h : I l hist)
    (hs : Listener.step l label = some l') : I l' (hist ++ label.heard) := by
  cases label with
  | datagram data addr clock today =>
      cases hs
      have hraw : I (l.recordRaw data addr) hist := hk.congr l _ hist h rfl rfl rfl rfl
      rw [Listener.datagramReceived]
      dsimp only
      split
      · refine hk.lines addr clock hD _ 0 ?_
        split
        · exact hk.notePrefix _ hraw
        · exact hraw
      · rename_i hno
        rw [heard_of_notMem hno, List.append_nil]
        exact hraw
  | snapshot now =>
      cases hs
      rw [Label.heard, List.append_nil]
      exact hk.snapshot l hist now h

/-- What a listener keeps holds after any run. -/
theorem run (hk : Keeps D I) (h : I l hist) {ls : List Label} (hD : ∀ label ∈ ls, label.Days D)
    {l' : Listener} (hrun : Listener.step.run l ls = some l') : I l' (hist ++ heard ls) := by
  induction ls generalizing l hist with
  | nil => cases hrun; rwa [heard, List.flatMap_nil, List.append_nil]
  | cons label ls ih =>
      obtain ⟨t, ht, hrun⟩ := Machine.run_cons_eq_some.mp hrun
      obtain ⟨hlabel, hlabels⟩ := List.forall_mem_cons.mp hD
      have hnext := ih (hk.step label hlabel h ht) hlabels hrun
      rwa [List.append_assoc] at hnext

end Keeps

/-- What is kept whatever the days are. -/
theorem Keeps.run_always {I : Listener → List Heard → Prop} {l l' : Listener} {hist : List Heard}
    {ls : List Label} (hk : Keeps (fun _ ↦ True) I) (h : I l hist)
    (hrun : Listener.step.run l ls = some l') : I l' (hist ++ heard ls) := by
  refine hk.run h (fun label _ ↦ ?_) hrun
  cases label with
  | datagram => exact fun _ ↦ trivial
  | snapshot => exact trivial

/-- The fix against what was heard. -/
structure Tracks (l : Listener) (hist : List Heard) : Prop where
  latitude : l.fix.latitude = lastOf Sentence.latitude hist
  longitude : l.fix.longitude = lastOf Sentence.longitude hist
  fix_status : l.fix.fix_status = lastOf Sentence.status hist
  ok : l.fix.ok = true ↔ Fixed hist
  last_update : l.last_update = (hist.getLast?.map Heard.time).getD 0

theorem tracks_init (port : ℕ) (bind : Text) : Tracks (.init port bind) [] :=
  ⟨rfl, rfl, rfl, by simp [Listener.init, Fixed, lastOf], rfl⟩

namespace Tracks

variable {l l' : Listener} {hist : List Heard}

/-- The rest of the listener does not matter. -/
theorem congr (h : Tracks l hist) (hfix : l'.fix = l.fix) (hlast : l'.last_update = l.last_update) :
    Tracks l' hist where
  latitude := by rw [hfix, h.latitude]
  longitude := by rw [hfix, h.longitude]
  fix_status := by rw [hfix, h.fix_status]
  ok := by rw [hfix]; exact h.ok
  last_update := hlast.trans h.last_update

theorem consume (h : Tracks l hist) (parsed : Sentence) (addr : Addr) (now : ℚ) (today : Text) :
    Tracks (l.consume parsed addr now today) (hist ++ [⟨parsed, addr, now⟩]) where
  latitude := by rw [lastOf_append, ← h.latitude]; rfl
  longitude := by rw [lastOf_append, ← h.longitude]; rfl
  fix_status := by rw [lastOf_append, ← h.fix_status, ← fixStatus_eq]; rfl
  ok := by
    unfold Fixed
    rw [lastOf_append, lastOf_append, lastOf_append, ← h.latitude, ← h.longitude, ← h.fix_status,
      ← fixStatus_eq]
    simp only [Listener.consume, Bool.and_eq_true, decide_eq_true_eq, and_assoc]
  last_update := by rw [List.getLast?_concat]; rfl

theorem snapshot (h : Tracks l hist) (now : ℚ) : Tracks (l.snapshot now).2 hist := by
  unfold Listener.snapshot
  split
  · dsimp only
    split <;> exact ⟨h.latitude, h.longitude, h.fix_status, h.ok, h.last_update⟩
  · exact ⟨h.latitude, h.longitude, h.fix_status, h.ok, h.last_update⟩

theorem keeps : Keeps (fun _ ↦ True) Tracks where
  congr := fun _ _ _ h _ _ hfix hlast ↦ h.congr hfix hlast
  consume := fun _ _ parsed addr now today _ h ↦ h.consume parsed addr now today
  snapshot := fun _ _ now h ↦ h.snapshot now

/-- After any run the fix has kept of what was heard what `Tracks` lists. -/
theorem run (h : Tracks l hist) {ls : List Label} (hrun : Listener.step.run l ls = some l') :
    Tracks l' (hist ++ heard ls) :=
  keeps.run_always h hrun

end Tracks

end SensorFusion.Gps
