import SensorFusion.Gps.Freshness
import SensorFusion.Nodes.Probes

/-!
# Whose position a host is credited with

The nodes service reads the published fix and credits a host with it when the host is the
one named in `source`.  The listener writes there whoever sent the last sentence, of any
kind, while the coordinates stay those of the last sentences that carried one.  The two
services agree on whose position it is exactly when the last sentence and both coordinates
came from one host.
-/

namespace SensorFusion.Gps

open Text

/-! ## The published fix -/

def FixStatus.text : FixStatus → String
  | .valid => "valid"
  | .no_fix => "no_fix"

/-- The items of `GpsFix.to_dict`, as they are published; `raw` renders the sentences kept
for debugging. -/
def GpsFix.items (raw : Option (Dict Text Sentence) → Json) (f : GpsFix) : List (String × Json) :=
  let text (t : Option Text) : Json := (t.map fun t ↦ .str (String.ofList t)).getD .null
  let float (x : Option PyFloat) : Json := (x.map .float).getD .null
  [("ok", .bool f.ok), ("error", text f.error), ("source", .str (String.ofList f.source)),
    ("fix_status", (f.fix_status.map fun s ↦ .str s.text).getD .null),
    ("latitude", float (f.latitude.map .fin)), ("longitude", float (f.longitude.map .fin)),
    ("altitude", float f.altitude), ("accuracy", float f.accuracy),
    ("satellites", (f.satellites.map .int).getD .null), ("speed", float f.speed),
    ("angle", float f.angle), ("timestamp", text f.timestamp),
    ("last_sentence", text f.last_sentence), ("age_s", float (f.age_s.map .fin)),
    ("raw", raw f.raw)]

/-- `GpsFix.to_dict`. -/
def GpsFix.toDict (raw : Option (Dict Text Sentence) → Json) (f : GpsFix) : Json :=
  .obj (f.items raw)

variable {raw : Option (Dict Text Sentence) → Json}

theorem nodup_items (f : GpsFix) : ((f.items raw).map Prod.fst).Nodup := by
  show ["ok", "error", "source", "fix_status", "latitude", "longitude", "altitude", "accuracy",
    "satellites", "speed", "angle", "timestamp", "last_sentence", "age_s", "raw"].Nodup
  decide

/-- The members of a published fix that the nodes service decides on. -/
theorem toDict_get (f : GpsFix) :
    (f.toDict raw).get "ok" = .ok (.bool f.ok) ∧
    (f.toDict raw).get "source" = .ok (.str (String.ofList f.source)) ∧
    (f.toDict raw).get "age_s" = .ok (((f.age_s.map PyFloat.fin).map .float).getD .null) := by
  simp only [GpsFix.toDict, Json.get, Dict.get?_ofList (nodup_items f)]
  exact ⟨rfl, rfl, rfl⟩

/-! ## The sender named in a source -/

/-- The text of an address has no blank in it and no bracket. -/
def Plain (a : Text) : Prop := ' ' ∉ a ∧ ')' ∉ a

instance (a : Text) : Decidable (Plain a) := inferInstanceAs (Decidable (_ ∧ _))

/-- A separator is found behind a text in which it does not start anywhere. -/
theorem splitOnce_append {sep : Text} (hsep : sep ≠ []) (s : Text) : ∀ a : Text,
    (∀ x, x ≠ [] → x <:+ a → ¬ sep <+: x ++ (sep ++ s)) →
      splitOnce sep (a ++ (sep ++ s)) = some (a, s)
  | [], _ => by
      cases sep with
      | nil => exact absurd rfl hsep
      | cons c sep =>
          have hpre : c :: sep <+: c :: (sep ++ s) := List.prefix_append (c :: sep) s
          rw [List.nil_append, List.cons_append, splitOnce,
            if_pos (List.isPrefixOf_iff_prefix.mpr hpre), ← List.cons_append, List.drop_left]
  | c :: a, h => by
      have hhead := h (c :: a) (List.cons_ne_nil c a) (List.suffix_refl _)
      have htail := splitOnce_append hsep s a fun x hx hxa ↦
        h x hx (hxa.trans (List.suffix_cons c a))
      rw [List.cons_append] at hhead ⊢
      rw [splitOnce, if_neg (mt List.isPrefixOf_iff_prefix.mp hhead), htail]
      rfl

theorem toList_from : "from ".toList = ['f', 'r', 'o', 'm', ' '] := by decide

/-- `"from "` does not start in a text that has no blank and ends in a digit, nor in the
blank and the bracket behind it. -/
theorem not_from_prefix {y : Text} (hblank : ' ' ∉ y) (hdigit : ∀ c ∈ y.getLast?, c.isDigit)
    {x : Text} (hx : x ≠ []) (hxy : x <:+ y ++ [' ', '(']) (s : Text) :
    ¬ ['f', 'r', 'o', 'm', ' '] <+: x ++ (['f', 'r', 'o', 'm', ' '] ++ s) := by
  rintro hfrom
  obtain ⟨pre, hpre⟩ := hxy
  rcases List.append_eq_append_iff.mp hpre with ⟨z, rfl, rfl⟩ | ⟨z, -, hz⟩
  · have hz : ' ' ∉ z := fun h ↦ hblank (List.mem_append_right _ h)
    match z with
    | [] => simp at hfrom
    | [_] => simp at hfrom
    | [_, _] => simp at hfrom
    | [_, _, _] => simp at hfrom
    | [a, b, c, d] =>
        simp at hfrom
        have hd := hdigit d (by simp)
        rw [← hfrom.2.2.2] at hd
        exact absurd hd (by decide)
    | _ :: _ :: _ :: _ :: _ :: z =>
        simp at hfrom
        exact hz (by simp [← hfrom.2.2.2.2])
  · -- within the blank and the bracket
    match z with
    | [] =>
        simp only [List.nil_append] at hz
        subst hz
        simp at hfrom
    | [_] =>
        simp only [List.cons_append, List.nil_append, List.cons.injEq] at hz
        rw [← hz.2] at hfrom
        simp at hfrom
    | _ :: _ :: z =>
        simp only [List.cons_append, List.cons.injEq] at hz
        exact hx (List.append_eq_nil_iff.mp hz.2.2.symm).2

/-- The text of a port ends in a digit, and with it the text of the listener's endpoint. -/
theorem udp_spec {bind : Text} (hbind : ' ' ∉ bind) (port : ℕ) :
    ' ' ∉ udp bind port ∧ ∀ c ∈ (udp bind port).getLast?, c.isDigit := by
  have hdigits : ∀ c ∈ Nat.toDigits 10 port, c.isDigit := fun _ ↦
    Text.isDigit_of_mem_toDigits
  constructor
  · intro h
    simp only [udp, List.mem_append, List.mem_cons] at h
    rcases h with (h | h) | h | h
    · exact absurd h (by decide)
    · exact hbind h
    · exact absurd h (by decide)
    · exact absurd (hdigits _ h) (by decide)
  · intro c hc
    have hne : Nat.toDigits 10 port ≠ [] := Nat.toDigits_ne_nil
    rw [udp, List.getLast?_append_of_ne_nil _ (List.cons_ne_nil _ _),
      List.getLast?_cons_of_ne_nil hne] at hc
    exact hdigits c (List.mem_of_getLast? hc)

/-- The host is read back from the source that `consume` writes. -/
theorem seenFrom_source {bind host : Text} (hbind : ' ' ∉ bind) (hhost : Plain host) (port : ℕ) :
    Nodes.seenFrom (.str (String.ofList (udp bind port ++ " (from ".toList ++ host ++ [')']))) =
      .ok (some (String.ofList host)) := by
  obtain ⟨hblank, hdigit⟩ := udp_spec hbind port
  have hsplit : splitOnce ['f', 'r', 'o', 'm', ' '] ((udp bind port ++ [' ', '(']) ++
      (['f', 'r', 'o', 'm', ' '] ++ (host ++ [')']))) =
        some (udp bind port ++ [' ', '('], host ++ [')']) :=
    splitOnce_append (List.cons_ne_nil _ _) _ _ fun x hx hxy ↦
      not_from_prefix hblank hdigit hx hxy _
  have hstrip : rstripBy (fun c ↦ c == ')' || c == ' ') (host ++ [')']) = host := by
    rw [rstripBy, List.rdropWhile_concat_pos _ _ _ (by decide), List.rdropWhile_eq_self_iff]
    intro hne hlast
    have hmem := List.getLast_mem hne
    simp only [Bool.or_eq_true, beq_iff_eq] at hlast
    rcases hlast with hlast | hlast
    · exact hhost.2 (hlast ▸ hmem)
    · exact hhost.1 (hlast ▸ hmem)
  have hsource : udp bind port ++ " (from ".toList ++ host ++ [')'] =
      (udp bind port ++ [' ', '(']) ++ (['f', 'r', 'o', 'm', ' '] ++ (host ++ [')'])) := by
    simp
  rw [hsource]
  simp only [Nodes.seenFrom, String.toList_ofList]
  rw [toList_from, hsplit]
  simp only [Option.map_some, hstrip]

/-- No host is read from the source of a listener that has heard nothing. -/
theorem seenFrom_udp {bind : Text} (hbind : ' ' ∉ bind) (port : ℕ) :
    Nodes.seenFrom (.str (String.ofList (udp bind port))) = .ok none := by
  have hnone : ∀ t : Text, ' ' ∉ t → splitOnce ['f', 'r', 'o', 'm', ' '] t = none := by
    intro t
    induction t with
    | nil => exact fun _ ↦ rfl
    | cons c t ih =>
        intro hblank
        rw [List.mem_cons, not_or] at hblank
        have hno : ¬ ['f', 'r', 'o', 'm', ' '] <+: c :: t := fun hpre ↦
          absurd (hpre.subset (by decide : ' ' ∈ ['f', 'r', 'o', 'm', ' ']))
            (by rw [List.mem_cons, not_or]; exact hblank)
        rw [splitOnce, if_neg (mt List.isPrefixOf_iff_prefix.mp hno), ih hblank.2]
        rfl
  simp only [Nodes.seenFrom, String.toList_ofList]
  rw [toList_from, hnone _ (udp_spec hbind port).1]
  rfl

/-! ## The source against what was heard -/

/-- The source names the sender of the last sentence. -/
structure Names (port : ℕ) (bind : Text) (l : Listener) (hist : List Heard) : Prop where
  port_eq : l.port = port
  bind_eq : l.bind = bind
  source : l.fix.source = match hist.getLast? with
    | none => udp bind port
    | some e => udp bind port ++ " (from ".toList ++ e.addr.host ++ [')']

theorem snapshot_source (l : Listener) (now : ℚ) :
    (l.snapshot now).1.source = l.fix.source ∧
      (l.snapshot now).2.fix.source = l.fix.source ∧ (l.snapshot now).2.port = l.port ∧
      (l.snapshot now).2.bind = l.bind ∧
      (l.snapshot now).1.age_s =
        if l.last_update ≠ 0 then some (roundTo 3 (now - l.last_update)) else l.fix.age_s := by
  unfold Listener.snapshot
  split
  · dsimp only
    split
    · exact ⟨rfl, rfl, rfl, rfl, rfl⟩
    · exact ⟨rfl, rfl, rfl, rfl, rfl⟩
  · exact ⟨rfl, rfl, rfl, rfl, rfl⟩

theorem names_keeps (port : ℕ) (bind : Text) : Keeps (fun _ ↦ True) (Names port bind) where
  congr := fun l l' hist h hport hbind hfix _ ↦
    ⟨hport.trans h.port_eq, hbind.trans h.bind_eq, by rw [hfix]; exact h.source⟩
  consume := fun l hist parsed addr now today _ h ↦ by
    refine ⟨h.port_eq, h.bind_eq, ?_⟩
    rw [List.getLast?_concat, ← h.port_eq, ← h.bind_eq]
    rfl
  snapshot := fun l hist now h ↦ by
    obtain ⟨-, hsource, hport, hbind, -⟩ := snapshot_source l now
    exact ⟨hport.trans h.port_eq, hbind.trans h.bind_eq, hsource.trans h.source⟩

/-! ## Credit -/

/-- `_gps_status_for_host(host, fix)` reports ok. -/
def Credited (repr : Json → String) (host : Text) (fix : Json) : Prop :=
  ∃ status, Nodes.gpsStatusForHost repr (.str (String.ofList host)) fix = .ok status ∧
    status.get "ok" = .ok (.bool true)

/-- The probe takes an age for fresh. -/
def FreshAge (age : Option ℚ) : Prop := ∃ a, age = some a ∧ a ≤ Nodes.GPS_FRESH_S

theorem ageStale_iff (age : Option ℚ) :
    Nodes.ageStale (((age.map PyFloat.fin).map .float).getD .null) = false ↔ FreshAge age := by
  cases age with
  | none => simp [Nodes.ageStale, FreshAge]
  | some a => simp [Nodes.ageStale, FreshAge, PyFloat.gt]

/-- A host is credited with a fix when it is the one that the source names, the age is
fresh and the fix is ok. -/
theorem credited_iff {repr : Json → String} {host : Text} {f : GpsFix} {seen : Option String}
    (hseen : Nodes.seenFrom (.str (String.ofList f.source)) = .ok seen) (hsource : f.source ≠ []) :
    Credited repr host (f.toDict raw) ↔
      seen = some (String.ofList host) ∧ FreshAge f.age_s ∧ f.ok = true := by
  obtain ⟨hok, hsrc, hage⟩ := @toDict_get raw f
  have htruthy : (f.toDict raw).truthy = true := rfl
  have hor : (Json.str (String.ofList f.source)).or (.str "") = .str (String.ofList f.source) := by
    rw [Json.or, if_pos]
    simpa [Json.truthy] using hsource
  unfold Credited Nodes.gpsStatusForHost
  simp only [htruthy, hsrc, hor, hseen, hage, hok, bind, Except.bind, Bool.not_true,
    Bool.false_eq_true, if_false]
  cases seen with
  | none =>
      refine iff_of_false ?_ (fun h ↦ nomatch h.1)
      rintro ⟨status, ⟨rfl⟩, hstatus⟩
      cases hstatus
  | some seen =>
      by_cases hhost : (Json.str (String.ofList host)).eqStr seen = true
      · have hseen : seen = String.ofList host := (Json.str.inj (Json.eqStr_iff.mp hhost)).symm
        simp only [hhost, Bool.not_true, Bool.false_eq_true, if_false]
        cases hstale : Nodes.ageStale (((f.age_s.map PyFloat.fin).map .float).getD .null) with
        | true =>
            rw [if_pos rfl]
            refine iff_of_false ?_ fun h ↦ ?_
            · rintro ⟨status, ⟨rfl⟩, hstatus⟩
              cases hstatus
            · rw [(ageStale_iff f.age_s).mpr h.2.1] at hstale
              cases hstale
        | false =>
            rw [if_neg Bool.false_ne_true]
            have hfresh := (ageStale_iff f.age_s).mp hstale
            cases hfix : f.ok with
            | false =>
                simp only [Json.truthy, Bool.not_false, if_true]
                obtain ⟨error, herror⟩ : ∃ v, (f.toDict raw).get "error" = .ok v := ⟨_, rfl⟩
                rw [herror]
                refine iff_of_false ?_ (fun h ↦ nomatch h.2.2)
                rintro ⟨status, ⟨rfl⟩, hstatus⟩
                cases hstatus
            | true =>
                simp only [Json.truthy, Bool.not_true, Bool.false_eq_true, if_false]
                obtain ⟨fs, hfs⟩ : ∃ v, (f.toDict raw).get "fix_status" = .ok v := ⟨_, rfl⟩
                obtain ⟨sat, hsat⟩ : ∃ v, (f.toDict raw).get "satellites" = .ok v := ⟨_, rfl⟩
                rw [hfs, hsat]
                exact iff_of_true ⟨_, rfl, rfl⟩ ⟨by rw [hseen], hfresh, trivial⟩
      · rw [Bool.not_eq_true] at hhost
        simp only [hhost, Bool.not_false, if_true]
        refine iff_of_false ?_ fun h ↦ ?_
        · rintro ⟨status, ⟨rfl⟩, hstatus⟩
          cases hstatus
        · obtain ⟨rfl⟩ := h.1
          rw [Json.eqStr_iff.mpr rfl] at hhost
          cases hhost

/-! ## Whose position it is -/

/-- The last sentence that gives a key. -/
def lastWith {α : Type} (key : Sentence → Option α) (hist : List Heard) : Option Heard :=
  (hist.filter fun e ↦ (key e.sentence).isSome).getLast?

theorem lastWith_value {α : Type} (key : Sentence → Option α) (hist : List Heard) :
    (lastWith key hist).bind (fun e ↦ key e.sentence) = lastOf key hist := by
  cases he : lastWith key hist with
  | none =>
      have hnil := List.getLast?_eq_none_iff.mp he
      rw [List.filter_eq_nil_iff] at hnil
      have hmap : hist.filterMap (fun e ↦ key e.sentence) = [] :=
        List.filterMap_eq_nil_iff.mpr fun e hmem ↦ by simpa using hnil e hmem
      rw [lastOf, hmap]
      rfl
  | some e =>
      have hsome : (key e.sentence).isSome := by
        simpa using (List.mem_filter.mp (List.mem_of_getLast? he)).2
      obtain ⟨a, ha⟩ := Option.isSome_iff_exists.mp hsome
      rw [Option.bind_some, ha, lastOf_of_getLast?_filter (fun _ h ↦ h) he ha]

/-- The coordinate that a fix shows is the one of a sentence that came from a host, and no
sentence after it carried that coordinate. -/
def SuppliedBy (host : Text) (key : Sentence → Option ℚ) (hist : List Heard) (shown : Option ℚ) :
    Prop :=
  ∃ e x, lastWith key hist = some e ∧ e.addr.host = host ∧ key e.sentence = some x ∧
    shown = some x

/-- A coordinate that was heard was supplied by the sender of the last sentence to carry it. -/
theorem supplied_of {host : Text} {key : Sentence → Option ℚ} {hist : List Heard} {shown : Option ℚ}
    (hsome : (lastOf key hist).isSome) (hhost : ∀ e ∈ lastWith key hist, e.addr.host = host)
    (hshown : shown = lastOf key hist) : SuppliedBy host key hist shown := by
  obtain ⟨x, hx⟩ := Option.isSome_iff_exists.mp hsome
  rw [← lastWith_value] at hx
  obtain ⟨e, he, hkey⟩ := Option.bind_eq_some_iff.mp hx
  refine ⟨e, x, he, hhost e he, hkey, ?_⟩
  rw [hshown, ← lastWith_value]
  exact hx

/-- When what was heard makes a fix and a fresh age can be shown, the last sentence and the
last ones to carry each coordinate came from one host. -/
def OneSender (l : Listener) (hist : List Heard) : Prop :=
  Fixed hist → l.last_update ≠ 0 ∨ FreshAge l.fix.age_s →
    ∀ e ∈ hist.getLast?,
      (∀ a ∈ lastWith Sentence.latitude hist, a.addr.host = e.addr.host) ∧
        ∀ a ∈ lastWith Sentence.longitude hist, a.addr.host = e.addr.host

/-- A host is credited with a snapshot when it sent the last sentence. -/
theorem credited_snapshot {port : ℕ} {bind : Text} (hbind : ' ' ∉ bind) {l : Listener}
    {hist : List Heard} (hnames : Names port bind l hist)
    (hsenders : ∀ e ∈ hist, Plain e.addr.host) (repr : Json → String) (now : ℚ) (host : Text) :
    Credited repr host ((l.snapshot now).1.toDict raw) ↔
      (∃ e, hist.getLast? = some e ∧ e.addr.host = host) ∧
        FreshAge (l.snapshot now).1.age_s ∧ (l.snapshot now).1.ok = true := by
  obtain ⟨hsource, -⟩ := snapshot_source l now
  rw [hnames.source] at hsource
  cases hlast : hist.getLast? with
  | none =>
      rw [hlast] at hsource
      dsimp only at hsource
      have hseen := seenFrom_udp hbind port
      rw [← hsource] at hseen
      rw [credited_iff hseen (by rw [hsource]; exact List.cons_ne_nil _ _)]
      exact iff_of_false (fun h ↦ nomatch h.1) (fun ⟨⟨e, he, _⟩, _⟩ ↦ nomatch he)
  | some e =>
      rw [hlast] at hsource
      dsimp only at hsource
      have hseen := seenFrom_source hbind (hsenders e (List.mem_of_getLast? hlast)) port
      rw [← hsource] at hseen
      rw [credited_iff hseen (by rw [hsource]; exact List.cons_ne_nil _ _)]
      refine and_congr_left fun _ ↦ ?_
      constructor
      · intro h
        exact ⟨e, rfl, String.ofList_injective (Option.some.inj h)⟩
      · rintro ⟨e', ⟨rfl⟩, rfl⟩
        rfl

/-- In every run whose listener and senders have plain addresses: whenever the probe credits
a host with the published fix, both of its coordinates were supplied by that host, if and
only if there is one sender. -/
theorem credited_supplied_iff {port : ℕ} {bind : Text} (hbind : Plain bind) {ls : List Label}
    {l : Listener} (hrun : Listener.step.run (.init port bind) ls = some l)
    (hsenders : ∀ e ∈ heard ls, Plain e.addr.host) (repr : Json → String) :
    (∀ now host, Credited repr host ((l.snapshot now).1.toDict raw) →
      SuppliedBy host Sentence.latitude (heard ls) (l.snapshot now).1.latitude ∧
        SuppliedBy host Sentence.longitude (heard ls) (l.snapshot now).1.longitude) ↔
      OneSender l (heard ls) := by
  have htracks : Tracks l (heard ls) := (tracks_init port bind).run hrun
  have hinit : Names port bind (.init port bind) [] := ⟨rfl, rfl, rfl⟩
  have hnames : Names port bind l (heard ls) := (names_keeps port bind).run_always hinit hrun
  constructor
  · intro hcredit hfixed hage e hlast
    -- a snapshot at the time of the last sentence credits its sender
    have hcredited : Credited repr e.addr.host ((l.snapshot l.last_update).1.toDict raw) := by
      refine (credited_snapshot hbind.1 hnames hsenders repr _ _).mpr ⟨⟨e, hlast, rfl⟩, ?_, ?_⟩
      · obtain ⟨-, -, -, -, hsnap⟩ := snapshot_source l l.last_update
        rw [hsnap]
        split
        · rw [sub_self]
          exact ⟨_, rfl, by decide +kernel⟩
        · rename_i hzero
          exact hage.resolve_left hzero
      · refine (snapshot_ok_iff l _).mpr ⟨htracks.ok.mpr hfixed, fun _ ↦ ?_⟩
        rw [sub_self]
        norm_num
    obtain ⟨⟨elat, x, hlat, hhost, -⟩, elon, y, hlon, hhost', -⟩ := hcredit _ _ hcredited
    refine ⟨fun a ha ↦ ?_, fun a ha ↦ ?_⟩
    · cases hlat.symm.trans ha
      exact hhost
    · cases hlon.symm.trans ha
      exact hhost'
  · intro hone now host hcredited
    obtain ⟨⟨e, hlast, rfl⟩, hfresh, hok⟩ :=
      (credited_snapshot hbind.1 hnames hsenders repr now host).mp hcredited
    obtain ⟨hlat, hlon, hfix⟩ := snapshot_keeps l now
    have hfixed := htracks.ok.mp (hfix hok)
    have hage : l.last_update ≠ 0 ∨ FreshAge l.fix.age_s := by
      obtain ⟨-, -, -, -, hsnap⟩ := snapshot_source l now
      rw [hsnap] at hfresh
      split at hfresh
      · exact .inl ‹_›
      · exact .inr hfresh
    obtain ⟨hsame, hsame'⟩ := hone hfixed hage e hlast
    refine ⟨supplied_of hfixed.1 hsame ?_, supplied_of hfixed.2.1 hsame' ?_⟩
    · rw [hlat, htracks.latitude]
    · rw [hlon, htracks.longitude]

/-- A sentence from another host. -/
def fromOther (sentence : String) (time : ℚ) : Label :=
  .datagram (encodeAscii sentence) ⟨"192.0.2.8".toList, 40000⟩ (fun _ ↦ time)
    fun _ ↦ "2026-01-01".toList

/-- Two hosts send positions, one after the other. -/
def twoSenders : List Label :=
  [fromOther "$GPGLL,2730.222,S,15305.547,E,123520,A*30" 1000, rmcAt 1001]

/-- The second one is credited, with its own position. -/
theorem credited_supplied_iff_twoSenders : ∃ l,
    Listener.step.run (.init 8500 "0.0.0.0".toList) twoSenders = some l ∧
    Credited (fun _ ↦ "") "192.0.2.7".toList ((l.snapshot 1002).1.toDict fun _ ↦ .null) ∧
    ∀ now host, Credited (fun _ ↦ "") host ((l.snapshot now).1.toDict fun _ ↦ .null) →
      SuppliedBy host Sentence.latitude (heard twoSenders) (l.snapshot now).1.latitude ∧
        SuppliedBy host Sentence.longitude (heard twoSenders) (l.snapshot now).1.longitude := by
  have hrun : (Listener.step.run (.init 8500 "0.0.0.0".toList) twoSenders).map
      (fun l ↦ ((l.snapshot 1002).1.ok, (l.snapshot 1002).1.age_s)) = some (true, some 1) := by
    decide +kernel
  have hlast : (heard twoSenders).getLast?.map (fun e ↦ e.addr.host) =
      some "192.0.2.7".toList := by decide +kernel
  have hlat : (lastWith Sentence.latitude (heard twoSenders)).map (fun e ↦ e.addr.host) =
      some "192.0.2.7".toList := by decide +kernel
  have hlon : (lastWith Sentence.longitude (heard twoSenders)).map (fun e ↦ e.addr.host) =
      some "192.0.2.7".toList := by decide +kernel
  have hsenders : ∀ e ∈ heard twoSenders, Plain e.addr.host := by decide +kernel
  obtain ⟨l, hl, hval⟩ := Option.map_eq_some_iff.mp hrun
  obtain ⟨hok, hage⟩ := Prod.mk.inj hval
  obtain ⟨e, he, hhost⟩ := Option.map_eq_some_iff.mp hlast
  have hinit : Names 8500 "0.0.0.0".toList (.init 8500 "0.0.0.0".toList) [] := ⟨rfl, rfl, rfl⟩
  refine ⟨l, hl, ?_, ?_⟩
  · have hnames := (names_keeps _ _).run_always hinit hl
    refine (credited_snapshot (by decide) hnames hsenders _ _ _).mpr ⟨⟨e, he, hhost⟩, ?_, hok⟩
    rw [hage]
    exact ⟨1, rfl, by decide +kernel⟩
  · refine (credited_supplied_iff (by decide) hl hsenders (fun _ ↦ "")).mpr fun _ _ e' he' ↦ ?_
    obtain rfl : e = e' := Option.some.inj (he.symm.trans he')
    refine ⟨fun a ha ↦ ?_, fun a ha ↦ ?_⟩
    · rw [ha, Option.map_some, Option.some_inj] at hlat
      exact hlat.trans hhost.symm
    · rw [ha, Option.map_some, Option.some_inj] at hlon
      exact hlon.trans hhost.symm

/-- A GSV sentence from another host. -/
def gsvFromOther : ℚ → Label := fromOther "$GPGSV,1,1,08*71"

/-- One host sends a position and another one a sentence without one, and the other one is
credited with the position. -/
theorem other_host_credited : ∃ l,
    Listener.step.run (.init 8500 "0.0.0.0".toList) [rmcAt 1000, gsvFromOther 1001] = some l ∧
    Credited (fun _ ↦ "") "192.0.2.8".toList ((l.snapshot 1002).1.toDict fun _ ↦ .null) ∧
    ¬ SuppliedBy "192.0.2.8".toList Sentence.latitude (heard [rmcAt 1000, gsvFromOther 1001])
      (l.snapshot 1002).1.latitude := by
  have hrun : (Listener.step.run (.init 8500 "0.0.0.0".toList) [rmcAt 1000, gsvFromOther 1001]).map
      (fun l ↦ ((l.snapshot 1002).1.ok, (l.snapshot 1002).1.age_s)) = some (true, some 1) := by
    decide +kernel
  have hlast : (heard [rmcAt 1000, gsvFromOther 1001]).getLast?.map (fun e ↦ e.addr.host) =
      some "192.0.2.8".toList := by decide +kernel
  have hlat : (lastWith Sentence.latitude (heard [rmcAt 1000, gsvFromOther 1001])).map
      (fun e ↦ e.addr.host) = some "192.0.2.7".toList := by decide +kernel
  have hsenders : ∀ e ∈ heard [rmcAt 1000, gsvFromOther 1001], Plain e.addr.host := by
    decide +kernel
  obtain ⟨l, hl, hval⟩ := Option.map_eq_some_iff.mp hrun
  obtain ⟨hok, hage⟩ := Prod.mk.inj hval
  obtain ⟨e, he, hhost⟩ := Option.map_eq_some_iff.mp hlast
  have hinit : Names 8500 "0.0.0.0".toList (.init 8500 "0.0.0.0".toList) [] := ⟨rfl, rfl, rfl⟩
  refine ⟨l, hl, ?_, ?_⟩
  · have hnames := (names_keeps _ _).run_always hinit hl
    refine (credited_snapshot (by decide) hnames hsenders _ _ _).mpr ⟨⟨e, he, hhost⟩, ?_, hok⟩
    rw [hage]
    exact ⟨1, rfl, by decide +kernel⟩
  · rintro ⟨a, x, ha, hahost, -⟩
    rw [ha, Option.map_some, hahost] at hlat
    exact absurd hlat (by decide)

end SensorFusion.Gps
