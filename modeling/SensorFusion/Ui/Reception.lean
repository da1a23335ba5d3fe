import Mathlib.Data.List.Infix
import SensorFusion.Gps.Attribution

/-!
# The reception that the router's panel shows

`_read_reception` condenses the current fix to whether sentences arrive and from whom
(`edge/routes.py`).  It finds the sender in the source of the fix with a regular expression,
where the nodes service splits and strips it.  For senders with IPv4 addresses the two services
judge every fix that the listener publishes alike.
-/

namespace SensorFusion.Ui

open Gps Text

/-! ## `_read_reception` -/

/-- `_RECEPTION_FRESH_S`. -/
def RECEPTION_FRESH_S : ℚ := 8

/-- `\d`, a decimal digit of any script. -/
def isDecimal (c : Char) : Bool := (toAscii c).isDigit

/-- `\d+` as often as given, with points in between. -/
def dotted : ℕ → Text → Option Text
  | 0, s => if s.takeWhile isDecimal = [] then none else some (s.takeWhile isDecimal)
  | n + 1, s =>
      if s.takeWhile isDecimal = [] then none
      else
        match s.dropWhile isDecimal with
        | '.' :: s' => (dotted n s').map fun rest ↦ s.takeWhile isDecimal ++ '.' :: rest
        | _ => none

/-- `_GPS_SOURCE_RE.match`, and its group. -/
def matchGpsSource (s : Text) : Option Text :=
  if "from".toList <+: s ∧ (s.drop 4).takeWhile isSpace ≠ [] then
    dotted 3 ((s.drop 4).dropWhile isSpace)
  else none

/-- `_GPS_SOURCE_RE.search`, and its group: the first match. -/
def searchGpsSource (s : Text) : Option Text := s.tails.findSome? matchGpsSource

/-- `isinstance(age, (int, float)) and age <= _RECEPTION_FRESH_S`. -/
def receptionFresh : Json → Bool
  | .bool _ => true
  | .int n => decide (n ≤ RECEPTION_FRESH_S)
  | .float x => PyFloat.ge (.fin RECEPTION_FRESH_S) x
  | _ => false

/-- The reception when the fix cannot be fetched. -/
def NO_RECEPTION : Dict String Json :=
  Dict.ofList [("receiving", .bool false), ("age_s", .null), ("sender", .null)]

/-- `_read_reception`, when the fetch gives a fix or fails. -/
def readReception (fetched : Option Json) : Except String (Dict String Json) :=
  match fetched with
  | none => .ok NO_RECEPTION
  | some cur => do
      let age ← cur.get "age_s"
      let source ← cur.get "source"
      let sender ←
        match source.or (.str "") with
        | .str s => .ok (searchGpsSource s.toList)
        | j => .error ("expected string or bytes-like object, got '" ++ j.className ++ "'")
      let ok ← cur.get "ok"
      .ok (Dict.ofList [("receiving", .bool (ok.truthy && receptionFresh age)), ("age_s", age),
        ("sender", (sender.map fun ip ↦ .str (String.ofList ip)).getD .null)])

/-- The panel shows that sentences arrive from a host. -/
def Received (host : Text) (fix : Json) : Prop :=
  ∃ reception, readReception (some fix) = .ok reception ∧
    reception.get? "receiving" = some (.bool true) ∧
    reception.get? "sender" = some (.str (String.ofList host))

/-! ## Addresses -/

/-- The text of an IPv4 address. -/
def ipv4 (a b c d : ℕ) : Text :=
  Nat.toDigits 10 a ++ '.' :: (Nat.toDigits 10 b ++ '.' :: (Nat.toDigits 10 c ++ '.' ::
    Nat.toDigits 10 d))

def IsIpv4 (host : Text) : Prop :=
  ∃ a b c d, a < 256 ∧ b < 256 ∧ c < 256 ∧ d < 256 ∧ host = ipv4 a b c d

/-- An address that a socket is bound to has no blanks in it. -/
def Unspaced (bind : Text) : Prop := ∀ c ∈ bind, isSpace c = false

theorem isDecimal_of_isDigit {c : Char} (h : c.isDigit) : isDecimal c = true := by
  have hrange := Char.isDigit_iff_toNat.mp h
  have h₉ : '9'.toNat = 57 := rfl
  rw [isDecimal, toAscii, if_pos (by omega)]
  exact h

theorem isSpace_of_isDigit {c : Char} (h : c.isDigit) : isSpace c = false := by
  have hrange := Char.isDigit_iff_toNat.mp h
  have h₀ : '0'.toNat = 48 := rfl
  have h₉ : '9'.toNat = 57 := rfl
  unfold isSpace
  simp only [Bool.or_eq_false_iff, Bool.and_eq_false_iff, decide_eq_false_iff_not,
    beq_eq_false_iff_ne]
  omega

/-- Digits in front of another character. -/
theorem takeWhile_toDigits (n : ℕ) {c : Char} (hc : isDecimal c = false) (s : Text) :
    (Nat.toDigits 10 n ++ c :: s).takeWhile isDecimal = Nat.toDigits 10 n ∧
      (Nat.toDigits 10 n ++ c :: s).dropWhile isDecimal = c :: s := by
  have hall : ∀ d ∈ Nat.toDigits 10 n, isDecimal d = true := fun d hd ↦
    isDecimal_of_isDigit (isDigit_of_mem_toDigits hd)
  constructor
  · rw [List.takeWhile_append_of_pos hall, List.takeWhile_cons_of_neg (Bool.eq_false_iff.mp hc),
      List.append_nil]
  · rw [List.dropWhile_append_of_pos hall, List.dropWhile_cons_of_neg (Bool.eq_false_iff.mp hc)]

theorem dotted_zero (n : ℕ) {c : Char} (hc : isDecimal c = false) (s : Text) :
    dotted 0 (Nat.toDigits 10 n ++ c :: s) = some (Nat.toDigits 10 n) := by
  rw [dotted, (takeWhile_toDigits n hc s).1, if_neg Nat.toDigits_ne_nil]

theorem dotted_succ (k n : ℕ) (s : Text) :
    dotted (k + 1) (Nat.toDigits 10 n ++ '.' :: s) =
      (dotted k s).map fun rest ↦ Nat.toDigits 10 n ++ '.' :: rest := by
  obtain ⟨htake, hdrop⟩ := takeWhile_toDigits n (by decide : isDecimal '.' = false) s
  rw [dotted, htake, if_neg Nat.toDigits_ne_nil, hdrop]
  rfl

/-- An address is matched whole. -/
theorem dotted_ipv4 (a b c d : ℕ) : dotted 3 (ipv4 a b c d ++ [')']) = some (ipv4 a b c d) := by
  simp only [ipv4, List.append_assoc, List.cons_append]
  rw [dotted_succ, dotted_succ, dotted_succ, dotted_zero d (by decide)]
  rfl

theorem isDigit_or_point {a b c d : ℕ} {ch : Char} (h : ch ∈ ipv4 a b c d) :
    ch.isDigit ∨ ch = '.' := by
  simp only [ipv4, List.mem_append, List.mem_cons] at h
  rcases h with h | rfl | h | rfl | h | rfl | h
  · exact .inl (isDigit_of_mem_toDigits h)
  · exact .inr rfl
  · exact .inl (isDigit_of_mem_toDigits h)
  · exact .inr rfl
  · exact .inl (isDigit_of_mem_toDigits h)
  · exact .inr rfl
  · exact .inl (isDigit_of_mem_toDigits h)

theorem IsIpv4.plain {host : Text} (h : IsIpv4 host) : Plain host := by
  obtain ⟨a, b, c, d, -, -, -, -, rfl⟩ := h
  constructor
  · intro hmem
    exact absurd (isDigit_or_point hmem) (by decide)
  · intro hmem
    exact absurd (isDigit_or_point hmem) (by decide)

theorem IsIpv4.isSpace {host : Text} (h : IsIpv4 host) {ch : Char} (hch : ch ∈ host) :
    isSpace ch = false := by
  obtain ⟨a, b, c, d, -, -, -, -, rfl⟩ := h
  rcases isDigit_or_point hch with hdigit | rfl
  · exact isSpace_of_isDigit hdigit
  · decide

theorem IsIpv4.ne_nil {host : Text} (h : IsIpv4 host) : host ≠ [] := by
  obtain ⟨a, b, c, d, -, -, -, -, rfl⟩ := h
  exact List.append_ne_nil_of_right_ne_nil _ (List.cons_ne_nil _ _)

/-! ## The sender that is found -/

/-- A match begins with "from" and a blank. -/
theorem blank_of_match {s ip : Text} (h : matchGpsSource s = some ip) :
    ∃ c ∈ s, isSpace c = true ∧ "from".toList ++ [c] <+: s := by
  rw [matchGpsSource] at h
  split at h
  · rename_i hmatch
    obtain ⟨⟨rest, rfl⟩, hblank⟩ := hmatch
    have hdrop : ("from".toList ++ rest).drop 4 = rest := List.drop_left' rfl
    rw [hdrop] at hblank
    cases rest with
    | nil => exact absurd rfl hblank
    | cons c rest =>
        have hc : isSpace c = true := by
          by_contra hc
          exact hblank (List.takeWhile_cons_of_neg hc)
        refine ⟨c, List.mem_append_right _ List.mem_cons_self, hc, rest, ?_⟩
        rw [List.append_assoc, List.singleton_append]
  · cases h

/-- What does not match anywhere in front is passed over. -/
theorem searchGpsSource_append {s : Text} : ∀ a : Text,
    (∀ x, x ≠ [] → x <:+ a → matchGpsSource (x ++ s) = none) →
      searchGpsSource (a ++ s) = searchGpsSource s
  | [], _ => rfl
  | c :: a, h => by
      have hhead := h (c :: a) (List.cons_ne_nil c a) (List.suffix_refl _)
      have htail := searchGpsSource_append a fun x hx hxa ↦
        h x hx (hxa.trans (List.suffix_cons c a))
      rw [List.cons_append] at hhead ⊢
      rw [searchGpsSource, List.tails_cons, List.findSome?_cons, hhead]
      exact htail

theorem searchGpsSource_eq_none {s : Text} (h : ∀ c ∈ s, isSpace c = false) :
    searchGpsSource s = none := by
  rw [searchGpsSource, List.findSome?_eq_none_iff]
  intro t ht
  by_contra hmatch
  obtain ⟨ip, hip⟩ := Option.ne_none_iff_exists'.mp hmatch
  obtain ⟨c, hc, hblank, -⟩ := blank_of_match hip
  rw [h c (((List.mem_tails _ _).mp ht).subset hc)] at hblank
  cases hblank

theorem matchGpsSource_source {host : Text} (hhost : IsIpv4 host) :
    matchGpsSource (['f', 'r', 'o', 'm', ' '] ++ (host ++ [')'])) = some host := by
  have hdrop : (' ' :: (host ++ [')'])).dropWhile isSpace = host ++ [')'] := by
    obtain ⟨ch, rest, hcons⟩ := List.exists_cons_of_ne_nil hhost.ne_nil
    have hch : isSpace ch = false := hhost.isSpace (hcons ▸ List.mem_cons_self)
    rw [List.dropWhile_cons_of_pos (by decide), hcons, List.cons_append,
      List.dropWhile_cons_of_neg (Bool.eq_false_iff.mp hch)]
  have hmatch : "from".toList <+: ['f', 'r', 'o', 'm', ' '] ++ (host ++ [')']) ∧
      ((['f', 'r', 'o', 'm', ' '] ++ (host ++ [')'])).drop 4).takeWhile isSpace ≠ [] :=
    ⟨⟨' ' :: (host ++ [')']), rfl⟩, List.cons_ne_nil _ _⟩
  obtain ⟨a, b, c, d, -, -, -, -, rfl⟩ := hhost
  rw [matchGpsSource, if_pos hmatch]
  exact (congrArg (dotted 3) hdrop).trans (dotted_ipv4 a b c d)

section Source

variable {bind : Text} (hbind : Unspaced bind) (port : ℕ)

include hbind

theorem unspaced_udp : Unspaced (udp bind port) := by
  have hudp : ("udp/".toList.all fun c ↦ !isSpace c) = true := by decide
  intro c hc
  simp only [udp, List.mem_append, List.mem_cons] at hc
  rcases hc with (hc | hc) | rfl | hc
  · exact (Bool.not_eq_true' _).mp (List.all_eq_true.mp hudp c hc)
  · exact hbind c hc
  · decide
  · exact isSpace_of_isDigit (isDigit_of_mem_toDigits hc)

theorem search_udp : searchGpsSource (udp bind port) = none :=
  searchGpsSource_eq_none (unspaced_udp hbind port)

/-- The only blanks of a source are the ones that `consume` writes. -/
theorem eq_blank_of_mem {host : Text} (hhost : IsIpv4 host) {c : Char}
    (hc : c ∈ (udp bind port ++ [' ', '(']) ++ (['f', 'r', 'o', 'm', ' '] ++ (host ++ [')'])))
    (hblank : isSpace c = true) : c = ' ' := by
  simp only [List.mem_append, List.mem_cons, List.not_mem_nil, or_false] at hc
  rcases hc with (hc | rfl | rfl) | (rfl | rfl | rfl | rfl | rfl) | hc | rfl
  · rw [unspaced_udp hbind port c hc] at hblank
    cases hblank
  · rfl
  · exact absurd hblank (by decide)
  · exact absurd hblank (by decide)
  · exact absurd hblank (by decide)
  · exact absurd hblank (by decide)
  · exact absurd hblank (by decide)
  · rfl
  · rw [hhost.isSpace hc] at hblank
    cases hblank
  · exact absurd hblank (by decide)

/-- The sender is found in the source that `consume` writes. -/
theorem search_source {host : Text} (hhost : IsIpv4 host) :
    searchGpsSource (udp bind port ++ " (from ".toList ++ host ++ [')']) = some host := by
  have hsource : udp bind port ++ " (from ".toList ++ host ++ [')'] =
      (udp bind port ++ [' ', '(']) ++ (['f', 'r', 'o', 'm', ' '] ++ (host ++ [')'])) := by
    simp
  have hbare : ' ' ∉ bind := fun h ↦ by
    have hblank := hbind ' ' h
    exact absurd hblank (by decide)
  obtain ⟨hudp, hdigit⟩ := udp_spec hbare port
  rw [hsource, searchGpsSource_append]
  · rw [searchGpsSource, List.cons_append, List.tails_cons, List.findSome?_cons,
      ← List.cons_append, matchGpsSource_source hhost]
  · intro x hx hxa
    by_contra hsome
    obtain ⟨ip, hip⟩ := Option.ne_none_iff_exists'.mp hsome
    obtain ⟨c, hc, hblank, hfrom⟩ := blank_of_match hip
    have hmem := (List.mem_append.mp hc).elim
      (fun hc ↦ List.mem_append_left _ (hxa.subset hc)) (List.mem_append_right _)
    rw [eq_blank_of_mem hbind port hhost hmem hblank] at hfrom
    exact not_from_prefix hudp hdigit hx hxa _ hfrom

end Source

/-! ## The two judgements -/

section Judgements

variable {raw : Option (Dict Text Sentence) → Json}

theorem receptionFresh_iff (age : Option ℚ) :
    receptionFresh (((age.map PyFloat.fin).map .float).getD .null) = true ↔ FreshAge age := by
  cases age with
  | none => simp [receptionFresh, FreshAge]
  | some a =>
      have hbound : RECEPTION_FRESH_S = Nodes.GPS_FRESH_S := rfl
      have hfresh : FreshAge (some a) ↔ a ≤ Nodes.GPS_FRESH_S := by
        constructor
        · rintro ⟨b, hb, h⟩
          rwa [Option.some.inj hb]
        · intro h
          exact ⟨a, rfl, h⟩
      rw [hfresh, le_iff_lt_or_eq, ← hbound, @eq_comm _ a]
      simp [receptionFresh, PyFloat.ge, PyFloat.gt]

/-- The panel shows a host when the expression finds it, the age is fresh and the fix is ok. -/
theorem received_iff {f : GpsFix} {host : Text} (hsource : f.source ≠ []) :
    Received host (f.toDict raw) ↔
      searchGpsSource f.source = some host ∧ FreshAge f.age_s ∧ f.ok = true := by
  obtain ⟨hok, hsrc, hage⟩ := @toDict_get raw f
  have hor : (Json.str (String.ofList f.source)).or (.str "") = .str (String.ofList f.source) := by
    rw [Json.or, if_pos]
    simpa [Json.truthy] using hsource
  unfold Received readReception
  simp only [hok, hsrc, hage, hor, bind, Except.bind, String.toList_ofList]
  have hreceiving (age sender : Json) (b : Bool) :
      (Dict.ofList [("receiving", Json.bool b), ("age_s", age), ("sender", sender)]).get?
        "receiving" = some (.bool b) := rfl
  have hsender (age sender : Json) (b : Bool) :
      (Dict.ofList [("receiving", Json.bool b), ("age_s", age), ("sender", sender)]).get?
        "sender" = some sender := rfl
  constructor
  · rintro ⟨reception, ⟨rfl⟩, hrecv, hsent⟩
    rw [hreceiving, Option.some.injEq, Json.bool.injEq, Bool.and_eq_true,
      receptionFresh_iff] at hrecv
    rw [hsender, Option.some.injEq] at hsent
    refine ⟨?_, hrecv.2, hrecv.1⟩
    cases hsearch : searchGpsSource f.source with
    | none =>
        rw [hsearch] at hsent
        cases hsent
    | some ip =>
        rw [hsearch] at hsent
        rw [String.ofList_injective (Json.str.inj hsent)]
  · rintro ⟨hsearch, hfresh, hfix⟩
    refine ⟨_, rfl, ?_, ?_⟩
    · rw [hreceiving, hfix, (receptionFresh_iff f.age_s).mpr hfresh]
      rfl
    · rw [hsender, hsearch]
      rfl

variable {port : ℕ} {bind : Text} {l : Listener} {hist : List Heard}

/-- The panel shows that sentences arrive from whoever sent the last one. -/
theorem received_snapshot (hbind : Unspaced bind) (hnames : Names port bind l hist)
    (hsenders : ∀ e ∈ hist, IsIpv4 e.addr.host) (now : ℚ) (host : Text) :
    Received host ((l.snapshot now).1.toDict raw) ↔
      (∃ e, hist.getLast? = some e ∧ e.addr.host = host) ∧
        FreshAge (l.snapshot now).1.age_s ∧ (l.snapshot now).1.ok = true := by
  obtain ⟨hsource, -⟩ := snapshot_source l now
  rw [hnames.source] at hsource
  cases hlast : hist.getLast? with
  | none =>
      rw [hlast] at hsource
      dsimp only at hsource
      rw [received_iff (by rw [hsource]; exact List.cons_ne_nil _ _), hsource, search_udp hbind]
      exact iff_of_false (fun h ↦ nomatch h.1) fun ⟨⟨e, he, _⟩, _⟩ ↦ nomatch he
  | some e =>
      rw [hlast] at hsource
      dsimp only at hsource
      rw [received_iff (by rw [hsource]; exact List.cons_ne_nil _ _), hsource,
        search_source hbind port (hsenders e (List.mem_of_getLast? hlast))]
      refine and_congr_left fun _ ↦ ?_
      constructor
      · intro h
        exact ⟨e, rfl, Option.some.inj h⟩
      · rintro ⟨e', ⟨rfl⟩, rfl⟩
        rfl

end Judgements

/-- After every run in which only IPv4 addresses are heard, the nodes service takes a host's
link for ok in exactly the snapshots in which the panel shows that sentences arrive from it. -/
theorem judgements_agree {port : ℕ} {bind : Text} (hbind : Unspaced bind) {ls : List Label}
    {l : Listener} (hrun : Listener.step.run (.init port bind) ls = some l)
    (hsenders : ∀ e ∈ heard ls, IsIpv4 e.addr.host) (repr : Json → String)
    (raw : Option (Dict Text Sentence) → Json) (now : ℚ) (host : Text) :
    Credited repr host ((l.snapshot now).1.toDict raw) ↔
      Received host ((l.snapshot now).1.toDict raw) := by
  have hinit : Names port bind (.init port bind) [] := ⟨rfl, rfl, rfl⟩
  have hnames : Names port bind l (heard ls) := (names_keeps port bind).run_always hinit hrun
  have hbare : ' ' ∉ bind := fun h ↦ by
    have hblank := hbind ' ' h
    exact absurd hblank (by decide)
  rw [received_snapshot hbind hnames hsenders,
    credited_snapshot hbare hnames (fun e he ↦ (hsenders e he).plain)]

theorem judgements_agree_rmc : ∃ l,
    Listener.step.run (.init 8500 "0.0.0.0".toList) [rmcAt 1000] = some l ∧
    ∀ now host, Credited (fun _ ↦ "") host ((l.snapshot now).1.toDict fun _ ↦ .null) ↔
      Received host ((l.snapshot now).1.toDict fun _ ↦ .null) := by
  have hhosts : ∀ e ∈ heard [rmcAt 1000], e.addr.host = ipv4 192 0 2 7 := by decide +kernel
  have hblanks : ("0.0.0.0".toList.all fun c ↦ !isSpace c) = true := by decide
  have hbind : Unspaced "0.0.0.0".toList := fun c hc ↦
    (Bool.not_eq_true' _).mp (List.all_eq_true.mp hblanks c hc)
  have hsenders : ∀ e ∈ heard [rmcAt 1000], IsIpv4 e.addr.host := fun e he ↦
    ⟨192, 0, 2, 7, by decide, by decide, by decide, by decide, hhosts e he⟩
  exact ⟨_, rfl, @judgements_agree 8500 _ hbind [rmcAt 1000] _ rfl hsenders _ _⟩

end SensorFusion.Ui
