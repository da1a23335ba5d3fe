import SensorFusion.Lib.Pieces
import SensorFusion.Python.Json

/-!
# Rendering a template

`render` puts values in the place of the placeholders of a template and reads the result as a
message (`message/templates.py`).  The position is what the operator has typed in, or else what
the gps service answers, or else a place in Brisbane.
-/

namespace SensorFusion.Ui

/-! ## Placeholders -/

/-- A component of a position. -/
inductive Coordinate where
  | lat
  | lon
  | alt
deriving DecidableEq, Repr

namespace Coordinate

/-- `_FALLBACK_LAT`, `_FALLBACK_LON` and `_FALLBACK_ALT`. -/
def FALLBACK : Coordinate → ℚ
  | lat => -27.4705
  | lon => 153.0260
  | alt => 28

/-- The field of a fix. -/
def field : Coordinate → String
  | lat => "latitude"
  | lon => "longitude"
  | alt => "altitude"

def digits : Coordinate → ℕ
  | lat | lon => 7
  | alt => 3

def fallback (c : Coordinate) : PyFloat := .fin c.FALLBACK

/-- A position, by its components. -/
def position (lat lon alt : SignedFloat) : Coordinate → SignedFloat
  | .lat => lat
  | .lon => lon
  | .alt => alt

end Coordinate

/-- What a placeholder stands for. -/
inductive Kind where
  | now
  | ulid
  | node_id
  | gps (c : Coordinate)
deriving DecidableEq, Repr

def KINDS : List Kind := [.now, .ulid, .node_id, .gps .lat, .gps .lon, .gps .alt]

def Kind.name : Kind → Text
  | .now => "NOW".toList
  | .ulid => "ULID".toList
  | .node_id => "NODE_ID".toList
  | .gps .lat => "GPS_LAT".toList
  | .gps .lon => "GPS_LON".toList
  | .gps .alt => "GPS_ALT".toList

def placeholder (k : Kind) : Text := "\x7b\x7b".toList ++ k.name ++ "\x7d\x7d".toList

/-- `_PLACEHOLDER_RE`. -/
def placeholders : Marks Kind Char where
  kinds := KINDS
  mark := placeholder
  nonempty := by decide
  distinct := by decide
  no_overlap := by decide

theorem mem_KINDS (k : Kind) : k ∈ KINDS := by
  rcases k with _ | _ | _ | c
  · decide
  · decide
  · decide
  · cases c <;> decide

/-! ## Rendering -/

/-- What the request for the current fix comes to. -/
inductive Fetched where
  /-- `URLError`, `TimeoutError`, `OSError` or `JSONDecodeError`. -/
  | failed
  /-- Another exception. -/
  | raised (exc : String)
  | answered (body : Json)

/-- What else a rendering depends on: the clock, the ULIDs that are drawn one after the other,
`uuid.UUID`, the texts of exceptions and the message type. -/
structure Env (M : Type) where
  repr : Json → String
  now : Text
  ulid : ℕ → Text
  isValidUuid : Text → Bool
  parse : Text → Except String M

variable {M : Type}

/-- `_fetch_gps_sync`. -/
def fetchGpsSync : Fetched → Except String (Option Json)
  | .failed => .ok none
  | .raised exc => .error exc
  | .answered body => .ok (some body)

/-- `float(x)` with the sign of a zero, which a text can have; a number that is zero has been
taken to be missing. -/
def signedFloat? (repr : Json → String) (j : Json) : Except String SignedFloat := do
  let x ← j.float? repr
  match j with
  | .str s =>
      pure (if x = .fin 0 ∧ (Text.literal s.toList).head? = some '-' then .negZero else .float x)
  | _ => pure (.float x)

/-- A component of the answered fix, in `_resolve_gps`. -/
def component (repr : Json → String) (fix : Json) (c : Coordinate) :
    Except String SignedFloat := do
  let x ← fix.get c.field
  signedFloat? repr (x.or (.float c.fallback))

/-- Where nobody has given a position. -/
def inBrisbane (c : Coordinate) : SignedFloat := .float c.fallback

/-- `_resolve_gps`. -/
def resolveGps (repr : Json → String) (fetched : Fetched) :
    Except String (Coordinate → SignedFloat) := do
  match ← fetchGpsSync fetched with
  | none => pure inBrisbane
  | some fix =>
      if fix.truthy then
        let ok ← fix.get "ok"
        if ok.truthy then
          let lat ← component repr fix .lat
          let lon ← component repr fix .lon
          let alt ← component repr fix .alt
          pure (Coordinate.position lat lon alt)
        else pure inBrisbane
      else pure inBrisbane

/-- `repl`, when `n` ULIDs have been drawn. -/
def repl (env : Env M) (node_id : Text) (gps : Coordinate → SignedFloat) (n : ℕ) : Kind → Text
  | .now => env.now
  | .ulid => env.ulid n
  | .node_id => node_id
  | .gps c => (gps c).format c.digits

/-- The parts of a text with their replacements, when `n` ULIDs have been drawn. -/
def fill (env : Env M) (node_id : Text) (gps : Coordinate → SignedFloat) :
    ℕ → List (Piece Kind Char) → Text
  | _, [] => []
  | n, .letter c :: ps => c :: fill env node_id gps n ps
  | n, .hole k :: ps =>
      repl env node_id gps n k ++ fill env node_id gps (if k = .ulid then n + 1 else n) ps

/-- `_substitute`. -/
def substitute (env : Env M) (node_id : Text) (gps : Coordinate → SignedFloat) (text : Text) :
    Text :=
  fill env node_id gps 0 (placeholders.pieces text)

/-- `_GPS_RE.search`. -/
def searchGps (text : Text) : Bool :=
  text.tails.any fun s ↦
    [Coordinate.lat, .lon, .alt].any fun c ↦ (placeholder (.gps c)).isPrefixOf s

/-- The text that `render` makes a message of. -/
def renderText (env : Env M) (node_id : Text) (gps_override : Option (Coordinate → SignedFloat))
    (fetched : Fetched) (template_text : Text) : Except String Text := do
  let gps ←
    match gps_override with
    | some gps => pure gps
    | none =>
        if searchGps template_text then resolveGps env.repr fetched
        else pure inBrisbane
  pure (substitute env node_id gps template_text)

/-- `render`. -/
def render (env : Env M) (node_id : Text) (gps_override : Option (Coordinate → SignedFloat))
    (fetched : Fetched) (template_text : Text) : Except String M := do
  if env.isValidUuid node_id then
    env.parse (← renderText env node_id gps_override fetched template_text)
  else .error ("node_id is not a valid UUID: " ++ env.repr (.str (String.ofList node_id)))

/-! ## The placeholders that are found -/

theorem hole_mem_iff {k : Kind} {text : Text} :
    .hole k ∈ placeholders.pieces text ↔ placeholder k <:+: text :=
  Marks.hole_mem_pieces (mem_KINDS k)

theorem searchGps_iff {text : Text} :
    searchGps text = true ↔ ∃ c, placeholder (.gps c) <:+: text := by
  have hmem (c : Coordinate) : c ∈ [Coordinate.lat, .lon, .alt] := by
    cases c <;> decide
  rw [searchGps, List.any_eq_true]
  constructor
  · rintro ⟨s, hs, h⟩
    obtain ⟨c, -, hpre⟩ := List.any_eq_true.mp h
    refine ⟨c, (List.isPrefixOf_iff_prefix.mp hpre).isInfix.trans ?_⟩
    exact ((List.mem_tails _ _).mp hs).isInfix
  · rintro ⟨c, before, after, rfl⟩
    refine ⟨placeholder (.gps c) ++ after, (List.mem_tails _ _).mpr ?_, ?_⟩
    · rw [List.append_assoc]
      exact List.suffix_append _ _
    · exact List.any_eq_true.mpr
        ⟨c, hmem c, List.isPrefixOf_iff_prefix.mpr (List.prefix_append _ _)⟩

/-! ## What is put in -/

section Fill

variable {env : Env M} {node_id : Text} {gps gps' : Coordinate → SignedFloat}

/-- Components that do not occur do not matter. -/
theorem fill_congr {ps : List (Piece Kind Char)} (h : ∀ c, .hole (.gps c) ∈ ps → gps c = gps' c)
    (n : ℕ) : fill env node_id gps n ps = fill env node_id gps' n ps := by
  induction ps generalizing n with
  | nil => rfl
  | cons p ps ih =>
      have hrest (n : ℕ) := ih (fun c hc ↦ h c (List.mem_cons_of_mem p hc)) n
      cases p with
      | letter c => rw [fill, fill, hrest]
      | hole k =>
          have hrepl : repl env node_id gps n k = repl env node_id gps' n k := by
            cases k with
            | gps c => rw [repl, repl, h c List.mem_cons_self]
            | _ => rfl
          rw [fill, fill, hrepl, hrest]

/-- Longer components make a longer text. -/
theorem length_fill_le (env : Env M) (node_id : Text)
    (h : ∀ c, ((gps c).format c.digits).length ≤ ((gps' c).format c.digits).length) (n : ℕ)
    (ps : List (Piece Kind Char)) :
    (fill env node_id gps n ps).length ≤ (fill env node_id gps' n ps).length ∧
      ∀ c, .hole (.gps c) ∈ ps →
        ((gps c).format c.digits).length < ((gps' c).format c.digits).length →
          (fill env node_id gps n ps).length < (fill env node_id gps' n ps).length := by
  induction ps generalizing n with
  | nil => exact ⟨le_rfl, fun c hc ↦ absurd hc List.not_mem_nil⟩
  | cons p ps ih =>
      cases p with
      | letter c =>
          obtain ⟨hle, hlt⟩ := ih n
          refine ⟨Nat.succ_le_succ hle, fun c' hc' hlonger ↦ ?_⟩
          rcases List.mem_cons.mp hc' with heq | hc'
          · cases heq
          · exact Nat.succ_lt_succ (hlt c' hc' hlonger)
      | hole k =>
          obtain ⟨hle, hlt⟩ := ih (if k = .ulid then n + 1 else n)
          have hrepl : (repl env node_id gps n k).length ≤ (repl env node_id gps' n k).length := by
            cases k with
            | gps c => exact h c
            | _ => exact le_rfl
          rw [fill, fill, List.length_append, List.length_append]
          refine ⟨Nat.add_le_add hrepl hle, fun c hc hlonger ↦ ?_⟩
          rcases List.mem_cons.mp hc with heq | hc
          · cases heq
            exact Nat.add_lt_add_of_lt_of_le hlonger hle
          · exact Nat.add_lt_add_of_le_of_lt hrepl (hlt c hc hlonger)

end Fill

/-! ## A live fix -/

/-- A component of a fix is missing, or a number that is a finite float. -/
inductive Reads : Json → Option ℚ → Prop where
  | null : Reads .null none
  | int (n : ℤ) (h : |(n : ℚ)| < PyFloat.OVERFLOW) : Reads (.int n) (some n)
  | float (q : ℚ) : Reads (.float (.fin q)) (some q)

/-- A response with `ok` true, and its components. -/
structure IsFix (fix : Json) (value : Coordinate → Option ℚ) : Prop where
  ok : fix.get "ok" = .ok (.bool true)
  reads : ∀ c : Coordinate, ∃ x, fix.get c.field = .ok x ∧ Reads x (value c)

namespace Coordinate

/-- What should be shown of a component: its value, and the fallback if it is missing. -/
def shown (c : Coordinate) (v : Option ℚ) : ℚ := v.getD c.FALLBACK

/-- What is shown: `or` takes a zero to be missing. -/
def taken (c : Coordinate) (v : Option ℚ) : ℚ := if v = some 0 then c.FALLBACK else c.shown v

end Coordinate

theorem truthy_of_get {fix : Json} {f : String} {x : Json} (h : fix.get f = .ok x)
    (hx : x ≠ .null) : fix.truthy = true := by
  cases fix with
  | obj members =>
      cases members with
      | nil =>
          cases h
          exact absurd rfl hx
      | cons m members => rfl
  | _ => cases h

theorem component_eq {repr : Json → String} {fix x : Json} {c : Coordinate} {v : Option ℚ}
    (hget : fix.get c.field = .ok x) (hx : Reads x v) :
    component repr fix c = .ok (.fin (c.taken v)) := by
  rw [component, hget]
  show signedFloat? repr (x.or (.float c.fallback)) = _
  cases hx with
  | null => rfl
  | int n h =>
      by_cases hn : n = 0
      · subst hn
        rfl
      · have htaken : c.taken (some (n : ℚ)) = n :=
          if_neg fun h ↦ hn (Int.cast_eq_zero.mp (Option.some.inj h))
        have htruthy : (Json.int n).truthy = true := decide_eq_true hn
        simp only [Json.or, htruthy, if_true, signedFloat?, Json.float?, if_pos h, htaken]
        rfl
  | float q =>
      by_cases hq : q = 0
      · subst hq
        rfl
      · have htaken : c.taken (some q) = q := if_neg fun h ↦ hq (Option.some.inj h)
        have htruthy : (Json.float (.fin q)).truthy = true :=
          decide_eq_true fun h ↦ hq (PyFloat.fin.inj h)
        simp only [Json.or, htruthy, if_true, signedFloat?, Json.float?, htaken]
        rfl

theorem resolveGps_answered {repr : Json → String} {fix : Json} {value : Coordinate → Option ℚ}
    (h : IsFix fix value) :
    resolveGps repr (.answered fix) = .ok fun c ↦ .fin (c.taken (value c)) := by
  have hcomponent (c : Coordinate) : component repr fix c = .ok (.fin (c.taken (value c))) := by
    obtain ⟨x, hget, hx⟩ := h.reads c
    exact component_eq hget hx
  have htruthy : fix.truthy = true := truthy_of_get h.ok nofun
  have htrue : (Json.bool true).truthy = true := rfl
  have hposition (f : Coordinate → SignedFloat) :
      Coordinate.position (f .lat) (f .lon) (f .alt) = f := by
    funext c
    cases c <;> rfl
  simp only [resolveGps, fetchGpsSync, htruthy, htrue, h.ok, hcomponent, if_true, bind,
    Except.bind, pure, Except.pure]
  exact congrArg Except.ok (hposition fun c ↦ .fin (c.taken (value c)))

/-- Whether the service is asked or not, the text is as if it were. -/
theorem renderText_answered {env : Env M} {node_id template_text : Text} {fix : Json}
    {value : Coordinate → Option ℚ} (h : IsFix fix value) :
    renderText env node_id none (.answered fix) template_text =
      .ok (substitute env node_id (fun c ↦ .fin (c.taken (value c))) template_text) := by
  cases hsearch : searchGps template_text with
  | true =>
      rw [renderText]
      simp only [hsearch, if_true, resolveGps_answered h, bind, Except.bind, pure, Except.pure]
  | false =>
      rw [renderText]
      simp only [hsearch, bind, Except.bind, pure, Except.pure]
      refine congrArg Except.ok (fill_congr (fun c hc ↦ ?_) 0)
      rw [searchGps_iff.mpr ⟨c, hole_mem_iff.mp hc⟩] at hsearch
      cases hsearch

/-- The fallback of each component is longer than a zero. -/
theorem length_shown_lt (c : Coordinate) :
    ((SignedFloat.fin (c.shown (some 0))).format c.digits).length <
      ((SignedFloat.fin (c.taken (some 0))).format c.digits).length := by
  cases c <;> decide +kernel

theorem length_shown_le (c : Coordinate) (v : Option ℚ) :
    ((SignedFloat.fin (c.shown v)).format c.digits).length ≤
      ((SignedFloat.fin (c.taken v)).format c.digits).length := by
  by_cases hv : v = some 0
  · subst hv
    exact (length_shown_lt c).le
  · rw [Coordinate.taken, if_neg hv]

/-- The text shows the fix just when no component that occurs is a zero. -/
theorem renderText_live_iff {env : Env M} {node_id template_text : Text} {fix : Json}
    {value : Coordinate → Option ℚ} (h : IsFix fix value) :
    renderText env node_id none (.answered fix) template_text =
        .ok (substitute env node_id (fun c ↦ .fin (c.shown (value c))) template_text) ↔
      ∀ c, placeholder (.gps c) <:+: template_text → value c ≠ some 0 := by
  rw [renderText_answered h, Except.ok.injEq]
  constructor
  · intro heq c hc hzero
    -- a zero that occurs makes the text longer than it should be
    obtain ⟨-, hlt⟩ := length_fill_le env node_id (fun c ↦ length_shown_le c (value c)) 0
      (placeholders.pieces template_text)
    have hlonger := hlt c (hole_mem_iff.mpr hc) (by rw [hzero]; exact length_shown_lt c)
    have hsame := congrArg List.length heq
    rw [substitute, substitute] at hsame
    exact hlonger.ne hsame.symm
  · intro hne
    refine fill_congr (fun c hc ↦ ?_) 0
    rw [Coordinate.taken, if_neg (hne c (hole_mem_iff.mp hc))]

/-- A fix on the equator. -/
def equator : Json :=
  .obj [("ok", .bool true), ("latitude", .float (.fin 0)), ("longitude", .float (.fin (65 / 2))),
    ("altitude", .int 1160)]

def equatorValue : Coordinate → Option ℚ
  | .lat => some 0
  | .lon => some (65 / 2)
  | .alt => some 1160

theorem isFix_equator : IsFix equator equatorValue where
  ok := rfl
  reads c := by
    cases c with
    | lat => exact ⟨_, rfl, .float 0⟩
    | lon => exact ⟨_, rfl, .float (65 / 2)⟩
    | alt => exact ⟨_, rfl, .int 1160 (by decide +kernel)⟩

def bench : Env Text where
  repr _ := ""
  now := "2026-05-03T12:34:56.000000Z".toList
  ulid n := Nat.toDigits 10 n
  isValidUuid _ := true
  parse := .ok

theorem renderText_live_equator :
    renderText bench [] none (.answered equator) "{{GPS_LON}}".toList =
        .ok (substitute bench [] (fun c ↦ .fin (c.shown (equatorValue c)))
          "{{GPS_LON}}".toList) ↔
      ∀ c, placeholder (.gps c) <:+: "{{GPS_LON}}".toList → equatorValue c ≠ some 0 :=
  renderText_live_iff isFix_equator

theorem equator_shown_in_Brisbane :
    IsFix equator equatorValue ∧
      renderText bench [] none (.answered equator) "{{GPS_LAT}}".toList =
        .ok "-27.4705000".toList ∧
      substitute bench [] (fun c ↦ .fin (c.shown (equatorValue c)))
        "{{GPS_LAT}}".toList = "0.0000000".toList :=
  ⟨isFix_equator, by decide +kernel, by decide +kernel⟩

end SensorFusion.Ui
