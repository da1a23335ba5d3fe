import SensorFusion.Gps.Listener
import SensorFusion.Python.Lines

/-!
# The lines of a datagram

A datagram should come to the same as its lines sent one by one, and no line should take those
behind it along.  One that raises does.  `parse_sentence` raises when a field of the sentence's
type cannot be read, and `LAYOUTS` says which fields are read how.
-/

namespace SensorFusion.Gps

open Text

/-! ## Which sentences are read -/

/-- A number, of which all texts are read but those that are no literals. -/
def NumberField (s : Text) : Prop := s = [] ∨ float? s ≠ none

/-- A count, of which all texts are read but digits that are too many for `int`. -/
def CountField (s : Text) : Prop := (∀ c ∈ s, c.isDigit) → s.length ≤ MAX_STR_DIGITS

/-- A coordinate, of which all texts are read but infinities and NaNs with a hemisphere. -/
def CoordinateField (value hemi : Text) : Prop :=
  value = [] ∨ hemi = [] ∨ ∀ x, float? value = some x → ∃ q, x = .fin q

instance (s : Text) : Decidable (NumberField s) := inferInstanceAs (Decidable (_ ∨ _))

/-- What `parse_sentence` reads of a type of sentence: how many parts it has, and which of them
are coordinates with their hemispheres, counts and numbers. -/
structure Layout where
  typ : Text
  parts : ℕ
  coordinates : List (ℕ × ℕ)
  counts : List ℕ
  numbers : List ℕ
deriving DecidableEq

def GGA : Layout := ⟨"GGA".toList, 14, [(2, 3), (4, 5)], [6, 7], [8, 9]⟩

def RMC : Layout := ⟨"RMC".toList, 12, [(3, 4), (5, 6)], [], [7, 8]⟩

def GLL : Layout := ⟨"GLL".toList, 7, [(1, 2), (3, 4)], [], []⟩

def VTG : Layout := ⟨"VTG".toList, 9, [], [], [1, 5, 7]⟩

def GSV : Layout := ⟨"GSV".toList, 4, [], [3], []⟩

def GNS : Layout := ⟨"GNS".toList, 13, [(2, 3), (4, 5)], [7], [8, 9, 10]⟩

def LAYOUTS : List Layout := [GGA, RMC, GLL, VTG, GSV, GNS]

/-- The fields of a layout can be read. -/
structure Layout.Reads (L : Layout) (part : ℕ → Text) : Prop where
  coordinates : ∀ i ∈ L.coordinates, CoordinateField (part i.1) (part i.2)
  counts : ∀ i ∈ L.counts, CountField (part i)
  numbers : ∀ i ∈ L.numbers, NumberField (part i)

/-- The parts of a sentence. -/
def parts (sentence : Text) : List Text := split ',' (sentence.tail.takeWhile (· ≠ '*'))

/-- A sentence that is not skipped for its checksum or its type can be read. -/
def Readable (sentence : Text) : Prop :=
  checksumOk sentence = true →
    let part := fun i ↦ (parts sentence).getD i []
    5 ≤ (part 0).length → ∀ L ∈ LAYOUTS, (part 0).drop 2 = L.typ →
      L.parts ≤ (parts sentence).length → L.Reads part

/-! ### Reading fields -/

/-- A computation succeeds. -/
def Succeeds {ε α : Type} (x : Except ε α) : Prop := ∃ a, x = .ok a

theorem succeeds_ok {ε α : Type} (a : α) : Succeeds (.ok a : Except ε α) := ⟨a, rfl⟩

theorem succeeds_map {ε α β : Type} (f : α → β) (x : Except ε α) :
    Succeeds (x.map f) ↔ Succeeds x := by
  cases x with
  | error e => exact iff_of_false nofun nofun
  | ok a => exact iff_of_true ⟨f a, rfl⟩ ⟨a, rfl⟩

/-- What comes after does not depend on what was read. -/
theorem succeeds_bind {ε α β : Type} {x : Except ε α} {k : α → Except ε β} {p q : Prop}
    (hx : Succeeds x ↔ p) (hk : ∀ a, Succeeds (k a) ↔ q) : Succeeds (x >>= k) ↔ p ∧ q := by
  rw [← hx]
  cases x with
  | error e => exact iff_of_false nofun fun h ↦ nomatch h.1
  | ok a =>
      rw [and_iff_right (succeeds_ok a)]
      exact hk a

theorem succeeds_floatOrNone (s : Text) : Succeeds (floatOrNone s) ↔ NumberField s := by
  rw [floatOrNone]
  split
  · rename_i hs
    exact iff_of_true (succeeds_ok _) (.inl hs)
  · rename_i hs
    rw [succeeds_map, toFloat, NumberField, or_iff_right hs]
    cases float? s with
    | none => exact iff_of_false nofun fun h ↦ h rfl
    | some x => exact iff_of_true (succeeds_ok x) nofun

theorem succeeds_coordToDecimal (value hemi : Text) :
    Succeeds (coordToDecimal value hemi) ↔ CoordinateField value hemi := by
  rw [coordToDecimal, CoordinateField, ← or_assoc]
  split
  · rename_i h
    exact iff_of_true (succeeds_ok _) (.inl h)
  · rename_i h
    rw [or_iff_right h]
    rcases float? value with _ | _ | _ | _ | _
    · exact iff_of_true (succeeds_ok _) nofun
    · exact iff_of_true (succeeds_ok _) fun x hx ↦ ⟨_, (Option.some.inj hx).symm⟩
    all_goals
      refine iff_of_false nofun fun h ↦ ?_
      obtain ⟨q, hq⟩ := h _ rfl
      cases hq

/-- A field of a line in ASCII is a count that `int` reads, or no digits. -/
theorem succeeds_toInt {s : Text} (hs : ∀ c ∈ s, IsDecoded c) (hdigits : isdigit s = true) :
    Succeeds (toInt s) ↔ CountField s := by
  obtain ⟨hne, hall⟩ := (Bool.and_eq_true _ _).mp hdigits
  have hd (c : Char) (hc : c ∈ s) : c.isDigit :=
    isDigit_of_isDigitChar (hs c hc) (List.all_eq_true.mp hall c hc)
  have hcount : CountField s ↔ s.length ≤ MAX_STR_DIGITS := ⟨fun h ↦ h hd, fun h _ ↦ h⟩
  rw [hcount, toInt, int?_of_digits (of_decide_eq_true hne) hd]
  by_cases hle : s.length ≤ MAX_STR_DIGITS
  · rw [if_pos hle]
    exact iff_of_true (succeeds_ok _) hle
  · rw [if_neg hle]
    exact iff_of_false nofun hle

theorem countField_of_not_isdigit {s : Text} (hs : ¬ isdigit s = true) : CountField s := by
  intro hall
  cases s with
  | nil => exact Nat.zero_le _
  | cons c s =>
      refine absurd ?_ hs
      refine (Bool.and_eq_true _ _).mpr ⟨rfl, List.all_eq_true.mpr fun c' hc' ↦ ?_⟩
      exact isDigitChar_of_isDigit (hall c' hc')

theorem succeeds_intOrZero {s : Text} (hs : ∀ c ∈ s, IsDecoded c) :
    Succeeds (intOrZero s) ↔ CountField s := by
  rw [intOrZero]
  split
  · rename_i hdigits
    exact succeeds_toInt hs hdigits
  · rename_i hno
    exact iff_of_true (succeeds_ok _) (countField_of_not_isdigit hno)

/-! ### Reading sentences -/

section

variable {talker : Text} {part : ℕ → Text}

theorem reads_iff (L : Layout) : L.Reads part ↔
    (∀ i ∈ L.coordinates, CoordinateField (part i.1) (part i.2)) ∧
      (∀ i ∈ L.counts, CountField (part i)) ∧ ∀ i ∈ L.numbers, NumberField (part i) :=
  ⟨fun h ↦ ⟨h.coordinates, h.counts, h.numbers⟩, fun h ↦ ⟨h.1, h.2.1, h.2.2⟩⟩

theorem succeeds_pure {ε α : Type} (a : α) : Succeeds (pure a : Except ε α) ↔ True :=
  iff_of_true (succeeds_ok a) trivial

theorem succeeds_parseGga (hpart : ∀ i, ∀ c ∈ part i, IsDecoded c) :
    Succeeds (parseGga talker part) ↔
      GGA.Reads part := by
  have h : Succeeds (parseGga talker part) ↔ _ :=
    succeeds_bind (succeeds_coordToDecimal _ _) fun _ ↦
    succeeds_bind (succeeds_coordToDecimal _ _) fun _ ↦
    succeeds_bind (succeeds_intOrZero (hpart 6)) fun _ ↦
    succeeds_bind (succeeds_intOrZero (hpart 7)) fun _ ↦
    succeeds_bind (succeeds_floatOrNone _) fun _ ↦
    succeeds_bind (succeeds_floatOrNone _) fun _ ↦ succeeds_pure _
  rw [h, reads_iff]
  simp only [GGA, List.forall_mem_cons, List.not_mem_nil, false_imp_iff, implies_true, and_true,
    and_assoc]

theorem succeeds_parseRmc : Succeeds (parseRmc talker part) ↔
    RMC.Reads part := by
  have h : Succeeds (parseRmc talker part) ↔ _ :=
    succeeds_bind (succeeds_coordToDecimal _ _) fun _ ↦
    succeeds_bind (succeeds_coordToDecimal _ _) fun _ ↦
    succeeds_bind (succeeds_floatOrNone _) fun _ ↦
    succeeds_bind (succeeds_floatOrNone _) fun _ ↦ succeeds_pure _
  rw [h, reads_iff]
  simp only [RMC, List.forall_mem_cons, List.not_mem_nil, false_imp_iff, implies_true, and_true,
    true_and, and_assoc]

theorem succeeds_parseGll : Succeeds (parseGll talker part) ↔
    GLL.Reads part := by
  have h : Succeeds (parseGll talker part) ↔ _ :=
    succeeds_bind (succeeds_coordToDecimal _ _) fun _ ↦
    succeeds_bind (succeeds_coordToDecimal _ _) fun _ ↦ succeeds_pure _
  rw [h, reads_iff]
  simp only [GLL, List.forall_mem_cons, List.not_mem_nil, false_imp_iff, implies_true, and_true]

theorem succeeds_parseVtg : Succeeds (parseVtg talker part) ↔
    VTG.Reads part := by
  have h : Succeeds (parseVtg talker part) ↔ _ :=
    succeeds_bind (succeeds_floatOrNone _) fun _ ↦
    succeeds_bind (succeeds_floatOrNone _) fun _ ↦
    succeeds_bind (succeeds_floatOrNone _) fun _ ↦ succeeds_pure _
  rw [h, reads_iff]
  simp only [VTG, List.forall_mem_cons, List.not_mem_nil, false_imp_iff, implies_true, and_true,
    true_and]

theorem succeeds_parseGsv (hpart : ∀ i, ∀ c ∈ part i, IsDecoded c) :
    Succeeds (parseGsv talker part) ↔ GSV.Reads part := by
  have hreads : GSV.Reads part ↔ CountField (part 3) := by
    rw [reads_iff]
    simp only [GSV, List.forall_mem_cons, List.not_mem_nil, false_imp_iff, implies_true, and_true,
      true_and]
  rw [hreads, parseGsv]
  split
  · rename_i hdigits
    have h : Succeeds ((toInt (part 3)).map some) ↔ CountField (part 3) := by
      rw [succeeds_map]
      exact succeeds_toInt (hpart 3) hdigits
    exact (succeeds_bind h fun _ ↦ succeeds_pure _).trans (and_iff_left trivial)
  · rename_i hno
    exact iff_of_true (succeeds_ok _) (countField_of_not_isdigit hno)

theorem succeeds_parseGns (hpart : ∀ i, ∀ c ∈ part i, IsDecoded c) :
    Succeeds (parseGns talker part) ↔
      GNS.Reads part := by
  have h : Succeeds (parseGns talker part) ↔ _ :=
    succeeds_bind (succeeds_coordToDecimal _ _) fun _ ↦
    succeeds_bind (succeeds_coordToDecimal _ _) fun _ ↦
    succeeds_bind (succeeds_intOrZero (hpart 7)) fun _ ↦
    succeeds_bind (succeeds_floatOrNone _) fun _ ↦
    succeeds_bind (succeeds_floatOrNone _) fun _ ↦
    succeeds_bind (succeeds_floatOrNone _) fun _ ↦ succeeds_pure _
  rw [h, reads_iff]
  simp only [GNS, List.forall_mem_cons, List.not_mem_nil, false_imp_iff, implies_true, and_true,
    and_assoc]

end

/-- A type has one layout. -/
theorem layouts_iff {typ : Text} {n : ℕ} {part : ℕ → Text} (L : Layout) (hL : L ∈ LAYOUTS)
    (h : typ = L.typ ∧ L.parts ≤ n) :
    (∀ L ∈ LAYOUTS, typ = L.typ → L.parts ≤ n → L.Reads part) ↔ L.Reads part := by
  have hdistinct : ∀ L ∈ LAYOUTS, ∀ L' ∈ LAYOUTS, L.typ = L'.typ → L = L' := by decide
  constructor
  · intro hall
    exact hall L hL h.1 h.2
  · intro hreads L' hL' htyp _
    rwa [← hdistinct L hL L' hL' (h.1.symm.trans htyp)]

theorem isDecoded_part {sentence : Text} (h : ∀ c ∈ sentence, IsDecoded c) (i : ℕ) :
    ∀ c ∈ (parts sentence).getD i [], IsDecoded c := by
  intro c hc
  rw [List.getD_eq_getElem?_getD] at hc
  cases hpart : (parts sentence)[i]? with
  | none =>
      rw [hpart] at hc
      cases hc
  | some part =>
      rw [hpart] at hc
      have hmem := mem_of_mem_split (List.mem_of_getElem? hpart) c hc
      exact h c (List.mem_of_mem_tail ((List.takeWhile_sublist _).subset hmem))

/-- A sentence in ASCII raises just when a field of its layout cannot be read. -/
theorem succeeds_parseSentence {line : Text} (hline : ∀ c ∈ line, IsDecoded c) :
    Succeeds (parseSentence line) ↔ Readable (strip line) := by
  have hpart := isDecoded_part fun c hc ↦ hline c (mem_of_mem_strip hc)
  rw [parseSentence, Readable]
  unfold decodeBody
  dsimp only
  rw [← parts]
  split
  · rename_i hsum
    rw [forall_prop_of_true hsum]
    split
    · rename_i hshort
      exact iff_of_true (succeeds_ok _) fun h ↦ absurd h (not_le.mpr hshort)
    · rename_i hlong
      rw [forall_prop_of_true (not_lt.mp hlong)]
      split
      · rename_i h
        rw [layouts_iff GGA (by decide) h, succeeds_map, succeeds_parseGga hpart]
      rename_i hgga
      split
      · rename_i h
        rw [layouts_iff RMC (by decide) h, succeeds_map, succeeds_parseRmc]
      rename_i hrmc
      split
      · rename_i h
        rw [layouts_iff GLL (by decide) h, succeeds_map, succeeds_parseGll]
      rename_i hgll
      split
      · rename_i h
        rw [layouts_iff VTG (by decide) h, succeeds_map, succeeds_parseVtg]
      rename_i hvtg
      split
      · rename_i h
        rw [layouts_iff GSV (by decide) h, succeeds_map, succeeds_parseGsv hpart]
      rename_i hgsv
      split
      · rename_i h
        rw [layouts_iff GNS (by decide) h, succeeds_map, succeeds_parseGns hpart]
      rename_i hgns
      -- no layout applies
      refine iff_of_true (succeeds_ok _) fun L hL htyp hn ↦ ?_
      simp only [LAYOUTS, List.mem_cons, List.not_mem_nil, or_false] at hL
      rcases hL with rfl | rfl | rfl | rfl | rfl | rfl
      · exact absurd ⟨htyp, hn⟩ hgga
      · exact absurd ⟨htyp, hn⟩ hrmc
      · exact absurd ⟨htyp, hn⟩ hgll
      · exact absurd ⟨htyp, hn⟩ hvtg
      · exact absurd ⟨htyp, hn⟩ hgsv
      · exact absurd ⟨htyp, hn⟩ hgns
  · rename_i hsum
    exact iff_of_true (succeeds_ok _) fun h ↦ absurd h hsum

/-! ## One line after the other -/

/-- The lines that start with a dollar, stripped, with their numbers. -/
def numbered (i : ℕ) (texts : List Text) : List (Text × ℕ) :=
  ((texts.map strip).zipIdx i).filter fun e ↦ e.1.head? = some '$'

/-- The lines of a datagram that `datagram_received` looks at. -/
def dollarLines (data : List UInt8) : List (Text × ℕ) :=
  numbered 0 (splitlines ((decodeAscii data).dropWhile (· ≠ '$')))

section

variable (addr : Addr) (clock : ℕ → ℚ) (today : ℕ → Text)

/-- A datagram of one line, at the time when the line was looked at. -/
def deliver (l : Listener) (e : Text × ℕ) : Listener :=
  (l.datagramReceived (asciiBytes e.1) addr (fun _ ↦ clock e.2) fun _ ↦ today e.2).1

/-- A datagram comes to the same as its lines one by one; none of them raises, and each is
consumed or counted. -/
structure Isolated (l : Listener) (data : List UInt8) : Prop where
  quiet : (l.datagramReceived data addr clock today).2 = none
  fix : (l.datagramReceived data addr clock today).1.fix =
    ((dollarLines data).foldl (deliver addr clock today) l).fix
  raw : (l.datagramReceived data addr clock today).1.raw =
    ((dollarLines data).foldl (deliver addr clock today) l).raw
  sentences_parsed : (l.datagramReceived data addr clock today).1.sentences_parsed =
    ((dollarLines data).foldl (deliver addr clock today) l).sentences_parsed
  sentences_unparsed : (l.datagramReceived data addr clock today).1.sentences_unparsed =
    ((dollarLines data).foldl (deliver addr clock today) l).sentences_unparsed
  counted : (l.datagramReceived data addr clock today).1.sentences_parsed +
      (l.datagramReceived data addr clock today).1.sentences_unparsed =
    l.sentences_parsed + l.sentences_unparsed + (dollarLines data).length

/-- What becomes of one line. -/
def taken (l : Listener) (e : Text × ℕ) : Listener :=
  match parseSentence e.1 with
  | .error _ => l
  | .ok none => l.noteUnparsed e.1
  | .ok (some parsed) => l.consume parsed addr (clock e.2) (today e.2)

variable {addr clock today} {l l' : Listener}

theorem numbered_cons (i : ℕ) (text : Text) (texts : List Text) :
    numbered i (text :: texts) =
      if (strip text).head? = some '$' then (strip text, i) :: numbered (i + 1) texts
      else numbered (i + 1) texts := by
  rw [numbered, List.map_cons, List.zipIdx_cons, List.filter_cons]
  simp only [decide_eq_true_eq]
  rfl

/-- A loop that no line leaves has taken all of them. -/
theorem lines_spec (i : ℕ) (texts : List Text) (l : Listener) :
    ((l.lines addr clock today i texts).2 = none ↔
      ∀ e ∈ numbered i texts, Succeeds (parseSentence e.1)) ∧
    ((l.lines addr clock today i texts).2 = none →
      (l.lines addr clock today i texts).1 =
        (numbered i texts).foldl (taken addr clock today) l) := by
  induction texts generalizing i l with
  | nil => exact ⟨iff_of_true rfl fun e he ↦ absurd he List.not_mem_nil, fun _ ↦ rfl⟩
  | cons text texts ih =>
      rw [Listener.lines, numbered_cons, Listener.line]
      by_cases hdollar : (strip text).head? = some '$'
      · rw [if_pos hdollar, if_pos hdollar, List.forall_mem_cons, List.foldl_cons, taken]
        cases hparse : parseSentence (strip text) with
        | error exc =>
            refine ⟨iff_of_false (Option.some_ne_none exc) fun h ↦ ?_,
              fun h ↦ absurd h (Option.some_ne_none exc)⟩
            obtain ⟨res, hres⟩ := h.1
            cases hres
        | ok res =>
            rw [and_iff_right (succeeds_ok res)]
            cases res with
            | none => exact ih (i + 1) (l.noteUnparsed (strip text))
            | some parsed => exact ih (i + 1) (l.consume parsed addr (clock i) (today i))
      · rw [if_neg hdollar, if_neg hdollar]
        exact ih (i + 1) l

/-- Two listeners that show the same. -/
structure Same (l l' : Listener) : Prop where
  port : l.port = l'.port
  bind : l.bind = l'.bind
  fix : l.fix = l'.fix
  raw : l.raw = l'.raw
  sentences_parsed : l.sentences_parsed = l'.sentences_parsed
  sentences_unparsed : l.sentences_unparsed = l'.sentences_unparsed

theorem Same.symm (h : Same l l') : Same l' l where
  port := h.port.symm
  bind := h.bind.symm
  fix := h.fix.symm
  raw := h.raw.symm
  sentences_parsed := h.sentences_parsed.symm
  sentences_unparsed := h.sentences_unparsed.symm

theorem Same.trans {l'' : Listener} (h : Same l l') (h' : Same l' l'') : Same l l'' where
  port := h.port.trans h'.port
  bind := h.bind.trans h'.bind
  fix := h.fix.trans h'.fix
  raw := h.raw.trans h'.raw
  sentences_parsed := h.sentences_parsed.trans h'.sentences_parsed
  sentences_unparsed := h.sentences_unparsed.trans h'.sentences_unparsed

theorem same_recordRaw (l : Listener) (data : List UInt8) (addr : Addr) :
    Same (l.recordRaw data addr) l := ⟨rfl, rfl, rfl, rfl, rfl, rfl⟩

theorem same_notePrefix (l : Listener) (pre : Text) : Same (l.notePrefix pre) l := by
  rw [Listener.notePrefix]
  split <;> exact ⟨rfl, rfl, rfl, rfl, rfl, rfl⟩

theorem Same.taken (h : Same l l') (e : Text × ℕ) :
    Same (taken addr clock today l e) (taken addr clock today l' e) := by
  unfold Gps.taken
  split
  · exact h
  · exact ⟨h.port, h.bind, h.fix, h.raw, h.sentences_parsed,
      congrArg (· + 1) h.sentences_unparsed⟩
  · refine ⟨h.port, h.bind, ?_, ?_, congrArg (· + 1) h.sentences_parsed, h.sentences_unparsed⟩
    · rw [Listener.consume, Listener.consume, h.fix, h.port, h.bind]
    · rw [Listener.consume, Listener.consume, h.raw]

/-- Each line that is taken is counted once. -/
theorem counted_foldl (es : List (Text × ℕ)) (l : Listener)
    (h : ∀ e ∈ es, Succeeds (parseSentence e.1)) :
    (es.foldl (taken addr clock today) l).sentences_parsed +
        (es.foldl (taken addr clock today) l).sentences_unparsed =
      l.sentences_parsed + l.sentences_unparsed + es.length := by
  induction es generalizing l with
  | nil => rfl
  | cons e es ih =>
      obtain ⟨⟨res, hres⟩, hes⟩ := List.forall_mem_cons.mp h
      have hone : (taken addr clock today l e).sentences_parsed +
          (taken addr clock today l e).sentences_unparsed =
          l.sentences_parsed + l.sentences_unparsed + 1 := by
        rw [taken, hres]
        cases res with
        | none => exact (Nat.add_assoc _ _ _).symm
        | some parsed => exact Nat.add_right_comm _ _ _
      rw [List.foldl_cons, ih _ hes, hone, List.length_cons]
      omega

/-! ### Lines on their own -/

/-- A line that a datagram may hold, stripped. -/
structure IsLine (line : Text) : Prop where
  decoded : ∀ c ∈ line, IsDecoded c
  plain : ∀ c ∈ line, isLineBreak c = false
  stripped : strip line = line
  dollar : line.head? = some '$'

theorem isLine_of_mem {data : List UInt8} {e : Text × ℕ} (h : e ∈ dollarLines data) :
    IsLine e.1 := by
  obtain ⟨hmem, hdollar⟩ := List.mem_filter.mp h
  obtain ⟨text, htext, heq⟩ := List.mem_map.mp (List.fst_mem_of_mem_zipIdx hmem)
  have hchars (c : Char) (hc : c ∈ e.1) :=
    mem_of_mem_splitlines htext c (mem_of_mem_strip (heq ▸ hc))
  refine ⟨fun c hc ↦ ?_, fun c hc ↦ (hchars c hc).2, heq ▸ strip_strip text,
    of_decide_eq_true hdollar⟩
  exact isDecoded_of_mem ((List.dropWhile_sublist _).subset (hchars c hc).1)

/-- A datagram of one line. -/
theorem deliver_eq {e : Text × ℕ} (h : IsLine e.1) :
    deliver addr clock today l e =
      taken addr clock today (l.recordRaw (asciiBytes e.1) addr) e := by
  obtain ⟨line, i⟩ := e
  obtain ⟨rest, rfl⟩ : ∃ rest, line = '$' :: rest := by
    cases line with
    | nil => cases h.dollar
    | cons c rest =>
        cases h.dollar
        exact ⟨rest, rfl⟩
  have hlines := splitlines_eq_singleton (List.cons_ne_nil '$' rest) h.plain
  have htake : ('$' :: rest).takeWhile (· ≠ '$') = [] := rfl
  have hdrop : ('$' :: rest).dropWhile (· ≠ '$') = '$' :: rest := rfl
  rw [deliver, Listener.datagramReceived, decodeAscii_asciiBytes h.decoded]
  dsimp only
  rw [if_pos List.mem_cons_self, htake, hdrop, hlines,
    if_neg (not_not.mpr rfl), Listener.lines, Listener.line, h.stripped, if_pos h.dollar, taken]
  cases parseSentence ('$' :: rest) with
  | error exc => rfl
  | ok res =>
      cases res with
      | none => rfl
      | some parsed => rfl

theorem same_deliver {es : List (Text × ℕ)} (h : ∀ e ∈ es, IsLine e.1) (hs : Same l l') :
    Same (es.foldl (deliver addr clock today) l) (es.foldl (taken addr clock today) l') := by
  induction es generalizing l l' with
  | nil => exact hs
  | cons e es ih =>
      obtain ⟨he, hes⟩ := List.forall_mem_cons.mp h
      refine ih hes ?_
      rw [deliver_eq he]
      exact ((same_recordRaw l _ addr).trans hs).taken e

/-- A datagram is its lines, after some notes. -/
theorem datagramReceived_eq (addr : Addr) (clock : ℕ → ℚ) (today : ℕ → Text) (l : Listener)
    (data : List UInt8) : ∃ l₁, Same l₁ l ∧
    l.datagramReceived data addr clock today = Listener.lines addr clock today 0
      (splitlines ((decodeAscii data).dropWhile (· ≠ '$'))) l₁ := by
  have hraw := same_recordRaw l data addr
  rw [Listener.datagramReceived]
  dsimp only
  split
  · split
    · exact ⟨_, (same_notePrefix _ _).trans hraw, rfl⟩
    · exact ⟨_, hraw, rfl⟩
  · rename_i hno
    have hdrop : (decodeAscii data).dropWhile (· ≠ '$') = [] :=
      List.dropWhile_eq_nil_iff.mpr fun c hc ↦ decide_eq_true fun heq ↦ hno (heq ▸ hc)
    rw [hdrop]
    exact ⟨_, hraw, rfl⟩

end

/-- A datagram comes to the same as its lines one by one just when each of them can be read. -/
theorem isolated_iff_readable (addr : Addr) (clock : ℕ → ℚ) (today : ℕ → Text) (l : Listener)
    (data : List UInt8) :
    Isolated addr clock today l data ↔ ∀ e ∈ dollarLines data, Readable e.1 := by
  obtain ⟨l₁, hsame, heq⟩ := datagramReceived_eq addr clock today l data
  have hspec : ((l.datagramReceived data addr clock today).2 = none ↔
      ∀ e ∈ dollarLines data, Succeeds (parseSentence e.1)) ∧
    ((l.datagramReceived data addr clock today).2 = none →
      (l.datagramReceived data addr clock today).1 =
        (dollarLines data).foldl (taken addr clock today) l₁) := by
    rw [heq]
    exact lines_spec 0 _ l₁
  obtain ⟨hquiet, hstate⟩ := hspec
  have hread (e : Text × ℕ) (he : e ∈ dollarLines data) :
      Succeeds (parseSentence e.1) ↔ Readable e.1 := by
    have hline := isLine_of_mem he
    rw [succeeds_parseSentence hline.decoded, hline.stripped]
  constructor
  · intro h e he
    exact (hread e he).mp (hquiet.mp h.quiet e he)
  · intro hall
    have hsucceeds (e : Text × ℕ) (he : e ∈ dollarLines data) : Succeeds (parseSentence e.1) :=
      (hread e he).mpr (hall e he)
    have hnone := hquiet.mpr hsucceeds
    have hone : Same (l.datagramReceived data addr clock today).1
        ((dollarLines data).foldl (deliver addr clock today) l) := by
      rw [hstate hnone]
      exact (same_deliver (fun e he ↦ isLine_of_mem he) hsame.symm).symm
    refine ⟨hnone, hone.fix, hone.raw, hone.sentences_parsed, hone.sentences_unparsed, ?_⟩
    rw [hstate hnone, counted_foldl _ l₁ hsucceeds, hsame.sentences_parsed,
      hsame.sentences_unparsed]

/-- An altitude that is no number, and a sentence behind it. -/
def badAltitude : List UInt8 := Gps.encodeAscii
  ("$GPGGA,123519,4807.038,N,01131.000,E,1,08,0.9,x,M,46.9,M,,*11\n" ++ "$GPGSV,1,1,08*71\n")

theorem badAltitude_ends_datagram :
    ¬ Isolated ⟨"192.0.2.7".toList, 40000⟩ (fun _ ↦ 1) (fun _ ↦ "2026-01-01".toList)
      (.init 8500 "0.0.0.0".toList) badAltitude := by
  intro h
  have hparsed := h.sentences_parsed
  revert hparsed
  decide +kernel

end SensorFusion.Gps
