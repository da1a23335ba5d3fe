import Mathlib.Data.Fin.Basic
import SensorFusion.Lib.Machine

/-!
# JSON texts

A reader goes through a text once, from left to right, and keeps the objects and arrays that are
open on a stack.  It gets stuck at the first character that cannot stand where it is.  What a
value in the middle of a text does to the reader depends only on where the reader is: inside a
string, inside a number or between these.
-/

namespace SensorFusion.JsonText

/-! ## The reader -/

/-- How far a string is.  In an escape, one hexadecimal digit more is missing than `left`. -/
inductive Quoted where
  | plain
  | escape
  | unicode (left : Fin 4)
deriving DecidableEq, Repr

/-- How far a number is. -/
inductive Numeral where
  | minus
  | zero
  | whole
  | point
  | fraction
  | exp
  | sign
  | exponent
deriving DecidableEq, Repr

inductive Word where
  | true
  | false
  | null
deriving DecidableEq, Repr

inductive Frame where
  | object
  | array
deriving DecidableEq, Repr

/-- What comes next: a value, an element or the end of an array, a member or the end of an
object, a name, a colon, or what may stand behind a value; or the rest of a string, of a number
or of a word of which so many letters are read. -/
inductive Mode where
  | value
  | element
  | member
  | name
  | colon
  | after
  | string (isName : Bool) (q : Quoted)
  | number (n : Numeral)
  | word (w : Word) (read : ℕ)
deriving DecidableEq, Repr

structure Reader where
  mode : Mode
  stack : List Frame
deriving DecidableEq, Repr

def isBlank (c : Char) : Bool := c == ' ' || c == '\t' || c == '\n' || c == '\r'

/-- The letters behind a backslash that stand for one character, and the characters. -/
def ESCAPES : List (Char × Char) :=
  [('"', '"'), ('\\', '\\'), ('/', '/'), ('b', Char.ofNat 8), ('f', Char.ofNat 12), ('n', '\n'),
    ('r', '\r'), ('t', '\t')]

namespace Quoted

/-- A character of a string other than the quotation mark that ends it. -/
def step : Machine Quoted Char
  | plain, c =>
      if c = '\\' then some escape
      else if c = '"' ∨ c.toNat < 0x20 then none else some plain
  | escape, c =>
      if c = 'u' then some (unicode 3)
      else if c ∈ ESCAPES.map Prod.fst then some plain else none
  | unicode left, c =>
      if c.isHexDigit then some (if left = 0 then plain else unicode (left - 1)) else none

end Quoted

namespace Numeral

/-- A character that continues a number. -/
def step : Machine Numeral Char
  | minus, c => if c = '0' then some zero else if c.isDigit then some whole else none
  | zero, c =>
      if c = '.' then some point else if c = 'e' ∨ c = 'E' then some exp else none
  | whole, c =>
      if c.isDigit then some whole
      else if c = '.' then some point else if c = 'e' ∨ c = 'E' then some exp else none
  | point, c => if c.isDigit then some fraction else none
  | fraction, c =>
      if c.isDigit then some fraction else if c = 'e' ∨ c = 'E' then some exp else none
  | exp, c =>
      if c = '+' ∨ c = '-' then some sign else if c.isDigit then some exponent else none
  | sign, c => if c.isDigit then some exponent else none
  | exponent, c => if c.isDigit then some exponent else none

/-- A number may end here. -/
def isWhole : Numeral → Bool
  | zero | whole | fraction | exponent => true
  | minus | point | exp | sign => false

end Numeral

def Word.letters : Word → List Char
  | .true => "true".toList
  | .false => "false".toList
  | .null => "null".toList

namespace Reader

/-- Nothing is read. -/
def start : Reader := ⟨.value, []⟩

/-- The first character of a value. -/
def begin (stack : List Frame) (c : Char) : Option Reader :=
  if c = '"' then some ⟨.string false .plain, stack⟩
  else if c = '\x7b' then some ⟨.member, .object :: stack⟩
  else if c = '[' then some ⟨.element, .array :: stack⟩
  else if c = '-' then some ⟨.number .minus, stack⟩
  else if c = 't' then some ⟨.word .true 1, stack⟩
  else if c = 'f' then some ⟨.word .false 1, stack⟩
  else if c = 'n' then some ⟨.word .null 1, stack⟩
  else (Numeral.step .minus c).map fun n ↦ ⟨.number n, stack⟩

/-- A character behind a value. -/
def follow (stack : List Frame) (c : Char) : Option Reader :=
  if isBlank c then some ⟨.after, stack⟩
  else
    match stack with
    | [] => none
    | .object :: outer =>
        if c = ',' then some ⟨.name, stack⟩
        else if c = '\x7d' then some ⟨.after, outer⟩ else none
    | .array :: outer =>
        if c = ',' then some ⟨.value, stack⟩
        else if c = ']' then some ⟨.after, outer⟩ else none

def step : Machine Reader Char
  | ⟨.value, stack⟩, c => if isBlank c then some ⟨.value, stack⟩ else begin stack c
  | ⟨.element, stack⟩, c =>
      if isBlank c then some ⟨.element, stack⟩
      else if c = ']' then follow stack c else begin stack c
  | ⟨.member, stack⟩, c =>
      if isBlank c then some ⟨.member, stack⟩
      else if c = '"' then some ⟨.string true .plain, stack⟩
      else if c = '\x7d' then follow stack c else none
  | ⟨.name, stack⟩, c =>
      if isBlank c then some ⟨.name, stack⟩
      else if c = '"' then some ⟨.string true .plain, stack⟩ else none
  | ⟨.colon, stack⟩, c =>
      if isBlank c then some ⟨.colon, stack⟩
      else if c = ':' then some ⟨.value, stack⟩ else none
  | ⟨.after, stack⟩, c => follow stack c
  | ⟨.string isName q, stack⟩, c =>
      if q = .plain ∧ c = '"' then some ⟨if isName then .colon else .after, stack⟩
      else (q.step c).map fun q' ↦ ⟨.string isName q', stack⟩
  | ⟨.number n, stack⟩, c =>
      match n.step c with
      | some n' => some ⟨.number n', stack⟩
      | none => if n.isWhole then follow stack c else none
  | ⟨.word w read, stack⟩, c =>
      if w.letters[read]? = some c then
        some ⟨if read + 1 = w.letters.length then .after else .word w (read + 1), stack⟩
      else none

/-- A value is complete, and nothing is open. -/
def isDone : Reader → Bool
  | ⟨.after, []⟩ => true
  | ⟨.number n, []⟩ => n.isWhole
  | _ => false

/-- The reader is not inside a string. -/
def IsOutside (r : Reader) : Prop := ∀ isName q, r.mode ≠ .string isName q

end Reader

/-- A text is JSON. -/
def IsJson (text : List Char) : Prop :=
  ∃ r, Reader.step.run .start text = some r ∧ r.isDone = true

instance (text : List Char) : Decidable (IsJson text) :=
  match h : Reader.step.run .start text with
  | none => isFalse fun ⟨r, hr, _⟩ ↦ by rw [h] at hr; cases hr
  | some r => decidable_of_iff (r.isDone = true)
      ⟨fun hd ↦ ⟨r, h, hd⟩, fun ⟨r', hr', hd⟩ ↦ by rw [h] at hr'; cases hr'; exact hd⟩

example : IsJson "[-1.5e+3, \x7b\"a\\u00e9\": [true, null]\x7d]".toList := by decide

example : ¬ IsJson "[01]".toList := by decide

/-! ## What a string stands for -/

/-- The value of a hexadecimal digit. -/
def hexValue (c : Char) : ℕ :=
  if c.isDigit then c.toNat - '0'.toNat
  else if c ≤ 'F' then c.toNat - 'A'.toNat + 10 else c.toNat - 'a'.toNat + 10

/-- The number of four hexadecimal digits. -/
def hex4? (a b c d : Char) : Option ℕ :=
  if [a, b, c, d].all Char.isHexDigit then
    some (16 * (16 * (16 * hexValue a + hexValue b) + hexValue c) + hexValue d)
  else none

example : hex4? '0' '0' 'e' 'A' = some 0xea := by decide

/-- What stands between two quotation marks, and the string that it spells. -/
inductive Spells : List Char → List Char → Prop where
  | nil : Spells [] []
  | plain {c : Char} {raw s : List Char} (hquote : c ≠ '"') (hslash : c ≠ '\\')
      (hcontrol : 0x20 ≤ c.toNat) (h : Spells raw s) : Spells (c :: raw) (c :: s)
  | escape {c d : Char} {raw s : List Char} (hc : (c, d) ∈ ESCAPES) (h : Spells raw s) :
      Spells ('\\' :: c :: raw) (d :: s)
  | unicode {a b c d e : Char} {raw s : List Char} (he : hex4? a b c d = some e.toNat)
      (h : Spells raw s) : Spells ('\\' :: 'u' :: a :: b :: c :: d :: raw) (e :: s)
  | surrogates {a b c d a' b' c' d' e : Char} {high low : ℕ} {raw s : List Char}
      (hhigh : hex4? a b c d = some (0xD800 + high))
      (hlow : hex4? a' b' c' d' = some (0xDC00 + low)) (hhigh_lt : high < 0x400)
      (hlow_lt : low < 0x400) (he : e.toNat = 0x10000 + 0x400 * high + low)
      (h : Spells raw s) :
      Spells ('\\' :: 'u' :: a :: b :: c :: d :: '\\' :: 'u' :: a' :: b' :: c' :: d' :: raw)
        (e :: s)

/-- The reader is outside of the strings behind a text. -/
def Outside (text : List Char) : Prop := ∃ r, Reader.step.run .start text = some r ∧ r.IsOutside

/-- Behind `before`, a text has a string that stands for `s`. -/
def HasString (text before s : List Char) : Prop :=
  ∃ raw after, text = before ++ '"' :: raw ++ '"' :: after ∧ Outside before ∧ Spells raw s

theorem spells_self {s : List Char} (hquote : '"' ∉ s) (hslash : '\\' ∉ s)
    (hcontrol : ∀ c ∈ s, 0x20 ≤ c.toNat) : Spells s s := by
  induction s with
  | nil => exact .nil
  | cons c s ih =>
      rw [List.mem_cons, not_or] at hquote hslash
      obtain ⟨hc, hs⟩ := List.forall_mem_cons.mp hcontrol
      exact .plain (Ne.symm hquote.1) (Ne.symm hslash.1) hc (ih hquote.2 hslash.2 hs)

/-! ## A value in a string -/

namespace Quoted

/-- A string goes on behind a value without quotation marks and backslashes: an escape is
completed, and there are no control characters. -/
def Admits : Quoted → List Char → Prop
  | plain, v => ∀ c ∈ v, 0x20 ≤ c.toNat
  | escape, v => (∃ c ∈ v.head?, c ∈ ESCAPES.map Prod.fst) ∧ ∀ c ∈ v, 0x20 ≤ c.toNat
  | unicode left, v =>
      (∀ c ∈ v.take (left + 1), c.isHexDigit = true) ∧ ∀ c ∈ v, 0x20 ≤ c.toNat

theorem le_of_isHexDigit {c : Char} (h : c.isHexDigit = true) : 0x20 ≤ c.toNat := by
  unfold Char.isHexDigit Char.isDigit at h
  simp only [Bool.or_eq_true, Bool.and_eq_true, decide_eq_true_eq, ge_iff_le,
    UInt32.le_iff_toNat_le] at h
  have h₀ : '0'.val.toNat = 48 := rfl
  have ha : 'a'.val.toNat = 97 := rfl
  have hA : 'A'.val.toNat = 65 := rfl
  show 0x20 ≤ c.val.toNat
  omega

theorem le_of_mem_escapes {c : Char} (h : c ∈ ESCAPES.map Prod.fst) : 0x20 ≤ c.toNat := by
  have hall : (ESCAPES.map Prod.fst).all (fun c ↦ decide (0x20 ≤ c.toNat)) = true := by decide
  exact of_decide_eq_true (List.all_eq_true.mp hall c h)

variable {v : List Char} {q q' : Quoted}

theorem run_plain (hquote : '"' ∉ v) (hslash : '\\' ∉ v) :
    step.run plain v = some q ↔ q = plain ∧ plain.Admits v := by
  induction v with
  | nil =>
      exact ⟨fun h ↦ ⟨(Option.some.inj h).symm, fun c hc ↦ absurd hc List.not_mem_nil⟩,
        fun h ↦ congrArg some h.1.symm⟩
  | cons c v ih =>
      rw [List.mem_cons, not_or] at hquote hslash
      rw [Machine.run_cons, step, if_neg (Ne.symm hslash.1), Admits, List.forall_mem_cons]
      by_cases hc : c.toNat < 0x20
      · rw [if_pos (.inr hc)]
        exact iff_of_false nofun fun h ↦ absurd hc (not_lt.mpr h.2.1)
      · rw [if_neg (not_or.mpr ⟨Ne.symm hquote.1, hc⟩), Option.bind_some,
          ih hquote.2 hslash.2, Admits, and_iff_right (not_lt.mp hc)]

theorem run_unicode (hquote : '"' ∉ v) (hslash : '\\' ∉ v) (left : Fin 4)
    (hlen : left.val < v.length) :
    step.run (unicode left) v = some q ↔ q = plain ∧ (unicode left).Admits v := by
  induction v generalizing left with
  | nil => exact absurd hlen (Nat.not_lt_zero _)
  | cons c v ih =>
      rw [List.mem_cons, not_or] at hquote hslash
      rw [Machine.run_cons, step, Admits, List.take_succ_cons, List.forall_mem_cons,
        List.forall_mem_cons]
      by_cases hc : c.isHexDigit = true
      · rw [if_pos hc, Option.bind_some, and_iff_right hc, and_iff_right (le_of_isHexDigit hc)]
        by_cases hleft : left = 0
        · rw [if_pos hleft, run_plain hquote.2 hslash.2, hleft, Admits]
          simp
        · have hval : (left - 1).val + 1 = left.val := by
            have hpos : 0 < left.val := Nat.pos_of_ne_zero fun h ↦ hleft (Fin.ext h)
            rw [Fin.val_sub_one_of_ne_zero hleft]
            omega
          rw [List.length_cons] at hlen
          rw [if_neg hleft, ih hquote.2 hslash.2 (left - 1) (by omega), Admits, hval]
      · rw [if_neg hc]
        exact iff_of_false nofun fun h ↦ hc h.2.1.1

/-- Behind a value, a string is where it was, outside of an escape. -/
theorem run_iff (hquote : '"' ∉ v) (hslash : '\\' ∉ v) (hlen : 4 ≤ v.length)
    (hu : ∀ c s, v = 'u' :: c :: s → c.isHexDigit = false) :
    step.run q v = some q' ↔ q' = plain ∧ q.Admits v := by
  cases q with
  | plain => exact run_plain hquote hslash
  | unicode left => exact run_unicode hquote hslash left (by omega)
  | escape =>
      obtain ⟨c, v, rfl⟩ := List.exists_cons_of_length_pos (by omega : 0 < v.length)
      rw [List.mem_cons, not_or] at hquote hslash
      rw [Machine.run_cons, step, Admits, List.forall_mem_cons]
      by_cases hcu : c = 'u'
      · subst hcu
        obtain ⟨d, s, rfl⟩ := List.exists_cons_of_length_pos (by
          rw [List.length_cons] at hlen
          omega : 0 < v.length)
        have hd := hu d s rfl
        rw [if_pos rfl, Option.bind_some, Machine.run_cons, step, if_neg (by rw [hd]; decide)]
        refine iff_of_false nofun ?_
        rintro ⟨-, ⟨c, hc, hmem⟩, -⟩
        rw [← Option.some.inj hc] at hmem
        exact absurd hmem (by decide)
      · rw [if_neg hcu]
        by_cases hc : c ∈ ESCAPES.map Prod.fst
        · have hhead : ∃ d ∈ (c :: v).head?, d ∈ ESCAPES.map Prod.fst := ⟨c, rfl, hc⟩
          rw [if_pos hc, Option.bind_some, run_plain hquote.2 hslash.2, Admits,
            and_iff_right (le_of_mem_escapes hc), and_iff_right hhead]
        · rw [if_neg hc]
          refine iff_of_false nofun ?_
          rintro ⟨-, ⟨d, hd, hmem⟩, -⟩
          rw [← Option.some.inj hd] at hmem
          exact hc hmem

end Quoted

namespace Reader

theorem run_string {v : List Char} (hquote : '"' ∉ v) (isName : Bool) (q : Quoted)
    (stack : List Frame) :
    step.run ⟨.string isName q, stack⟩ v =
      (Quoted.step.run q v).map fun q' ↦ ⟨.string isName q', stack⟩ := by
  induction v generalizing q with
  | nil => rfl
  | cons c v ih =>
      rw [List.mem_cons, not_or] at hquote
      rw [Machine.run_cons, Machine.run_cons, step,
        if_neg fun h ↦ hquote.1 h.2.symm]
      cases q.step c with
      | none => rfl
      | some q' => exact ih hquote.2 q'

/-! ## A value outside of strings -/

/-- What stands outside of strings, apart from digits. -/
def BARE : List Char := " \t\n\r\x7b\x7d[]:,\"+-.eEtrufalsn".toList

/-- A character that stands outside of strings. -/
def IsBare (c : Char) : Prop := c.isDigit = true ∨ c ∈ BARE

instance (c : Char) : Decidable (IsBare c) := inferInstanceAs (Decidable (_ ∨ _))

variable {stack : List Frame} {c : Char} {r r' : Reader}

/-- Outside of strings, a quotation mark begins one. -/
theorem step_quote (hr : r.IsOutside) (h : step r '"' = some r') :
    ∃ isName, r'.mode = .string isName .plain := by
  obtain ⟨mode, stack⟩ := r
  cases mode with
  | string isName q => exact absurd rfl (hr isName q)
  | number n =>
      rw [step] at h
      have hn : n.step '"' = none := by cases n <;> rfl
      have hfollow : follow stack '"' = none := by rcases stack with _ | ⟨_ | _, _⟩ <;> rfl
      rw [hn, hfollow] at h
      simp at h
  | word w read =>
      rw [step, if_neg] at h
      · cases h
      · intro hw
        have hletters : '"' ∉ w.letters := by cases w <;> decide
        exact hletters (List.mem_of_getElem? hw)
  | after => rcases stack with _ | ⟨_ | _, _⟩ <;> cases h
  | value => cases h; exact ⟨_, rfl⟩
  | element => cases h; exact ⟨_, rfl⟩
  | member => cases h; exact ⟨_, rfl⟩
  | name => cases h; exact ⟨_, rfl⟩
  | colon => cases h

theorem isBare_of_isBlank (h : isBlank c = true) : IsBare c := by
  unfold isBlank at h
  simp only [Bool.or_eq_true, beq_iff_eq] at h
  rcases h with ((rfl | rfl) | rfl) | rfl <;> exact .inr (by decide)

theorem isBare_of_numeral {n n' : Numeral} (h : n.step c = some n') : IsBare c := by
  by_contra hbare
  rw [IsBare, not_or] at hbare
  have hne {d : Char} (hd : d ∈ BARE) : c ≠ d := fun heq ↦ hbare.2 (heq ▸ hd)
  have hzero : c ≠ '0' := fun heq ↦ hbare.1 (heq ▸ rfl)
  cases n <;> simp [Numeral.step, hbare.1, hzero, hne (d := '.') (by decide),
    hne (d := 'e') (by decide), hne (d := 'E') (by decide), hne (d := '+') (by decide),
    hne (d := '-') (by decide)] at h

/-- What a character behind a value can be. -/
theorem follow_eq_some (h : follow stack c = some r) :
    (isBlank c = true ∨ c = ',' ∨ c = '\x7d' ∨ c = ']') ∧ r.mode ∈ [.after, .name, .value] := by
  unfold follow at h
  by_cases hblank : isBlank c = true
  · rw [if_pos hblank, Option.some.injEq] at h
    exact ⟨.inl hblank, h ▸ List.mem_cons_self⟩
  · rw [if_neg hblank] at h
    rcases stack with _ | ⟨_ | _, outer⟩
    · cases h
    · dsimp only at h
      split_ifs at h with h₁ h₂ <;> cases h
      · exact ⟨.inr (.inl h₁), by simp⟩
      · exact ⟨.inr (.inr (.inl h₂)), by simp⟩
    · dsimp only at h
      split_ifs at h with h₁ h₂ <;> cases h
      · exact ⟨.inr (.inl h₁), by simp⟩
      · exact ⟨.inr (.inr (.inr h₂)), by simp⟩

/-- What the first character of a value can be, if the value is not a string. -/
theorem begin_eq_some (h : begin stack c = some r) (hquote : c ≠ '"') :
    r.IsOutside ∧ IsBare c := by
  unfold begin at h
  rw [if_neg hquote] at h
  split_ifs at h with h₁ h₂ h₃ h₄ h₅ h₆
  on_goal 7 =>
    obtain ⟨n, hn, rfl⟩ := Option.map_eq_some_iff.mp h
    exact ⟨nofun, isBare_of_numeral hn⟩
  all_goals
    subst c
    cases h
    exact ⟨nofun, .inr (by decide)⟩

theorem isOutside_of_follow (h : follow stack c = some r) : r.IsOutside ∧ IsBare c := by
  obtain ⟨hc, hr⟩ := follow_eq_some h
  refine ⟨fun isName q hmode ↦ ?_, ?_⟩
  · rw [hmode] at hr
    simp at hr
  · rcases hc with hblank | rfl | rfl | rfl
    · exact isBare_of_isBlank hblank
    · exact .inr (by decide)
    · exact .inr (by decide)
    · exact .inr (by decide)

/-- What a character does outside of strings, if it is not a quotation mark. -/
inductive Move : Reader → Char → Reader → Prop where
  | blank {r : Reader} {c : Char} (h : isBlank c = true) : Move r c r
  | follow {r r' : Reader} {c : Char} (h : follow r.stack c = some r') : Move r c r'
  | begin {r r' : Reader} {c : Char} (hmode : r.mode = .value ∨ r.mode = .element)
      (h : begin r.stack c = some r') : Move r c r'
  | colon {stack : List Frame} : Move ⟨.colon, stack⟩ ':' ⟨.value, stack⟩
  | number {n n' : Numeral} {stack : List Frame} {c : Char} (h : n.step c = some n') :
      Move ⟨.number n, stack⟩ c ⟨.number n', stack⟩
  | word {w : Word} {read : ℕ} {m : Mode} {stack : List Frame} {c : Char} (hc : c ∈ w.letters)
      (hm : m = .after ∨ m = .word w (read + 1)) : Move ⟨.word w read, stack⟩ c ⟨m, stack⟩

theorem move_of_step (hr : r.IsOutside) (h : step r c = some r') (hquote : c ≠ '"') :
    Move r c r' := by
  obtain ⟨mode, stack⟩ := r
  have hblank (hb : isBlank c = true) (h : some (⟨mode, stack⟩ : Reader) = some r') :
      Move ⟨mode, stack⟩ c r' := Option.some.inj h ▸ .blank hb
  cases mode with
  | value =>
      rw [step] at h
      split_ifs at h with hb
      · exact hblank hb h
      · exact .begin (.inl rfl) h
  | element =>
      rw [step] at h
      split_ifs at h with hb
      · exact hblank hb h
      · exact .follow h
      · exact .begin (.inr rfl) h
  | member =>
      rw [step, if_neg hquote] at h
      split_ifs at h with hb
      · exact hblank hb h
      · exact .follow h
  | name =>
      rw [step, if_neg hquote] at h
      split_ifs at h with hb
      exact hblank hb h
  | colon =>
      rw [step] at h
      split_ifs at h with hb hc
      · exact hblank hb h
      · cases h
        subst hc
        exact .colon
  | after => exact .follow h
  | string isName q => exact absurd rfl (hr isName q)
  | number n =>
      rw [step] at h
      cases hn : n.step c with
      | some n' =>
          rw [hn] at h
          cases h
          exact .number hn
      | none =>
          rw [hn] at h
          dsimp only at h
          split_ifs at h
          exact .follow h
  | word w read =>
      rw [step] at h
      by_cases hc : w.letters[read]? = some c
      · rw [if_pos hc, Option.some.injEq] at h
        subst h
        exact .word (List.mem_of_getElem? hc) (by split_ifs <;> simp)
      · rw [if_neg hc] at h
        cases h

/-- Outside of strings, only a quotation mark begins one. -/
theorem isOutside_of_step (hr : r.IsOutside) (h : step r c = some r') (hquote : c ≠ '"') :
    r'.IsOutside ∧ IsBare c := by
  cases move_of_step hr h hquote with
  | blank hb => exact ⟨hr, isBare_of_isBlank hb⟩
  | follow hf => exact isOutside_of_follow hf
  | begin _ hb => exact begin_eq_some hb hquote
  | colon => exact ⟨nofun, .inr (by decide)⟩
  | number hn => exact ⟨nofun, isBare_of_numeral hn⟩
  | @word w _ _ _ _ hc hm =>
      refine ⟨by rcases hm with rfl | rfl <;> nofun, .inr ?_⟩
      have hall : w.letters.all (· ∈ BARE) = true := by cases w <;> decide
      exact of_decide_eq_true (List.all_eq_true.mp hall c hc)

/-- A value with a character that stands in strings only is not read outside of them. -/
theorem run_eq_none {v : List Char} (hquote : '"' ∉ v) (hc : c ∈ v) (hbare : ¬ IsBare c)
    (hr : r.IsOutside) : step.run r v = none := by
  induction v generalizing r with
  | nil => exact absurd hc List.not_mem_nil
  | cons d v ih =>
      rw [List.mem_cons, not_or] at hquote
      rw [Machine.run_cons]
      cases hd : step r d with
      | none => rfl
      | some r' =>
          obtain ⟨hr', hdbare⟩ := isOutside_of_step hr hd (Ne.symm hquote.1)
          rcases List.mem_cons.mp hc with rfl | hc
          · exact absurd hdbare hbare
          · exact ih hquote.2 hc hr'

/-! ### Hyphens -/

/-- A hyphen or a hexadecimal digit. -/
def IsGroup (c : Char) : Prop := c = '-' ∨ c.isHexDigit = true

theorem IsGroup.ne {d : Char} (h : IsGroup c) (hd : d.isHexDigit = false) (hdash : d ≠ '-') :
    c ≠ d := by
  rintro rfl
  rcases h with rfl | h
  · exact hdash rfl
  · rw [hd] at h
    cases h

theorem IsGroup.isBlank (h : IsGroup c) : isBlank c = false := by
  unfold JsonText.isBlank
  simp only [Bool.or_eq_false_iff, beq_eq_false_iff_ne]
  exact ⟨⟨⟨h.ne rfl (by decide), h.ne rfl (by decide)⟩, h.ne rfl (by decide)⟩,
    h.ne rfl (by decide)⟩

theorem IsGroup.follow (h : IsGroup c) (stack : List Frame) : follow stack c = none := by
  rw [Option.eq_none_iff_forall_ne_some]
  intro r hr
  rcases (follow_eq_some hr).1 with hblank | heq | heq | heq
  · rw [h.isBlank] at hblank
    cases hblank
  · exact h.ne rfl (by decide) heq
  · exact h.ne rfl (by decide) heq
  · exact h.ne rfl (by decide) heq

/-- How many hyphens can be read until the next character of another kind. -/
def hyphens : Mode → ℕ
  | .value | .element => 2
  | .number .minus | .number .zero | .number .whole | .number .point | .number .fraction
  | .number .exp => 1
  | _ => 0

theorem hyphens_of_numeral {n n' : Numeral} (h : n.step c = some n') :
    [c].count '-' + hyphens (.number n') ≤ hyphens (.number n) := by
  by_cases hdash : c = '-'
  · subst hdash
    cases n <;> cases h
    decide
  · rw [List.count_singleton, if_neg (by simpa using hdash), Nat.zero_add]
    cases n <;> rw [Numeral.step] at h <;> split_ifs at h <;> cases h <;> decide

theorem hyphens_of_begin (hc : IsGroup c) (h : begin stack c = some r) :
    [c].count '-' + hyphens r.mode ≤ 2 := by
  unfold begin at h
  rw [if_neg (hc.ne rfl (by decide)), if_neg (hc.ne rfl (by decide)),
    if_neg (hc.ne rfl (by decide))] at h
  by_cases hdash : c = '-'
  · subst hdash
    cases h
    exact (by decide : ['-'].count '-' + hyphens (.number .minus) ≤ 2)
  · rw [if_neg hdash, if_neg (hc.ne rfl (by decide))] at h
    split_ifs at h with h₁ h₂
    · subst h₁
      cases h
      exact (by decide : ['f'].count '-' + hyphens (.word .false 1) ≤ 2)
    · subst h₂
      cases h
      exact (by decide : ['n'].count '-' + hyphens (.word .null 1) ≤ 2)
    · obtain ⟨n, hn, rfl⟩ := Option.map_eq_some_iff.mp h
      exact (hyphens_of_numeral hn).trans (by decide)

theorem hyphens_of_step (hr : r.IsOutside) (hc : IsGroup c) (h : step r c = some r') :
    [c].count '-' + hyphens r'.mode ≤ hyphens r.mode := by
  cases move_of_step hr h (hc.ne rfl (by decide)) with
  | blank hb =>
      rw [hc.isBlank] at hb
      cases hb
  | follow hf =>
      rw [hc.follow] at hf
      cases hf
  | begin hmode hb =>
      refine (hyphens_of_begin hc hb).trans_eq ?_
      rcases hmode with hmode | hmode <;> rw [hmode] <;> rfl
  | colon => exact absurd rfl (hc.ne (d := ':') rfl (by decide))
  | number hn => exact hyphens_of_numeral hn
  | @word w read _ _ _ hmem hm =>
      have hdash : '-' ∉ w.letters := by cases w <;> decide
      have hcount : [c].count '-' = 0 :=
        List.count_eq_zero.mpr fun h ↦ hdash (List.mem_singleton.mp h ▸ hmem)
      rw [hcount]
      rcases hm with rfl | rfl <;> exact le_rfl

/-- Outside of strings, a value of hyphens and hexadecimal digits has two hyphens at most. -/
theorem count_le_two {v : List Char} (hv : ∀ c ∈ v, IsGroup c) (hr : r.IsOutside)
    (h : step.run r v = some r') : v.count '-' ≤ 2 := by
  have hrun : v.count '-' + hyphens r'.mode ≤ hyphens r.mode := by
    induction v generalizing r with
    | nil =>
        cases h
        exact (Nat.zero_add _).le
    | cons c v ih =>
        obtain ⟨t, ht, hrest⟩ := Machine.run_cons_eq_some.mp h
        obtain ⟨hc, hv⟩ := List.forall_mem_cons.mp hv
        have hstep := hyphens_of_step hr hc ht
        have hrest := ih hv (isOutside_of_step hr ht (hc.ne rfl (by decide))).1 hrest
        rw [← List.singleton_append, List.count_append]
        omega
  have hle : hyphens r.mode ≤ 2 := by
    unfold hyphens
    split <;> decide
  omega

end Reader

/-! ### Decimals -/

/-- The digits before and behind the point of a number. -/
structure IsDecimal (whole fraction : List Char) : Prop where
  ne_nil : whole ≠ []
  isDigit : ∀ c ∈ whole, c.isDigit = true
  zero : whole.head? = some '0' → whole = ['0']
  fraction_ne_nil : fraction ≠ []
  fraction_isDigit : ∀ c ∈ fraction, c.isDigit = true

theorem isHexDigit_of_isDigit {c : Char} (h : c.isDigit = true) : c.isHexDigit = true := by
  rw [Char.isHexDigit, h]
  rfl

theorem ne_of_isDigit {c d : Char} (h : c.isDigit = true) (hd : d.isDigit = false) : c ≠ d := by
  rintro rfl
  rw [hd] at h
  cases h

namespace Numeral

variable {n : Numeral} {whole fraction : List Char}

theorem run_digits {ds : List Char} (hn : ∀ c : Char, c.isDigit = true → n.step c = some n)
    (hds : ∀ c ∈ ds, c.isDigit = true) : step.run n ds = some n := by
  induction ds with
  | nil => rfl
  | cons c ds ih =>
      obtain ⟨hc, hds⟩ := List.forall_mem_cons.mp hds
      rw [Machine.run_cons, hn c hc, Option.bind_some, ih hds]

theorem run_whole {ds : List Char} (hds : ∀ c ∈ ds, c.isDigit = true) :
    step.run .whole ds = some .whole :=
  run_digits (fun _ hc ↦ if_pos hc) hds

theorem run_point (h : IsDecimal whole fraction) : step.run .point fraction = some .fraction := by
  obtain ⟨c, ds, rfl⟩ := List.exists_cons_of_ne_nil h.fraction_ne_nil
  obtain ⟨hc, hds⟩ := List.forall_mem_cons.mp h.fraction_isDigit
  rw [Machine.run_cons, step, if_pos hc, Option.bind_some]
  exact run_digits (fun _ hd ↦ if_pos hd) hds

/-- Once a point or an exponent is read, there is no other point. -/
theorem run_late (h : IsDecimal whole fraction)
    (hn : n ∈ [.point, .fraction, .exp, .sign, .exponent]) :
    step.run n (whole ++ '.' :: fraction) = none := by
  obtain ⟨c, ds, rfl⟩ := List.exists_cons_of_ne_nil h.ne_nil
  obtain ⟨hc, hds⟩ := List.forall_mem_cons.mp h.isDigit
  have hfraction : step.run .fraction (ds ++ '.' :: fraction) = none := by
    rw [Machine.run_append, run_digits (n := .fraction) (fun _ hd ↦ if_pos hd) hds]
    rfl
  have hexponent : step.run .exponent (ds ++ '.' :: fraction) = none := by
    rw [Machine.run_append, run_digits (n := .exponent) (fun _ hd ↦ if_pos hd) hds]
    rfl
  have hsign : ¬ (c = '+' ∨ c = '-') :=
    not_or.mpr ⟨ne_of_isDigit hc rfl, ne_of_isDigit hc rfl⟩
  rw [List.cons_append, Machine.run_cons]
  cases n with
  | point => rwa [step, if_pos hc]
  | fraction => rwa [step, if_pos hc]
  | exp => rwa [step, if_neg hsign, if_pos hc]
  | sign => rwa [step, if_pos hc]
  | exponent => rwa [step, if_pos hc]
  | _ => exact absurd hn (by decide)

/-- A decimal can be read behind a minus sign and behind other digits. -/
theorem run_decimal (h : IsDecimal whole fraction) (n : Numeral) :
    step.run n (whole ++ '.' :: fraction) =
      if n = .minus ∨ n = .whole then some .fraction else none := by
  obtain ⟨c, ds, rfl⟩ := List.exists_cons_of_ne_nil h.ne_nil
  obtain ⟨hc, hds⟩ := List.forall_mem_cons.mp h.isDigit
  have htail : step.run .whole (ds ++ '.' :: fraction) = some .fraction := by
    rw [Machine.run_append, run_whole hds]
    exact run_point h
  cases n with
  | minus =>
      by_cases hzero : c = '0'
      · obtain rfl : ds = [] := by
          have hone := h.zero (congrArg some hzero)
          rw [List.cons.injEq] at hone
          exact hone.2
        subst hzero
        exact run_point h
      · rw [List.cons_append, Machine.run_cons, step, if_neg hzero, if_pos hc]
        exact htail
  | zero =>
      have hexp : ¬ (c = 'e' ∨ c = 'E') := not_or.mpr ⟨ne_of_isDigit hc rfl, ne_of_isDigit hc rfl⟩
      rw [List.cons_append, Machine.run_cons, step, if_neg (ne_of_isDigit hc rfl), if_neg hexp]
      rfl
  | whole =>
      rw [List.cons_append, Machine.run_cons, step, if_pos hc]
      exact htail
  | _ => exact run_late h (by decide)

end Numeral

namespace Reader

variable {stack : List Frame} {c : Char} {r : Reader} {whole fraction : List Char}

/-- What a decimal does to the reader. -/
def passDecimal : Reader → Option Reader
  | ⟨.value, stack⟩ | ⟨.element, stack⟩ | ⟨.number .minus, stack⟩ | ⟨.number .whole, stack⟩ =>
      some ⟨.number .fraction, stack⟩
  | _ => none

theorem follow_of_digit (hc : c.isDigit = true ∨ c = '.' ∨ c = '-') (stack : List Frame) :
    follow stack c = none := by
  rcases hc with hc | rfl | rfl
  · exact IsGroup.follow (.inr (isHexDigit_of_isDigit hc)) stack
  · rw [Option.eq_none_iff_forall_ne_some]
    intro r hr
    have hno := (follow_eq_some hr).1
    exact absurd hno (by decide)
  · exact IsGroup.follow (.inl rfl) stack

/-- A number goes on as long as the text has only digits, points and minus signs. -/
theorem run_number {v : List Char} (hv : ∀ c ∈ v, c.isDigit = true ∨ c = '.' ∨ c = '-')
    (n : Numeral) (stack : List Frame) :
    step.run ⟨.number n, stack⟩ v = (Numeral.step.run n v).map fun n' ↦ ⟨.number n', stack⟩ := by
  induction v generalizing n with
  | nil => rfl
  | cons c v ih =>
      obtain ⟨hc, hv⟩ := List.forall_mem_cons.mp hv
      rw [Machine.run_cons, Machine.run_cons, step, follow_of_digit hc]
      cases hn : n.step c with
      | some n' => exact ih hv n'
      | none =>
          dsimp only
          rw [ite_self]
          rfl

/-- The first character of a number. -/
theorem begin_of_digit (hc : c.isDigit = true) (stack : List Frame) :
    begin stack c = (Numeral.step .minus c).map fun n ↦ ⟨.number n, stack⟩ := by
  have hne {d : Char} (hd : d.isDigit = false) : c ≠ d := ne_of_isDigit hc hd
  rw [begin, if_neg (hne rfl), if_neg (hne rfl), if_neg (hne rfl), if_neg (hne rfl),
    if_neg (hne rfl), if_neg (hne rfl), if_neg (hne rfl)]

/-- Nothing but a value begins with a digit or a minus sign. -/
theorem step_of_digit (hc : c.isDigit = true ∨ c = '-') (hr : r.IsOutside)
    (hmode : r.mode ≠ .value ∧ r.mode ≠ .element ∧ ∀ n, r.mode ≠ .number n) :
    step r c = none := by
  have hgroup : IsGroup c := hc.elim (fun hc ↦ .inr (isHexDigit_of_isDigit hc)) .inl
  rw [Option.eq_none_iff_forall_ne_some]
  intro r' h
  cases move_of_step hr h (hgroup.ne rfl (by decide)) with
  | blank hb =>
      rw [hgroup.isBlank] at hb
      cases hb
  | follow hf =>
      rw [hgroup.follow] at hf
      cases hf
  | begin hbegin _ => exact hbegin.elim hmode.1 hmode.2.1
  | colon => exact absurd rfl (hgroup.ne (d := ':') rfl (by decide))
  | number _ => exact hmode.2.2 _ rfl
  | @word w _ _ _ _ hmem _ =>
      have hletters : w.letters.all (fun d ↦ !d.isDigit && d != '-') = true := by
        cases w <;> decide
      have hno := List.all_eq_true.mp hletters c hmem
      rcases hc with hc | rfl
      · rw [hc] at hno
        cases hno
      · cases hno

theorem run_decimal (h : IsDecimal whole fraction) (hr : r.IsOutside) :
    step.run r (whole ++ '.' :: fraction) = passDecimal r := by
  have hv : ∀ c ∈ whole ++ '.' :: fraction, c.isDigit = true ∨ c = '.' ∨ c = '-' := by
    intro c hc
    rcases List.mem_append.mp hc with hc | hc
    · exact .inl (h.isDigit c hc)
    · exact (List.mem_cons.mp hc).elim (fun hc ↦ .inr (.inl hc))
        fun hc ↦ .inl (h.fraction_isDigit c hc)
  obtain ⟨mode, stack⟩ := r
  have hnumber (n : Numeral) : step.run ⟨.number n, stack⟩ (whole ++ '.' :: fraction) =
      passDecimal ⟨.number n, stack⟩ := by
    rw [run_number hv, Numeral.run_decimal h]
    cases n <;> rfl
  obtain ⟨c, ds, hwhole⟩ := List.exists_cons_of_ne_nil h.ne_nil
  have hc : c.isDigit = true := h.isDigit c (hwhole ▸ List.mem_cons_self)
  have hbegin : (begin stack c).bind (fun r ↦ step.run r (ds ++ '.' :: fraction)) =
      some ⟨.number .fraction, stack⟩ := by
    have hminus := hnumber .minus
    rw [hwhole, List.cons_append, Machine.run_cons, step] at hminus
    rw [begin_of_digit hc]
    cases hn : Numeral.step .minus c with
    | some n =>
        rw [hn] at hminus
        exact hminus
    | none =>
        rw [hn] at hminus
        cases hminus
  have hblank : ¬ isBlank c = true := by
    rw [IsGroup.isBlank (.inr (isHexDigit_of_isDigit hc))]
    exact Bool.false_ne_true
  have hstuck (hmode : mode ≠ .value ∧ mode ≠ .element ∧ ∀ n, mode ≠ .number n) :
      step.run ⟨mode, stack⟩ (whole ++ '.' :: fraction) = none := by
    rw [hwhole, List.cons_append, Machine.run_cons, step_of_digit (.inl hc) hr hmode]
    rfl
  cases mode with
  | number n => exact hnumber n
  | value =>
      rw [hwhole, List.cons_append, Machine.run_cons, step, if_neg hblank]
      exact hbegin
  | element =>
      rw [hwhole, List.cons_append, Machine.run_cons, step, if_neg hblank,
        if_neg (ne_of_isDigit hc rfl)]
      exact hbegin
  | string isName q => exact absurd rfl (hr isName q)
  | _ => exact hstuck ⟨nofun, nofun, nofun⟩

/-- Some part of a number is read. -/
def inNumber : Reader → Bool
  | ⟨.number _, _⟩ => true
  | _ => false

/-- A minus sign has to be the first character of the number. -/
theorem run_neg_decimal (h : IsDecimal whole fraction) (hr : r.IsOutside) :
    step.run r ('-' :: (whole ++ '.' :: fraction)) =
      if r.inNumber then none else passDecimal r := by
  obtain ⟨mode, stack⟩ := r
  have hminus : step.run ⟨.number .minus, stack⟩ (whole ++ '.' :: fraction) =
      some ⟨.number .fraction, stack⟩ := run_decimal h nofun
  cases mode with
  | number n =>
      rw [inNumber, if_pos rfl, Machine.run_cons, step, follow_of_digit (.inr (.inr rfl))]
      cases hn : n.step '-' with
      | none =>
          dsimp only
          rw [ite_self]
          rfl
      | some n' =>
          obtain rfl : n' = .sign := by cases n <;> cases hn; rfl
          exact run_decimal h nofun
  | value => exact hminus
  | element => exact hminus
  | string isName q => exact absurd rfl (hr isName q)
  | _ =>
      rw [Machine.run_cons, step_of_digit (.inr rfl) hr ⟨nofun, nofun, nofun⟩]
      rfl

end Reader

end SensorFusion.JsonText
